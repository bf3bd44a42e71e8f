import Mathlib.Data.List.Nodup
import WordExport.Markdown.Decode

set_option autoImplicit false

namespace WordExport.Markdown

open Json (Value pointsOf textOf?)

theorem textOf?_pointsOf (s : String) : textOf? (pointsOf s) = some s := by
  have valid : (pointsOf s).all fun n => decide n.isValidChar := by
    refine List.all_eq_true.mpr fun n mem => ?_
    obtain ⟨c, _, rfl⟩ := List.mem_map.mp mem
    exact decide_eq_true c.valid
  have chars : (pointsOf s).map Char.ofNat = s.toList := by
    rw [pointsOf, List.map_map]
    exact List.map_id'' (fun c => Char.ofNat_toNat c) s.toList
  rw [textOf?, if_pos valid, chars, String.ofList_toList]

theorem pointsOf_injective : Function.Injective pointsOf := by
  intro first second same
  have texts := congrArg textOf? same
  rw [textOf?_pointsOf, textOf?_pointsOf] at texts
  exact Option.some.inj texts

def Entry.of (value : Value) : Entry :=
  ⟨value, nodes? value⟩

theorem itemEntries_eq (items : List Value) : itemEntries items = items.map Entry.of := by
  induction items with
  | nil => rfl
  | cons item items ih => rw [itemEntries, ih]; rfl

def entriesOf (members : List (List Nat × Value)) : List (List Nat × Entry) :=
  members.map fun member => (member.1, Entry.of member.2)

theorem memberEntries_eq (members : List (List Nat × Value)) :
    memberEntries members = entriesOf members := by
  induction members with
  | nil => rfl
  | cons member members ih => rw [memberEntries, ih]; rfl

/-- The node of a value, its kind being read as given. -/
def Node.read? (kindOf? : Value → Option String) : Value → Option Node
  | .object members => Node.ofMembers? kindOf? (entriesOf members)
  | .array items => Node.ofItems? kindOf? (items.map Entry.of)
  | _ => none

theorem Node.ofValue?_eq : Node.ofValue? = Node.read? kind? := by
  funext value
  cases value
  case object members => rw [Node.ofValue?, Node.read?, memberEntries_eq]
  case array items => rw [Node.ofValue?, Node.read?, itemEntries_eq]
  all_goals rfl

theorem Tree.child?_eq : Tree.child? = Node.read? string? := by
  funext value
  cases value
  case object members => rw [Tree.child?, Node.read?, memberEntries_eq]
  case array items => rw [Tree.child?, Node.read?, itemEntries_eq]
  all_goals rfl

theorem nodeList?_eq (items : List Value) : nodeList? items = items.mapM Node.ofValue? := by
  induction items with
  | nil => rfl
  | cons item items ih => rw [nodeList?, List.mapM_cons, ih]

/-- The members of a name. -/
def named {α : Type} (name : String) (members : List (List Nat × α)) : List (List Nat × α) :=
  members.filter (·.1 == pointsOf name)

/-- Fields that are each given once make up their record. -/
theorem recordOfMembers?_eq {members : List (List Nat × Entry)} {record : Record}
    (given : ∀ field ∈ record, named field.1 members = [(pointsOf field.1, field.2)]) :
    recordOfMembers? members (record.map Prod.fst) = some record := by
  induction record with
  | nil => rfl
  | cons field record ih =>
    obtain ⟨first, others⟩ := List.forall_mem_cons.mp given
    have found : members.filter (·.1 == pointsOf field.1) = [(pointsOf field.1, field.2)] := first
    rw [List.map_cons, recordOfMembers?, ih others]
    simp only [bind, Option.bind_some, found]

section

variable {α : Type} {fields : List (String × α)}

/-- Fields as members of an object. -/
def asMembers (fields : List (String × α)) : List (List Nat × α) :=
  fields.map fun field => (pointsOf field.1, field.2)

theorem named_cons (name : String) (field : String × α) (fields : List (String × α)) :
    named name (asMembers (field :: fields))
      = if field.1 = name then (pointsOf field.1, field.2) :: named name (asMembers fields)
        else named name (asMembers fields) := by
  rw [named, asMembers, List.map_cons, List.filter_cons]
  simp only [beq_iff_eq, pointsOf_injective.eq_iff]
  rfl

theorem named_eq_nil {name : String} (absent : name ∉ fields.map Prod.fst) :
    named name (asMembers fields) = [] := by
  induction fields with
  | nil => rfl
  | cons field fields ih =>
    rw [List.map_cons, List.mem_cons, not_or] at absent
    rw [named_cons, if_neg (Ne.symm absent.1), ih absent.2]

/-- Where names are distinct, each names its own field. -/
theorem named_eq_singleton (distinct : (fields.map Prod.fst).Nodup) {field : String × α}
    (mem : field ∈ fields) :
    named field.1 (asMembers fields) = [(pointsOf field.1, field.2)] := by
  induction fields with
  | nil => contradiction
  | cons first fields ih =>
    obtain ⟨absent, distinct⟩ := List.nodup_cons.mp distinct
    rcases List.mem_cons.mp mem with rfl | later
    · rw [named_cons, if_pos rfl, named_eq_nil absent]
    · have unlike : first.1 ≠ field.1 := fun same => absent (same ▸ List.mem_map_of_mem later)
      rw [named_cons, if_neg unlike, ih distinct later]

end

/-- The node of an object is that of its fields, where these are those of its kind. -/
theorem ofMembers?_asMembers {kindOf? : Value → Option String} {kind : String} {tag : Entry}
    (tagged : kindOf? tag.value = some kind) {record : Record}
    (distinct : ((("type", tag) :: record).map Prod.fst).Nodup)
    (declared : fieldNames? kind = some (record.map Prod.fst)) :
    Node.ofMembers? kindOf? (asMembers (("type", tag) :: record)) = Node.ofRecord? kind record := by
  have own := named_eq_singleton distinct List.mem_cons_self
  rw [named] at own
  have given : ∀ field ∈ record,
      named field.1 (asMembers (("type", tag) :: record)) = [(pointsOf field.1, field.2)] :=
    fun field mem => named_eq_singleton distinct (List.mem_cons_of_mem _ mem)
  rw [Node.ofMembers?, own]
  simp only [bind, tagged, Option.bind_some, declared, recordOfMembers?_eq given]

/-- An object of a kind without fields needs nothing but its tag. -/
theorem ofMembers?_fieldless {kindOf? : Value → Option String} {kind : String} {tag : Entry}
    (tagged : kindOf? tag.value = some kind) (unlisted : fieldNames? kind = none) :
    Node.ofMembers? kindOf? (asMembers [("type", tag)]) = some (Node.fieldless kind) := by
  have distinct : ([("type", tag)].map Prod.fst).Nodup := List.nodup_singleton "type"
  have own := named_eq_singleton distinct List.mem_cons_self
  rw [named] at own
  rw [Node.ofMembers?, own]
  simp only [bind, tagged, Option.bind_some, unlisted]

def Entry.seen (name : String) (entry : Entry) : Entry :=
  if name = "children" then { entry with value := .null } else entry

namespace Record

def seen (record : Record) : Record :=
  record.map fun field => (field.1, field.2.seen field.1)

theorem lookup_seen (record : Record) (name : String) :
    record.seen.lookup name = (record.lookup name).map (Entry.seen name) := by
  induction record with
  | nil => rfl
  | cons field record ih =>
    rw [seen, List.map_cons, List.lookup_cons, List.lookup_cons]
    split
    next same => rw [eq_of_beq same]; rfl
    next => exact ih

theorem lookup_seen_of_ne (record : Record) {name : String} (unlike : name ≠ "children") :
    record.seen.lookup name = record.lookup name := by
  rw [lookup_seen]
  cases record.lookup name with
  | none => rfl
  | some entry => rw [Option.map_some, Entry.seen, if_neg unlike]

theorem children?_seen (record : Record) : record.seen.children? = record.children? := by
  rw [children?, lookup_seen, children?]
  cases record.lookup "children" <;> rfl

end Record

theorem ofRecord?_seen (kind : String) (record : Record) :
    Node.ofRecord? kind record.seen = Node.ofRecord? kind record := by
  unfold Node.ofRecord?
  split
  all_goals
    simp [Record.required?, Record.text?, Record.optional?, Record.orElse?,
      Record.children?_seen, Record.lookup_seen_of_ne]

/-- Records of fields that are seen alike make the same node. -/
theorem ofRecord?_bind_congr {kind : String} {first second : Option Record}
    (alike : first.map Record.seen = second.map Record.seen) :
    first.bind (Node.ofRecord? kind) = second.bind (Node.ofRecord? kind) := by
  have through (record? : Option Record) :
      record?.bind (Node.ofRecord? kind)
        = (record?.map Record.seen).bind (Node.ofRecord? kind) := by
    cases record? with
    | none => rfl
    | some record => exact (ofRecord?_seen kind record).symm
  rw [through first, through second, alike]

/-- What is made of a list that should hold one item at most. -/
def ofFew {α β : Type} (absent : β) (one : α → β) (many : β) : List α → β
  | [] => absent
  | [x] => one x
  | _ => many

theorem ofFew_perm {α β : Type} {absent : β} {one : α → β} {many : β} {xs ys : List α}
    (perm : xs.Perm ys) : ofFew absent one many xs = ofFew absent one many ys := by
  match xs, ys with
  | [], _ => rw [perm.nil_eq]
  | [x], _ => rw [perm.singleton_eq]
  | _ :: _ :: _, [] | _ :: _ :: _, [_] => simpa using perm.length_eq
  | _ :: _ :: _, _ :: _ :: _ => rfl

section

variable {members members' : List (List Nat × Entry)}

/-- What is seen of the members of a name. -/
def seenOf (name : String) (members : List (List Nat × Entry)) : List Entry :=
  (named name members).map fun member => member.2.seen name

theorem recordOfMembers?_cons (name : String) (names : List String) :
    (recordOfMembers? members (name :: names)).map Record.seen
      = ((recordOfMembers? members names).map Record.seen).bind fun record =>
        ofFew (some record) (fun entry => some ((name, entry) :: record)) none
          (seenOf name members) := by
  rw [recordOfMembers?, seenOf, named]
  cases recordOfMembers? members names with
  | none => rfl
  | some record =>
    simp only [bind, Option.bind_some, Option.map_some]
    generalize members.filter (·.1 == pointsOf name) = found
    match found with
    | [] | [_] | _ :: _ :: _ => rfl

theorem recordOfMembers?_congr {names : List String}
    (alike : ∀ name ∈ names, (seenOf name members).Perm (seenOf name members')) :
    (recordOfMembers? members names).map Record.seen
      = (recordOfMembers? members' names).map Record.seen := by
  induction names with
  | nil => rfl
  | cons name names ih =>
    obtain ⟨first, others⟩ := List.forall_mem_cons.mp alike
    simp only [recordOfMembers?_cons, ih others, ofFew_perm first]

/-- The node of a kind that has its fields among the members. -/
def ofKind? (members : List (List Nat × Entry)) (kind : String) : Option Node :=
  match fieldNames? kind with
  | some names => (recordOfMembers? members names).bind (Node.ofRecord? kind)
  | none => some (Node.fieldless kind)

theorem ofMembers?_eq (kindOf? : Value → Option String) :
    Node.ofMembers? kindOf? members
      = ofFew none (fun tag => (kindOf? tag.value).bind (ofKind? members)) none
        (seenOf "type" members) := by
  rw [Node.ofMembers?, seenOf, named]
  generalize members.filter (·.1 == pointsOf "type") = found
  match found with
  | [] | [_] | _ :: _ :: _ => rfl

/-- The tag and the fields of its kind are all that is read of an object. -/
theorem ofMembers?_congr {kindOf? : Value → Option String}
    (tags : (seenOf "type" members).Perm (seenOf "type" members'))
    (fields : ∀ tag ∈ seenOf "type" members, ∀ kind ∈ kindOf? tag.value,
      ∀ names ∈ fieldNames? kind, ∀ name ∈ names,
        (seenOf name members).Perm (seenOf name members')) :
    Node.ofMembers? kindOf? members = Node.ofMembers? kindOf? members' := by
  have kinds : ∀ tag ∈ seenOf "type" members,
      (kindOf? tag.value).bind (ofKind? members) = (kindOf? tag.value).bind (ofKind? members') := by
    intro tag mem
    refine Option.bind_congr fun kind isKind => ?_
    unfold ofKind?
    split
    next names listed =>
      exact ofRecord?_bind_congr (recordOfMembers?_congr (fields tag mem kind isKind names listed))
    next => rfl
  rw [ofMembers?_eq, ofMembers?_eq, ← ofFew_perm tags]
  generalize seenOf "type" members = found at kinds
  match found with
  | [] | _ :: _ :: _ => rfl
  | [tag] => exact kinds tag List.mem_cons_self

theorem recordOfItems?_congr {names : List String} {before after : List Entry}
    {entry entry' : Entry} (listing : names[before.length]? = some "children")
    (alike : entry.nodes = entry'.nodes) :
    (recordOfItems? names (before ++ entry :: after)).map Record.seen
      = (recordOfItems? names (before ++ entry' :: after)).map Record.seen := by
  have seen : entry.seen "children" = entry'.seen "children" := by
    simp only [Entry.seen, if_true, alike]
  induction before generalizing names with
  | nil =>
    match names with
    | name :: names =>
      obtain rfl : name = "children" := Option.some.inj listing
      simp only [List.nil_append, recordOfItems?]
      cases recordOfItems? names after with
      | none => rfl
      | some record => simp [Record.seen, seen]
  | cons first before ih =>
    match names with
    | name :: names =>
      have rest := ih listing
      have grown (record? : Option Record) :
          (record?.bind fun record => some ((name, first) :: record)).map Record.seen
            = (record?.map Record.seen).map ((name, first.seen name) :: ·) := by
        cases record? <;> rfl
      simp only [List.cons_append, recordOfItems?]
      exact (grown _).trans ((congrArg _ rest).trans (grown _).symm)

/-- Lists of fields make the same node where their records are seen alike. -/
theorem ofItems?_congr {kindOf? : Value → Option String} {tag : Entry}
    {entries entries' : List Entry}
    (alike : ∀ kind ∈ kindOf? tag.value, ∃ names, fieldNames? kind = some names ∧
      (recordOfItems? names entries).map Record.seen
        = (recordOfItems? names entries').map Record.seen) :
    Node.ofItems? kindOf? (tag :: entries) = Node.ofItems? kindOf? (tag :: entries') := by
  refine Option.bind_congr fun kind isKind => ?_
  obtain ⟨names, listed, same⟩ := alike kind isKind
  simp only [listed]
  exact ofRecord?_bind_congr same

end

end WordExport.Markdown
