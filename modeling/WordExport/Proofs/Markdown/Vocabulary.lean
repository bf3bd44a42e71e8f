import Mathlib.Logic.Relation
import WordExport.Markdown.Encode
import WordExport.Proofs.Json.ReadBack
import WordExport.Proofs.Markdown.Records

set_option autoImplicit false

namespace WordExport.Markdown

open Json (Value pointsOf textOf?)

/-- Members are put in another order, or one that is not read is put in or taken out. What is put
in has a text for its name and a value of texts and finite numbers. -/
inductive MembersEdit (Reads : String → Prop) :
    List (List Nat × Value) → List (List Nat × Value) → Prop where
  | reorder {members members' : List (List Nat × Value)} :
      members.Perm members' → MembersEdit Reads members members'
  | insert {before after : List (List Nat × Value)} {key : List Nat} {value : Value} :
      (∀ name, Reads name → key ≠ pointsOf name) → (textOf? key).isSome = true →
      value.isSound = true → MembersEdit Reads (before ++ after) (before ++ (key, value) :: after)
  | delete {before after : List (List Nat × Value)} {key : List Nat} {value : Value} :
      (∀ name, Reads name → key ≠ pointsOf name) →
      MembersEdit Reads (before ++ (key, value) :: after) (before ++ after)

/-- Of a node its type is read, and the fields of the kind that the type gives. -/
def Node.Reads (members : List (List Nat × Value)) (name : String) : Prop :=
  name = "type" ∨ ∃ tag, (pointsOf "type", tag) ∈ members ∧
    ∃ kind ∈ kind? tag, ∃ names ∈ fieldNames? kind, name ∈ names

/-- Members of an object, its children among them. -/
def listing (before : List (List Nat × Value)) (children : List Value)
    (after : List (List Nat × Value)) : List (List Nat × Value) :=
  before ++ (pointsOf "children", .array children) :: after

/-- One edit at an object that is a node or at one of the nodes below. A node that is a list of
its kind and fields has no names, so that only the nodes below it are open to edits. -/
inductive NodeEdit : Value → Value → Prop where
  | object {members members' : List (List Nat × Value)} :
      MembersEdit (Node.Reads members) members members' →
      NodeEdit (.object members) (.object members')
  | belowObject {before after : List (List Nat × Value)} {first last : List Value}
      {child child' : Value} : NodeEdit child child' →
      NodeEdit (.object (listing before (first ++ child :: last) after))
        (.object (listing before (first ++ child' :: last) after))
  | belowList {tag : Value} {kind : String} {names : List String} {before after : List Value}
      {first last : List Value} {child child' : Value} :
      kind? tag = some kind → fieldNames? kind = some names →
      names[before.length]? = some "children" → NodeEdit child child' →
      NodeEdit (.array (tag :: (before ++ .array (first ++ child :: last) :: after)))
        (.array (tag :: (before ++ .array (first ++ child' :: last) :: after)))

/-- One edit at the root, of which the children are read, or at a node. -/
inductive TreeEdit : Value → Value → Prop where
  | object {members members' : List (List Nat × Value)} :
      MembersEdit (· = "children") members members' →
      TreeEdit (.object members) (.object members')
  | belowObject {before after : List (List Nat × Value)} {first last : List Value}
      {child child' : Value} : NodeEdit child child' →
      TreeEdit (.object (listing before (first ++ child :: last) after))
        (.object (listing before (first ++ child' :: last) after))
  | belowList {first last : List Value} {child child' : Value} : NodeEdit child child' →
      TreeEdit (.array [.array (first ++ child :: last)])
        (.array [.array (first ++ child' :: last)])

section

variable {Reads : String → Prop} {members members' : List (List Nat × Value)}

theorem named_append_cons {α : Type} {name : String} {member : List Nat × α}
    (unread : member.1 ≠ pointsOf name) (before after : List (List Nat × α)) :
    named name (before ++ member :: after) = named name (before ++ after) := by
  have skipped : (member.1 == pointsOf name) = false := beq_eq_false_iff_ne.mpr unread
  simp only [named, List.filter_append, List.filter_cons, skipped, Bool.false_eq_true, if_false]

theorem MembersEdit.named_perm (edit : MembersEdit Reads members members') {name : String}
    (read : Reads name) : (named name members).Perm (named name members') := by
  cases edit with
  | reorder perm => exact perm.filter _
  | insert unread _ _ => rw [named_append_cons (unread name read)]
  | delete unread => rw [named_append_cons (unread name read)]

/-- What holds of all members, and of all that may be put in, holds after the edit. -/
theorem MembersEdit.forall_mem (edit : MembersEdit Reads members members')
    {property : List Nat × Value → Prop}
    (inserted : ∀ key value, (textOf? key).isSome = true → value.isSound = true →
      property (key, value))
    (fine : ∀ member ∈ members, property member) : ∀ member ∈ members', property member := by
  cases edit with
  | reorder perm => exact fun member mem => fine member (perm.mem_iff.mpr mem)
  | insert _ isText sound =>
    rw [List.forall_mem_append] at fine
    rw [List.forall_mem_append, List.forall_mem_cons]
    exact ⟨fine.1, inserted _ _ isText sound, fine.2⟩
  | delete _ =>
    rw [List.forall_mem_append, List.forall_mem_cons] at fine
    rw [List.forall_mem_append]
    exact ⟨fine.1, fine.2.2⟩

end

theorem isSound_children {first last : List Value} {child child' : Value}
    (kept : child.isSound = true → child'.isSound = true)
    (sound : (Value.array (first ++ child :: last)).isSound = true) :
    (Value.array (first ++ child' :: last)).isSound = true := by
  rw [Value.isSound, Value.passes, Value.allPass_iff, List.forall_mem_append,
    List.forall_mem_cons] at *
  exact ⟨sound.1, kept sound.2.1, sound.2.2⟩

theorem NodeEdit.isSound {value value' : Value} (edit : NodeEdit value value')
    (sound : value.isSound = true) : value'.isSound = true := by
  induction edit with
  | object edit =>
    rw [Value.isSound, Value.passes, Value.membersPass_iff] at *
    exact edit.forall_mem (fun _ _ isText sound => ⟨isText, sound⟩) sound
  | belowObject _ ih =>
    rw [Value.isSound, Value.passes, Value.membersPass_iff, listing, List.forall_mem_append,
      List.forall_mem_cons] at *
    exact ⟨sound.1, ⟨sound.2.1.1, isSound_children ih sound.2.1.2⟩, sound.2.2⟩
  | belowList _ _ _ _ ih =>
    rw [Value.isSound, Value.passes, Value.allPass_iff, List.forall_mem_cons,
      List.forall_mem_append, List.forall_mem_cons] at *
    exact ⟨sound.1, sound.2.1, isSound_children ih sound.2.2.1, sound.2.2.2⟩

theorem listOf?_children {α : Type} {read : Value → Option α} {first last : List Value}
    {child child' : Value} (same : read child = read child') :
    listOf? read (.array (first ++ child :: last))
      = listOf? read (.array (first ++ child' :: last)) := by
  simp only [listOf?, List.mapM_append, List.mapM_cons, same]

theorem nodes?_eq (value : Value) : nodes? value = listOf? Node.ofValue? value := by
  cases value
  case array items => exact nodeList?_eq items
  all_goals rfl

theorem Entry.nodes_of_children {child child' : Value}
    (same : Node.read? kind? child = Node.read? kind? child') (first last : List Value) :
    (Entry.of (.array (first ++ child :: last))).nodes
      = (Entry.of (.array (first ++ child' :: last))).nodes := by
  simp only [Entry.of, nodes?_eq, Node.ofValue?_eq]
  exact listOf?_children same

theorem seenOf_entriesOf (name : String) (members : List (List Nat × Value)) :
    seenOf name (entriesOf members)
      = (named name members).map fun member => (Entry.of member.2).seen name := by
  rw [seenOf, named, named, entriesOf, List.filter_map, List.map_map]
  rfl

theorem seenOf_children {first last : List Value} {child child' : Value}
    (same : Node.read? kind? child = Node.read? kind? child') (name : String)
    (before after : List (List Nat × Value)) :
    seenOf name (entriesOf (listing before (first ++ child :: last) after))
      = seenOf name (entriesOf (listing before (first ++ child' :: last) after)) := by
  simp only [seenOf_entriesOf, named, listing, List.filter_append, List.filter_cons,
    List.map_append]
  split
  next isName =>
    obtain rfl : "children" = name := pointsOf_injective (eq_of_beq isName)
    simp only [List.map_cons, Entry.seen, if_true, Entry.nodes_of_children same first last]
  next => rfl

theorem NodeEdit.read?_eq {value value' : Value} (edit : NodeEdit value value')
    {kindOf? : Value → Option String}
    (narrow : ∀ tag, ∀ kind ∈ kindOf? tag, kind? tag = some kind) :
    Node.read? kindOf? value = Node.read? kindOf? value' := by
  induction edit generalizing kindOf? with
  | @object members members' edit =>
    have seen {name : String} (read : Node.Reads members name) :
        (seenOf name (entriesOf members)).Perm (seenOf name (entriesOf members')) := by
      rw [seenOf_entriesOf, seenOf_entriesOf]
      exact (edit.named_perm read).map _
    refine ofMembers?_congr (seen (.inl rfl)) fun tag mem kind isKind names listed name isName => ?_
    rw [seenOf_entriesOf] at mem
    obtain ⟨member, isMember, rfl⟩ := List.mem_map.mp mem
    obtain ⟨isMember, isTag⟩ := List.mem_filter.mp isMember
    refine seen (.inr ⟨member.2, ?_, kind, narrow _ _ isKind, names, listed, isName⟩)
    rw [← eq_of_beq isTag]
    exact isMember
  | belowObject _ ih =>
    have same := ih fun _ _ isKind => isKind
    exact ofMembers?_congr (.of_eq (seenOf_children same "type" _ _)) fun _ _ _ _ _ _ name _ =>
      .of_eq (seenOf_children same name _ _)
  | @belowList tag kind names before after first last _ _ isKind listed place _ ih =>
    have alike := Entry.nodes_of_children (ih fun _ _ isKind => isKind) first last
    refine ofItems?_congr fun other isOther => ⟨names, ?_, ?_⟩
    · obtain rfl : kind = other := Option.some.inj (isKind.symm.trans (narrow tag other isOther))
      exact listed
    · rw [List.map_append, List.map_append]
      exact recordOfItems?_congr (by rwa [List.length_map]) alike

/-- Where kinds are given by name, they are those that may also be given by number. -/
theorem kind?_of_string? {tag : Value} {kind : String} (isKind : kind ∈ string? tag) :
    kind? tag = some kind := by
  cases tag
  case string points => exact isKind
  all_goals contradiction

/-- The value at which the children of a root are listed. -/
def Tree.listed? : Value → Option Value
  | .object members =>
    if members.all fun (key, _) => (textOf? key).isSome then
      ofFew (some (.array [])) some none ((named "children" members).map Prod.snd)
    else none
  | .array [] => some (.array [])
  | .array [children] => some children
  | _ => none

theorem Tree.ofValue?_eq (value : Value) :
    Tree.ofValue? value = (listed? value).bind ofChildren? := by
  match value with
  | .null | .bool _ | .number _ | .string _ => rfl
  | .array [] | .array [_] | .array (_ :: _ :: _) => rfl
  | .object members =>
    rw [ofValue?, listed?, named]
    split
    · generalize members.filter (·.1 == pointsOf "children") = found
      match found with
      | [] | [_] | _ :: _ :: _ => rfl
    · rfl

/-- An object lists children where all its names are texts and none or one of them is theirs. -/
theorem Tree.listed?_object {members : List (List Nat × Value)} {children : Value} :
    listed? (.object members) = some children
      ↔ (∀ member ∈ members, (textOf? member.1).isSome = true)
        ∧ ofFew (some (.array [])) some none ((named "children" members).map Prod.snd)
          = some children := by
  rw [listed?]
  split
  next texts => exact (and_iff_right (List.all_eq_true.mp texts)).symm
  next texts => exact iff_of_false nofun fun listed => texts (List.all_eq_true.mpr listed.1)

/-- A value that describes a tree as far as depth is left aside. -/
def Tree.Describes (value : Value) (tree : Tree) : Prop :=
  ∃ children, listed? value = some children ∧ children.isSound = true
    ∧ listOf? child? children = some tree.children

theorem Tree.describes_of_ofValue? {value : Value} {tree : Tree}
    (loaded : ofValue? value = some tree) : Describes value tree := by
  rw [ofValue?_eq] at loaded
  obtain ⟨children, listed, loaded⟩ := Option.bind_eq_some_iff.mp loaded
  unfold ofChildren? at loaded
  split at loaded
  next readable =>
    obtain ⟨nodes, found, rfl⟩ := Option.map_eq_some_iff.mp loaded
    exact ⟨children, listed, (Value.isReadable_iff.mp readable).1, found⟩
  next => contradiction

theorem Tree.depth_listed? {value children : Value} (listed : listed? value = some children) :
    children = .array [] ∨ children.depth < value.depth := by
  match value with
  | .array [] => exact .inl (Option.some.inj listed).symm
  | .array [only] =>
    obtain rfl : only = children := Option.some.inj listed
    exact .inr (by simp [Value.depth, Value.depthOfAll])
  | .object members =>
    obtain ⟨_, listed⟩ := listed?_object.mp listed
    match found : named "children" members with
    | [] =>
      rw [found] at listed
      exact .inl (Option.some.inj listed).symm
    | [member] =>
      rw [found] at listed
      obtain rfl : member.2 = children := Option.some.inj listed
      have mem : member ∈ members :=
        (List.mem_filter.mp (found ▸ List.mem_cons_self : member ∈ named "children" members)).1
      exact .inr (Nat.lt_succ_of_le (Value.depth_le_of_mem mem))
    | _ :: _ :: _ =>
      rw [found] at listed
      contradiction

theorem Tree.ofValue?_of_describes {value : Value} {tree : Tree} (described : Describes value tree)
    (shallow : value.depth ≤ maxDepth) : ofValue? value = some tree := by
  obtain ⟨children, listed, sound, nodes⟩ := described
  have shallower : children.depth ≤ maxDepth - 1 := by
    rcases depth_listed? listed with rfl | below
    · decide
    · omega
  have readable : children.isReadable (maxDepth - 1) = true :=
    Value.isReadable_iff.mpr ⟨sound, shallower⟩
  rw [ofValue?_eq, listed, Option.bind_some, ofChildren?, if_pos readable, nodes]
  rfl

theorem ofFew_append_cons {α : Type} {absent : Option α} {before after : List α} {x found : α}
    (only : ofFew absent some none (before ++ x :: after) = some found) :
    x = found ∧ ∀ y, ofFew absent some none (before ++ y :: after) = some y := by
  match before, after with
  | [], [] => exact ⟨Option.some.inj only, fun _ => rfl⟩
  | [], _ :: _ | [_], _ | _ :: _ :: _, _ => contradiction

theorem named_listing (before : List (List Nat × Value)) (children : List Value)
    (after : List (List Nat × Value)) :
    named "children" (listing before children after)
      = named "children" before
        ++ (pointsOf "children", .array children) :: named "children" after := by
  simp [named, listing]

/-- The children may be listed with another one in the place of one of them. -/
theorem Tree.describes_of_listed {value value' child child' : Value} {tree : Tree}
    (edit : NodeEdit child child') (described : Describes value tree) (first last : List Value)
    (listed : ∀ children, listed? value = some children →
      children = .array (first ++ child :: last)
        ∧ listed? value' = some (.array (first ++ child' :: last))) :
    Describes value' tree := by
  obtain ⟨children, found, sound, nodes⟩ := described
  obtain ⟨rfl, found'⟩ := listed children found
  have same : child? child = child? child' := by
    rw [child?_eq]
    exact edit.read?_eq fun _ _ isKind => kind?_of_string? isKind
  exact ⟨_, found', isSound_children edit.isSound sound, (listOf?_children same).symm.trans nodes⟩

theorem TreeEdit.describes {value value' : Value} (edit : TreeEdit value value') {tree : Tree}
    (described : Tree.Describes value tree) : Tree.Describes value' tree := by
  cases edit with
  | object edit =>
    obtain ⟨children, listed, sound, nodes⟩ := described
    refine ⟨children, Tree.listed?_object.mpr ?_, sound, nodes⟩
    obtain ⟨texts, listed⟩ := Tree.listed?_object.mp listed
    have perm := (edit.named_perm rfl).map Prod.snd
    exact ⟨edit.forall_mem (fun _ _ isText _ => isText) texts, (ofFew_perm perm).symm.trans listed⟩
  | @belowObject before after first last child child' edit =>
    refine Tree.describes_of_listed edit described first last fun children listed => ?_
    obtain ⟨texts, listed⟩ := Tree.listed?_object.mp listed
    rw [listing, List.forall_mem_append, List.forall_mem_cons] at texts
    rw [named_listing, List.map_append, List.map_cons] at listed
    obtain ⟨found, others⟩ := ofFew_append_cons listed
    refine ⟨found.symm, Tree.listed?_object.mpr ⟨?_, ?_⟩⟩
    · rw [listing, List.forall_mem_append, List.forall_mem_cons]
      exact texts
    · rw [named_listing, List.map_append, List.map_cons]
      exact others _
  | @belowList first last _ _ edit =>
    exact Tree.describes_of_listed edit described first last fun children listed =>
      ⟨(Option.some.inj listed).symm, rfl⟩

theorem Tree.describes_of_edits {value value' : Value}
    (edits : Relation.ReflTransGen TreeEdit value value') {tree : Tree}
    (described : Describes value tree) : Describes value' tree := by
  induction edits with
  | refl => exact described
  | tail _ edit ih => exact edit.describes ih

/-- Edits that leave the vocabulary alone keep the tree, whatever their number. -/
theorem Tree.ofJson_of_edits {text text' : String} {value value' : Value} {tree : Tree}
    (read : Json.read? text = some value) (loaded : Tree.ofJson text = .ok tree)
    (edits : Relation.ReflTransGen TreeEdit value value') (read' : Json.read? text' = some value')
    (shallow : value'.depth ≤ maxDepth) : Tree.ofJson text' = .ok tree := by
  have described : Describes value tree := by
    refine describes_of_ofValue? ?_
    simp only [ofJson, read] at loaded
    split at loaded
    next => contradiction
    next tree' found => rw [found, Except.ok.inj loaded]
  rw [ofJson, read']
  simp only [ofValue?_of_describes (describes_of_edits edits described) shallow]

/-- A text and an unknown node below a root. -/
def noteValue (root text note : List (String × Value)) : Value :=
  objectValue (root ++ [("children", .array [objectValue text, objectValue note])])

/-- The root is given a number for its type, the tag of the text comes last, and what is a field of
texts but not of notes is taken out of the note. -/
theorem noteValue_edits : Relation.ReflTransGen TreeEdit
    (noteValue [] [("type", textValue "text"), ("value", textValue "x")]
      [("type", textValue "note"), ("value", natValue 7)])
    (noteValue [("type", natValue 1)] [("value", textValue "x"), ("type", textValue "text")]
      [("type", textValue "note")]) := by
  have unread : ∀ name, Node.Reads
      [(pointsOf "type", textValue "note"), (pointsOf "value", natValue 7)] name →
      pointsOf "value" ≠ pointsOf name := by
    rintro name (rfl | ⟨tag, mem, kind, isKind, names, listed, _⟩)
    · decide
    · have tagged : tag = textValue "note" := by simpa [pointsOf] using mem
      obtain rfl : "note" = kind := by
        rw [tagged] at isKind
        exact Option.some.inj isKind
      contradiction
  have typed (text note : List (String × Value)) :
      TreeEdit (noteValue [] text note) (noteValue [("type", natValue 1)] text note) :=
    .object (@MembersEdit.insert _ [] _ _ _ (by rintro _ rfl; decide) rfl (by decide))
  have ordered (tag value : String × Value) (note : List (String × Value)) :
      TreeEdit (noteValue [("type", natValue 1)] [tag, value] note)
        (noteValue [("type", natValue 1)] [value, tag] note) :=
    @TreeEdit.belowObject [_] [] [] _ _ _ (.object (.reorder (.swap _ _ _)))
  have bare (text : List (String × Value)) :
      TreeEdit (noteValue [("type", natValue 1)] text
          [("type", textValue "note"), ("value", natValue 7)])
        (noteValue [("type", natValue 1)] text [("type", textValue "note")]) :=
    @TreeEdit.belowObject [_] [] [_] [] _ _ (.object (@MembersEdit.delete _ [_] [] _ _ unread))
  exact .head (typed _ _) (.head (ordered _ _ _) (.single (bare _)))

theorem Tree.ofJson_of_edits_noteValue :
    let value := noteValue [] [("type", textValue "text"), ("value", textValue "x")]
      [("type", textValue "note"), ("value", natValue 7)]
    let value' := noteValue [("type", natValue 1)]
      [("value", textValue "x"), ("type", textValue "text")] [("type", textValue "note")]
    Json.read? value.print = some value ∧ Tree.ofJson value.print = .ok ⟨[.text "x", .unknown]⟩
      ∧ Relation.ReflTransGen TreeEdit value value' ∧ Json.read? value'.print = some value'
      ∧ value'.depth ≤ maxDepth ∧ Tree.ofJson value'.print = .ok ⟨[.text "x", .unknown]⟩ := by
  intro value value'
  have read : Json.read? value.print = some value := Json.read?_print (by decide)
  have read' : Json.read? value'.print = some value' := Json.read?_print (by decide)
  have loaded : Tree.ofJson value.print = .ok ⟨[.text "x", .unknown]⟩ := by
    rw [ofJson, read]
    rfl
  have shallow : value'.depth ≤ maxDepth := by decide
  exact ⟨read, loaded, noteValue_edits, read', shallow,
    ofJson_of_edits read loaded noteValue_edits read' shallow⟩

end WordExport.Markdown
