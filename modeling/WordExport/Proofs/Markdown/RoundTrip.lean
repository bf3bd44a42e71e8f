import WordExport.Markdown.Encode
import WordExport.Proofs.Json.ReadBack
import WordExport.Proofs.Markdown.Records

set_option autoImplicit false

namespace WordExport.Markdown

open Json (Number Value pointsOf textOf?)

/-- The numbers in a node are those of its fields: a depth has 8 bits, the start of a list 32. -/
def Node.Fits : Node → Prop
  | heading depth _ => depth < 256
  | list _ start _ _ => ∀ n ∈ start, n < UInt32.size
  | _ => True

/-- All numbers in a tree fit. -/
def Tree.Fits (tree : Tree) : Prop :=
  ∀ node ∈ tree.walk, node.Fits

theorem Node.walkAll_eq (nodes : List Node) : walkAll nodes = nodes.flatMap walk := by
  induction nodes with
  | nil => rfl
  | cons node nodes ih => rw [walkAll, ih, List.flatMap_cons]

theorem Node.forall_mem_walkAll {property : Node → Prop} {nodes : List Node} :
    (∀ n ∈ walkAll nodes, property n) ↔ ∀ node ∈ nodes, ∀ n ∈ node.walk, property n := by
  simp only [walkAll_eq, List.mem_flatMap, forall_exists_index, and_imp]
  exact forall_comm.trans (forall_congr' fun node => forall_comm)

theorem below?_natValue {bound n : Nat} (small : n < bound) :
    below? bound (natValue n) = some n := by
  rw [natValue, below?, Json.natural?_ofNat]
  simp [small]

theorem string?_textValue (s : String) : string? (textValue s) = some s :=
  textOf?_pointsOf s

theorem alignment?_toValue (alignment : ColumnAlignment) :
    alignment? alignment.toValue = some alignment := by
  cases alignment <;> rfl

/-- An optional value is read where its writer writes no null. -/
theorem orNull?_optionValue {α : Type} {read : Value → Option α} {write : α → Value}
    (value : Option α)
    (written : ∀ x ∈ value, read (write x) = some x ∧ write x ≠ .null) :
    orNull? read (optionValue write value) = some value := by
  cases value with
  | none => rfl
  | some x =>
    obtain ⟨found, notNull⟩ := written x rfl
    rw [optionValue, orNull?, found]
    · rfl
    · exact notNull

theorem mapM_map {α : Type} {read : Value → Option α} {write : α → Value}
    {xs : List α} (written : ∀ x ∈ xs, read (write x) = some x) :
    (xs.map write).mapM read = some xs := by
  induction xs with
  | nil => rfl
  | cons x xs ih =>
    obtain ⟨first, others⟩ := List.forall_mem_cons.mp written
    rw [List.map_cons, List.mapM_cons, first, ih others]
    rfl

theorem orNull?_text (value : Option String) :
    orNull? string? (optionValue textValue value) = some value :=
  orNull?_optionValue value fun s _ => ⟨string?_textValue s, nofun⟩

theorem orNull?_bool (value : Option Bool) :
    orNull? bool? (optionValue .bool value) = some value :=
  orNull?_optionValue value fun _ _ => ⟨rfl, nofun⟩

theorem orNull?_nat {bound : Nat} {value : Option Nat} (small : ∀ n ∈ value, n < bound) :
    orNull? (below? bound) (optionValue natValue value) = some value :=
  orNull?_optionValue value fun n isValue => ⟨below?_natValue (small n isValue), nofun⟩

theorem listOf?_align (align : List (Option ColumnAlignment)) :
    listOf? (orNull? alignment?)
      (.array (align.map (optionValue ColumnAlignment.toValue))) = some align := by
  have read (alignment : Option ColumnAlignment) :
      orNull? alignment? (optionValue ColumnAlignment.toValue alignment) = some alignment :=
    orNull?_optionValue alignment fun kind _ => ⟨alignment?_toValue kind, by cases kind <;> nofun⟩
  exact mapM_map fun alignment _ => read alignment

theorem fieldNames?_kind (node : Node) (children : List Value) :
    fieldNames? node.kind = some ((node.fieldValues children).map Prod.fst)
      ∨ fieldNames? node.kind = none ∧ Node.fieldless node.kind = node
        ∧ node.fieldValues children = [] := by
  cases node
  case thematicBreak | lineBreak | unknown => exact .inr ⟨rfl, rfl, rfl⟩
  all_goals exact .inl rfl

theorem fieldNames_distinct (node : Node) (children : List Value) :
    ("type" :: (node.fieldValues children).map Prod.fst).Nodup := by
  cases node <;> (simp only [Node.fieldValues, List.map_cons, List.map_nil]; decide)

/-- The fields of a node with the nodes that they list. -/
def recordOf (fields : List (String × Value)) : Record :=
  fields.map fun field => (field.1, Entry.of field.2)

/-- Of all fields of a node, the node is made again. -/
theorem ofRecord?_fieldValues {node : Node} (fits : node.Fits) {children : List Value}
    (below : nodeList? children = some node.children)
    (fielded : (fieldNames? node.kind).isSome = true) :
    Node.ofRecord? node.kind (recordOf (node.fieldValues children)) = some node := by
  have nodes : nodes? (.array children) = some node.children := below
  cases node
  case thematicBreak | lineBreak | unknown => contradiction
  case heading depth _ =>
    have depths : below? 256 (natValue depth) = some depth := below?_natValue fits
    simp [Node.kind, Node.ofRecord?, recordOf, Node.fieldValues, Record.children?, Entry.of,
      List.lookup_cons, Record.required?, Node.children, nodes, depths]
  case list ordered start spread _ =>
    have starts : orNull? (below? UInt32.size) (optionValue natValue start) = some start :=
      orNull?_nat fits
    simp [Node.kind, Node.ofRecord?, recordOf, Node.fieldValues, Record.children?, Entry.of,
      List.lookup_cons, Record.optional?, Record.orElse?, Node.children, nodes, starts,
      orNull?_bool]
  all_goals
    simp [Node.kind, Node.ofRecord?, recordOf, Node.fieldValues, Record.children?, Entry.of,
      List.lookup_cons, Record.optional?, Record.orElse?, Record.required?, Record.text?,
      Node.children, nodes, string?_textValue, orNull?_text, orNull?_bool, listOf?_align]

theorem Node.toValues_eq (nodes : List Node) : toValues nodes = nodes.map toValue := by
  induction nodes with
  | nil => rfl
  | cons node nodes ih => rw [toValues, ih, List.map_cons]

/-- A node is read back where those below it are. -/
theorem Node.read?_toValue {kindOf? : Value → Option String}
    (tagged : ∀ kind, kindOf? (textValue kind) = some kind) {node : Node} (fits : node.Fits)
    (below : nodeList? (toValues node.children) = some node.children) :
    Node.read? kindOf? node.toValue = some node := by
  let fields := node.fieldValues (toValues node.children)
  have members : Node.read? kindOf? node.toValue = Node.ofMembers? kindOf?
      (asMembers (("type", Entry.of (textValue node.kind)) :: recordOf fields)) := by
    rw [toValue_eq, objectValue, Node.read?]
    simp [asMembers, entriesOf, recordOf, fields, Function.comp_def]
  have names : (recordOf fields).map Prod.fst = fields.map Prod.fst := by
    simp [recordOf, Function.comp_def]
  have distinct := fieldNames_distinct node (toValues node.children)
  have found : kindOf? (Entry.of (textValue node.kind)).value = some node.kind := tagged _
  rw [members]
  rcases fieldNames?_kind node (toValues node.children) with listed | ⟨unlisted, itself, bare⟩
  · rw [ofMembers?_asMembers found (by rwa [List.map_cons, names]) (by rw [listed, names])]
    exact ofRecord?_fieldValues fits below (by rw [listed]; rfl)
  · have alone : recordOf fields = [] := by rw [show fields = [] from bare]; rfl
    rw [alone, ofMembers?_fieldless found unlisted, itself]

theorem Node.sizeOf_lt_of_mem_children {node child : Node} (mem : child ∈ node.children) :
    sizeOf child < sizeOf node := by
  have below := List.sizeOf_lt_of_mem mem
  cases node <;> simp only [children, List.not_mem_nil] at mem below
  all_goals
    simp
    omega

/-- What holds of a node when it holds of its children holds of every node. -/
theorem Node.induct {motive : Node → Prop}
    (step : ∀ node : Node, (∀ child ∈ node.children, motive child) → motive node) (node : Node) :
    motive node :=
  step node fun child _mem => induct step child
termination_by node
decreasing_by exact sizeOf_lt_of_mem_children _mem

theorem Node.ofValue?_toValue (node : Node) (fits : ∀ n ∈ node.walk, n.Fits) :
    Node.ofValue? node.toValue = some node := by
  induction node using Node.induct with
  | step node ih =>
    rw [walk_eq, List.forall_mem_cons, forall_mem_walkAll] at fits
    rw [ofValue?_eq]
    have tagged (kind : String) : kind? (textValue kind) = some kind := string?_textValue kind
    refine read?_toValue tagged fits.1 ?_
    rw [nodeList?_eq, toValues_eq]
    exact mapM_map fun child mem => ih child mem (fits.2 child mem)

theorem nodeList?_toValues {nodes : List Node} (fits : ∀ n ∈ Node.walkAll nodes, n.Fits) :
    nodeList? (Node.toValues nodes) = some nodes := by
  rw [nodeList?_eq, Node.toValues_eq]
  exact mapM_map fun node mem =>
    node.ofValue?_toValue (Node.forall_mem_walkAll.mp fits node mem)

section

variable {check : Number → Bool}

theorem passes_textValue (s : String) : (textValue s).passes check = true := by
  rw [textValue, Value.passes, textOf?_pointsOf]
  rfl

theorem passes_optionValue {α : Type} {write : α → Value} {value : Option α}
    (written : ∀ x ∈ value, (write x).passes check = true) :
    (optionValue write value).passes check = true := by
  cases value with
  | none => rfl
  | some x => exact written x rfl

theorem passes_optionText (value : Option String) :
    (optionValue textValue value).passes check = true :=
  passes_optionValue fun s _ => passes_textValue s

theorem passes_optionBool (value : Option Bool) :
    (optionValue .bool value).passes check = true :=
  passes_optionValue fun _ _ => rfl

theorem passes_align (align : List (Option ColumnAlignment)) :
    (Value.array (align.map (optionValue ColumnAlignment.toValue))).passes check = true := by
  refine Value.allPass_iff.mpr fun item mem => ?_
  obtain ⟨alignment, _, rfl⟩ := List.mem_map.mp mem
  exact passes_optionValue fun kind _ => by cases kind <;> exact passes_textValue _

theorem passes_objectValue {fields : List (String × Value)}
    (fine : ∀ field ∈ fields, field.2.passes check = true) :
    (objectValue fields).passes check = true := by
  refine Value.membersPass_iff.mpr fun member mem => ?_
  obtain ⟨field, isField, rfl⟩ := List.mem_map.mp mem
  exact ⟨by rw [textOf?_pointsOf]; rfl, fine field isField⟩

variable (small : ∀ n < UInt32.size, check (.ofNat n) = true)

include small

theorem passes_fieldValues {node : Node} (fits : node.Fits) {children : List Value}
    (below : Value.allPass check children = true) :
    ∀ field ∈ node.fieldValues children, field.2.passes check = true := by
  have list : (Value.array children).passes check = true := below
  cases node
  case heading depth _ =>
    have number : (natValue depth).passes check = true :=
      small depth (Nat.lt_trans fits (by decide))
    simp [Node.fieldValues, number, list]
  case list ordered start spread _ =>
    have number : (optionValue natValue start).passes check = true :=
      passes_optionValue fun n isStart => small n (fits n isStart)
    simp [Node.fieldValues, number, list, passes_optionBool]
  all_goals
    simp [Node.fieldValues, list, passes_textValue, passes_optionText, passes_optionBool,
      passes_align]

theorem Node.passes_toValue (node : Node) (fits : ∀ n ∈ node.walk, n.Fits) :
    node.toValue.passes check = true := by
  induction node using Node.induct with
  | step node ih =>
    rw [walk_eq, List.forall_mem_cons, forall_mem_walkAll] at fits
    have below : Value.allPass check (toValues node.children) = true := by
      rw [toValues_eq, Value.allPass_iff, List.forall_mem_map]
      exact fun child mem => ih child mem (fits.2 child mem)
    rw [toValue_eq]
    refine passes_objectValue (List.forall_mem_cons.mpr ⟨passes_textValue _, ?_⟩)
    exact passes_fieldValues small fits.1 below

theorem Tree.passes_toValue {tree : Tree} (fits : tree.Fits) :
    tree.toValue.passes check = true := by
  refine passes_objectValue (List.forall_mem_singleton.mpr ?_)
  rw [Value.passes, Node.toValues_eq, Value.allPass_iff, List.forall_mem_map]
  exact fun node mem => node.passes_toValue small (Node.forall_mem_walkAll.mp fits node mem)

end

theorem Tree.isPlain_toValue {tree : Tree} (fits : tree.Fits) : tree.toValue.isPlain = true :=
  passes_toValue (fun n _ => Json.Number.isNatural_ofNat n) fits

theorem Tree.isSound_toValue {tree : Tree} (fits : tree.Fits) : tree.toValue.isSound = true :=
  passes_toValue (fun n small => Json.isFinite_ofNat (Nat.lt_trans small (by decide))) fits

theorem Tree.ofValue?_toValue {tree : Tree} (fits : tree.Fits)
    (shallow : tree.toValue.depth ≤ maxDepth) : Tree.ofValue? tree.toValue = some tree := by
  let children := Value.array (Node.toValues tree.children)
  have spelled : tree.toValue = .object [(pointsOf "children", children)] := rfl
  have readable : children.isReadable (maxDepth - 1) = true := by
    have sound := isSound_toValue fits
    rw [spelled] at sound shallow
    simp only [Value.passes, Value.membersPass, Bool.and_eq_true] at sound
    simp only [Value.depth, Value.depthOfMembers] at shallow
    exact Value.isReadable_iff.mpr ⟨sound.1.2, by omega⟩
  have nodes : listOf? child? children = some tree.children := by
    rw [child?_eq]
    refine (congrArg _ (Node.toValues_eq _)).trans (mapM_map fun node mem => ?_)
    have fitsBelow := Node.forall_mem_walkAll.mp fits node mem
    rw [Node.walk_eq, List.forall_mem_cons] at fitsBelow
    exact Node.read?_toValue string?_textValue fitsBelow.1 (nodeList?_toValues fitsBelow.2)
  rw [spelled, ofValue?]
  simp [textOf?_pointsOf, ofChildren?, readable, nodes]

/-- Loading undoes writing. -/
theorem Tree.ofJson_toJson {tree : Tree} (fits : tree.Fits)
    (shallow : tree.toValue.depth ≤ maxDepth) : Tree.ofJson tree.toJson = .ok tree := by
  rw [ofJson, toJson, Json.read?_print (isPlain_toValue fits)]
  simp only [ofValue?_toValue fits shallow]

/-- A root within a tree, an unknown node, texts to be escaped, the largest numbers. -/
def mixedTree : Tree := ⟨[
  .root [.heading 255 [.text "tab\t, quote\", \u0001, \u2028"], .unknown, .thematicBreak],
  .list (some true) (some 4294967295) none [.listItem (some false) none [.paragraph []]],
  .table [none, some .center] [.tableRow [.tableCell [.image "" none (some "é")]]],
  .code "𝕏" none (some "")]⟩

theorem Tree.ofJson_toJson_mixedTree :
    mixedTree.Fits ∧ mixedTree.toValue.depth ≤ maxDepth
      ∧ Tree.ofJson mixedTree.toJson = .ok mixedTree := by
  have fits : mixedTree.Fits := by
    simp [mixedTree, Tree.Fits, Tree.walk, Node.walkAll, Node.walk, Node.Fits, UInt32.size]
  have shallow : mixedTree.toValue.depth ≤ maxDepth := by decide
  exact ⟨fits, shallow, Tree.ofJson_toJson fits shallow⟩

end WordExport.Markdown
