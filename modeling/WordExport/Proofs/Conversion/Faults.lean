import WordExport.Proofs.Conversion.Visits

set_option autoImplicit false

namespace WordExport

open Markdown (Node Visit visitAll visitItems visitRows visitCells)

namespace Markdown

/-- A child of a list, which may be an item. -/
def Visit.ofListed (child : Node) : Visit where
  node := child
  placed := child.kind == "listItem"

/-- The children that are visited after a node. A table has rows only and a row has cells only. -/
def Node.visitedChildren (node : Node) : List Visit :=
  match node with
  | .list _ _ _ children => children.map Visit.ofListed
  | .table _ children => (children.filter (·.kind == "tableRow")).map (⟨·, true⟩)
  | .tableRow children => (children.filter (·.kind == "tableCell")).map (⟨·, true⟩)
  | .linkReference _ _ _ _ => []
  | _ => node.children.map ({ node := · })

/-- What is visited from some visits on, in order: after each all that is visited below it. -/
inductive PreOrder : List Visit → List Visit → Prop
  | nil : PreOrder [] []
  | cons {visit : Visit} {roots below rest : List Visit} :
    PreOrder visit.node.visitedChildren below → PreOrder roots rest →
      PreOrder (visit :: roots) (visit :: below ++ rest)

namespace PreOrder

variable {roots roots' visits visits' : List Visit}

theorem append (first : PreOrder roots visits) (second : PreOrder roots' visits') :
    PreOrder (roots ++ roots') (visits ++ visits') := by
  induction first with
  | nil => exact second
  | cons below _ _ ih =>
    rw [List.append_assoc]
    exact .cons below ih

theorem single {node : Node} (placed : Bool) (below : PreOrder node.visitedChildren visits) :
    PreOrder [⟨node, placed⟩] (⟨node, placed⟩ :: visits) := by
  have whole : PreOrder [⟨node, placed⟩] (⟨node, placed⟩ :: visits ++ []) := .cons below .nil
  rwa [List.append_nil] at whole

/-- There is one order of visits. -/
theorem unique (first : PreOrder roots visits) (second : PreOrder roots visits') :
    visits' = visits := by
  induction first generalizing visits' with
  | nil =>
    cases second
    rfl
  | cons _ _ below rest =>
    cases second with
    | cons below' rest' => rw [below below', rest rest']

end PreOrder

mutual

theorem Node.visits_preOrder (node : Node) : PreOrder [{ node }] node.visits := by
  cases node with
  | root children | paragraph children | heading depth children | blockquote children
  | listItem checked spread children | tableCell children
  | footnoteDefinition identifier label children | emphasis children | strong children
  | delete children | link url title children | footnote children =>
    exact .single false (visitAll_preOrder children)
  | list ordered start spread children => exact .single false (visitItems_preOrder children)
  | table align children => exact .single false (visitRows_preOrder children)
  | tableRow children => exact .single false (visitCells_preOrder children)
  | _ => exact .single false .nil

theorem visitAll_preOrder (nodes : List Node) :
    PreOrder (nodes.map ({ node := · })) (visitAll nodes) := by
  cases nodes with
  | nil => exact .nil
  | cons node nodes => exact node.visits_preOrder.append (visitAll_preOrder nodes)

theorem visitItems_preOrder (nodes : List Node) :
    PreOrder (nodes.map Visit.ofListed) (visitItems nodes) := by
  cases nodes with
  | nil => exact .nil
  | cons node nodes =>
    have rest := visitItems_preOrder nodes
    cases node with
    | listItem checked spread children => exact .cons (visitAll_preOrder children) rest
    | _ => exact (Node.visits_preOrder _).append rest

theorem visitRows_preOrder (nodes : List Node) :
    PreOrder ((nodes.filter (·.kind == "tableRow")).map (⟨·, true⟩)) (visitRows nodes) := by
  cases nodes with
  | nil => exact .nil
  | cons node nodes =>
    have rest := visitRows_preOrder nodes
    cases node with
    | tableRow children => exact .cons (visitCells_preOrder children) rest
    | _ => exact rest

theorem visitCells_preOrder (nodes : List Node) :
    PreOrder ((nodes.filter (·.kind == "tableCell")).map (⟨·, true⟩)) (visitCells nodes) := by
  cases nodes with
  | nil => exact .nil
  | cons node nodes =>
    have rest := visitCells_preOrder nodes
    cases node with
    | tableCell children => exact .cons (visitAll_preOrder children) rest
    | _ => exact rest

end

/-- The faults that a visit may have, each with its error. -/
inductive Visit.HasFault (images : ImageTable) : Visit → Error → Prop
  | unknown (placed : Bool) : HasFault images ⟨.unknown, placed⟩ (.conversion .unknownNode)
  | root (children : List Node) (placed : Bool) :
    HasFault images ⟨.root children, placed⟩ (.conversion (.unexpectedNode "root"))
  | misplaced (node : Node) : node.kind ∈ ["listItem", "tableRow", "tableCell"] →
    HasFault images ⟨node, false⟩ (.conversion (.unexpectedNode node.kind))
  | missing (url : String) (title alt : Option String) (placed : Bool) :
    images.find? url = none →
      HasFault images ⟨.image url title alt, placed⟩ (.resolution (.notResolved url))
  | unnumbered (identifier : String) (label : Option String) (placed : Bool) :
    (∀ id, footnoteId identifier ≠ .ok id) →
      HasFault images ⟨.footnoteReference identifier label, placed⟩
        (.conversion (.invalidFootnoteId identifier))

end Markdown

theorem Markdown.Visit.hasFault_of_fault? {images : ImageTable} {visit : Visit} {error : Error}
    (found : visit.fault? images = some error) : visit.HasFault images error := by
  unfold Visit.fault? at found
  split at found
  case h_1 placed => cases found; exact .unknown placed
  case h_2 children placed => cases found; exact .root children placed
  case h_3 | h_4 | h_5 => cases found; exact .misplaced _ (by simp [Node.kind])
  case h_6 url title alt placed =>
    split at found
    next => cases found
    next missing => cases found; exact .missing url title alt placed missing
  case h_7 identifier label placed =>
    split at found
    next => cases found
    next fault refused =>
      obtain rfl := footnoteId_eq_error refused
      cases found
      exact .unnumbered identifier label placed (by simp [refused])
  case h_8 => cases found

theorem Markdown.Visit.HasFault.found {images : ImageTable} {visit : Visit} {error : Error}
    (faulty : visit.HasFault images error) : visit.fault? images = some error := by
  cases faulty with
  | unknown | root => rfl
  | misplaced node kind =>
    cases node with
    | listItem | tableRow | tableCell => rfl
    | _ => simp [Node.kind] at kind
  | missing url title alt placed missing => simp only [Visit.fault?, missing]
  | unnumbered identifier label placed refused =>
    rcases outcome : footnoteId identifier with fault | id
    · obtain rfl := footnoteId_eq_error outcome
      simp only [Visit.fault?, outcome]
    · exact absurd outcome (refused id)

theorem Markdown.Visit.fault?_eq_some {images : ImageTable} {visit : Visit} {error : Error} :
    visit.fault? images = some error ↔ visit.HasFault images error :=
  ⟨hasFault_of_fault?, HasFault.found⟩

/-- The first of the visits with a fault has this one. -/
def FirstFault (images : ImageTable) (visits : List Visit) (error : Error) : Prop :=
  ∃ before visit after, visits = before ++ visit :: after ∧ visit.HasFault images error ∧
    ∀ earlier ∈ before, ∀ other, ¬ earlier.HasFault images other

theorem findSome?_fault? {images : ImageTable} {visits : List Visit} {error : Error} :
    visits.findSome? (Visit.fault? images) = some error ↔ FirstFault images visits error := by
  simp only [List.findSome?_eq_some_iff, FirstFault, Visit.fault?_eq_some,
    Option.eq_none_iff_forall_ne_some, ne_eq]

/-- A conversion comes to the first fault, if there is one. -/
theorem convertNodes_eq_error {context : Context} {nodes : List Node} {error : Error} :
    convertNodes context nodes = .error error
      ↔ (visitAll nodes).findSome? (Visit.fault? context.images) = some error := by
  have follows := convertNodes_follows context nodes
  rcases outcome : convertNodes context nodes with other | noted
  · rw [outcome] at follows
    have found : (visitAll nodes).findSome? (Visit.fault? context.images) = some other := follows
    constructor
    · intro same
      exact found.trans (congrArg some (Except.error.inj same))
    · intro same
      exact congrArg Except.error (Option.some.inj (found.symm.trans same))
  · rw [outcome] at follows
    rw [follows.1]
    exact ⟨nofun, nofun⟩

/-- A conversion fails exactly where a node that it visits has a fault, and with the first such
fault. -/
theorem convertNodes_fails (context : Context) (nodes : List Node) :
    ∃ visits, (∀ order, Markdown.PreOrder (nodes.map ({ node := · })) order ↔ order = visits) ∧
      ((∃ error, convertNodes context nodes = .error error) ↔
        ∃ visit ∈ visits, ∃ error, visit.HasFault context.images error) ∧
      ∀ error, convertNodes context nodes = .error error ↔
        FirstFault context.images visits error := by
  have ordered := Markdown.visitAll_preOrder nodes
  refine ⟨visitAll nodes, fun order => ⟨ordered.unique, fun same => same ▸ ordered⟩, ?_,
    fun error => ?_⟩
  · constructor
    · rintro ⟨error, failed⟩
      obtain ⟨visit, visited, faulty⟩ :=
        List.exists_of_findSome?_eq_some (convertNodes_eq_error.mp failed)
      exact ⟨visit, visited, error, Visit.fault?_eq_some.mp faulty⟩
    · rintro ⟨visit, visited, error, faulty⟩
      have found : ((visitAll nodes).findSome? (Visit.fault? context.images)).isSome :=
        List.findSome?_isSome_iff.mpr ⟨visit, visited, by rw [faulty.found]; rfl⟩
      obtain ⟨first, found⟩ := Option.isSome_iff_exists.mp found
      exact ⟨first, convertNodes_eq_error.mpr found⟩
  · rw [convertNodes_eq_error, findSome?_fault?]

end WordExport
