import WordExport.Conversion.Nodes
import WordExport.Proofs.Conversion.Success

set_option autoImplicit false

namespace WordExport

namespace Markdown

/-- A node that a conversion comes to. An item of a list, a row of a table or a cell of a row is
`placed` where it stands directly under its parent. -/
structure Visit where
  node : Node
  placed : Bool := false

mutual

/-- What is visited in a node that has no place. Nothing is below front matter, definitions and
references of links and images. -/
def Node.visits (node : Node) : List Visit :=
  match node with
  | .root children | .paragraph children | .heading _ children | .blockquote children
  | .listItem _ _ children | .tableCell children | .footnoteDefinition _ _ children
  | .emphasis children | .strong children | .delete children | .link _ _ children
  | .footnote children => { node } :: visitAll children
  | .list _ _ _ children => { node } :: visitItems children
  | .table _ children => { node } :: visitRows children
  | .tableRow children => { node } :: visitCells children
  | _ => [{ node }]

def visitAll : List Node → List Visit
  | [] => []
  | node :: nodes => node.visits ++ visitAll nodes

/-- What is visited among the children of a list. -/
def visitItems : List Node → List Visit
  | [] => []
  | .listItem checked spread children :: nodes =>
    ⟨.listItem checked spread children, true⟩ :: visitAll children ++ visitItems nodes
  | node :: nodes => node.visits ++ visitItems nodes

/-- What is visited among the children of a table: the rows. -/
def visitRows : List Node → List Visit
  | [] => []
  | .tableRow children :: nodes =>
    ⟨.tableRow children, true⟩ :: visitCells children ++ visitRows nodes
  | _ :: nodes => visitRows nodes

/-- What is visited among the children of a row: the cells. -/
def visitCells : List Node → List Visit
  | [] => []
  | .tableCell children :: nodes =>
    ⟨.tableCell children, true⟩ :: visitAll children ++ visitCells nodes
  | _ :: nodes => visitCells nodes

end

end Markdown

open Markdown (Node Visit visitAll visitItems visitRows visitCells)

namespace Markdown.Visit

/-- The error that a visit comes to. -/
def fault? (images : ImageTable) : Visit → Option Error
  | ⟨.unknown, _⟩ => some (.conversion .unknownNode)
  | ⟨.root _, _⟩ => some (.conversion (.unexpectedNode "root"))
  | ⟨.listItem _ _ _, false⟩ => some (.conversion (.unexpectedNode "listItem"))
  | ⟨.tableRow _, false⟩ => some (.conversion (.unexpectedNode "tableRow"))
  | ⟨.tableCell _, false⟩ => some (.conversion (.unexpectedNode "tableCell"))
  | ⟨.image url _ _, _⟩ =>
    match images.find? url with
    | some _ => none
    | none => some (.resolution (.notResolved url))
  | ⟨.footnoteReference identifier _, _⟩ =>
    match footnoteId identifier with
    | .ok _ => none
    | .error fault => some (.conversion fault)
  | _ => none

/-- The reference that a visit notes. -/
def reference? : Visit → Option (Nat × String)
  | ⟨.footnoteReference identifier _, _⟩ =>
    match footnoteId identifier with
    | .ok id => some (id, identifier)
    | .error _ => none
  | _ => none

/-- The identifier of the footnote that a visit defines. -/
def definition? : Visit → Option String
  | ⟨.footnoteDefinition identifier _ _, _⟩ => some identifier
  | _ => none

end Markdown.Visit

/-- A step fails with the first error among visits. If there is none, it notes their references in
order, and their definitions, of which those inside of others are noted first. -/
def Follows {α : Type} (images : ImageTable) (visits : List Visit) : Conversion α → Prop
  | .error error => visits.findSome? (Visit.fault? images) = some error
  | .ok noted =>
    visits.findSome? (Visit.fault? images) = none
      ∧ noted.references = visits.filterMap Visit.reference?
      ∧ (noted.definitions.map Prod.fst).Perm (visits.filterMap Visit.definition?)

/-- A visit without an error and without a footnote. -/
structure Markdown.Visit.IsPlain (images : ImageTable) (visit : Visit) : Prop where
  fault : visit.fault? images = none
  reference : visit.reference? = none
  definition : visit.definition? = none

namespace Follows

variable {images : ImageTable} {visits visits' : List Visit} {visit : Visit} {α β γ : Type}

theorem pure {value : α} : Follows images [] (Pure.pure value : Conversion α) :=
  ⟨rfl, rfl, .nil⟩

theorem fail {error : Error} (faulty : visit.fault? images = some error) :
    Follows images (visit :: visits) (Conversion.fail error : Conversion α) := by
  simp only [Follows, Conversion.fail, List.findSome?_cons, faulty]

theorem plain {step : Conversion α} (quiet : visit.IsPlain images) (follows : Follows images visits step) :
    Follows images (visit :: visits) step := by
  have first : (visit :: visits).findSome? (Visit.fault? images)
      = visits.findSome? (Visit.fault? images) := by rw [List.findSome?_cons, quiet.fault]
  rcases step with error | noted
  · exact first.trans follows
  · obtain ⟨sound, references, definitions⟩ := follows
    refine ⟨first.trans sound, ?_, ?_⟩
    · rw [List.filterMap_cons_none quiet.reference]
      exact references
    · rw [List.filterMap_cons_none quiet.definition]
      exact definitions

theorem bind {first : Conversion α} {next : α → Conversion β} (follows : Follows images visits first)
    (follows' : ∀ value, Follows images visits' (next value)) :
    Follows images (visits ++ visits') (first >>= next) := by
  change Follows images (visits ++ visits') (Conversion.bind first next)
  rcases first with error | noted
  · have faulty : visits.findSome? (Visit.fault? images) = some error := follows
    simp only [Follows, Conversion.bind, List.findSome?_append, faulty, Option.some_or]
  · obtain ⟨sound, references, definitions⟩ := follows
    have follows' := follows' noted.value
    rcases outcome : next noted.value with error | later
    · rw [outcome] at follows'
      simp only [Follows, Conversion.bind, outcome, List.findSome?_append, sound, Option.none_or]
      exact follows'
    · rw [outcome] at follows'
      obtain ⟨sound', references', definitions'⟩ := follows'
      simp only [Follows, Conversion.bind, outcome, List.findSome?_append, sound, sound',
        Option.none_or, List.filterMap_append, List.map_append, references, references', true_and]
      exact definitions.append definitions'

theorem map {step : Conversion α} {wrap : α → β} (follows : Follows images visits step) :
    Follows images visits (step >>= fun value => Pure.pure (wrap value)) := by
  rw [← List.append_nil visits]
  exact follows.bind fun _ => .pure

theorem append {step : Conversion α} {next : Conversion β} {join : α → β → γ}
    (follows : Follows images visits step) (follows' : Follows images visits' next) :
    Follows images (visits ++ visits') (step >>= fun first => next >>= fun rest =>
      Pure.pure (join first rest)) :=
  follows.bind fun _ => follows'.map

theorem refer {identifier : String} {id : Nat} {value : α} (label : Option String)
    (numbered : footnoteId identifier = .ok id) :
    Follows images [⟨.footnoteReference identifier label, false⟩]
      (Conversion.refer id identifier >>= fun _ => Pure.pure value) := by
  have noted : Follows images [⟨.footnoteReference identifier label, false⟩]
      (Conversion.refer id identifier) := by
    refine ⟨?_, ?_, .nil⟩
    · simp only [List.findSome?_cons, List.findSome?_nil, Visit.fault?, numbered]
    · simp only [List.filterMap_cons, List.filterMap_nil, Visit.reference?, numbered]
  exact noted.map

/-- A footnote is noted after those in its body. -/
theorem define {identifier : String} {children : List Node} {step : Conversion (List Paragraph)}
    {value : α} (label : Option String) (follows : Follows images visits step) :
    Follows images (⟨.footnoteDefinition identifier label children, false⟩ :: visits)
      (step >>= fun body => Conversion.define identifier body >>= fun _ => Pure.pure value) := by
  change Follows images _ (Conversion.bind step fun body =>
    Conversion.bind (Conversion.define identifier body) fun _ => Conversion.pure value)
  rcases step with error | noted
  · exact follows
  · obtain ⟨sound, references, definitions⟩ := follows
    simp only [Follows, Conversion.bind, Conversion.define, Conversion.pure, List.append_nil]
    refine ⟨sound, references, ?_⟩
    rw [List.map_append]
    exact (definitions.append_right [identifier]).trans (List.perm_append_singleton _ _)

end Follows

mutual

theorem convertNode_follows (context : Context) (node : Node) :
    Follows context.images node.visits (convertNode context node) := by
  cases node with
  | paragraph children | heading depth children | link url title children | footnote children =>
    exact .plain ⟨rfl, rfl, rfl⟩ (convertNodes_follows context children).map
  | blockquote children =>
    exact .plain ⟨rfl, rfl, rfl⟩ (convertNodes_follows context.quoted children)
  | emphasis children =>
    exact .plain ⟨rfl, rfl, rfl⟩ (convertNodes_follows context.emphasized children)
  | strong children =>
    exact .plain ⟨rfl, rfl, rfl⟩ (convertNodes_follows context.strong children)
  | delete children =>
    exact .plain ⟨rfl, rfl, rfl⟩ (convertNodes_follows context.deleted children)
  | list ordered start spread children =>
    exact .plain ⟨rfl, rfl, rfl⟩
      (convertItems_follows (context.listed (ordered.getD false)) children)
  | table align children =>
    exact .plain ⟨rfl, rfl, rfl⟩ (convertRows_follows context align _ _ children).map
  | footnoteDefinition identifier label children =>
    exact .define label (convertBody_follows context children)
  | html value | code value lang info | text value | inlineCode value | lineBreak | thematicBreak
  | math value | inlineMath value | yaml value | toml value
  | definition identifier label url title | linkReference identifier label kind children
  | imageReference identifier label kind alt => exact .plain ⟨rfl, rfl, rfl⟩ .pure
  | image url title alt =>
    simp only [convertNode]
    split
    next found => exact .plain ⟨by simp only [Visit.fault?, found], rfl, rfl⟩ .pure
    next missing => exact .fail (by simp only [Visit.fault?, missing])
  | footnoteReference identifier label =>
    simp only [convertNode]
    split
    next id numbered => exact .refer label numbered
    next fault refused => exact .fail (by simp only [Visit.fault?, refused])
  | root children | listItem checked spread children | tableRow children | tableCell children
  | unknown => exact .fail rfl

theorem convertNodes_follows (context : Context) (nodes : List Node) :
    Follows context.images (visitAll nodes) (convertNodes context nodes) := by
  cases nodes with
  | nil => exact .pure
  | cons node nodes =>
    exact (convertNode_follows context node).append (convertNodes_follows context nodes)

theorem convertItems_follows (context : Context) (nodes : List Node) :
    Follows context.images (visitItems nodes) (convertItems context nodes) := by
  cases nodes with
  | nil => exact .pure
  | cons node nodes =>
    have rest := convertItems_follows context nodes
    cases node with
    | listItem checked spread children =>
      have item := convertNodes_follows (context.item checked) children
      exact .plain ⟨rfl, rfl, rfl⟩ (item.append rest)
    | _ => exact (convertNode_follows context _).append rest

theorem convertRows_follows (context : Context) (align : List (Option Markdown.ColumnAlignment))
    (first others : Option TablePart) (nodes : List Node) :
    Follows context.images (visitRows nodes) (convertRows context align first others nodes) := by
  cases nodes with
  | nil => exact .pure
  | cons node nodes =>
    have rest := convertRows_follows context align others others nodes
    cases node with
    | tableRow children =>
      have cells := convertCells_follows context first align children
      exact .plain ⟨rfl, rfl, rfl⟩ (cells.append rest)
    | _ => exact rest

theorem convertCells_follows (context : Context) (part : Option TablePart)
    (align : List (Option Markdown.ColumnAlignment)) (nodes : List Node) :
    Follows context.images (visitCells nodes) (convertCells context part align nodes) := by
  cases nodes with
  | nil => exact .pure
  | cons node nodes =>
    have rest := convertCells_follows context part align.tail nodes
    cases node with
    | tableCell children =>
      have cell := convertNodes_follows context children
      exact .plain ⟨rfl, rfl, rfl⟩ (cell.append rest)
    | _ => exact rest

theorem convertBody_follows (context : Context) (nodes : List Node) :
    Follows context.images (visitAll nodes) (convertBody context nodes) := by
  cases nodes with
  | nil => exact .pure
  | cons node nodes =>
    exact (convertNode_follows context node).append (convertBody_follows context nodes)

end

end WordExport
