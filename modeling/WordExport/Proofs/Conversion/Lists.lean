import WordExport.Proofs.Conversion.Success
import WordExport.Proofs.Package.Paragraphs

set_option autoImplicit false

namespace WordExport

open Markdown (Node)

/-- A place in lists: whether the innermost is ordered, and how many others are around it. -/
structure ListMark where
  ordered : Bool
  depth : Nat
  deriving DecidableEq

/-- The mark inside of lists, the innermost first. -/
def listMark? : List Bool → Option ListMark
  | [] => none
  | ordered :: outer => some ⟨ordered, outer.length⟩

def ListMark.numbering (mark : ListMark) : Numbering :=
  if mark.ordered then .ordered orderedReference mark.depth else .bullet mark.depth

namespace Markdown

/-- The marks of the paragraphs in a text, and those of each footnote defined in it. A footnote
comes after those that are defined inside of it. -/
structure Marking where
  text : List ListMark := []
  footnotes : List (String × List ListMark) := []
  deriving DecidableEq

namespace Marking

def append (first second : Marking) : Marking :=
  ⟨first.text ++ second.text, first.footnotes ++ second.footnotes⟩

instance : Append Marking := ⟨append⟩

/-- Of what is below a node that is no paragraph in a list, only footnotes keep their marks. -/
def below (text : List ListMark) (marking : Marking) : Marking :=
  { marking with text }

def define (identifier : String) (marking : Marking) : Marking :=
  ⟨[], marking.footnotes ++ [(identifier, marking.text)]⟩

end Marking

mutual

/-- The marks in a node, inside of lists of which the innermost comes first. -/
def Node.marking (around : List Bool) : Node → Marking
  | .paragraph children => (markAll around children).below (listMark? around).toList
  | .list ordered _ _ children => markAll (ordered.getD false :: around) children
  | .blockquote children | .listItem _ _ children | .emphasis children | .strong children
  | .delete children => markAll around children
  | .heading _ children | .link _ _ children | .footnote children =>
    (markAll around children).below []
  | .table _ children => (markRows around children).below []
  | .footnoteDefinition identifier _ children => (markAll around children).define identifier
  | _ => {}

def markAll (around : List Bool) : List Node → Marking
  | [] => {}
  | node :: nodes => node.marking around ++ markAll around nodes

/-- The marks in the rows among the children of a table. -/
def markRows (around : List Bool) : List Node → Marking
  | [] => {}
  | .tableRow children :: nodes => markCells around children ++ markRows around nodes
  | _ :: nodes => markRows around nodes

/-- The marks in the cells among the children of a row. -/
def markCells (around : List Bool) : List Node → Marking
  | [] => {}
  | .tableCell children :: nodes => markAll around children ++ markCells around nodes
  | _ :: nodes => markCells around nodes

end

end Markdown

open Markdown (Marking markAll markRows markCells)

def numberings (paragraphs : List Paragraph) : List Numbering :=
  paragraphs.filterMap Paragraph.numbering

def Content.paragraphs : Content → List Paragraph
  | .paragraph written => [written]
  | .table written => rowParagraphs written.rows
  | .inline _ => []

def contentNumberings (contents : List Content) : List Numbering :=
  numberings (contents.flatMap Content.paragraphs)

/-- No paragraph in a table is numbered. -/
def Content.IsUnnumbered : Content → Prop
  | .table written => numberings (rowParagraphs written.rows) = []
  | _ => True

theorem numberings_append (first second : List Paragraph) :
    numberings (first ++ second) = numberings first ++ numberings second :=
  List.filterMap_append

theorem numberings_cons (paragraph : Paragraph) (paragraphs : List Paragraph) :
    numberings (paragraph :: paragraphs)
      = paragraph.numbering.toList ++ numberings paragraphs := by
  rw [numberings, List.filterMap_cons]
  cases paragraph.numbering <;> rfl

theorem contentNumberings_append (first second : List Content) :
    contentNumberings (first ++ second) = contentNumberings first ++ contentNumberings second := by
  rw [contentNumberings, List.flatMap_append, numberings_append]
  rfl

theorem contentNumberings_cons (content : Content) (contents : List Content) :
    contentNumberings (content :: contents)
      = numberings content.paragraphs ++ contentNumberings contents :=
  numberings_append _ _

theorem blockParagraphs_append (first second : List Block) :
    blockParagraphs (first ++ second) = blockParagraphs first ++ blockParagraphs second := by
  induction first with
  | nil => rfl
  | cons block blocks ih =>
    rw [List.cons_append, blockParagraphs, blockParagraphs, ih, List.append_assoc]

theorem looseParagraph_numberings (loose : List Inline) :
    numberings (blockParagraphs (looseParagraph loose)) = []
      ∧ numberings ((looseParagraph loose).map footnoteParagraph) = [] := by
  cases loose <;> exact ⟨rfl, rfl⟩

theorem blocksAfter_numberings (loose : List Inline) (contents : List Content) :
    numberings (blockParagraphs (blocksAfter loose contents)) = contentNumberings contents := by
  induction contents generalizing loose with
  | nil => exact (looseParagraph_numberings loose).1
  | cons content contents ih =>
    cases content with
    | inline item => exact ih (loose ++ [item])
    | paragraph written =>
      rw [blocksAfter, blockParagraphs_append, numberings_append, (looseParagraph_numberings _).1,
        blockParagraphs, numberings_append, ih, contentNumberings_cons]
      rfl
    | table written =>
      obtain ⟨rows, options⟩ := written
      rw [blocksAfter, blockParagraphs_append, numberings_append, (looseParagraph_numberings _).1,
        blockParagraphs, numberings_append, ih, contentNumberings_cons]
      rfl

/-- The paragraphs of a footnote have the numbers of its content, as no table of it has numbers. -/
theorem footnoteBody_numberings (loose : List Inline) {contents : List Content}
    (unnumbered : ∀ content ∈ contents, content.IsUnnumbered) :
    numberings ((blocksAfter loose contents).map footnoteParagraph)
      = contentNumberings contents := by
  induction contents generalizing loose with
  | nil => exact (looseParagraph_numberings loose).2
  | cons content contents ih =>
    obtain ⟨first, rest⟩ := List.forall_mem_cons.mp unnumbered
    cases content with
    | inline item => exact ih (loose ++ [item]) rest
    | paragraph written =>
      rw [blocksAfter, List.map_append, numberings_append, (looseParagraph_numberings _).2,
        contentNumberings_cons, ← ih [] rest]
      exact numberings_append [written] _
    | table written =>
      have none : numberings (rowParagraphs written.rows) = [] := first
      rw [blocksAfter, List.map_append, numberings_append, (looseParagraph_numberings _).2,
        contentNumberings_cons, Content.paragraphs, none, ← ih [] rest]
      rfl

/-- The lists around a node as its context has them. -/
def Context.IsIn (context : Context) : List Bool → Prop
  | [] => context.list = none
  | ordered :: outer => ∃ checked, context.list = some ⟨outer.length, ordered, checked⟩

theorem Context.IsIn.listed {context : Context} {around : List Bool} (isIn : context.IsIn around)
    (ordered : Bool) : (context.listed ordered).IsIn (ordered :: around) := by
  cases around with
  | nil =>
    have outside : context.list = none := isIn
    exact ⟨none, by rw [Context.listed, outside]; rfl⟩
  | cons other outer =>
    obtain ⟨checked, inside⟩ := isIn
    exact ⟨none, by rw [Context.listed, inside]; rfl⟩

theorem Context.IsIn.item {context : Context} {around : List Bool} (isIn : context.IsIn around)
    (checked : Option Bool) : (context.item checked).IsIn around := by
  cases around with
  | nil =>
    have outside : context.list = none := isIn
    exact (congrArg (Option.map _) outside : _)
  | cons ordered outer =>
    obtain ⟨_, inside⟩ := isIn
    exact ⟨checked, by rw [Context.item, inside]; rfl⟩

theorem Context.IsIn.numbering {context : Context} {around : List Bool}
    (isIn : context.IsIn around) :
    context.numbering = (listMark? around).map ListMark.numbering := by
  cases around with
  | nil =>
    have outside : context.list = none := isIn
    rw [Context.numbering, outside]
    rfl
  | cons ordered outer =>
    obtain ⟨_, inside⟩ := isIn
    rw [Context.numbering, inside]
    rfl

/-- Where a step succeeds, paragraphs are numbered by their marks, and so are those of the footnotes
that it notes. -/
def Numbers {α : Type} (marking : Marking) (numbers : α → List Numbering → Prop)
    (step : Conversion α) : Prop :=
  ∀ noted, step = .ok noted →
    numbers noted.value (marking.text.map ListMark.numbering)
      ∧ noted.definitions.map (fun definition => (definition.1, numberings definition.2))
        = marking.footnotes.map fun footnote => (footnote.1, footnote.2.map ListMark.numbering)

def NumbersContent (contents : List Content) (found : List Numbering) : Prop :=
  contentNumberings contents = found ∧ ∀ content ∈ contents, content.IsUnnumbered

namespace Numbers

variable {α β γ : Type} {marking marking' : Marking}

theorem pure {numbers : α → List Numbering → Prop} {value : α} (numbered : numbers value []) :
    Numbers {} numbers (Pure.pure value) := by
  intro noted success
  obtain rfl := Conversion.pure_eq_ok.mp success
  exact ⟨numbered, rfl⟩

theorem fail {numbers : α → List Numbering → Prop} {error : Error} :
    Numbers marking numbers (Conversion.fail error) := by
  intro noted success
  exact absurd success Conversion.fail_ne_ok

/-- What is made of the value of a step has marks of its own. -/
theorem below {numbers : α → List Numbering → Prop} {numbers' : β → List Numbering → Prop}
    {step : Conversion α} {wrap : α → β} (numbered : Numbers marking numbers step)
    {text : List ListMark} (wrapped : ∀ value, numbers value (marking.text.map ListMark.numbering) →
      numbers' (wrap value) (text.map ListMark.numbering)) :
    Numbers (marking.below text) numbers' (step >>= fun value => Pure.pure (wrap value)) := by
  intro noted success
  obtain ⟨earlier, later, first, last, rfl⟩ := Conversion.bind_eq_ok.mp success
  obtain rfl := Conversion.pure_eq_ok.mp last
  have numbered := numbered earlier first
  refine ⟨wrapped _ numbered.1, ?_⟩
  rw [List.append_nil]
  exact numbered.2

theorem append {numbers : α → List Numbering → Prop} {numbers' : β → List Numbering → Prop}
    {numbers'' : γ → List Numbering → Prop} {step : Conversion α} {next : Conversion β}
    {join : α → β → γ} (numbered : Numbers marking numbers step)
    (numbered' : Numbers marking' numbers' next)
    (joined : ∀ value rest found found', numbers value found → numbers' rest found' →
      numbers'' (join value rest) (found ++ found')) :
    Numbers (marking ++ marking') numbers'' (step >>= fun value => next >>= fun rest =>
      Pure.pure (join value rest)) := by
  intro noted success
  obtain ⟨earlier, later, first, second, rfl⟩ := Conversion.join_eq_ok.mp success
  have numbered := numbered earlier first
  have numbered' := numbered' later second
  constructor
  · have text := joined _ _ _ _ numbered.1 numbered'.1
    rw [← List.map_append] at text
    exact text
  · rw [List.map_append, numbered.2, numbered'.2, ← List.map_append]
    rfl

end Numbers

theorem NumbersContent.append {first second : List Content} {found found' : List Numbering}
    (numbered : NumbersContent first found) (numbered' : NumbersContent second found') :
    NumbersContent (first ++ second) (found ++ found') := by
  refine ⟨?_, List.forall_mem_append.mpr ⟨numbered.2, numbered'.2⟩⟩
  rw [contentNumberings_append, numbered.1, numbered'.1]

theorem NumbersContent.paragraph (paragraph : Paragraph) :
    NumbersContent [.paragraph paragraph] paragraph.numbering.toList := by
  refine ⟨?_, List.forall_mem_singleton.mpr trivial⟩
  rw [contentNumberings, List.flatMap_singleton, numberings, Content.paragraphs]
  cases numbered : paragraph.numbering <;> simp [numbered]

theorem NumbersContent.mathParagraphs (lines : List (List Math.Run)) :
    NumbersContent (lines.map fun runs => .paragraph { children := [.math runs] }) [] := by
  induction lines with
  | nil => exact ⟨rfl, List.forall_mem_nil _⟩
  | cons runs lines ih => exact (NumbersContent.paragraph { children := [.math runs] }).append ih

theorem NumbersContent.inline (item : Inline) : NumbersContent [.inline item] [] :=
  ⟨rfl, List.forall_mem_singleton.mpr trivial⟩

def NumbersRows (rows : List Row) (_ : List Numbering) : Prop :=
  numberings (rowParagraphs rows) = []

def NumbersCells (cells : List Cell) (_ : List Numbering) : Prop :=
  numberings (cellParagraphs cells) = []

def NumbersBody (body : List Paragraph) (found : List Numbering) : Prop :=
  numberings body = found

mutual

theorem convertNode_numbers {context : Context} {around : List Bool} (isIn : context.IsIn around)
    (node : Node) :
    Numbers (node.marking around) NumbersContent (convertNode context node) := by
  cases node with
  | paragraph children =>
    refine (convertNodes_numbers isIn children).below fun contents _ => ?_
    have own := NumbersContent.paragraph (context.paragraph (toInlines contents))
    have numbering : (context.paragraph (toInlines contents)).numbering.toList
        = (listMark? around).toList.map ListMark.numbering := by
      rw [Context.paragraph, isIn.numbering]
      cases listMark? around <;> rfl
    rwa [numbering] at own
  | heading depth children =>
    exact (convertNodes_numbers isIn children).below fun _ _ => .paragraph _
  | footnote children =>
    exact (convertNodes_numbers isIn children).below fun _ _ => .paragraph _
  | link url title children =>
    exact (convertNodes_numbers isIn children).below fun _ _ => .inline _
  | blockquote children =>
    have inside : context.quoted.IsIn around := isIn
    exact convertNodes_numbers inside children
  | list ordered start spread children =>
    exact convertItems_numbers (isIn.listed (ordered.getD false)) children
  | emphasis children =>
    have inside : context.emphasized.IsIn around := isIn
    exact convertNodes_numbers inside children
  | strong children =>
    have inside : context.strong.IsIn around := isIn
    exact convertNodes_numbers inside children
  | delete children =>
    have inside : context.deleted.IsIn around := isIn
    exact convertNodes_numbers inside children
  | table align children =>
    refine (convertRows_numbers isIn align (context.preset.bind TablePreset.header)
      (context.preset.bind TablePreset.body) children).below fun rows none => ?_
    refine ⟨?_, List.forall_mem_singleton.mpr none⟩
    rw [contentNumberings, List.flatMap_singleton]
    exact none
  | footnoteDefinition identifier label children =>
    intro noted success
    obtain ⟨body, _, first, rest, rfl⟩ := Conversion.bind_eq_ok.mp success
    obtain ⟨_, _, defined, last, rfl⟩ := Conversion.bind_eq_ok.mp rest
    obtain rfl := Conversion.pure_eq_ok.mp last
    obtain rfl := Except.ok.inj defined
    have inside := convertBody_numbers isIn children body first
    refine ⟨⟨rfl, List.forall_mem_nil _⟩, ?_⟩
    have own : numberings body.value = _ := inside.1
    simp only [Node.marking, Marking.define, List.map_append, inside.2, List.map_cons, List.map_nil,
      own, List.append_nil]
  | image url title alt =>
    simp only [convertNode]
    split
    · exact .pure (.inline _)
    · exact .fail
  | footnoteReference identifier label =>
    intro noted success
    simp only [convertNode] at success
    split at success
    · obtain ⟨_, _, referred, last, rfl⟩ := Conversion.bind_eq_ok.mp success
      obtain rfl := Conversion.pure_eq_ok.mp last
      obtain rfl := Except.ok.inj referred
      exact ⟨.inline _, rfl⟩
    · exact absurd success Conversion.fail_ne_ok
  | math value => exact .pure (.mathParagraphs _)
  | text _ | inlineCode _ | lineBreak | inlineMath _ => exact .pure (.inline _)
  | html _ | code _ _ _ | thematicBreak => exact .pure (.paragraph _)
  | yaml _ | toml _ | definition _ _ _ _ | linkReference _ _ _ _ | imageReference _ _ _ _ =>
    exact .pure ⟨rfl, List.forall_mem_nil _⟩
  | root _ | listItem _ _ _ | tableRow _ | tableCell _ | unknown => exact .fail

theorem convertNodes_numbers {context : Context} {around : List Bool} (isIn : context.IsIn around)
    (nodes : List Node) :
    Numbers (markAll around nodes) NumbersContent (convertNodes context nodes) := by
  cases nodes with
  | nil => exact .pure ⟨rfl, List.forall_mem_nil _⟩
  | cons node nodes =>
    exact (convertNode_numbers isIn node).append (convertNodes_numbers isIn nodes)
      fun _ _ _ _ first rest => first.append rest

theorem convertItems_numbers {context : Context} {around : List Bool} (isIn : context.IsIn around)
    (nodes : List Node) :
    Numbers (markAll around nodes) NumbersContent (convertItems context nodes) := by
  cases nodes with
  | nil => exact .pure ⟨rfl, List.forall_mem_nil _⟩
  | cons node nodes =>
    have rest := convertItems_numbers isIn nodes
    cases node with
    | listItem checked spread children =>
      exact (convertNodes_numbers (isIn.item checked) children).append rest
        fun _ _ _ _ first rest => first.append rest
    | _ =>
      exact (convertNode_numbers isIn _).append rest fun _ _ _ _ first rest => first.append rest

theorem convertRows_numbers {context : Context} {around : List Bool} (isIn : context.IsIn around)
    (align : List (Option Markdown.ColumnAlignment)) (first others : Option TablePart)
    (nodes : List Node) :
    Numbers (markRows around nodes) NumbersRows (convertRows context align first others nodes) := by
  cases nodes with
  | nil => exact .pure rfl
  | cons node nodes =>
    have rest := convertRows_numbers isIn align others others nodes
    cases node with
    | tableRow children =>
      refine (convertCells_numbers isIn first align children).append rest
        fun cells rows _ _ (inCells : _ = _) (inRows : _ = _) => ?_
      rw [NumbersRows, rowParagraphs, numberings_append, inCells, inRows]
      rfl
    | _ => exact rest

theorem convertCells_numbers {context : Context} {around : List Bool} (isIn : context.IsIn around)
    (part : Option TablePart) (align : List (Option Markdown.ColumnAlignment))
    (nodes : List Node) :
    Numbers (markCells around nodes) NumbersCells (convertCells context part align nodes) := by
  cases nodes with
  | nil => exact .pure rfl
  | cons node nodes =>
    have rest := convertCells_numbers isIn part align.tail nodes
    cases node with
    | tableCell children =>
      exact (convertNodes_numbers isIn children).append rest fun _ _ _ _ _ inCells => inCells
    | _ => exact rest

theorem convertBody_numbers {context : Context} {around : List Bool} (isIn : context.IsIn around)
    (nodes : List Node) :
    Numbers (markAll around nodes) NumbersBody (convertBody context nodes) := by
  cases nodes with
  | nil => exact .pure rfl
  | cons node nodes =>
    refine (convertNode_numbers isIn node).append (convertBody_numbers isIn nodes)
      fun contents body _ _ (inContents : _ ∧ _) (inBody : _ = _) => ?_
    rw [NumbersBody, numberings_append, inBody, ← inContents.1]
    exact congrArg (· ++ _) (footnoteBody_numberings [] inContents.2)

end

end WordExport
