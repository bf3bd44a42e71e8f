import WordExport.Package.Body
import WordExport.Proofs.Package.Plain
import WordExport.Proofs.Package.Recording

set_option autoImplicit false

namespace WordExport

open Xml (Node)
open Xml.Node (childMarks)

theorem childMarks_append (first second : List Node) :
    childMarks (first ++ second) = childMarks first ++ childMarks second := by
  induction first with
  | nil => rfl
  | cons child children ih =>
    rw [List.cons_append, childMarks, childMarks, ih, List.append_assoc]

theorem childMarks_singleton (child : Node) : childMarks [child] = child.marks :=
  List.append_nil _

theorem marks_element (name : String) (children : List Node) :
    (Node.element name [] children).marks = childMarks children :=
  rfl

/-- Markup that names no relationship and numbers no drawing. -/
def Unmarked (nodes : List Node) : Prop :=
  childMarks nodes = []

theorem Unmarked.nil : Unmarked [] := rfl

theorem Unmarked.append {first second : List Node} (unmarked : Unmarked first)
    (next : Unmarked second) : Unmarked (first ++ second) := by
  rw [Unmarked, childMarks_append, unmarked, next, List.append_nil]

theorem Plain.marks_eq_nil {node : Node} (plain : Plain [node]) : node.marks = [] := by
  rw [← childMarks_singleton]
  exact plain.unmarked

theorem drawingMarkup_marks (image : Image) (number : Nat) (name relationship : String) :
    (drawingMarkup image number name relationship).marks
      = [.drawing (toString number), .relationship "r:embed" relationship] :=
  rfl

theorem imageMarkup_records (image : Image) :
    Records [.image image] Node.marks (imageMarkup image) := by
  intro ledger
  constructor
  · rfl
  · exact drawingMarkup_marks image (ledger.media.length + 1) _ _

theorem relate_records (url : String) :
    Records [.link url] (fun id => [.relationship "r:id" id]) (Writing.relate .hyperlink url) := by
  intro ledger
  refine ⟨?_, rfl⟩
  rw [Ledger.after]
  exact congrArg (Ledger.mk _) (List.append_nil _).symm

mutual

theorem inlineMarkup_records (format : RunFormat) (item : Inline) :
    Records item.uses Node.marks (inlineMarkup format item) := by
  cases item with
  | text run => exact .pure (textRun_plain format run).marks_eq_nil
  | image image => exact imageMarkup_records image
  | link url children =>
    have inside := inlinesMarkup_records { format with hyperlink := true } children
    exact (relate_records url).append inside fun _ _ => rfl
  | math runs => exact .pure (runsMarkup_bare runs).plain.unmarked
  | checkbox checked => exact .pure rfl
  | footnoteReference id => exact .pure rfl

theorem inlinesMarkup_records (format : RunFormat) (items : List Inline) :
    Records (itemUses items) childMarks (inlinesMarkup format items) := by
  cases items with
  | nil => exact .pure rfl
  | cons item items =>
    have first := inlineMarkup_records format item
    have rest := inlinesMarkup_records format items
    exact first.append rest fun _ _ => rfl

end

section

variable (instances : List (String × NumberingInstance))

theorem paragraphMarkup_records (style : Option String) {lead : List Node} (plain : Unmarked lead)
    (paragraph : Paragraph) :
    Records paragraph.uses Node.marks (paragraph.markup instances style lead) := by
  have items := inlinesMarkup_records
    { bold := (paragraph.properties.map ParagraphProperties.bold).getD false } paragraph.children
  apply items.map
  intro written
  have properties : Unmarked (Xml.elementUnlessEmpty "w:pPr"
      (paragraph.propertyMarkup instances style)) :=
    (propertyMarkup_plain instances style paragraph).unmarked
  rw [marks_element, childMarks_append, Unmarked.append properties plain, List.nil_append]

mutual

theorem blockMarkup_records (block : Block) :
    Records block.uses Node.marks (blockMarkup instances block) := by
  cases block with
  | paragraph paragraph => exact paragraphMarkup_records instances none .nil paragraph
  | table table =>
    obtain ⟨rows, options⟩ := table
    apply (rowsMarkup_records rows).map
    intro written
    rw [marks_element, childMarks, childMarks, (tableProperties_bare options).plain.marks_eq_nil,
      (tableGrid_bare rows).plain.marks_eq_nil]
    rfl

theorem rowsMarkup_records (rows : List Row) :
    Records (rowUses rows) childMarks (rowsMarkup instances rows) := by
  match rows with
  | [] => exact .pure rfl
  | ⟨cells, properties⟩ :: rows =>
    apply (cellsMarkup_records cells).append (rowsMarkup_records rows)
    intro written rest
    have plain := (rowProperties_bare properties).plain.unmarked
    rw [childMarks, marks_element, childMarks_append, plain, List.nil_append]

theorem cellsMarkup_records (cells : List Cell) :
    Records (cellUses cells) childMarks (cellsMarkup instances cells) := by
  match cells with
  | [] => exact .pure rfl
  | ⟨[], properties⟩ :: cells =>
    have empty : Records [] (fun _ => []) (blocksMarkup instances []) := .pure rfl
    apply empty.append (cellsMarkup_records cells)
    intro written rest
    have plain := (cellProperties_bare properties).plain.unmarked
    rw [childMarks, marks_element, childMarks_append, plain]
    rfl
  | ⟨block :: blocks, properties⟩ :: cells =>
    apply (blocksMarkup_records (block :: blocks)).append (cellsMarkup_records cells)
    intro written rest
    have plain := (cellProperties_bare properties).plain.unmarked
    rw [childMarks, marks_element, childMarks_append, plain]
    rfl

theorem blocksMarkup_records (blocks : List Block) :
    Records (blockUses blocks) childMarks (blocksMarkup instances blocks) := by
  match blocks with
  | [] => exact .pure rfl
  | block :: blocks =>
    have first := blockMarkup_records block
    have rest := blocksMarkup_records blocks
    exact first.append rest fun _ _ => rfl

end

theorem footnoteParagraphs_records {lead : List Node} (plain : Unmarked lead)
    (paragraphs : List Paragraph) :
    Records (paragraphs.flatMap Paragraph.uses) childMarks
      (footnoteParagraphs instances lead paragraphs) := by
  induction paragraphs generalizing lead with
  | nil => exact .pure rfl
  | cons paragraph paragraphs ih =>
    have first := paragraphMarkup_records instances (some "FootnoteText") plain paragraph
    exact first.append (ih .nil) fun _ _ => rfl

theorem footnoteMarkup_records (id : Nat) (body : List Paragraph) :
    Records (body.flatMap Paragraph.uses) Node.marks (footnoteMarkup instances id body) := by
  have marked : Unmarked [footnoteMark] := rfl
  cases body with
  | nil => exact (footnoteParagraphs_records instances marked [{}]).map fun _ => rfl
  | cons paragraph paragraphs =>
    exact (footnoteParagraphs_records instances marked (paragraph :: paragraphs)).map fun _ => rfl

theorem footnotesMarkup_records (footnotes : List (Nat × List Paragraph)) :
    Records (footnotes.flatMap fun (_, body) => body.flatMap Paragraph.uses) childMarks
      (footnotesMarkup instances footnotes) := by
  induction footnotes with
  | nil => exact .pure rfl
  | cons footnote footnotes ih =>
    have first := footnoteMarkup_records instances footnote.1 footnote.2
    exact first.append ih fun _ _ => rfl

end

theorem bodyPart_records (document : Document) :
    Records document.bodyUses Node.marks (bodyPart document) := by
  apply (blocksMarkup_records _ document.sections.flatten).map
  intro blocks
  have namespaces : bodyNamespaces.filterMap (Mark.ofAttribute? "w:document") = [] := rfl
  have colored (color : String) : Plain [.leaf "w:background" [("w:color", color)]] := rfl
  have background : Unmarked (optionalLeaf document.background fun color =>
      .leaf "w:background" [("w:color", color)]) := Plain.unmarked (.optional colored)
  have page : Unmarked [pageMarkup] := rfl
  rw [Node.marks, namespaces, List.nil_append, childMarks_append, background, List.nil_append,
    childMarks_singleton, marks_element, childMarks_append, page, List.append_nil]

theorem footnotesPart_records (document : Document) :
    Records document.footnoteUses Node.marks (footnotesPart document) :=
  (footnotesMarkup_records _ document.footnotes).map fun _ => rfl

end WordExport
