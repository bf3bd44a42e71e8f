import WordExport.Proofs.Package.Elements
import WordExport.Proofs.Package.Names

set_option autoImplicit false

namespace WordExport

open Xml (Item Node Tag)
open Xml.Node (childItems)

mutual

/-- The paragraphs of a block in order. Where there has to be one, an empty paragraph is written. -/
def Block.paragraphs : Block → List Paragraph
  | .paragraph paragraph => [paragraph]
  | .table ⟨rows, _⟩ => rowParagraphs rows

def rowParagraphs : List Row → List Paragraph
  | [] => []
  | ⟨cells, _⟩ :: rows => cellParagraphs cells ++ rowParagraphs rows

def cellParagraphs : List Cell → List Paragraph
  | [] => []
  | ⟨children, _⟩ :: cells =>
    (if children.isEmpty then [{}] else blockParagraphs children) ++ cellParagraphs cells

def blockParagraphs : List Block → List Paragraph
  | [] => []
  | block :: blocks => block.paragraphs ++ blockParagraphs blocks

end

def Document.paragraphs (document : Document) : List Paragraph :=
  blockParagraphs document.sections.flatten

def noteParagraphs (body : List Paragraph) : List Paragraph :=
  if body.isEmpty then [{}] else body

/-- What holds paragraphs, from the root of a part inwards. -/
def outerNames : List String :=
  ["w:document", "w:body", "w:tbl", "w:tr", "w:tc", "w:footnotes", "w:footnote"]

/-- A query finds in each paragraph what the paragraph gives, after what is found in the markup that
goes before its items. -/
structure Query.Gathers {α : Type} (query : Query α) (instances : List (String × NumberingInstance))
    (gives : Paragraph → List α) : Prop where
  content : PicksContent query.picks
  enters : ∀ name ∈ outerNames, query.enters name = true
  filler : query.found [.leaf "w:p"] = gives {}
  paragraph : ∀ style, ∀ lead ∈ [[], [footnoteMark]], ∀ paragraph,
    Yields (fun node => query.found [node] = query.found lead ++ gives paragraph)
      (Paragraph.markup instances style lead paragraph)

namespace Query.Gathers

variable {α : Type} {query : Query α} {instances : List (String × NumberingInstance)}
  {gives : Paragraph → List α}

theorem outer (gathers : query.Gathers instances gives) {name : String} (outer : name ∈ outerNames)
    {attributes : List (String × String)} {children : List Node} :
    query.found [.element name attributes children] = query.found children := by
  refine found_element (gathers.enters name outer) (Bool.eq_false_iff.mpr fun picked => ?_)
  have none : ∀ name ∈ outerNames, name ∉ ["w:p", "w:r", "w:numPr"] := by decide
  exact none name outer (gathers.content _ _ picked)

mutual

theorem block (gathers : query.Gathers instances gives) (block : Block) :
    Yields (fun node => query.found [node] = block.paragraphs.flatMap gives)
      (blockMarkup instances block) := by
  cases block with
  | paragraph paragraph =>
    rw [Block.paragraphs, List.flatMap_singleton]
    exact gathers.paragraph none [] List.mem_cons_self paragraph
  | table table =>
    obtain ⟨rows, options⟩ := table
    refine (gathers.rows rows).map fun written gathered => ?_
    have layout : Bare [tableProperties options, tableGrid rows] :=
      (tableProperties_bare options).cons (tableGrid_bare rows)
    have split := query.found_append [tableProperties options, tableGrid rows] written
    rw [layout.found_eq_nil gathers.content, gathered, List.nil_append] at split
    exact (gathers.outer (by decide)).trans split

theorem rows (gathers : query.Gathers instances gives) (rows : List Row) :
    Yields (fun nodes => query.found nodes = (rowParagraphs rows).flatMap gives)
      (rowsMarkup instances rows) := by
  match rows with
  | [] => exact .pure rfl
  | ⟨cells, properties⟩ :: rows =>
    refine (gathers.cells cells).append (gathers.rows rows)
      fun written rest gathered gathered' => ?_
    rw [query.found_cons, gathers.outer (by decide), query.found_append,
      (rowProperties_bare properties).found_eq_nil gathers.content, List.nil_append, gathered,
      gathered', rowParagraphs, List.flatMap_append]

theorem cells (gathers : query.Gathers instances gives) (cells : List Cell) :
    Yields (fun nodes => query.found nodes = (cellParagraphs cells).flatMap gives)
      (cellsMarkup instances cells) := by
  match cells with
  | [] => exact .pure rfl
  | ⟨children, properties⟩ :: cells =>
    refine (gathers.blocks children).append (gathers.cells cells)
      fun written rest gathered gathered' => ?_
    have held : query.found (if children.isEmpty then [.leaf "w:p"] else written)
        = (if children.isEmpty then [{}] else blockParagraphs children).flatMap gives := by
      split
      · rw [gathers.filler, List.flatMap_singleton]
      · exact gathered
    rw [query.found_cons, gathers.outer (by decide), query.found_append,
      (cellProperties_bare properties).found_eq_nil gathers.content, List.nil_append, held,
      gathered', cellParagraphs, List.flatMap_append]

theorem blocks (gathers : query.Gathers instances gives) (blocks : List Block) :
    Yields (fun nodes => query.found nodes = (blockParagraphs blocks).flatMap gives)
      (blocksMarkup instances blocks) := by
  match blocks with
  | [] => exact .pure rfl
  | block :: blocks =>
    refine (gathers.block block).append (gathers.blocks blocks)
      fun node nodes gathered gathered' => ?_
    rw [query.found_cons, gathered, gathered', blockParagraphs, List.flatMap_append]

end

theorem body {document : Document}
    (gathers : query.Gathers (numberingInstances document.numbering) gives) :
    Yields (fun root => query.found [root] = document.paragraphs.flatMap gives)
      (bodyPart document) := by
  refine (gathers.blocks document.sections.flatten).map fun blocks gathered => ?_
  have colored (color : String) : Bare [.leaf "w:background" [("w:color", color)]] := rfl
  have background : Bare (optionalLeaf document.background fun color =>
      .leaf "w:background" [("w:color", color)]) := .optional colored
  have page : Bare [pageMarkup] := rfl
  rw [gathers.outer (by decide), query.found_append, background.found_eq_nil gathers.content,
    gathers.outer (by decide), query.found_append, page.found_eq_nil gathers.content, gathered,
    List.nil_append, List.append_nil]
  rfl

theorem leadParagraphs (gathers : query.Gathers instances gives) (lead : List Node)
    (isLead : lead ∈ [[], [footnoteMark]]) (paragraph : Paragraph) (paragraphs : List Paragraph) :
    Yields (fun nodes => query.found nodes
        = query.found lead ++ (paragraph :: paragraphs).flatMap gives)
      (footnoteParagraphs instances lead (paragraph :: paragraphs)) := by
  have first := gathers.paragraph (some "FootnoteText") lead isLead paragraph
  induction paragraphs generalizing lead paragraph with
  | nil =>
    rw [List.flatMap_singleton]
    exact first.map fun node gathered => gathered
  | cons next paragraphs ih =>
    have rest := ih [] List.mem_cons_self next (gathers.paragraph _ [] List.mem_cons_self next)
    refine first.append rest fun node nodes gathered gathered' => ?_
    rw [query.found_cons, gathered, gathered', List.append_assoc]
    rfl

end Query.Gathers

/-- An entry of a footnote, which unlike a separator has no type. -/
def isFootnote (item : Item) : Bool :=
  item.isNamed "w:footnote" && (item.attribute? "w:type").isNone

/-- The entry of a footnote has its number. Below it a query finds what the mark of a footnote and
its paragraphs give. -/
def Query.IsEntry {α : Type} (query : Query α) (gives : Paragraph → List α)
    (footnote : Nat × List Paragraph) (entry : Item) : Prop :=
  entry.attribute? "w:id" = some (toString footnote.1)
    ∧ query.within entry
      = query.found [footnoteMark] ++ (noteParagraphs footnote.2).flatMap gives

namespace Query.Gathers

variable {α : Type} {query : Query α} {instances : List (String × NumberingInstance)}
  {gives : Paragraph → List α}

theorem footnote (gathers : query.Gathers instances gives) (id : Nat) (body : List Paragraph) :
    Yields (fun node => ∃ entry, node.items = [entry] ∧ isFootnote entry = true
        ∧ query.IsEntry gives (id, body) entry) (footnoteMarkup instances id body) := by
  obtain ⟨paragraph, paragraphs, same⟩ : ∃ paragraph paragraphs,
      noteParagraphs body = paragraph :: paragraphs := by
    cases body with
    | nil => exact ⟨_, _, rfl⟩
    | cons paragraph paragraphs => exact ⟨_, _, rfl⟩
  unfold footnoteMarkup
  rw [show (if body.isEmpty then [{}] else body) = paragraph :: paragraphs from same]
  refine (gathers.leadParagraphs [footnoteMark] (by simp) paragraph paragraphs).map
    fun nodes gathered => ⟨_, rfl, rfl, congrArg some (visible_toString id), ?_⟩
  have whole : query.found [.element "w:footnote" [("w:id", toString id)] nodes]
      = query.found nodes := gathers.outer (by decide)
  rw [same, ← gathered, ← whole]
  exact query.within_of_items rfl

/-- Nothing is found among the footnotes beside what is found in their entries. -/
theorem footnotes (gathers : query.Gathers instances gives)
    (footnotes : List (Nat × List Paragraph)) :
    Yields (fun nodes => List.Forall₂ (query.IsEntry gives) footnotes
        ((childItems nodes).filter isFootnote)
      ∧ query.found nodes = ((childItems nodes).filter isFootnote).flatMap query.within)
      (footnotesMarkup instances footnotes) := by
  induction footnotes with
  | nil => exact .pure ⟨.nil, rfl⟩
  | cons footnote footnotes ih =>
    refine (gathers.footnote footnote.1 footnote.2).append ih fun node nodes => ?_
    rintro ⟨entry, single, isFootnoteEntry, isEntry⟩ ⟨entries, below⟩
    rw [childItems, single, List.singleton_append, List.filter_cons_of_pos isFootnoteEntry]
    refine ⟨.cons isEntry entries, ?_⟩
    rw [query.found_cons, below, List.flatMap_cons, query.within_of_items single]

variable {document : Document} {mode : OutputMode} {root : Item}

theorem within_document (gathers : query.Gathers (numberingInstances document.numbering) gives)
    (read : itemOf? (document.pack mode).parts "word/document.xml" = some root) :
    query.within root = document.paragraphs.flatMap gives := by
  obtain ⟨ledger, found, readFound, items⟩ := itemOf?_document document mode
  obtain rfl := Option.some.inj (read.symm.trans readFound)
  exact (query.within_of_items items).trans (gathers.body ledger)

/-- The separators come first, and each footnote has its entry after them. -/
theorem within_footnotes (gathers : query.Gathers (numberingInstances document.numbering) gives)
    (read : itemOf? (document.pack mode).parts "word/footnotes.xml" = some root) :
    List.Forall₂ (query.IsEntry gives) document.footnotes (root.children.filter isFootnote)
      ∧ query.within root = query.found [separatorMarkup "separator" "-1",
          separatorMarkup "continuationSeparator" "0"]
        ++ (root.children.filter isFootnote).flatMap query.within := by
  obtain ⟨ledger, found, readFound, items⟩ := itemOf?_footnotes document mode
  obtain rfl := Option.some.inj (read.symm.trans readFound)
  obtain ⟨entries, below⟩ := gathers.footnotes document.footnotes ledger
  have children : root.children.filter isFootnote = (childItems (footnotesMarkup
      (numberingInstances document.numbering) document.footnotes ledger).1).filter isFootnote := by
    rw [← (List.cons.inj items).1]
    rfl
  rw [children]
  refine ⟨entries, (query.within_of_items items).trans ?_⟩
  rw [← below, ← query.found_append]
  exact gathers.outer (by decide)

end Query.Gathers

end WordExport
