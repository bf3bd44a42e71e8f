import WordExport.Proofs.Package.Relations
import WordExport.Proofs.Package.Tags

set_option autoImplicit false

namespace WordExport

open Xml (Node Tag)
open Xml.Node (childTags)

/-- The ids of the footnotes that a tree refers to, in order. -/
def Xml.Node.noteReferences (root : Node) : List (Option String) :=
  (root.tags.filter fun tag => tag.name == "w:footnoteReference").map fun tag =>
    tag.attributes.lookup "w:id"

/-- A footnote, or a separator, which has a type. -/
structure NoteEntry where
  id : Option String
  type : Option String
  paragraphs : List Node

def NoteEntry.ofNode? : Node → Option NoteEntry
  | .element name attributes children =>
    if name = "w:footnote" then
      some ⟨attributes.lookup "w:id", attributes.lookup "w:type", children⟩
    else none
  | _ => none

def noteEntries (parts : List Part) : List NoteEntry :=
  (childrenOf parts "word/footnotes.xml").filterMap NoteEntry.ofNode?

/-- The references in a part. -/
def noteReferencesOf (parts : List Part) (name : String) : List (Option String) :=
  ((rootOf? parts name).map Node.noteReferences).getD []

/-- A paragraph in the style of footnotes shows the given markup. -/
def IsNoteParagraph (paragraph : Node) (shown : List Node) : Prop :=
  ∃ formats, paragraph
    = .element "w:p" [] (.element "w:pPr" [] (valueLeaf "w:pStyle" "FootnoteText" :: formats) :: shown)

/-- The one mark of a footnote comes before everything else that its first paragraph shows. -/
structure MarkedOnce (paragraphs : List Node) : Prop where
  styled : ∀ paragraph ∈ paragraphs, ∃ shown, IsNoteParagraph paragraph shown
  first : ∃ paragraph others items,
    paragraphs = paragraph :: others ∧ IsNoteParagraph paragraph (footnoteMark :: items)
  once : ((childTags paragraphs).filter fun tag => tag.name == "w:footnoteRef").length = 1

/-- The entry of a footnote goes by its number. -/
structure NoteEntry.IsFor (footnote : Nat × List Paragraph) (entry : NoteEntry) : Prop where
  id : entry.id = some (toString footnote.1)
  type : entry.type = none
  marked : MarkedOnce entry.paragraphs

/-- A reference is one of the tags that the markup bears. -/
theorem Bears.reference {notes : List Tag} {root : Node} (borne : Bears notes [root])
    {reference : Option String} (mem : reference ∈ root.noteReferences) :
    ∃ tag ∈ notes, tag.name = "w:footnoteReference" ∧ reference = tag.attributes.lookup "w:id" := by
  obtain ⟨tag, found, rfl⟩ := List.mem_map.mp mem
  obtain ⟨listed, named⟩ := List.mem_filter.mp found
  have note : isNoteTag tag = true := by
    rw [isNoteTag, named, Bool.true_or]
  refine ⟨tag, ?_, eq_of_beq named, rfl⟩
  rw [← borne.notes, childTags, childTags, List.append_nil]
  exact List.mem_filter.mpr ⟨listed, note⟩

/-- The marks in markup are those among the tags that it bears. -/
theorem Bears.marks {notes : List Tag} {nodes : List Node} (borne : Bears notes nodes) :
    ((childTags nodes).filter fun tag => tag.name == "w:footnoteRef")
      = notes.filter fun tag => tag.name == "w:footnoteRef" := by
  rw [← borne.notes, List.filter_filter]
  refine List.filter_congr fun tag _ => ?_
  rw [isNoteTag]
  cases tag.name == "w:footnoteRef" <;> simp

theorem marks_referenceTags (leaves : List Inline) :
    ((referenceTags leaves).filter fun tag => tag.name == "w:footnoteRef") = [] := by
  refine List.filter_eq_nil_iff.mpr fun tag mem => ?_
  obtain ⟨id, _, rfl⟩ := List.mem_map.mp mem
  change ¬("w:footnoteReference" == "w:footnoteRef") = true
  decide

theorem mem_of_mem_referenceTags {leaves : List Inline} {tag : Tag}
    (mem : tag ∈ referenceTags leaves) :
    ∃ id, tag = referenceTag id ∧ .footnoteReference id ∈ leaves := by
  obtain ⟨id, listed, rfl⟩ := List.mem_map.mp mem
  obtain ⟨item, shown, isReference⟩ := List.mem_filterMap.mp listed
  cases item with
  | footnoteReference other =>
    obtain rfl := Option.some.inj isReference
    exact ⟨_, rfl, shown⟩
  | _ => cases isReference

theorem body_noteReferences (document : Document) :
    Yields (fun root => ∀ reference ∈ root.noteReferences, ∃ id, reference = some (toString id)
      ∧ .footnoteReference id ∈ blockLeaves document.sections.flatten) (bodyPart document) := by
  intro ledger reference mem
  obtain ⟨tag, listed, _, rfl⟩ := (bodyPart_bears document ledger).reference mem
  obtain ⟨id, rfl, shown⟩ := mem_of_mem_referenceTags listed
  exact ⟨id, rfl, shown⟩

theorem footnotes_noteReferences (document : Document) :
    Yields (fun root => ∀ reference ∈ root.noteReferences, ∃ id, reference = some (toString id)
      ∧ ∃ footnote ∈ document.footnotes,
        .footnoteReference id ∈ footnote.2.flatMap Paragraph.leaves) (footnotesPart document) := by
  intro ledger reference mem
  obtain ⟨tag, listed, named, rfl⟩ := (footnotesPart_bears document ledger).reference mem
  obtain ⟨footnote, stored, inside⟩ := List.mem_flatMap.mp listed
  rcases List.mem_cons.mp inside with rfl | inside
  · exact absurd named (by decide)
  · obtain ⟨id, rfl, shown⟩ := mem_of_mem_referenceTags inside
    exact ⟨id, rfl, footnote, stored, shown⟩

section

variable (instances : List (String × NumberingInstance))

theorem paragraphMarkup_note (lead : List Node) (paragraph : Paragraph) :
    Yields (fun node => ∃ items, IsNoteParagraph node (lead ++ items))
      (paragraph.markup instances (some "FootnoteText") lead) :=
  fun _ => ⟨_, _, rfl⟩

theorem footnoteParagraphs_styled (lead : List Node) (paragraphs : List Paragraph) :
    Yields (fun nodes => ∀ node ∈ nodes, ∃ shown, IsNoteParagraph node shown)
      (footnoteParagraphs instances lead paragraphs) := by
  induction paragraphs generalizing lead with
  | nil => exact .pure (List.forall_mem_nil _)
  | cons paragraph paragraphs ih =>
    refine (paragraphMarkup_note instances lead paragraph).append (ih []) fun first rest => ?_
    rintro ⟨items, styled⟩ later
    exact List.forall_mem_cons.mpr ⟨⟨_, styled⟩, later⟩

theorem footnoteParagraphs_marked (paragraph : Paragraph) (paragraphs : List Paragraph) :
    Yields MarkedOnce (footnoteParagraphs instances [footnoteMark] (paragraph :: paragraphs)) := by
  intro ledger
  have mark : Bears [markTag] [footnoteMark] := ⟨rfl, rfl⟩
  have borne := footnoteParagraphs_bears instances mark paragraph paragraphs ledger
  constructor
  · exact footnoteParagraphs_styled instances [footnoteMark] (paragraph :: paragraphs) ledger
  · obtain ⟨items, first⟩ := paragraphMarkup_note instances [footnoteMark] paragraph ledger
    exact ⟨_, _, items, rfl, first⟩
  · rw [borne.marks]
    exact congrArg (· + 1) (List.length_eq_zero_iff.mpr (marks_referenceTags _))

theorem footnoteMarkup_entry (id : Nat) (body : List Paragraph) :
    Yields (fun node => ∃ entry, NoteEntry.ofNode? node = some entry ∧ entry.IsFor (id, body))
      (footnoteMarkup instances id body) := by
  have written (paragraphs : List Node) (marked : MarkedOnce paragraphs) :
      ∃ entry, NoteEntry.ofNode? (.element "w:footnote" [("w:id", toString id)] paragraphs)
        = some entry ∧ entry.IsFor (id, body) := ⟨_, rfl, rfl, rfl, marked⟩
  cases body with
  | nil => exact (footnoteParagraphs_marked instances {} []).map written
  | cons paragraph paragraphs =>
    exact (footnoteParagraphs_marked instances paragraph paragraphs).map written

theorem footnotesMarkup_entries (footnotes : List (Nat × List Paragraph)) :
    Yields (fun nodes => List.Forall₂ NoteEntry.IsFor footnotes
      (nodes.filterMap NoteEntry.ofNode?)) (footnotesMarkup instances footnotes) := by
  induction footnotes with
  | nil => exact .pure .nil
  | cons footnote footnotes ih =>
    have first := footnoteMarkup_entry instances footnote.1 footnote.2
    refine first.append ih fun node nodes => ?_
    rintro ⟨entry, found, isFor⟩ rest
    rw [List.filterMap_cons_some found]
    exact .cons isFor rest

end

def separatorEntry (kind id : String) : NoteEntry where
  id := some id
  type := some kind
  paragraphs := (separatorMarkup kind id).children

/-- The separators come first, and after them the footnotes in their order. -/
theorem footnotesPart_entries (document : Document) :
    Yields (fun root => ∃ kept, root.children.filterMap NoteEntry.ofNode?
        = separatorEntry "separator" "-1" :: separatorEntry "continuationSeparator" "0" :: kept
      ∧ List.Forall₂ NoteEntry.IsFor document.footnotes kept) (footnotesPart document) := by
  refine (footnotesMarkup_entries _ document.footnotes).map fun nodes entries => ?_
  exact ⟨_, rfl, entries⟩

end WordExport
