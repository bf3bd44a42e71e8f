import WordExport.Package.Body
import WordExport.Proofs.Conversion.Reading
import WordExport.Proofs.Package.Plain

set_option autoImplicit false

namespace WordExport

open Xml (Node Tag)
open Xml.Node (childTags childTags_append)

def referenceTag (id : Nat) : Tag :=
  ⟨"w:footnoteReference", [("w:id", toString id)]⟩

def markTag : Tag :=
  ⟨"w:footnoteRef", []⟩

def Inline.noteId? : Inline → Option Nat
  | .footnoteReference id => some id
  | _ => none

/-- The references among leaf items, as tags. -/
def referenceTags (leaves : List Inline) : List Tag :=
  (leaves.filterMap Inline.noteId?).map referenceTag

theorem referenceTags_append (first second : List Inline) :
    referenceTags (first ++ second) = referenceTags first ++ referenceTags second := by
  rw [referenceTags, List.filterMap_append, List.map_append]
  rfl

/-- The tags of nodes are sound, and the given ones of them are about footnotes. -/
structure Bears (notes : List Tag) (nodes : List Node) : Prop where
  sound : (childTags nodes).all Tag.isSound = true
  notes : (childTags nodes).filter isNoteTag = notes

theorem Bears.sound_tags {notes : List Tag} {root : Node} (borne : Bears notes [root]) :
    root.tags.all Tag.isSound = true := by
  have tags : childTags [root] = root.tags := List.append_nil _
  rw [← tags]
  exact borne.sound

theorem Plain.bears {nodes : List Node} (plain : Plain nodes) : Bears [] nodes := by
  have quiet : ∀ tag ∈ childTags nodes, tag.isSound = true ∧ isNoteTag tag = false := by
    intro tag mem
    have tagPlain := List.all_eq_true.mp plain tag mem
    simp only [isPlainTag, isQuietTag, Bool.and_eq_true, Bool.not_eq_true'] at tagPlain
    exact tagPlain.1
  constructor
  · exact List.all_eq_true.mpr fun tag mem => (quiet tag mem).1
  · exact List.filter_eq_nil_iff.mpr fun tag mem => by simp [(quiet tag mem).2]

namespace Bears

variable {notes notes' : List Tag} {nodes : List Node}

theorem nil : Bears [] [] := ⟨rfl, rfl⟩

theorem append {nodes' : List Node} (borne : Bears notes nodes) (borne' : Bears notes' nodes') :
    Bears (notes ++ notes') (nodes ++ nodes') := by
  constructor
  · rw [childTags_append, List.all_append, borne.sound, borne'.sound]
    rfl
  · rw [childTags_append, List.filter_append, borne.notes, borne'.notes]

theorem cons {node : Node} (borne : Bears notes [node]) (borne' : Bears notes' nodes) :
    Bears (notes ++ notes') (node :: nodes) :=
  borne.append borne'

/-- Plain markup may go before and after other markup. -/
theorem after {plain : List Node} (quiet : Plain plain) (borne : Bears notes nodes) :
    Bears notes (plain ++ nodes) :=
  quiet.bears.append borne

theorem before {plain : List Node} (borne : Bears notes nodes) (quiet : Plain plain) :
    Bears notes (nodes ++ plain) := by
  have both := borne.append quiet.bears
  rwa [List.append_nil] at both

theorem element {name : String} {attributes : List (String × String)} {children : List Node}
    (quiet : isQuietTag ⟨name, attributes⟩ = true) (borne : Bears notes children) :
    Bears notes [.element name attributes children] := by
  rw [isQuietTag, Bool.and_eq_true, Bool.not_eq_true'] at quiet
  have tags : childTags [.element name attributes children]
      = ⟨name, attributes⟩ :: childTags children := List.append_nil _
  constructor
  · rw [tags, List.all_cons, quiet.1, borne.sound]
    rfl
  · rw [tags, List.filter_cons_of_neg (by rw [quiet.2]; decide), borne.notes]

end Bears

/-- What is written has a property, whatever was written before. -/
def Yields {α : Type} (holds : α → Prop) (write : Writing α) : Prop :=
  ∀ ledger, holds (write ledger).1

namespace Yields

variable {α β γ : Type} {holds : α → Prop}

theorem pure {value : α} (plain : holds value) : Yields holds (Pure.pure value) :=
  fun _ => plain

theorem map {holds' : β → Prop} {write : Writing α} {wrap : α → β} (written : Yields holds write)
    (wrapped : ∀ value, holds value → holds' (wrap value)) :
    Yields holds' (write >>= fun value => Pure.pure (wrap value)) :=
  fun ledger => wrapped _ (written ledger)

theorem append {holds' : β → Prop} {holds'' : γ → Prop} {write : Writing α} {next : Writing β}
    {join : α → β → γ} (written : Yields holds write) (written' : Yields holds' next)
    (joined : ∀ value rest, holds value → holds' rest → holds'' (join value rest)) :
    Yields holds'' (write >>= fun value => next >>= fun rest => Pure.pure (join value rest)) :=
  fun ledger => joined _ _ (written ledger) (written' _)

end Yields

theorem drawingMarkup_bears (image : Image) (number : Nat) (name relationship : String) :
    Bears [] [drawingMarkup image number name relationship] :=
  ⟨rfl, rfl⟩

mutual

theorem inlineMarkup_bears (format : RunFormat) (item : Inline) :
    Yields (fun node => Bears (referenceTags item.leaves) [node]) (inlineMarkup format item) := by
  cases item with
  | text run => exact .pure (textRun_plain format run).bears
  | image image =>
    intro ledger
    exact drawingMarkup_bears image _ _ _
  | link url children =>
    intro ledger
    have below := inlinesMarkup_bears { format with hyperlink := true } children
    exact .element rfl (below _)
  | math runs => exact .pure (.element rfl (runsMarkup_bare runs).plain.bears)
  | checkbox checked => exact .pure ⟨rfl, rfl⟩
  | footnoteReference id => exact .pure ⟨rfl, rfl⟩

theorem inlinesMarkup_bears (format : RunFormat) (items : List Inline) :
    Yields (Bears (referenceTags (itemLeaves items))) (inlinesMarkup format items) := by
  cases items with
  | nil => exact .pure .nil
  | cons item items =>
    rw [itemLeaves, referenceTags_append]
    have first := inlineMarkup_bears format item
    have rest := inlinesMarkup_bears format items
    exact first.append rest fun _ _ => Bears.cons

end

section

variable (instances : List (String × NumberingInstance))

theorem paragraphMarkup_bears (style : Option String) {lead : List Node} {marks : List Tag}
    (borne : Bears marks lead) (paragraph : Paragraph) :
    Yields (fun node => Bears (marks ++ referenceTags paragraph.leaves) [node])
      (paragraph.markup instances style lead) := by
  have items := inlinesMarkup_bears
    { bold := (paragraph.properties.map ParagraphProperties.bold).getD false } paragraph.children
  refine items.map fun written below => ?_
  have properties := propertyMarkup_plain instances style paragraph
  exact .element rfl ((Bears.after properties borne).append below)

mutual

theorem blockMarkup_bears (block : Block) :
    Yields (fun node => Bears (referenceTags block.leaves) [node]) (blockMarkup instances block) := by
  cases block with
  | paragraph paragraph => exact paragraphMarkup_bears instances none .nil paragraph
  | table table =>
    obtain ⟨rows, options⟩ := table
    refine (rowsMarkup_bears rows).map fun written below => ?_
    have grid := (tableProperties_bare options).plain.cons (tableGrid_bare rows).plain
    exact .element rfl (.after grid below)

theorem rowsMarkup_bears (rows : List Row) :
    Yields (Bears (referenceTags (rowLeaves rows))) (rowsMarkup instances rows) := by
  match rows with
  | [] => exact .pure .nil
  | ⟨cells, properties⟩ :: rows =>
    rw [rowLeaves, referenceTags_append]
    refine (cellsMarkup_bears cells).append (rowsMarkup_bears rows) fun written rest row below => ?_
    have plain := (rowProperties_bare properties).plain
    exact (Bears.element rfl (.after plain row)).cons below

theorem cellsMarkup_bears (cells : List Cell) :
    Yields (Bears (referenceTags (cellLeaves cells))) (cellsMarkup instances cells) := by
  match cells with
  | [] => exact .pure .nil
  | ⟨children, properties⟩ :: cells =>
    rw [cellLeaves, referenceTags_append]
    refine (blocksMarkup_bears children).append (cellsMarkup_bears cells)
      fun written rest cell below => ?_
    have plain := (cellProperties_bare properties).plain
    have blocks : Bears (referenceTags (blockLeaves children))
        (if children.isEmpty then [.leaf "w:p"] else written) := by
      cases children with
      | nil => exact ⟨rfl, rfl⟩
      | cons block blocks => exact cell
    exact (Bears.element rfl (.after plain blocks)).cons below

theorem blocksMarkup_bears (blocks : List Block) :
    Yields (Bears (referenceTags (blockLeaves blocks))) (blocksMarkup instances blocks) := by
  match blocks with
  | [] => exact .pure .nil
  | block :: blocks =>
    rw [blockLeaves, referenceTags_append]
    have first := blockMarkup_bears block
    have rest := blocksMarkup_bears blocks
    exact first.append rest fun _ _ => Bears.cons

end

theorem footnoteParagraphs_bears {lead : List Node} {marks : List Tag} (borne : Bears marks lead)
    (paragraph : Paragraph) (paragraphs : List Paragraph) :
    Yields (Bears (marks ++ referenceTags ((paragraph :: paragraphs).flatMap Paragraph.leaves)))
      (footnoteParagraphs instances lead (paragraph :: paragraphs)) := by
  induction paragraphs generalizing lead marks paragraph with
  | nil =>
    rw [List.flatMap_singleton]
    have first := paragraphMarkup_bears instances (some "FootnoteText") borne paragraph
    exact first.append (.pure Checked.nil) fun _ _ => Bears.before
  | cons next paragraphs ih =>
    rw [List.flatMap_cons, referenceTags_append, ← List.append_assoc]
    have first := paragraphMarkup_bears instances (some "FootnoteText") borne paragraph
    exact first.append (ih .nil next) fun _ _ => Bears.cons

theorem footnoteMarkup_bears (id : Nat) (body : List Paragraph) :
    Yields (fun node => Bears (markTag :: referenceTags (body.flatMap Paragraph.leaves)) [node])
      (footnoteMarkup instances id body) := by
  have mark : Bears [markTag] [footnoteMark] := ⟨rfl, rfl⟩
  cases body with
  | nil => exact (footnoteParagraphs_bears instances mark {} []).map fun _ => Bears.element rfl
  | cons paragraph paragraphs =>
    have written := footnoteParagraphs_bears instances mark paragraph paragraphs
    exact written.map fun _ => Bears.element rfl

theorem footnotesMarkup_bears (footnotes : List (Nat × List Paragraph)) :
    Yields (Bears (footnotes.flatMap fun (_, body) =>
      markTag :: referenceTags (body.flatMap Paragraph.leaves)))
      (footnotesMarkup instances footnotes) := by
  induction footnotes with
  | nil => exact .pure .nil
  | cons footnote footnotes ih =>
    have first := footnoteMarkup_bears instances footnote.1 footnote.2
    exact first.append ih fun _ _ => Bears.cons

end

theorem bodyPart_bears (document : Document) :
    Yields (fun root => Bears (referenceTags (blockLeaves document.sections.flatten)) [root])
      (bodyPart document) := by
  refine (blocksMarkup_bears _ document.sections.flatten).map fun blocks borne => ?_
  have colored (color : String) : Plain [.leaf "w:background" [("w:color", color)]] := rfl
  have page : Plain [pageMarkup] := rfl
  exact .element rfl (.after (.optional colored) (.element rfl (borne.before page)))

theorem footnotesPart_bears (document : Document) :
    Yields (fun root => Bears (document.footnotes.flatMap fun (_, body) =>
      markTag :: referenceTags (body.flatMap Paragraph.leaves)) [root]) (footnotesPart document) := by
  refine (footnotesMarkup_bears _ document.footnotes).map fun footnotes borne => ?_
  have separators : Plain [separatorMarkup "separator" "-1",
      separatorMarkup "continuationSeparator" "0"] := rfl
  exact .element rfl (.after separators borne)

end WordExport
