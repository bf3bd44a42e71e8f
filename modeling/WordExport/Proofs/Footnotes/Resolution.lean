import WordExport.Proofs.Assembly
import WordExport.Proofs.Footnotes.Numbering
import WordExport.Proofs.Footnotes.References
import WordExport.Proofs.Package.Names
import WordExport.Proofs.Package.NoteEntries

set_option autoImplicit false

namespace WordExport

open Markdown (Tree)

/-- The footnotes of a document have an entry each, and every reference in either part means exactly
one of them. -/
structure NotesResolve (document : Document) (parts : List Part) : Prop where
  body_present : (rootOf? parts "word/document.xml").isSome
  notes_present : (rootOf? parts "word/footnotes.xml").isSome
  ascending : (document.footnotes.map Prod.fst).Pairwise (· < ·)
  positive : ∀ id ∈ document.footnotes.map Prod.fst, 1 ≤ id
  entries : ∃ kept, noteEntries parts
      = separatorEntry "separator" "-1" :: separatorEntry "continuationSeparator" "0" :: kept
    ∧ List.Forall₂ NoteEntry.IsFor document.footnotes kept
  distinct : ((noteEntries parts).map NoteEntry.id).Nodup
  resolved : ∀ reference ∈ noteReferencesOf parts "word/document.xml"
      ++ noteReferencesOf parts "word/footnotes.xml",
    (((noteEntries parts).filter fun entry => entry.type.isNone).map NoteEntry.id).count reference
      = 1

theorem blockLeaves_eq (blocks : List Block) : blockLeaves blocks = blocks.flatMap Block.leaves := by
  induction blocks with
  | nil => rfl
  | cons block blocks ih => rw [blockLeaves, ih, List.flatMap_cons]

/-- The numbers that a document refers to, in its text and in its footnotes, are those of its
footnotes. -/
structure Document.RefersToOwn (document : Document) : Prop where
  text : ∀ id, .footnoteReference id ∈ blockLeaves document.sections.flatten →
    id ∈ document.footnotes.map Prod.fst
  footnotes : ∀ footnote ∈ document.footnotes, ∀ id,
    .footnoteReference id ∈ footnote.2.flatMap Paragraph.leaves →
      id ∈ document.footnotes.map Prod.fst

theorem refersToOwn_of_built {tree : Tree} {options : Options} {images : ImageTable}
    {document : Document} (built : buildDocument tree options images = .ok document) :
    document.RefersToOwn := by
  obtain ⟨noted, converted, found, sections, _⟩ := buildDocument_eq_ok built
  obtain ⟨numbered, covered⟩ := footnotesOf_eq_ok found
  have known (id : Nat) (mem : id ∈ noted.references.map Prod.fst) :
      id ∈ document.footnotes.map Prod.fst := by
    obtain ⟨reference, listed, rfl⟩ := List.mem_map.mp mem
    exact covered reference listed
  constructor
  · intro id shown
    have leaves : blockLeaves document.sections.flatten = contentLeaves noted.value := by
      rw [sections, List.flatten_singleton, blockLeaves_eq]
      exact blocksAfter_leaves [] noted.value
    rw [leaves] at shown
    exact known id (text_references converted shown)
  · intro footnote stored id shown
    obtain ⟨_, defined, _⟩ := numbered.exists_definition stored
    exact known id (body_references converted defined shown)

theorem footnotes_positive {tree : Tree} {options : Options} {images : ImageTable}
    {document : Document} (built : buildDocument tree options images = .ok document) :
    Ascending document.footnotes ∧ ∀ id ∈ document.footnotes.map Prod.fst, 1 ≤ id := by
  obtain ⟨noted, _, found, _⟩ := buildDocument_eq_ok built
  obtain ⟨numbered, _⟩ := footnotesOf_eq_ok found
  refine ⟨numbered.ascending, fun id mem => ?_⟩
  obtain ⟨footnote, stored, rfl⟩ := List.mem_map.mp mem
  obtain impossible | ⟨identifier, _, numberedId⟩ := (numbered.stored footnote).mp stored
  · contradiction
  · exact footnoteId_pos numberedId

section

variable {footnotes : List (Nat × List Paragraph)} {kept : List NoteEntry}

theorem ids_of_isFor (entries : List.Forall₂ NoteEntry.IsFor footnotes kept) :
    kept.map NoteEntry.id = footnotes.map fun footnote => some (toString footnote.1) := by
  induction entries with
  | nil => rfl
  | cons first _ ih => rw [List.map_cons, List.map_cons, first.id, ih]

theorem filter_isFor (entries : List.Forall₂ NoteEntry.IsFor footnotes kept) :
    (kept.filter fun entry => entry.type.isNone) = kept := by
  induction entries with
  | nil => rfl
  | cons first _ ih => rw [List.filter_cons_of_pos (by rw [first.type]; rfl), ih]

/-- The numbers of footnotes are written apart from one another and from those of separators. -/
theorem noteIds_nodup (ascending : Ascending footnotes)
    (positive : ∀ id ∈ footnotes.map Prod.fst, 1 ≤ id) :
    (some "-1" :: some "0" :: footnotes.map fun footnote => some (toString footnote.1)).Nodup := by
  have written : (footnotes.map fun footnote => some (toString footnote.1))
      = (footnotes.map Prod.fst).map (some ∘ toString) := by
    rw [List.map_map]
    rfl
  have kept : ((footnotes.map Prod.fst).map (some ∘ toString)).Nodup :=
    ascending.nodup.map fun _ _ same => toString_injective (Option.some.inj same)
  have unlike {id : Nat} (mem : id ∈ footnotes.map Prod.fst) : toString id ≠ "0" := by
    intro same
    have zero : id = 0 := toString_injective same
    have := positive id mem
    omega
  have unsigned (id : Nat) : toString id ≠ "-1" := by
    intro same
    have sign : '-' ∈ (toString id).toList := by rw [same]; decide
    have digit := isDigit_of_mem_toString sign
    contradiction
  rw [written]
  refine List.nodup_cons.mpr ⟨?_, List.nodup_cons.mpr ⟨?_, kept⟩⟩
  · intro mem
    rcases List.mem_cons.mp mem with same | mem
    · exact absurd same (by decide)
    · obtain ⟨id, _, same⟩ := List.mem_map.mp mem
      exact unsigned id (Option.some.inj same)
  · intro mem
    obtain ⟨id, listed, same⟩ := List.mem_map.mp mem
    exact unlike listed (Option.some.inj same)

end

/-- Footnotes of a package that is built for a tree go by distinct numbers in ascending order, each
with its one mark, and every reference means exactly one of them. -/
theorem notesResolve_of_built {tree : Tree} {options : Options} {images : ImageTable}
    {document : Document} (built : buildDocument tree options images = .ok document)
    (mode : OutputMode) : NotesResolve document (document.pack mode).parts := by
  obtain ⟨ascending, positive⟩ := footnotes_positive built
  obtain ⟨text, footnotes⟩ := refersToOwn_of_built built
  obtain ⟨kept, entries, isFor⟩ := footnotesPart_entries document
    { media := (bodyPart document { relationships := bodyRelationships }).2.media }
  have written : noteEntries (document.pack mode).parts
      = separatorEntry "separator" "-1" :: separatorEntry "continuationSeparator" "0" :: kept :=
    entries
  have ids : (noteEntries (document.pack mode).parts).map NoteEntry.id
      = some "-1" :: some "0" :: document.footnotes.map fun footnote =>
        some (toString footnote.1) := by
    rw [written, List.map_cons, List.map_cons, ids_of_isFor isFor]
    rfl
  have distinct := noteIds_nodup ascending positive
  refine ⟨rfl, rfl, ascending, positive, ⟨kept, written, isFor⟩, ids ▸ distinct, ?_⟩
  have counted (id : Nat) (mem : id ∈ document.footnotes.map Prod.fst) :
      (((noteEntries (document.pack mode).parts).filter fun entry => entry.type.isNone).map
        NoteEntry.id).count (some (toString id)) = 1 := by
    have footnotesOnly : ((noteEntries (document.pack mode).parts).filter fun entry =>
        entry.type.isNone) = kept := by
      rw [written]
      exact filter_isFor isFor
    rw [footnotesOnly, ids_of_isFor isFor]
    obtain ⟨footnote, stored, rfl⟩ := List.mem_map.mp mem
    have once := (List.nodup_cons.mp (List.nodup_cons.mp distinct).2).2
    exact List.count_eq_one_of_mem once (List.mem_map_of_mem stored)
  intro reference mem
  rcases List.mem_append.mp mem with mem | mem
  · obtain ⟨id, rfl, shown⟩ := body_noteReferences document _ reference mem
    exact counted id (text id shown)
  · obtain ⟨id, rfl, footnote, stored, shown⟩ := footnotes_noteReferences document _ reference mem
    exact counted id (footnotes footnote stored id shown)

/-- Notes with references to one another and in a heading, a link and a cell, one of them empty. -/
def annotatedTree : Tree where
  children := [
    .heading 1 [.footnoteReference "2 b" none],
    .table [] [.tableRow [.tableCell [.link "u" none [.footnoteReference "10" none]]]],
    .footnoteDefinition "10" none [.paragraph [.text "a", .footnoteReference "2 b" none]],
    .footnoteDefinition "2 b" none []]

theorem notesResolve_of_built_annotated :
    ∃ document, buildDocument annotatedTree {} {} = .ok document ∧
      NotesResolve document (document.pack .buffer).parts := by
  have built : buildDocument annotatedTree {} {} = .ok _ := rfl
  exact ⟨_, built, notesResolve_of_built built .buffer⟩

end WordExport
