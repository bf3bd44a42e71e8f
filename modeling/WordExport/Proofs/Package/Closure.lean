import WordExport.Proofs.Package.Entries
import WordExport.Proofs.Package.Markup

set_option autoImplicit false

namespace WordExport

open Xml (Node)

/-- The parts that every package has, from the markup of its body and its footnotes. -/
def fixedParts (document : Document) (body footnotes : Node) : List Part := [
  ⟨"[Content_Types].xml", .markup contentTypesPart⟩,
  ⟨"_rels/.rels", .markup (relationshipsPart packageRelationships)⟩,
  ⟨"docProps/core.xml", .markup document.properties.part⟩,
  ⟨"word/document.xml", .markup body⟩,
  ⟨"word/_rels/document.xml.rels",
    .markup (relationshipsPart (bodyRelationships ++ relationshipsFrom 0 document.bodyUses))⟩,
  ⟨"word/styles.xml", .markup (stylesPart (document.styles.getD {}))⟩,
  ⟨"word/numbering.xml", .markup (numberingPart document.numbering)⟩,
  ⟨"word/footnotes.xml", .markup footnotes⟩,
  ⟨"word/settings.xml", .markup (settingsPart document.background.isSome)⟩]

/-- The relationships of the footnotes, after the images of the body. -/
def footnoteRelationships (document : Document) : List Relationship :=
  relationshipsFrom (imagesOf document.bodyUses).length document.footnoteUses

def relatedParts (document : Document) : List Part :=
  if (footnoteRelationships document).isEmpty then []
  else [⟨"word/_rels/footnotes.xml.rels",
    .markup (relationshipsPart (footnoteRelationships document))⟩]

def storedMedia (document : Document) : List Media :=
  mediaFrom 0 (imagesOf (document.bodyUses ++ document.footnoteUses))

def writtenParts (document : Document) (body footnotes : Node) : List Part :=
  fixedParts document body footnotes ++ relatedParts document
    ++ (storedMedia document).map Media.part

theorem parts_written (document : Document) :
    ∃ body footnotes : Node, document.parts = writtenParts document body footnotes
      ∧ body.marks = marksFrom 4 0 document.bodyUses
      ∧ footnotes.marks
        = marksFrom 0 (imagesOf document.bodyUses).length document.footnoteUses := by
  obtain ⟨⟨body, bodyLedger⟩, writtenBody⟩ : ∃ written,
      bodyPart document { relationships := bodyRelationships } = written := ⟨_, rfl⟩
  obtain ⟨bodyLeft, bodyMarks⟩ := bodyPart_records document { relationships := bodyRelationships }
  obtain ⟨⟨footnotes, ledger⟩, writtenFootnotes⟩ : ∃ written,
      footnotesPart document { media := bodyLedger.media } = written := ⟨_, rfl⟩
  obtain ⟨left, marks⟩ := footnotesPart_records document { media := bodyLedger.media }
  rw [writtenBody] at bodyLeft bodyMarks
  rw [writtenFootnotes] at left marks
  have bodyMedia : bodyLedger.media = mediaFrom 0 (imagesOf document.bodyUses) := by
    rw [show bodyLedger = _ from bodyLeft]
    rfl
  have count : bodyLedger.media.length = (imagesOf document.bodyUses).length := by
    rw [bodyMedia, length_mediaFrom]
  have related : ledger.relationships = footnoteRelationships document := by
    rw [show ledger = _ from left, footnoteRelationships, ← count]
    rfl
  have media : ledger.media = storedMedia document := by
    rw [show ledger = _ from left, storedMedia, imagesOf_append, mediaFrom_append, ← bodyMedia,
      Nat.zero_add, ← count]
    rfl
  have bodyRelated : bodyLedger.relationships
      = bodyRelationships ++ relationshipsFrom 0 document.bodyUses := by
    rw [show bodyLedger = _ from bodyLeft]
    rfl
  refine ⟨body, footnotes, ?_, bodyMarks, ?_⟩
  · simp only [Document.parts, StateT.run, writtenBody, writtenFootnotes, bodyRelated, related,
      media]
    rfl
  · rw [← count]
    exact marks

theorem rootOf_eq {parts : List Part} (distinct : (parts.map Part.name).Nodup) {name : String}
    {root : Node} (mem : ⟨name, .markup root⟩ ∈ parts) : rootOf? parts name = some root := by
  have found : (parts.find? fun part => part.name = name) = some ⟨name, .markup root⟩ := by
    induction parts with
    | nil => contradiction
    | cons part parts ih =>
      rw [List.map_cons, List.nodup_cons] at distinct
      rcases List.mem_cons.mp mem with same | later
      · rw [← same]
        exact List.find?_cons_of_pos (decide_eq_true rfl)
      · have other : part.name ≠ name := fun same =>
          distinct.1 (same ▸ List.mem_map_of_mem later)
        rw [List.find?_cons_of_neg (by simpa using other)]
        exact ih distinct.2 later
  rw [rootOf?, found]
  rfl

theorem rootOf_none {parts : List Part} {name : String} (absent : name ∉ parts.map Part.name) :
    rootOf? parts name = none := by
  have missed : (parts.find? fun part => part.name = name) = none := by
    refine List.find?_eq_none.mpr fun part mem same => absent ?_
    rw [← of_decide_eq_true same]
    exact List.mem_map_of_mem mem
  rw [rootOf?, missed]
  rfl

section

variable (document : Document) (body footnotes : Node)

/-- The names of all parts but media. -/
def markupNames : List String :=
  ["[Content_Types].xml", "_rels/.rels", "docProps/core.xml", "word/document.xml",
    "word/_rels/document.xml.rels", "word/styles.xml", "word/numbering.xml", "word/footnotes.xml",
    "word/settings.xml", "word/_rels/footnotes.xml.rels"]

theorem markupNames_apart : ∀ name ∈ markupNames,
    "word/media/".toList.isPrefixOf name.toList = false := by
  decide

theorem names_sublist :
    ((fixedParts document body footnotes ++ relatedParts document).map Part.name).Sublist
      markupNames := by
  rw [relatedParts]
  split
  · rw [List.append_nil]
    exact List.sublist_append_left _ ["word/_rels/footnotes.xml.rels"]
  · exact List.Sublist.refl markupNames

theorem mediaPrefix (media : Media) :
    "word/media/".toList.isPrefixOf media.part.name.toList = true := by
  rw [Media.part, String.toList_append, List.isPrefixOf_iff_prefix]
  exact List.prefix_append _ _

theorem writtenParts_distinct :
    ((writtenParts document body footnotes).map Part.name).Nodup := by
  have sublist := names_sublist document body footnotes
  rw [writtenParts, List.map_append, List.nodup_append]
  refine ⟨sublist.nodup (by decide), ?_, ?_⟩
  · rw [List.map_map, show Part.name ∘ Media.part = ("word/media/" ++ ·) ∘ Media.name from rfl,
      ← List.map_map]
    exact (names_mediaFrom 0 _).map fun first second same =>
      (String.append_right_inj _).mp same
  · intro name fixed stored mem same
    obtain ⟨part, stored, rfl⟩ := List.mem_map.mp mem
    obtain ⟨media, _, rfl⟩ := List.mem_map.mp stored
    have apart := markupNames_apart name (sublist.subset fixed)
    rw [same, mediaPrefix] at apart
    contradiction

theorem mediaParts_written :
    mediaParts (writtenParts document body footnotes) = (storedMedia document).map Media.part := by
  rw [mediaParts, writtenParts, List.filter_append, List.filter_eq_nil_iff.mpr,
    List.filter_eq_self.mpr, List.nil_append]
  · intro part mem
    obtain ⟨media, _, rfl⟩ := List.mem_map.mp mem
    exact mediaPrefix media
  · intro part mem
    have sublist := names_sublist document body footnotes
    rw [markupNames_apart part.name (sublist.subset (List.mem_map_of_mem mem))]
    decide

theorem mem_of_mem_fixedParts {part : Part} (mem : part ∈ fixedParts document body footnotes) :
    part ∈ writtenParts document body footnotes :=
  List.mem_append_left _ (List.mem_append_left _ mem)

theorem rootOf_fixed (name : String) (root : Node)
    (mem : ⟨name, .markup root⟩ ∈ fixedParts document body footnotes) :
    rootOf? (writtenParts document body footnotes) name = some root :=
  rootOf_eq (writtenParts_distinct document body footnotes)
    (mem_of_mem_fixedParts document body footnotes mem)

theorem rootOf_body :
    rootOf? (writtenParts document body footnotes) "word/document.xml" = some body :=
  rootOf_fixed document body footnotes _ body (by simp [fixedParts])

theorem rootOf_footnotes :
    rootOf? (writtenParts document body footnotes) "word/footnotes.xml" = some footnotes :=
  rootOf_fixed document body footnotes _ footnotes (by simp [fixedParts])

theorem entriesOf_package :
    entriesOf (writtenParts document body footnotes) "_rels/.rels"
      = entriesFrom 0 packageRelationships := by
  rw [entriesOf, childrenOf, rootOf_fixed document body footnotes "_rels/.rels"
    (relationshipsPart packageRelationships) (by simp [fixedParts])]
  exact entries_relationshipsPart packageRelationships

theorem entriesOf_body :
    entriesOf (writtenParts document body footnotes) "word/_rels/document.xml.rels"
      = fixedEntries ++ entriesFrom 4 (relationshipsFrom 0 document.bodyUses) := by
  have fixed : entriesFrom 0 bodyRelationships = fixedEntries := rfl
  rw [entriesOf, childrenOf, rootOf_fixed document body footnotes "word/_rels/document.xml.rels"
    (relationshipsPart (bodyRelationships ++ relationshipsFrom 0 document.bodyUses))
    (by simp [fixedParts])]
  refine (entries_relationshipsPart _).trans ?_
  rw [entriesFrom_append, fixed]
  rfl

theorem footnoteEntries_absent (plain : (footnoteRelationships document).isEmpty) :
    "word/_rels/footnotes.xml.rels" ∉ (writtenParts document body footnotes).map Part.name := by
  intro mem
  rw [writtenParts, relatedParts, if_pos plain, List.append_nil, List.map_append] at mem
  rcases List.mem_append.mp mem with fixed | stored
  · revert fixed
    exact show "word/_rels/footnotes.xml.rels" ∉ markupNames.take 9 by decide
  · obtain ⟨part, stored, same⟩ := List.mem_map.mp stored
    obtain ⟨media, _, rfl⟩ := List.mem_map.mp stored
    have found := mediaPrefix media
    rw [same, markupNames_apart _ (by decide)] at found
    contradiction

theorem footnoteEntries_present (related : ¬(footnoteRelationships document).isEmpty) :
    ⟨"word/_rels/footnotes.xml.rels", .markup (relationshipsPart (footnoteRelationships document))⟩
      ∈ writtenParts document body footnotes := by
  rw [writtenParts, relatedParts, if_neg related]
  exact List.mem_append_left _ (List.mem_append_right _ List.mem_cons_self)

theorem entriesOf_footnotes :
    entriesOf (writtenParts document body footnotes) "word/_rels/footnotes.xml.rels"
      = entriesFrom 0 (footnoteRelationships document) := by
  by_cases plain : (footnoteRelationships document).isEmpty
  · rw [entriesOf, childrenOf, rootOf_none (footnoteEntries_absent document body footnotes plain),
      List.isEmpty_iff.mp plain]
    rfl
  · rw [entriesOf, childrenOf, rootOf_eq (writtenParts_distinct document body footnotes)
      (footnoteEntries_present document body footnotes plain)]
    exact entries_relationshipsPart _

theorem storedMedia_eq :
    storedMedia document = mediaFrom 0 (imagesOf document.bodyUses)
      ++ mediaFrom (imagesOf document.bodyUses).length (imagesOf document.footnoteUses) := by
  rw [storedMedia, imagesOf_append, mediaFrom_append, Nat.zero_add]

theorem mem_of_mem_storedMedia {media : Media} (mem : media ∈ storedMedia document) :
    media.part ∈ writtenParts document body footnotes :=
  List.mem_append_right _ (List.mem_map_of_mem mem)

theorem covered_markup : ∀ name ∈ markupNames,
    "/" ++ name ∈ attributeValues "Override" "PartName" contentTypesPart.children
      ∨ ∃ extension ∈ attributeValues "Default" "Extension" contentTypesPart.children,
        HasExtension name extension := by
  simp only [markupNames, List.forall_mem_cons]
  refine ⟨.inr ⟨"xml", ?_⟩, .inr ⟨"rels", ?_⟩, .inl ?_, .inl ?_, .inr ⟨"rels", ?_⟩, .inl ?_,
    .inl ?_, .inl ?_, .inl ?_, .inr ⟨"rels", ?_⟩, fun _ mem => absurd mem List.not_mem_nil⟩
  · exact ⟨by decide, by decide, "[Content_Types]", rfl⟩
  · exact ⟨by decide, by decide, "_rels/", rfl⟩
  · decide
  · decide
  · exact ⟨by decide, by decide, "word/_rels/document.xml", rfl⟩
  · decide
  · decide
  · decide
  · decide
  · exact ⟨by decide, by decide, "word/_rels/footnotes.xml", rfl⟩

theorem covered_media {media : Media} (mem : media ∈ storedMedia document) :
    ∃ extension ∈ attributeValues "Default" "Extension" contentTypesPart.children,
      HasExtension media.part.name extension := by
  obtain ⟨number, _, name⟩ := mem_mediaFrom mem
  have known : ∀ extension ∈ ["png", "jpeg", "gif", "bmp"], '.' ∉ extension.toList
      ∧ extension ∈ attributeValues "Default" "Extension" contentTypesPart.children := by
    decide
  obtain ⟨plain, declared⟩ := known _ (imageExtension_mem media.data)
  refine ⟨_, declared, plain, "word/media/" ++ ("image" ++ toString number), ?_⟩
  rw [Media.part, name, mediaName, ← String.append_assoc, ← String.append_assoc]

theorem written_covered : ∀ part ∈ writtenParts document body footnotes,
    Covered (writtenParts document body footnotes) part.name := by
  intro part mem
  have types : childrenOf (writtenParts document body footnotes) "[Content_Types].xml"
      = contentTypesPart.children := by
    rw [childrenOf, rootOf_fixed document body footnotes "[Content_Types].xml" contentTypesPart
      (by simp [fixedParts])]
    rfl
  rw [Covered, types]
  rcases List.mem_append.mp mem with markup | stored
  · have sublist := names_sublist document body footnotes
    exact covered_markup part.name (sublist.subset (List.mem_map_of_mem markup))
  · obtain ⟨media, held, rfl⟩ := List.mem_map.mp stored
    exact .inr (covered_media document held)

theorem named_fixed {name : String} (mem : name ∈ markupNames.take 9) :
    name ∈ (writtenParts document body footnotes).map Part.name := by
  rw [writtenParts, List.map_append, List.map_append]
  exact List.mem_append_left _ (List.mem_append_left _ mem)

theorem package_internal : ∀ entry ∈ entriesOf (writtenParts document body footnotes) "_rels/.rels",
    entry.Internal (writtenParts document body footnotes) "" := by
  have targets : ∀ entry ∈ entriesFrom 0 packageRelationships,
      "" ++ entry.target ∈ markupNames.take 9 := by
    decide
  rw [entriesOf_package]
  intro entry mem
  exact .inr (named_fixed document body footnotes (targets entry mem))

theorem fixed_internal : ∀ entry ∈ fixedEntries,
    entry.Internal (writtenParts document body footnotes) "word/" := by
  have targets : ∀ entry ∈ fixedEntries, "word/" ++ entry.target ∈ markupNames.take 9 := by
    decide
  intro entry mem
  exact .inr (named_fixed document body footnotes (targets entry mem))

theorem bodyIds_nodup :
    ((entriesOf (writtenParts document body footnotes) "word/_rels/document.xml.rels").map
      Entry.id).Nodup := by
  have all : entriesFrom 0 (bodyRelationships ++ relationshipsFrom 0 document.bodyUses)
      = fixedEntries ++ entriesFrom 4 (relationshipsFrom 0 document.bodyUses) :=
    entriesFrom_append 0 bodyRelationships _
  rw [entriesOf_body, ← all, ids_entriesFrom]
  exact relationshipIds_nodup _ _

end

section

variable {document : Document} {body footnotes : Node}

variable (footnotes) in
theorem body_served (marked : body.marks = marksFrom 4 0 document.bodyUses) :
    Served (writtenParts document body footnotes) document.bodyUses
      (mentionsOf (writtenParts document body footnotes) "word/document.xml")
      (entriesFrom 4 (relationshipsFrom 0 document.bodyUses)) := by
  rw [mentionsOf, rootOf_body, Option.map_some, Option.getD_some, Node.mentions, marked]
  refine served_from fun media mem => mem_of_mem_storedMedia document body footnotes ?_
  rw [storedMedia_eq]
  exact List.mem_append_left _ mem

variable (body) in
theorem footnotes_served (marked : footnotes.marks
      = marksFrom 0 (imagesOf document.bodyUses).length document.footnoteUses) :
    Served (writtenParts document body footnotes) document.footnoteUses
      (mentionsOf (writtenParts document body footnotes) "word/footnotes.xml")
      (entriesFrom 0 (footnoteRelationships document)) := by
  rw [mentionsOf, rootOf_footnotes, Option.map_some, Option.getD_some, Node.mentions, marked]
  refine served_from fun media mem => mem_of_mem_storedMedia document body footnotes ?_
  rw [storedMedia_eq]
  exact List.mem_append_right _ mem

/-- The part for the relationships of footnotes exists exactly where footnotes mention any. -/
theorem footnotes_related (marked : footnotes.marks
      = marksFrom 0 (imagesOf document.bodyUses).length document.footnoteUses) :
    "word/_rels/footnotes.xml.rels" ∈ (writtenParts document body footnotes).map Part.name
      ↔ mentionsOf (writtenParts document body footnotes) "word/footnotes.xml" ≠ [] := by
  have counts := congrArg List.length (footnotes_served body marked).ids
  rw [List.length_map, ids_entriesFrom, List.length_map, List.length_range'] at counts
  by_cases plain : (footnoteRelationships document).isEmpty
  · rw [List.isEmpty_iff.mp plain, List.length_nil, List.length_eq_zero_iff] at counts
    exact iff_of_false (footnoteEntries_absent document body footnotes plain)
      fun mentioned => mentioned counts
  · refine iff_of_true
      (List.mem_map_of_mem (footnoteEntries_present document body footnotes plain)) fun none => ?_
    rw [none] at counts
    exact plain (List.isEmpty_iff.mpr (List.length_eq_zero_iff.mp counts.symm))

theorem drawings_written (bodyMarked : body.marks = marksFrom 4 0 document.bodyUses)
    (marked : footnotes.marks
      = marksFrom 0 (imagesOf document.bodyUses).length document.footnoteUses) :
    drawingIdsOf (writtenParts document body footnotes) "word/document.xml"
        ++ drawingIdsOf (writtenParts document body footnotes) "word/footnotes.xml"
      = (List.range' 1 (mediaParts (writtenParts document body footnotes)).length).map toString := by
  rw [drawingIdsOf, drawingIdsOf, rootOf_body, rootOf_footnotes, Option.map_some, Option.map_some,
    Option.getD_some, Option.getD_some, Node.drawingIds, Node.drawingIds, bodyMarked, marked,
    drawings_marksFrom, drawings_marksFrom, ← List.map_append, mediaParts_written, List.length_map,
    storedMedia, length_mediaFrom, imagesOf_append, List.length_append, Nat.zero_add,
    Nat.add_comm _ 1, List.range'_append_1]

theorem media_referenced : ∀ part ∈ mediaParts (writtenParts document body footnotes),
    ∃ entry ∈ entriesOf (writtenParts document body footnotes) "word/_rels/document.xml.rels"
        ++ entriesOf (writtenParts document body footnotes) "word/_rels/footnotes.xml.rels",
      entry.external = false ∧ part.name = "word/" ++ entry.target := by
  rw [mediaParts_written, entriesOf_body, entriesOf_footnotes]
  intro part stored
  obtain ⟨media, mem, rfl⟩ := List.mem_map.mp stored
  obtain ⟨number, _, name⟩ := mem_mediaFrom mem
  have target (place : Nat) : media.part.name
      = "word/" ++ (Relationship.entry place ⟨.image, "media/" ++ media.name⟩).target := by
    rw [Relationship.entry, visible_append, name, visible_mediaName, ← String.append_assoc,
      Media.part, name]
    rfl
  rw [storedMedia_eq] at mem
  rcases List.mem_append.mp mem with early | late
  · obtain ⟨place, listed⟩ := exists_entry_of_mem (related_of_mem_mediaFrom early)
    exact ⟨_, List.mem_append_left _ (List.mem_append_right _ listed), rfl, target place⟩
  · obtain ⟨place, listed⟩ := exists_entry_of_mem (related_of_mem_mediaFrom late)
    exact ⟨_, List.mem_append_right _ listed, rfl, target place⟩

end

/-- Every package is closed under its relationships, whatever the document. -/
theorem pack_closed (document : Document) (mode : OutputMode) :
    Closed document (document.pack mode).parts := by
  obtain ⟨body, footnotes, written, bodyMarked, marked⟩ := parts_written document
  have bodyServed := body_served footnotes bodyMarked
  have footnotesServed := footnotes_served body marked
  have drawings := drawings_written bodyMarked marked
  change Closed document document.parts
  rw [written]
  constructor
  case names_distinct => exact writtenParts_distinct document body footnotes
  case body_present =>
    rw [rootOf_body]
    rfl
  case body_fixed =>
    rw [entriesOf_body]
    rfl
  case body_ids => exact bodyIds_nodup document body footnotes
  case body_served =>
    rw [entriesOf_body]
    exact bodyServed
  case footnotes_present =>
    rw [rootOf_footnotes]
    rfl
  case footnotes_served =>
    rw [entriesOf_footnotes]
    exact footnotesServed
  case footnotes_related => exact footnotes_related marked
  case media =>
    rw [mediaParts_written]
    exact parts_mediaFrom 0 _
  case media_referenced => exact media_referenced
  case drawings_numbered => exact drawings
  case drawings_distinct =>
    rw [drawings]
    exact List.Nodup.map toString_injective List.nodup_range'
  case package_internal => exact package_internal document body footnotes
  case body_internal =>
    rw [entriesOf_body]
    intro entry mem
    rcases List.mem_append.mp mem with fixed | own
    · exact fixed_internal document body footnotes entry fixed
    · exact bodyServed.internal entry own
  case footnotes_internal =>
    rw [entriesOf_footnotes]
    exact footnotesServed.internal
  case covered => exact written_covered document body footnotes

end WordExport
