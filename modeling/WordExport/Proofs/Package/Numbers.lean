import WordExport.Proofs.Assembly
import WordExport.Proofs.Conversion.Lists
import WordExport.Proofs.Footnotes.Numbering
import WordExport.Proofs.Package.Declarations

set_option autoImplicit false

namespace WordExport

open Markdown (Node Tree markAll)
open Xml (Item Tag elementUnlessEmpty)

/-- The number of a paragraph, as it is shown. -/
structure ShownNumber where
  instanceId : Option String
  level : Option String

def ShownNumber.ofItem (item : Item) : ShownNumber where
  instanceId := item.childValue? "w:numId"
  level := item.childValue? "w:ilvl"

def ShownNumber.ofPlace (place : Nat × Nat) : ShownNumber where
  instanceId := toString place.1
  level := toString place.2

def numberQuery : Query ShownNumber where
  picks := Item.isNamed "w:numPr"
  shows := .ofItem

/-- Paragraphs, each with the numbers in it. -/
def paragraphQuery : Query (List ShownNumber) where
  picks := Item.isNamed "w:p"
  shows item := numberQuery.inside item.children

/-- A number is of an instance that the numbering part has, and of a level that the abstract
definition of the instance has. -/
def ShownNumber.IsDeclared (numbering : Item) (number : ShownNumber) : Prop :=
  ∃ shown ∈ instancesIn numbering, ∃ definition ∈ definitionsIn numbering,
    ∃ level ∈ definition.levels, shown.id = number.instanceId
      ∧ definition.id = shown.definition ∧ level.number = number.level

/-- Paragraphs are shown in order, each with the number of its place if it has one; no number stands
outside of them. -/
def ShowsNumbers (definitions : List NumberingDefinition) (paragraphs : List Paragraph)
    (root : Item) : Prop :=
  List.Forall₂ (fun paragraph numbers => ∃ place, Paragraph.At definitions paragraph place
    ∧ numbers = place.toList.map ShownNumber.ofPlace) paragraphs (paragraphQuery.within root)
    ∧ numberQuery.within root = (paragraphQuery.within root).flatten

theorem query_content {name : String} (content : name ∈ ["w:p", "w:r", "w:numPr"]) :
    PicksContent (Item.isNamed name) := by
  intro tag children picked
  rw [eq_of_beq picked]
  exact content

/-- Tags of no paragraph and no number. -/
def isInnerTag (tag : Tag) : Bool :=
  !(["w:p", "w:numPr"].contains tag.name)

theorem Checked.unnumbered {nodes : List Xml.Node} (inner : Checked isInnerTag nodes) :
    paragraphQuery.found nodes = [] ∧ numberQuery.found nodes = [] := by
  have passed (name : String) (outer : name ∈ ["w:p", "w:numPr"]) (tag : Tag) (children : List Item)
      (innerTag : isInnerTag tag = true) :
      Item.isNamed name (.element tag.visible children) = false := by
    refine Bool.eq_false_iff.mpr fun picked => ?_
    have named : tag.name = name := eq_of_beq picked
    rw [isInnerTag, named, List.contains_iff_mem.mpr outer] at innerTag
    cases innerTag
  exact ⟨Checked.found_eq_nil inner (passed "w:p" (by decide)),
    Checked.found_eq_nil inner (passed "w:numPr" (by decide))⟩

theorem Bare.inner {nodes : List Xml.Node} (bare : Bare nodes) : Checked isInnerTag nodes := by
  refine Checked.imp (fun tag bareTag => ?_) bare
  simp only [isBareTag, Bool.and_eq_true, Bool.not_eq_true', List.contains_eq_mem,
    decide_eq_false_iff_not, List.mem_cons, not_or] at bareTag
  simp [isInnerTag, bareTag.2]

mutual

theorem inlineMarkup_inner (format : RunFormat) (item : Inline) :
    Yields (fun node => Checked isInnerTag [node]) (inlineMarkup format item) := by
  cases item with
  | text run =>
    obtain ⟨content, same, bare⟩ := textRun_bare format run
    refine .pure ?_
    rw [same]
    exact .element rfl bare.inner
  | image image =>
    intro ledger
    exact (rfl : Checked isInnerTag [drawingMarkup image _ _ _])
  | link url children =>
    intro ledger
    exact .element rfl (inlinesMarkup_inner { format with hyperlink := true } children _)
  | math runs => exact .pure (.element rfl (runsMarkup_bare runs).inner)
  | checkbox checked => exact .pure rfl
  | footnoteReference id => exact .pure rfl

theorem inlinesMarkup_inner (format : RunFormat) (items : List Inline) :
    Yields (Checked isInnerTag) (inlinesMarkup format items) := by
  cases items with
  | nil => exact .pure rfl
  | cons item items =>
    exact (inlineMarkup_inner format item).append (inlinesMarkup_inner format items)
      fun _ _ first rest => first.cons rest

end

theorem numberMarkup_found (place : Option (Nat × Nat)) :
    paragraphQuery.found (optionalLeaf place numberMarkup) = []
      ∧ numberQuery.found (optionalLeaf place numberMarkup)
        = place.toList.map ShownNumber.ofPlace := by
  cases place with
  | none => exact ⟨rfl, rfl⟩
  | some place =>
    refine ⟨rfl, congrArg ([·]) ?_⟩
    exact congrArg₂ ShownNumber.mk (congrArg some (visible_toString place.1))
      (congrArg some (visible_toString place.2))

section

variable (instances : List (String × NumberingInstance))

/-- The numbers in a paragraph, at most one. -/
def Paragraph.numbers (paragraph : Paragraph) : List ShownNumber :=
  (paragraph.numbering.bind (Numbering.place? instances)).toList.map .ofPlace

theorem propertyMarkup_numbers (style : Option String) (paragraph : Paragraph) :
    paragraphQuery.found (elementUnlessEmpty "w:pPr" (paragraph.propertyMarkup instances style))
        = []
      ∧ numberQuery.found (elementUnlessEmpty "w:pPr" (paragraph.propertyMarkup instances style))
        = paragraph.numbers instances := by
  obtain ⟨before, after, bare, bare', same⟩ := propertyMarkup_bare instances style paragraph
  have first := bare.inner.unnumbered
  have last := bare'.inner.unnumbered
  have number := numberMarkup_found (paragraph.numbering.bind (Numbering.place? instances))
  constructor
  · rw [Query.found_elementUnlessEmpty rfl fun _ => rfl, same, Query.found_append,
      Query.found_append, first.1, number.1, last.1]
    rfl
  · rw [Query.found_elementUnlessEmpty rfl fun _ => rfl, same, Query.found_append,
      Query.found_append, first.2, number.2, last.2]
    exact List.append_nil _

theorem lead_unnumbered {lead : List Xml.Node} (isLead : lead ∈ [[], [footnoteMark]]) :
    paragraphQuery.found lead = [] ∧ numberQuery.found lead = [] := by
  have inner : ∀ lead ∈ [[], [footnoteMark]], Checked isInnerTag lead :=
    List.forall_mem_cons.mpr ⟨.nil, List.forall_mem_singleton.mpr rfl⟩
  exact (inner lead isLead).unnumbered

/-- What a paragraph holds: no other paragraph, and the number of its place. -/
theorem paragraphMarkup_numbers (style : Option String) {lead : List Xml.Node}
    (isLead : lead ∈ [[], [footnoteMark]]) (paragraph : Paragraph) :
    Yields (fun node => ∃ content, node = .element "w:p" [] content
        ∧ paragraphQuery.found content = []
        ∧ numberQuery.found content = paragraph.numbers instances)
      (paragraph.markup instances style lead) := by
  have before := lead_unnumbered isLead
  have properties := propertyMarkup_numbers instances style paragraph
  refine (inlinesMarkup_inner _ paragraph.children).map fun items inner => ⟨_, rfl, ?_, ?_⟩
  · rw [Query.found_append, Query.found_append, properties.1, before.1, inner.unnumbered.1]
    rfl
  · rw [Query.found_append, Query.found_append, properties.2, before.2, inner.unnumbered.2,
      List.append_nil, List.append_nil]

theorem numberQuery_gathers : numberQuery.Gathers instances (Paragraph.numbers instances) where
  content := query_content (by decide)
  enters _ _ := rfl
  filler := rfl
  paragraph style lead isLead paragraph ledger := by
    obtain ⟨content, same, _, numbers⟩ :=
      paragraphMarkup_numbers instances style isLead paragraph ledger
    rw [same, (lead_unnumbered isLead).2, ← numbers]
    exact Query.found_element rfl rfl

theorem paragraphQuery_gathers :
    paragraphQuery.Gathers instances fun paragraph => [paragraph.numbers instances] where
  content := query_content (by decide)
  enters _ _ := rfl
  filler := rfl
  paragraph style lead isLead paragraph ledger := by
    obtain ⟨content, same, none, numbers⟩ :=
      paragraphMarkup_numbers instances style isLead paragraph ledger
    rw [same, (lead_unnumbered isLead).1, ← numbers, Query.found_picked rfl rfl, none]
    rfl

end

/-- Each level of an abstract definition is declared, for the instance that follows its number. -/
theorem Declares.isDeclared {numbering : Item} {definitions : List NumberingDefinition}
    (declares : Declares numbering definitions) {index : Nat} {levels : List NumberingLevel}
    (listed : (abstractLevels definitions)[index]? = some levels) {level : NumberingLevel}
    (mem : level ∈ levels) :
    (ShownNumber.ofPlace (index + 1, level.level)).IsDeclared numbering := by
  have bound : index < definitions.length + 1 := by
    obtain ⟨bound, _⟩ := List.getElem?_eq_some_iff.mp listed
    simpa [abstractLevels] using bound
  refine ⟨⟨toString (index + 1), toString index⟩, ?_,
    ⟨toString index, levels.map NumberingLevel.shown⟩, ?_, level.shown, ?_, rfl, rfl, rfl⟩
  · rw [declares.instances]
    exact List.mem_map.mpr ⟨index, List.mem_range.mpr bound, rfl⟩
  · rw [declares.abstracts]
    exact List.mem_map.mpr ⟨(levels, index), List.mk_mem_zipIdx_iff_getElem?.mpr listed, rfl⟩
  · exact List.mem_map_of_mem mem

/-- A counted level that is no deeper than the deepest is there. -/
theorem exists_level {levels : List NumberingLevel} {deepest : Nat}
    (counted : levels.map NumberingLevel.level = List.range (deepest + 1)) (level : Nat) :
    ∃ found ∈ levels, found.level = min level deepest := by
  have mem : min level deepest ∈ List.range (deepest + 1) :=
    List.mem_range.mpr (Nat.lt_succ_of_le (Nat.min_le_right level deepest))
  rw [← counted] at mem
  exact List.mem_map.mp mem

theorem bulletLevels_counted : bulletLevels.map NumberingLevel.level = List.range 9 := by
  decide

theorem Numbering.At.isDeclared {definitions : List NumberingDefinition} {numbering : Numbering}
    {place : Nat × Nat} (placed : numbering.At definitions (some place)) {root : Item}
    (declares : Declares root definitions) : (ShownNumber.ofPlace place).IsDeclared root := by
  cases placed with
  | bullet level =>
    obtain ⟨found, mem, same⟩ := exists_level bulletLevels_counted level
    rw [← same]
    exact declares.isDeclared (List.getElem?_cons_zero ..) mem
  | ordered before after definition level deepest split _ counts =>
    obtain ⟨found, mem, same⟩ := exists_level counts level
    have listed : (abstractLevels definitions)[before.length + 1]? = some definition.levels := by
      rw [abstractLevels, List.getElem?_cons_succ, split, List.map_append, List.map_cons]
      exact List.getElem?_append_right (by simp) |>.trans (by simp)
    rw [← same]
    exact declares.isDeclared listed mem

section

variable {definitions : List NumberingDefinition}

theorem Paragraph.exists_place
    (counted : ∀ definition ∈ definitions, ∃ deepest, definition.CountsTo deepest)
    (paragraph : Paragraph) : ∃ place, paragraph.At definitions place
      ∧ paragraph.numbers (numberingInstances definitions)
        = place.toList.map ShownNumber.ofPlace := by
  refine ⟨_, ?_, rfl⟩
  unfold Paragraph.At
  split
  case h_1 unnumbered => rw [unnumbered]; rfl
  case h_2 numbering numbered =>
    rw [numbered]
    exact numbering.place?_at counted

/-- Every number of a paragraph is declared. -/
theorem Paragraph.isDeclared
    (counted : ∀ definition ∈ definitions, ∃ deepest, definition.CountsTo deepest)
    {numbering : Item} (declares : Declares numbering definitions) (paragraph : Paragraph) :
    ∀ number ∈ paragraph.numbers (numberingInstances definitions), number.IsDeclared numbering := by
  obtain ⟨place, placed, numbers⟩ := paragraph.exists_place counted
  rw [numbers]
  intro number mem
  obtain ⟨place, isPlace, rfl⟩ := List.mem_map.mp mem
  obtain rfl := Option.mem_toList.mp isPlace
  unfold Paragraph.At at placed
  split at placed
  case h_1 => cases placed
  case h_2 => exact placed.isDeclared declares

variable {paragraphs : List Paragraph} {root : Item}

theorem showsNumbers_of_found
    (counted : ∀ definition ∈ definitions, ∃ deepest, definition.CountsTo deepest)
    (shown : paragraphQuery.within root
      = paragraphs.flatMap fun paragraph => [paragraph.numbers (numberingInstances definitions)])
    (all : numberQuery.within root
      = paragraphs.flatMap (Paragraph.numbers (numberingInstances definitions))) :
    ShowsNumbers definitions paragraphs root := by
  rw [← List.map_eq_flatMap] at shown
  constructor
  · rw [shown, List.forall₂_map_right_iff]
    exact List.forall₂_same.mpr fun paragraph _ => paragraph.exists_place counted
  · rw [all, shown, List.flatMap_def]

end

/-- The entry of a footnote has its number and shows the numbers of its paragraphs. -/
def ShowsFootnoteNumbers (definitions : List NumberingDefinition)
    (footnote : Nat × List Paragraph) (entry : Item) : Prop :=
  entry.attribute? "w:id" = some (toString footnote.1)
    ∧ ShowsNumbers definitions (noteParagraphs footnote.2) entry

section

variable {definitions : List NumberingDefinition} {footnote : Nat × List Paragraph} {entry : Item}

theorem ShowsFootnoteNumbers.of_isEntry
    (counted : ∀ definition ∈ definitions, ∃ deepest, definition.CountsTo deepest)
    (paragraphs : paragraphQuery.IsEntry (fun paragraph =>
      [paragraph.numbers (numberingInstances definitions)]) footnote entry)
    (numbers : numberQuery.IsEntry (Paragraph.numbers (numberingInstances definitions)) footnote
      entry) : ShowsFootnoteNumbers definitions footnote entry :=
  ⟨numbers.1, showsNumbers_of_found counted paragraphs.2 numbers.2⟩

theorem isDeclared_of_isEntry
    (counted : ∀ definition ∈ definitions, ∃ deepest, definition.CountsTo deepest)
    {numbering : Item} (declares : Declares numbering definitions)
    (isEntry : numberQuery.IsEntry (Paragraph.numbers (numberingInstances definitions)) footnote
      entry) : ∀ number ∈ numberQuery.within entry, number.IsDeclared numbering := by
  have mark : numberQuery.found [footnoteMark] = [] := rfl
  rw [isEntry.2, mark, List.nil_append]
  intro number mem
  obtain ⟨paragraph, _, isNumber⟩ := List.mem_flatMap.mp mem
  exact paragraph.isDeclared counted declares number isNumber

end

/-- The numbers in the parts of content, and the numbering part that declares all of them. -/
structure NumbersResolve (document : Document) (numbering body footnotes : Item) : Prop where
  declares : Declares numbering document.numbering
  inBody : ShowsNumbers document.numbering document.paragraphs body
  inFootnotes : List.Forall₂ (ShowsFootnoteNumbers document.numbering) document.footnotes
    (footnotes.children.filter isFootnote)
  inFootnotesOnly : numberQuery.within footnotes
    = (footnotes.children.filter isFootnote).flatMap numberQuery.within
  declared : ∀ number ∈ numberQuery.within body ++ numberQuery.within footnotes,
    number.IsDeclared numbering

/-- The parts of content and the numbering part, as they are read. -/
structure ReadsNumbers (parts : List Part) (numbering body footnotes : Item) : Prop where
  numbering : itemOf? parts "word/numbering.xml" = some numbering
  body : itemOf? parts "word/document.xml" = some body
  footnotes : itemOf? parts "word/footnotes.xml" = some footnotes

theorem numbersResolve_of_reads {document : Document} {mode : OutputMode}
    (counted : ∀ definition ∈ document.numbering, ∃ deepest, definition.CountsTo deepest)
    {numbering body footnotes : Item}
    (reads : ReadsNumbers (document.pack mode).parts numbering body footnotes)
    (declares : Declares numbering document.numbering) :
    NumbersResolve document numbering body footnotes := by
  have numbers := numberQuery_gathers (numberingInstances document.numbering)
  have paragraphs := paragraphQuery_gathers (numberingInstances document.numbering)
  have inBody := numbers.within_document reads.body
  obtain ⟨entries, only⟩ := numbers.within_footnotes reads.footnotes
  have shown := (paragraphs.within_footnotes reads.footnotes).1
  refine ⟨declares, showsNumbers_of_found counted (paragraphs.within_document reads.body) inBody,
    shown.mp (fun _ _ => ShowsFootnoteNumbers.of_isEntry counted) entries, only,
    List.forall_mem_append.mpr ⟨?_, ?_⟩⟩
  · rw [inBody]
    intro number mem
    obtain ⟨paragraph, _, isNumber⟩ := List.mem_flatMap.mp mem
    exact paragraph.isDeclared counted declares number isNumber
  · rw [only]
    intro number mem
    rcases List.mem_append.mp mem with separator | inEntry
    · contradiction
    · obtain ⟨entry, listed, isNumber⟩ := List.mem_flatMap.mp inEntry
      obtain ⟨footnote, _, isEntry⟩ := exists_of_forall₂ entries listed
      exact isDeclared_of_isEntry counted declares isEntry number isNumber

theorem exists_readsNumbers (document : Document) (mode : OutputMode) :
    ∃ numbering body footnotes, ReadsNumbers (document.pack mode).parts numbering body footnotes
      ∧ Declares numbering document.numbering := by
  obtain ⟨numbering, readNumbering, declares⟩ := itemOf?_numbering document mode
  obtain ⟨_, body, readBody, _⟩ := itemOf?_document document mode
  obtain ⟨_, footnotes, readFootnotes, _⟩ := itemOf?_footnotes document mode
  exact ⟨numbering, body, footnotes, ⟨readNumbering, readBody, readFootnotes⟩, declares⟩

/-- The place of a paragraph in a list: bullets have nine levels and ordered lists have six. -/
def ListMark.place (mark : ListMark) : Nat × Nat :=
  if mark.ordered then (2, min mark.depth 5) else (1, min mark.depth 8)

/-- The numbers that are read are those of the lists of a tree, in the text and in the footnote that
each belongs to. -/
structure ShowsLists (tree : Tree) (body footnotes : Item) : Prop where
  text : numberQuery.within body
    = (markAll [] tree.children).text.map fun mark => .ofPlace mark.place
  footnotes : ∀ entry ∈ footnotes.children.filter isFootnote,
    ∃ footnote ∈ (markAll [] tree.children).footnotes, ∃ id, footnoteId footnote.1 = .ok id
      ∧ entry.attribute? "w:id" = some (toString id)
      ∧ numberQuery.within entry = footnote.2.map fun mark => .ofPlace mark.place

theorem ListMark.place?_numbering (mark : ListMark) :
    mark.numbering.place? (numberingInstances [orderedNumbering]) = some mark.place := by
  obtain ⟨ordered, depth⟩ := mark
  cases ordered <;> rfl

theorem numbers_of_numberings {paragraphs : List Paragraph} {marks : List ListMark}
    (numbered : numberings paragraphs = marks.map ListMark.numbering) :
    paragraphs.flatMap (Paragraph.numbers (numberingInstances [orderedNumbering]))
      = marks.map fun mark => .ofPlace mark.place := by
  have spread (paragraphs : List Paragraph) :
      paragraphs.flatMap (Paragraph.numbers (numberingInstances [orderedNumbering]))
        = (numberings paragraphs).flatMap fun numbering =>
          (numbering.place? (numberingInstances [orderedNumbering])).toList.map .ofPlace := by
    induction paragraphs with
    | nil => rfl
    | cons paragraph paragraphs ih =>
      rw [List.flatMap_cons, ih, Paragraph.numbers, numberings_cons, List.flatMap_append]
      cases paragraph.numbering with
      | none => rfl
      | some numbering => exact congrArg (· ++ _) (List.append_nil _).symm
  rw [spread, numbered, List.flatMap_map, List.map_eq_flatMap]
  simp only [ListMark.place?_numbering]
  rfl

theorem numberings_noteParagraphs (body : List Paragraph) :
    numberings (noteParagraphs body) = numberings body := by
  cases body <;> rfl

theorem orderedNumbering_countsTo : orderedNumbering.CountsTo 5 :=
  rfl

theorem showsLists_of_built {tree : Tree} {options : Options} {images : ImageTable}
    {document : Document} (built : buildDocument tree options images = .ok document)
    {mode : OutputMode} {numbering body footnotes : Item}
    (reads : ReadsNumbers (document.pack mode).parts numbering body footnotes) :
    ShowsLists tree body footnotes := by
  obtain ⟨noted, converted, found, sections, defined⟩ := buildDocument_eq_ok built
  have outside : Context.IsIn { images, preset := options.tablePreset } [] := rfl
  obtain ⟨inText, inDefinitions⟩ := convertNodes_numbers outside tree.children noted converted
  have gathers := numberQuery_gathers (numberingInstances document.numbering)
  constructor
  · have numbered : numberings document.paragraphs
        = (markAll [] tree.children).text.map ListMark.numbering := by
      rw [Document.paragraphs, sections, List.flatten_singleton, toBlocks, blocksAfter_numberings]
      exact inText.1
    rw [gathers.within_document reads.body, defined]
    exact numbers_of_numberings numbered
  · have entries := (gathers.within_footnotes reads.footnotes).1
    intro entry mem
    obtain ⟨footnote, stored, id, numbers⟩ := exists_of_forall₂ entries mem
    obtain ⟨identifier, listed, numberedId⟩ :=
      (footnotesOf_eq_ok found).1.exists_definition stored
    have marked : (identifier, numberings footnote.2) ∈ noted.definitions.map
        (fun definition => (definition.1, numberings definition.2)) :=
      List.mem_map.mpr ⟨_, listed, rfl⟩
    rw [inDefinitions] at marked
    obtain ⟨marks, markedIn, same⟩ := List.mem_map.mp marked
    obtain ⟨rfl, inBody⟩ := Prod.mk.inj same
    refine ⟨marks, markedIn, footnote.1, numberedId, id, ?_⟩
    have mark : numberQuery.found [footnoteMark] = [] := rfl
    rw [numbers, mark, List.nil_append, defined]
    exact numbers_of_numberings ((numberings_noteParagraphs _).trans inBody.symm)

/-- Where the levels of each definition are counted, every number in the parts of content is that of
its paragraph, and the numbering part declares it. In a document that is built they are counted, and
the numbers are those of the lists of the tree, however deep these are nested. -/
theorem pack_numbersResolve :
    (∀ (document : Document) (mode : OutputMode),
      (∀ definition ∈ document.numbering, ∃ deepest, definition.CountsTo deepest) →
        ∃ numbering body footnotes, ReadsNumbers (document.pack mode).parts numbering body footnotes
          ∧ NumbersResolve document numbering body footnotes) ∧
    (∀ (tree : Tree) (options : Options) (images : ImageTable) (document : Document)
      (mode : OutputMode), buildDocument tree options images = .ok document →
        ∃ numbering body footnotes, ReadsNumbers (document.pack mode).parts numbering body footnotes
          ∧ NumbersResolve document numbering body footnotes ∧ ShowsLists tree body footnotes) := by
  constructor
  · intro document mode counted
    obtain ⟨numbering, body, footnotes, reads, declares⟩ := exists_readsNumbers document mode
    exact ⟨numbering, body, footnotes, reads, numbersResolve_of_reads counted reads declares⟩
  · intro tree options images document mode built
    obtain ⟨numbering, body, footnotes, reads, declares⟩ := exists_readsNumbers document mode
    have counted : ∀ definition ∈ document.numbering, ∃ deepest, definition.CountsTo deepest := by
      obtain ⟨_, _, _, _, defined⟩ := buildDocument_eq_ok built
      rw [defined]
      exact List.forall_mem_singleton.mpr ⟨5, orderedNumbering_countsTo⟩
    exact ⟨numbering, body, footnotes, reads, numbersResolve_of_reads counted reads declares,
      showsLists_of_built built reads⟩

/-- A counted definition of a reference. -/
def countedDefinition (reference : String) (deepest : Nat) : NumberingDefinition where
  reference
  levels := (List.range (deepest + 1)).map fun level => { level }

/-- Two definitions of one reference, a reference that has none, and levels too deep, in a body, in
a cell and in a footnote. -/
def numberedDocument : Document where
  numbering := [countedDefinition "a" 4, countedDefinition "b" 0, countedDefinition "a" 2]
  sections := [[
    .paragraph { numbering := some (.ordered "a" 7) },
    .table ⟨[⟨[⟨[], none⟩,
      ⟨[.paragraph { numbering := some (.ordered "b" 1) }], none⟩], none⟩], none⟩,
    .paragraph { numbering := some (.ordered "c" 0) }]]
  footnotes := [(1, []), (2, [{ numbering := some (.bullet 12) }])]

/-- Lists in lists, as many as given, with a paragraph in the innermost. -/
def nestedList (ordered : Bool) : Nat → Node
  | 0 => .paragraph []
  | depth + 1 => .list (some ordered) none none [.listItem none none [nestedList ordered depth]]

def listTree : Tree where
  children := [nestedList true 8, .footnoteDefinition "1" none [nestedList false 2]]

theorem pack_numbersResolve_nested :
    (∃ numbering body footnotes,
      ReadsNumbers (numberedDocument.pack .buffer).parts numbering body footnotes
        ∧ NumbersResolve numberedDocument numbering body footnotes) ∧
    ∃ document numbering body footnotes, buildDocument listTree {} {} = .ok document
      ∧ ReadsNumbers (document.pack .buffer).parts numbering body footnotes
      ∧ NumbersResolve document numbering body footnotes ∧ ShowsLists listTree body footnotes
      ∧ (markAll [] listTree.children).text = [⟨true, 7⟩]
      ∧ (markAll [] listTree.children).footnotes = [("1", [⟨false, 1⟩])] := by
  constructor
  · refine pack_numbersResolve.1 numberedDocument .buffer ?_
    simp only [numberedDocument, List.forall_mem_cons]
    exact ⟨⟨4, rfl⟩, ⟨0, rfl⟩, ⟨2, rfl⟩, List.forall_mem_nil _⟩
  · obtain ⟨numbering, body, footnotes, reads, resolve, shows⟩ :=
      pack_numbersResolve.2 listTree {} {} _ .buffer rfl
    exact ⟨_, numbering, body, footnotes, rfl, reads, resolve, shows, rfl, rfl⟩

end WordExport
