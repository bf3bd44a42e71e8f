import WordExport.Proofs.Package.Paragraphs

set_option autoImplicit false

namespace WordExport

open Xml (Item Node Tag elementUnlessEmpty)
open Xml.Item (elementsIn)
open Xml.Node (childItems childItems_append)

/-- A run of text, with whether its paragraph is bold and whether it is in a link. -/
structure PlacedRun where
  run : TextRun
  bold : Bool
  linked : Bool

mutual

def Inline.textRuns (bold linked : Bool) : Inline → List PlacedRun
  | .text run => [{ run, bold, linked }]
  | .link _ children => itemTextRuns bold true children
  | _ => []

def itemTextRuns (bold linked : Bool) : List Inline → List PlacedRun
  | [] => []
  | item :: items => item.textRuns bold linked ++ itemTextRuns bold linked items

end

def Paragraph.isBold (paragraph : Paragraph) : Bool :=
  (paragraph.properties.map ParagraphProperties.bold).getD false

def Paragraph.textRuns (paragraph : Paragraph) : List PlacedRun :=
  itemTextRuns paragraph.isBold false paragraph.children

/-- Runs of text show no drawing and no reference to a footnote. -/
def isTextRun : Item → Bool
  | .char _ => false
  | .element tag children =>
    tag.name == "w:r" && !children.any fun child =>
      child.isNamed "w:drawing" || child.isNamed "w:footnoteReference"

/-- Content controls are not looked into. -/
def isEntered (name : String) : Bool :=
  name != "w:sdt"

/-- A run as it is shown: its style, its formats, and what it holds beside its properties. -/
structure ShownRun where
  style : Option String := none
  bold : Bool := false
  italics : Bool := false
  strike : Bool := false
  content : List Item

namespace ShownRun

/-- A format is on where its element stands without a value. -/
def isOn (name : String) : Item → Bool
  | .char _ => false
  | .element tag _ => tag.name == name && tag.attributes.isEmpty

def ofFormats (formats content : List Item) : ShownRun where
  style := (formats.find? (Item.isNamed "w:rStyle")).bind (Item.attribute? "w:val")
  bold := formats.any (isOn "w:b")
  italics := formats.any (isOn "w:i")
  strike := formats.any (isOn "w:strike")
  content

def ofItem (item : Item) : ShownRun :=
  ofFormats ((item.children.filter (Item.isNamed "w:rPr")).flatMap Item.children)
    (item.children.filter fun child => !child.isNamed "w:rPr")

end ShownRun

def lineBreakItem : Item :=
  .element ⟨"w:br", []⟩ []

def textItem (text : String) : Item :=
  .element ⟨"w:t", [("xml:space", "preserve")]⟩ ((Xml.visible text).toList.map .char)

/-- How a run is to be shown. -/
def PlacedRun.shown (placed : PlacedRun) : ShownRun where
  style := if placed.linked then some "Hyperlink" else none
  bold := placed.run.bold || placed.bold
  italics := placed.run.italics
  strike := placed.run.strike
  content := List.replicate placed.run.breaks lineBreakItem
    ++ if placed.run.text.isEmpty then [] else [textItem placed.run.text]

/-- The mark of a footnote, as a run. -/
def shownMark : ShownRun where
  style := some "FootnoteReference"
  content := [.element ⟨"w:footnoteRef", []⟩ []]

def runQuery : Query ShownRun where
  enters := isEntered
  picks := isTextRun
  shows := .ofItem

/-- The entry of a footnote has its number, and shows its runs after its mark. -/
def ShowsFootnoteRuns (footnote : Nat × List Paragraph) (entry : Item) : Prop :=
  entry.attribute? "w:id" = some (toString footnote.1)
    ∧ runQuery.within entry
      = shownMark :: (footnote.2.flatMap Paragraph.textRuns).map PlacedRun.shown

theorem runQuery_content : PicksContent runQuery.picks := by
  intro tag children picked
  have named : (tag.name == "w:r") = true := (Bool.and_eq_true_iff.mp picked).1
  rw [eq_of_beq named]
  decide

theorem childItems_replicate (count : Nat) (name : String) :
    childItems (List.replicate count (.leaf name))
      = List.replicate count (.element ⟨name, []⟩ []) := by
  induction count with
  | zero => rfl
  | succ count ih =>
    rw [List.replicate_succ, childItems, ih]
    rfl

/-- An element that is left out where it is empty leaves nothing else behind. -/
theorem items_elementUnlessEmpty (name : String) (nodes : List Node) :
    childItems (elementUnlessEmpty name nodes) = []  ∧ childItems nodes = []
      ∨ childItems (elementUnlessEmpty name nodes) = [.element ⟨name, []⟩ (childItems nodes)] := by
  cases nodes with
  | nil => exact .inl ⟨rfl, rfl⟩
  | cons node nodes => exact .inr rfl

theorem ofFormats_properties (format : RunFormat) (run : TextRun) (content : List Item) :
    ShownRun.ofFormats (childItems (run.properties format)) content = {
      style := if format.hyperlink then some "Hyperlink" else none
      bold := run.bold || format.bold
      italics := run.italics
      strike := run.strike
      content } := by
  unfold TextRun.properties
  cases format.hyperlink <;> cases run.bold || format.bold <;> cases run.italics <;>
    cases run.strike <;> rfl

theorem textRun_items (format : RunFormat) (run : TextRun) :
    (run.markup format).items = [.element ⟨"w:r", []⟩
      (childItems (elementUnlessEmpty "w:rPr" (run.properties format))
        ++ (PlacedRun.shown { run, bold := format.bold, linked := format.hyperlink }).content)]
      := by
  have text : childItems (if run.text.isEmpty then []
      else [.element "w:t" [("xml:space", "preserve")] [.text run.text]])
      = if run.text.isEmpty then [] else [textItem run.text] := by
    split
    · rfl
    · exact congrArg (fun items => [Item.element _ items]) (List.append_nil _)
  rw [TextRun.markup, Node.items, childItems_append, childItems_append, childItems_replicate, text,
    List.append_assoc]
  rfl

/-- Beside its properties a run holds line breaks and text. -/
theorem isNamed_of_mem_content {placed : PlacedRun} {item : Item}
    (mem : item ∈ placed.shown.content) {name : String} (named : item.isNamed name = true) :
    name = "w:br" ∨ name = "w:t" := by
  rcases List.mem_append.mp mem with lineBreak | text
  · rw [List.eq_of_mem_replicate lineBreak] at named
    exact .inl (eq_of_beq named).symm
  · split at text
    · contradiction
    · rw [List.mem_singleton.mp text] at named
      exact .inr (eq_of_beq named).symm

section

variable (properties : List Node) (placed : PlacedRun)

/-- The properties of a run are told apart from what it shows. -/
theorem ofItem_element (tag : Tag) :
    ShownRun.ofItem (.element tag (childItems (elementUnlessEmpty "w:rPr" properties)
        ++ placed.shown.content))
      = .ofFormats (childItems properties) placed.shown.content := by
  have shows : ∀ item ∈ placed.shown.content, item.isNamed "w:rPr" = false := by
    intro item mem
    refine Bool.eq_false_iff.mpr fun named => ?_
    exact absurd (isNamed_of_mem_content mem named) (by decide)
  have none : placed.shown.content.filter (Item.isNamed "w:rPr") = [] :=
    List.filter_eq_nil_iff.mpr fun item mem => by simp [shows item mem]
  have all : (placed.shown.content.filter fun child => !child.isNamed "w:rPr")
      = placed.shown.content :=
    List.filter_eq_self.mpr fun item mem => by simp [shows item mem]
  rw [ShownRun.ofItem, Item.children, List.filter_append, List.filter_append, none, all,
    List.append_nil]
  rcases items_elementUnlessEmpty "w:rPr" properties with ⟨empty, inside⟩ | single
  · rw [empty, inside]
    rfl
  · rw [single]
    exact congrArg (ShownRun.ofFormats · _) (List.append_nil _)

theorem isTextRun_element :
    isTextRun (.element ⟨"w:r", []⟩ (childItems (elementUnlessEmpty "w:rPr" properties)
      ++ placed.shown.content)) = true := by
  have shows : ∀ item ∈ placed.shown.content,
      (item.isNamed "w:drawing" || item.isNamed "w:footnoteReference") = false := by
    intro item mem
    refine Bool.eq_false_iff.mpr fun named => ?_
    rcases Bool.or_eq_true_iff.mp named with drawing | reference
    · exact absurd (isNamed_of_mem_content mem drawing) (by decide)
    · exact absurd (isNamed_of_mem_content mem reference) (by decide)
  have none : (placed.shown.content.any fun child =>
      child.isNamed "w:drawing" || child.isNamed "w:footnoteReference") = false :=
    List.any_eq_false.mpr fun item mem => by simp [shows item mem]
  rw [isTextRun, List.any_append, none, Bool.or_false]
  rcases items_elementUnlessEmpty "w:rPr" properties with ⟨empty, _⟩ | single
  · rw [empty]
    rfl
  · rw [single]
    rfl

end

/-- A run of text is found as one run, with its own formats and those around it. -/
theorem textRun_shown (format : RunFormat) (run : TextRun) :
    runQuery.found [run.markup format]
      = [PlacedRun.shown { run, bold := format.bold, linked := format.hyperlink }] := by
  obtain ⟨content, same, bare⟩ := textRun_bare format run
  have inside : childItems content = childItems (elementUnlessEmpty "w:rPr" (run.properties format))
      ++ (PlacedRun.shown { run, bold := format.bold, linked := format.hyperlink }).content := by
    have items := textRun_items format run
    rw [same] at items
    exact (Item.element.inj (List.cons.inj items).1).2
  have picked :
      runQuery.picks (.element (Tag.visible ⟨"w:r", []⟩) (childItems content)) = true := by
    rw [inside]
    exact isTextRun_element _ _
  have shown : ShownRun.ofItem (.element (Tag.visible ⟨"w:r", []⟩) (childItems content))
      = PlacedRun.shown { run, bold := format.bold, linked := format.hyperlink } := by
    rw [inside, ofItem_element, ofFormats_properties]
    rfl
  rw [same, Query.found_picked rfl picked, bare.found_eq_nil runQuery_content]
  exact congrArg ([·]) shown

theorem runQuery_element {name : String} {attributes : List (String × String)}
    {children : List Node} (entered : isEntered name = true) (passed : name ≠ "w:r") :
    runQuery.found [.element name attributes children] = runQuery.found children := by
  refine Query.found_element entered (Bool.eq_false_iff.mpr fun picked => passed ?_)
  exact eq_of_beq (Bool.and_eq_true_iff.mp picked).1

theorem drawingMarkup_shown (image : Image) (number : Nat) (name relationship : String) :
    runQuery.found [drawingMarkup image number name relationship] = [] :=
  rfl

mutual

theorem inlineMarkup_shown (format : RunFormat) (item : Inline) :
    Yields (fun node => runQuery.found [node]
        = (item.textRuns format.bold format.hyperlink).map PlacedRun.shown)
      (inlineMarkup format item) := by
  cases item with
  | text run => exact .pure (textRun_shown format run)
  | image image =>
    intro ledger
    exact drawingMarkup_shown image _ _ _
  | link url children =>
    intro ledger
    have below := inlinesMarkup_shown { format with hyperlink := true } children
    exact (runQuery_element rfl (by decide)).trans (below _)
  | math runs =>
    have bare := (runsMarkup_bare runs).found_eq_nil runQuery_content
    exact .pure ((runQuery_element rfl (by decide)).trans bare)
  | checkbox checked => exact .pure rfl
  | footnoteReference id => exact .pure rfl

theorem inlinesMarkup_shown (format : RunFormat) (items : List Inline) :
    Yields (fun nodes => runQuery.found nodes
        = (itemTextRuns format.bold format.hyperlink items).map PlacedRun.shown)
      (inlinesMarkup format items) := by
  cases items with
  | nil => exact .pure rfl
  | cons item items =>
    have first := inlineMarkup_shown format item
    have rest := inlinesMarkup_shown format items
    refine first.append rest fun node nodes shown shown' => ?_
    rw [runQuery.found_cons, shown, shown', itemTextRuns, List.map_append]

end

theorem textRuns_noteParagraphs (body : List Paragraph) :
    (noteParagraphs body).flatMap Paragraph.textRuns = body.flatMap Paragraph.textRuns := by
  cases body <;> rfl

theorem ShowsFootnoteRuns.of_isEntry {footnote : Nat × List Paragraph} {entry : Item}
    (isEntry : runQuery.IsEntry (fun paragraph => paragraph.textRuns.map PlacedRun.shown) footnote
      entry) : ShowsFootnoteRuns footnote entry := by
  obtain ⟨id, runs⟩ := isEntry
  have mark : runQuery.found [footnoteMark] = [shownMark] := rfl
  rw [mark, ← List.map_flatMap, textRuns_noteParagraphs] at runs
  exact ⟨id, runs⟩

end WordExport
