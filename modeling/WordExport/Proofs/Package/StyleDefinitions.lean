import Mathlib.Data.List.Count
import Mathlib.Data.List.Nodup
import WordExport.Proofs.Package.Declarations
import WordExport.Proofs.Package.Runs

set_option autoImplicit false

namespace WordExport

open Xml (Item Node Tag elementUnlessEmpty)
open Xml.Node (childItems childItems_append)

/-- The formats that a style gives to runs. -/
structure ShownFormats where
  fonts : List (List (String × String))
  bold : Bool
  italics : Bool
  color : Option String
  size : Option String

structure ShownStyle where
  kind : Option String
  id : Option String
  name : Option String
  basedOn : Option String
  next : Option String
  outlineLevel : Option String
  formats : ShownFormats

/-- The value of the first item of a name. -/
def valueIn? (name : String) (items : List Item) : Option String :=
  (items.filter (Item.isNamed name)).head?.bind (Item.attribute? "w:val")

def ShownFormats.ofItems (items : List Item) : ShownFormats where
  fonts := (items.filter (Item.isNamed "w:rFonts")).map Item.attributes
  bold := items.any (ShownRun.isOn "w:b")
  italics := items.any (ShownRun.isOn "w:i")
  color := valueIn? "w:color" items
  size := valueIn? "w:sz" items

def ShownStyle.ofItem (item : Item) : ShownStyle where
  kind := item.attribute? "w:type"
  id := item.attribute? "w:styleId"
  name := valueIn? "w:name" item.children
  basedOn := valueIn? "w:basedOn" item.children
  next := valueIn? "w:next" item.children
  outlineLevel := valueIn? "w:outlineLvl"
    ((item.children.filter (Item.isNamed "w:pPr")).flatMap Item.children)
  formats := .ofItems ((item.children.filter (Item.isNamed "w:rPr")).flatMap Item.children)

/-- The styles of paragraphs and of characters, in order. -/
def stylesIn (root : Item) : List ShownStyle :=
  (root.children.filter (Item.isNamed "w:style")).map .ofItem

def ParagraphStyle.shownFormats (style : ParagraphStyle) : ShownFormats where
  fonts := style.font.toList.map fun font =>
    ["w:ascii", "w:hAnsi", "w:cs"].map fun script => (script, Xml.visible font)
  bold := style.bold
  italics := style.italics
  color := style.color.map Xml.visible
  size := style.size.map toString

/-- How a paragraph style is to be shown. -/
def ParagraphStyle.shown (style : ParagraphStyle) : ShownStyle where
  kind := "paragraph"
  id := Xml.visible style.id
  name := Xml.visible style.name
  basedOn := style.basedOn.map Xml.visible
  next := style.next.map Xml.visible
  outlineLevel := style.outlineLevel.map toString
  formats := style.shownFormats

theorem ofItems_runProperties (style : ParagraphStyle) :
    ShownFormats.ofItems (childItems style.runProperties) = style.shownFormats := by
  have number (size : Nat) : Xml.visible size.repr = size.repr := visible_toString size
  obtain ⟨_, _, _, _, bold, italics, size, color, font, _⟩ := style
  cases font <;> cases bold <;> cases italics <;> cases color <;> cases size <;>
    simp [ParagraphStyle.runProperties, ParagraphStyle.shownFormats, ShownFormats.ofItems, valueIn?,
      optionalLeaf, sizeMarkup, valueLeaf, childItems, Node.items, Tag.visible, Item.isNamed,
      Item.attributes, Item.attribute?, ShownRun.isOn, number]

theorem filter_elementUnlessEmpty {name other : String} (unlike : name ≠ other)
    (nodes : List Node) :
    (childItems (elementUnlessEmpty name nodes)).filter (Item.isNamed other) = [] := by
  rcases items_elementUnlessEmpty name nodes with ⟨absent, _⟩ | present
  · rw [absent]
    rfl
  · rw [present]
    simp [Item.isNamed, unlike]

/-- Left out or not, an element holds what it was written with. -/
theorem children_elementUnlessEmpty (name : String) (nodes : List Node) :
    ((childItems (elementUnlessEmpty name nodes)).filter (Item.isNamed name)).flatMap Item.children
      = childItems nodes := by
  rcases items_elementUnlessEmpty name nodes with ⟨absent, empty⟩ | present
  · rw [absent, empty]
    rfl
  · rw [present]
    simp [Item.isNamed, Item.children]

theorem ShownStyle.ofItem_markup (style : ParagraphStyle) :
    ∃ item, style.markup.items = [item] ∧ item.isNamed "w:style" = true
      ∧ ShownStyle.ofItem item = style.shown := by
  refine ⟨_, rfl, rfl, ?_⟩
  have number (level : Nat) : Xml.visible level.repr = level.repr := visible_toString level
  have paragraph : Xml.visible "paragraph" = "paragraph" := rfl
  rw [ParagraphStyle.shown, ← ofItems_runProperties]
  obtain ⟨id, name, basedOn, next, _, _, _, _, _, outlineLevel⟩ := style
  generalize ParagraphStyle.runProperties _ = runs
  cases basedOn <;> cases next <;> cases outlineLevel <;>
    simp [ShownStyle.ofItem, valueIn?, optionalLeaf, valueLeaf, childItems,
      Node.items, Tag.visible, Item.isNamed, Item.attribute?, Item.children, List.lookup_cons, number,
      paragraph, filter_elementUnlessEmpty, children_elementUnlessEmpty]

/-- The styles of which the part always has its own. -/
def fixedStyleIds : List String := ["Normal", "Hyperlink", "FootnoteReference"]

/-- The styles that markup and built-in styles refer to. -/
def referredStyleIds : List String :=
  ["Normal", "FootnoteText", "Hyperlink", "FootnoteReference"] ++ Heading.all.map Heading.styleId

/-- The styles of a sheet and the built-in ones beside it stand between the fixed styles. -/
theorem stylesIn_stylesPart (sheet : StyleSheet) :
    ∃ tag children before after, (stylesPart sheet).items = [.element tag children]
      ∧ stylesIn (.element tag children)
        = before ++ (paragraphStyles sheet.paragraphStyles).map ParagraphStyle.shown ++ after
      ∧ (before ++ after).map ShownStyle.id = fixedStyleIds.map some := by
  have defined := childItems_map ShownStyle.ofItem_markup (paragraphStyles sheet.paragraphStyles)
  refine ⟨_, _, stylesIn (.element ⟨"", []⟩ (childItems [defaultProperties sheet, normalStyle])),
    stylesIn (.element ⟨"", []⟩ (childItems [
      characterStyle "Hyperlink" "Hyperlink"
        [valueLeaf "w:color" "0563C1", valueLeaf "w:u" "single"],
      characterStyle "FootnoteReference" "footnote reference"
        [valueLeaf "w:vertAlign" "superscript"]])), rfl, ?_, rfl⟩
  simp only [stylesIn, Item.children, childItems_append, List.filter_append, List.map_append,
    defined]

section

variable {sheet : List ParagraphStyle}

theorem mem_paragraphStyles {style : ParagraphStyle} :
    style ∈ paragraphStyles sheet ↔
      style ∈ builtInStyles ∧ style.id ∉ sheet.map ParagraphStyle.id ∨ style ∈ sheet := by
  simp [paragraphStyles]

/-- Each id is that of a single style, built-in or of the sheet. -/
theorem paragraphStyles_nodup (distinct : (sheet.map ParagraphStyle.id).Nodup) :
    ((paragraphStyles sheet).map ParagraphStyle.id).Nodup := by
  have builtIn : (builtInStyles.map ParagraphStyle.id).Nodup := by decide
  rw [paragraphStyles, List.map_append, List.nodup_append]
  refine ⟨builtIn.sublist (List.filter_sublist.map _), distinct, ?_⟩
  intro id kept other custom same
  obtain ⟨style, listed, rfl⟩ := List.mem_map.mp kept
  obtain ⟨replacing, mem, rfl⟩ := List.mem_map.mp custom
  have spared := (List.mem_filter.mp listed).2
  simp only [Bool.not_eq_true', List.any_eq_false, beq_iff_eq] at spared
  exact spared replacing mem same.symm

/-- No style that is referred to gets lost with the built-in one that the sheet replaces. -/
theorem exists_referred {id : String} (referred : id ∈ referredStyleIds) :
    id ∈ fixedStyleIds ∨ ∃ style ∈ paragraphStyles sheet, style.id = id := by
  have builtIn : ∀ id ∈ referredStyleIds,
      id ∈ fixedStyleIds ∨ id ∈ builtInStyles.map ParagraphStyle.id := by decide
  rcases builtIn id referred with fixed | known
  · exact .inl fixed
  · right
    obtain ⟨style, listed, rfl⟩ := List.mem_map.mp known
    by_cases replaced : style.id ∈ sheet.map ParagraphStyle.id
    · obtain ⟨custom, mem, same⟩ := List.mem_map.mp replaced
      exact ⟨custom, mem_paragraphStyles.mpr (.inr mem), same⟩
    · exact ⟨style, mem_paragraphStyles.mpr (.inl ⟨listed, replaced⟩), rfl⟩

end

/-- A styles part defines the styles of a sheet as they are given, and all styles referred to. It
defines no style twice, but for those of the sheet that have the id of a fixed one. -/
structure DefinesStyles (styles : Item) (sheet : List ParagraphStyle) : Prop where
  once : ∀ id ∉ fixedStyleIds, ((stylesIn styles).map ShownStyle.id).count (some id) ≤ 1
  apart : ((stylesIn styles).map ShownStyle.id).Nodup ↔ ∀ style ∈ sheet, style.id ∉ fixedStyleIds
  own : ∀ style ∈ sheet, style.shown ∈ stylesIn styles
  referred : ∀ id ∈ referredStyleIds, some id ∈ (stylesIn styles).map ShownStyle.id

/-- The ids of all styles, in another order. -/
theorem ids_perm {sheet : List ParagraphStyle} {styles : Item} {before after : List ShownStyle}
    (shown : stylesIn styles = before ++ (paragraphStyles sheet).map ParagraphStyle.shown ++ after)
    (fixed : (before ++ after).map ShownStyle.id = fixedStyleIds.map some)
    (visible : ∀ style ∈ sheet, Xml.visible style.id = style.id) :
    ((stylesIn styles).map ShownStyle.id).Perm
      ((fixedStyleIds ++ (paragraphStyles sheet).map ParagraphStyle.id).map some) := by
  have builtIn : ∀ style ∈ builtInStyles, Xml.visible style.id = style.id := by decide
  have ids : ((paragraphStyles sheet).map ParagraphStyle.shown).map ShownStyle.id
      = ((paragraphStyles sheet).map ParagraphStyle.id).map some := by
    simp only [List.map_map]
    refine List.map_congr_left fun style mem => ?_
    rcases mem_paragraphStyles.mp mem with ⟨listed, _⟩ | custom
    · exact congrArg some (builtIn style listed)
    · exact congrArg some (visible style custom)
  rw [shown, List.map_append, List.map_append, ids, List.map_append, ← fixed, List.map_append,
    List.append_assoc, List.append_assoc]
  exact List.perm_append_comm.append_left _

theorem definesStyles_of_shown {sheet : List ParagraphStyle} {styles : Item}
    {before after : List ShownStyle}
    (shown : stylesIn styles = before ++ (paragraphStyles sheet).map ParagraphStyle.shown ++ after)
    (fixed : (before ++ after).map ShownStyle.id = fixedStyleIds.map some)
    (distinct : (sheet.map ParagraphStyle.id).Nodup)
    (visible : ∀ style ∈ sheet, Xml.visible style.id = style.id) : DefinesStyles styles sheet := by
  have ids := ids_perm shown fixed visible
  have injective : Function.Injective (some : String → Option String) := fun _ _ => Option.some.inj
  have single := paragraphStyles_nodup distinct
  have builtIn : ∀ style ∈ builtInStyles, style.id ∉ fixedStyleIds := by decide
  constructor
  case once =>
    intro id free
    rw [ids.count_eq, List.count_map_of_injective _ _ injective, List.count_append,
      List.count_eq_zero_of_not_mem free, Nat.zero_add]
    exact List.nodup_iff_count_le_one.mp single id
  case apart =>
    rw [ids.nodup_iff, List.nodup_map_iff injective, List.nodup_append]
    constructor
    · rintro ⟨_, _, apart⟩ style mem listed
      have present := List.mem_map_of_mem (f := ParagraphStyle.id)
        (mem_paragraphStyles.mpr (.inr mem))
      exact apart _ listed _ present rfl
    · intro free
      refine ⟨by decide, single, ?_⟩
      intro id listed other present same
      obtain ⟨style, mem, rfl⟩ := List.mem_map.mp present
      subst same
      rcases mem_paragraphStyles.mp mem with ⟨known, _⟩ | custom
      · exact builtIn style known listed
      · exact free style custom listed
  case own =>
    intro style mem
    rw [shown]
    have present := List.mem_map_of_mem (f := ParagraphStyle.shown)
      (mem_paragraphStyles.mpr (.inr mem))
    exact List.mem_append_left _ (List.mem_append_right _ present)
  case referred =>
    intro id referred
    rw [ids.mem_iff]
    apply List.mem_map_of_mem
    rcases exists_referred referred with listed | ⟨style, mem, rfl⟩
    · exact List.mem_append_left _ listed
    · exact List.mem_append_right _ (List.mem_map_of_mem mem)

/-- The style sheet of a document replaces the built-in styles of its ids: the styles part defines
its styles as they are given, and all styles that are referred to. It defines each style once, but
for those of the sheet that are named as the default style or one of the two character styles. -/
theorem pack_definesStyles (document : Document) (mode : OutputMode)
    (distinct : ((document.styles.getD {}).paragraphStyles.map ParagraphStyle.id).Nodup)
    (kept : ∀ style ∈ (document.styles.getD {}).paragraphStyles,
      ∀ c ∈ style.id.toList, Xml.isDropped c = false) :
    ∃ styles, itemOf? (document.pack mode).parts "word/styles.xml" = some styles
      ∧ DefinesStyles styles (document.styles.getD {}).paragraphStyles := by
  obtain ⟨tag, children, before, after, written, shown, fixed⟩ :=
    stylesIn_stylesPart (document.styles.getD {})
  refine ⟨.element tag children, ?_, ?_⟩
  · exact (stylesPart_plain (document.styles.getD {})).bears.itemOf?_eq rfl written
  · have visible := fun style mem => visible_of_kept (kept style mem)
    exact definesStyles_of_shown shown fixed distinct visible

/-- A sheet with a title of its own, and with a style that nothing built in has the id of. -/
def titledDocument : Document where
  styles := some { paragraphStyles := [
    { id := "Title", name := "My Title", size := some 72, font := some "A&B" },
    { id := "Quote", name := "Quote\u0001", basedOn := some "Title", outlineLevel := some 3 }] }

theorem pack_definesStyles_titled :
    ((titledDocument.styles.getD {}).paragraphStyles.map ParagraphStyle.id).Nodup ∧
      (∀ style ∈ (titledDocument.styles.getD {}).paragraphStyles,
        ∀ c ∈ style.id.toList, Xml.isDropped c = false) ∧
      ∃ styles, itemOf? (titledDocument.pack .buffer).parts "word/styles.xml" = some styles
        ∧ DefinesStyles styles (titledDocument.styles.getD {}).paragraphStyles
        ∧ ((stylesIn styles).map ShownStyle.id).Nodup := by
  have distinct :
      ((titledDocument.styles.getD {}).paragraphStyles.map ParagraphStyle.id).Nodup := by decide
  have spelled : ∀ style ∈ (titledDocument.styles.getD {}).paragraphStyles,
      style.id.toList.all (!Xml.isDropped ·) = true := by decide
  have kept : ∀ style ∈ (titledDocument.styles.getD {}).paragraphStyles,
      ∀ c ∈ style.id.toList, Xml.isDropped c = false := by
    intro style mem
    simpa using spelled style mem
  obtain ⟨styles, read, defines⟩ := pack_definesStyles titledDocument .buffer distinct kept
  have free : ∀ style ∈ (titledDocument.styles.getD {}).paragraphStyles,
      style.id ∉ fixedStyleIds := by decide
  exact ⟨distinct, kept, styles, read, defines, defines.apart.mpr free⟩

/-- A sheet with a style for links. -/
def linkStyleDocument : Document where
  styles := some { paragraphStyles := [{ id := "Hyperlink", name := "Link" }] }

/-- The style for links does not replace the one of that id, and is defined beside it. -/
theorem linkStyle_defined_twice :
    ∃ styles, itemOf? (linkStyleDocument.pack .buffer).parts "word/styles.xml" = some styles
      ∧ ((stylesIn styles).filter fun style => style.id == some "Hyperlink").map
          (fun style => (style.kind, style.name))
        = [(some "paragraph", some "Link"), (some "character", some "Hyperlink")]
      ∧ ¬ ((stylesIn styles).map ShownStyle.id).Nodup := by
  have read : itemOf? (linkStyleDocument.pack .buffer).parts "word/styles.xml" = some _ :=
    (stylesPart_plain (linkStyleDocument.styles.getD {})).bears.itemOf?_eq rfl rfl
  exact ⟨_, read, by decide, by decide⟩

end WordExport
