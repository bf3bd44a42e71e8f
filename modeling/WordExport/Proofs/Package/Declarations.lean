import Mathlib.Data.List.Induction
import WordExport.Proofs.Package.Paragraphs
import WordExport.Proofs.Package.WellFormed

set_option autoImplicit false

namespace WordExport

open Xml (Item Node Tag elementUnlessEmpty)
open Xml.Node (childItems childItems_append)

/-- The levels of a definition are counted from 0 up to the deepest. -/
def NumberingDefinition.CountsTo (definition : NumberingDefinition) (deepest : Nat) : Prop :=
  definition.levels.map NumberingLevel.level = List.range (deepest + 1)

/-- The instance and the level of a number. Bullets have the first instance, and the last definition
of a reference counts. -/
inductive Numbering.At (definitions : List NumberingDefinition) :
    Numbering → Option (Nat × Nat) → Prop
  | bullet (level : Nat) : At definitions (.bullet level) (some (1, min level 8))
  | ordered (before after : List NumberingDefinition) (definition : NumberingDefinition)
    (level deepest : Nat) :
    definitions = before ++ definition :: after →
      (∀ later ∈ after, later.reference ≠ definition.reference) → definition.CountsTo deepest →
        At definitions (.ordered definition.reference level)
          (some (before.length + 2, min level deepest))
  | undefined (reference : String) (level : Nat) :
    (∀ definition ∈ definitions, definition.reference ≠ reference) →
      At definitions (.ordered reference level) none

def Paragraph.At (definitions : List NumberingDefinition) (paragraph : Paragraph)
    (place : Option (Nat × Nat)) : Prop :=
  match paragraph.numbering with
  | none => place = none
  | some numbering => numbering.At definitions place

theorem foldl_max_range (count : Nat) : (List.range (count + 1)).foldl max 0 = count := by
  induction count with
  | zero => rfl
  | succ count ih =>
    rw [List.range_succ, List.foldl_append, ih]
    exact Nat.max_eq_right (Nat.le_succ count)

theorem NumberingDefinition.CountsTo.deepestLevel_eq {definition : NumberingDefinition}
    {deepest : Nat} (counts : definition.CountsTo deepest) :
    deepestLevel definition.levels = deepest := by
  rw [deepestLevel, counts, foldl_max_range]

theorem findInstance?_append (definitions : List NumberingDefinition)
    (definition : NumberingDefinition) (reference : String) :
    findInstance? (numberingInstances (definitions ++ [definition])) reference
      = if reference == definition.reference
        then some ⟨definitions.length + 2, deepestLevel definition.levels⟩
        else findInstance? (numberingInstances definitions) reference := by
  have split : numberingInstances (definitions ++ [definition])
      = numberingInstances definitions ++ [(definition.reference,
          ⟨definitions.length + 2, deepestLevel definition.levels⟩)] := by
    rw [numberingInstances, List.mapIdx_concat, Nat.add_comm definitions.length]
    rfl
  rw [findInstance?, split, List.reverse_append, List.reverse_singleton, List.singleton_append,
    List.lookup_cons]
  cases reference == definition.reference <;> rfl

/-- The induction is from the last definition backwards, as the last one of a reference counts. -/
theorem place?_ordered_at (definitions : List NumberingDefinition)
    (counted : ∀ definition ∈ definitions, ∃ deepest, definition.CountsTo deepest)
    (reference : String) (level : Nat) :
    (Numbering.ordered reference level).At definitions
      ((Numbering.ordered reference level).place? (numberingInstances definitions)) := by
  rw [Numbering.place?]
  induction definitions using List.reverseRecOn with
  | nil => exact .undefined reference level (List.forall_mem_nil _)
  | append_singleton definitions definition ih =>
    obtain ⟨earlier, deepest, counts⟩ := (List.forall_mem_append.mp counted).imp_right
      (List.forall_mem_singleton.mp ·)
    rw [findInstance?_append]
    split
    case isTrue same =>
      rw [eq_of_beq same, Option.map_some, counts.deepestLevel_eq]
      exact .ordered definitions [] definition level deepest rfl (List.forall_mem_nil _) counts
    case isFalse unlike =>
      have other : definition.reference ≠ reference := fun same => unlike (beq_of_eq same.symm)
      generalize (findInstance? (numberingInstances definitions) reference).map _ = place at ih ⊢
      cases ih earlier with
      | ordered before after found _ deepest same last counts =>
        refine .ordered before (after ++ [definition]) found level deepest ?_ ?_ counts
        · rw [same, List.append_assoc]
          rfl
        · exact List.forall_mem_append.mpr ⟨last, List.forall_mem_singleton.mpr other⟩
      | undefined _ _ missing =>
        exact .undefined reference level
          (List.forall_mem_append.mpr ⟨missing, List.forall_mem_singleton.mpr other⟩)

theorem Numbering.place?_at {definitions : List NumberingDefinition}
    (counted : ∀ definition ∈ definitions, ∃ deepest, definition.CountsTo deepest)
    (numbering : Numbering) :
    numbering.At definitions (numbering.place? (numberingInstances definitions)) := by
  cases numbering with
  | bullet level => exact .bullet level
  | ordered reference level => exact place?_ordered_at definitions counted reference level

/-- The value of the first child of a name. -/
def Xml.Item.childValue? (name : String) (item : Item) : Option String :=
  (item.children.find? (Item.isNamed name)).bind (Item.attribute? "w:val")

/-- A level as it is shown; a level without an indent has no properties of a paragraph. -/
structure ShownLevel where
  number : Option String
  start : Option String
  format : Option String
  text : Option String
  alignment : Option String
  indents : List (List (String × String))

def Xml.Item.attributes : Item → List (String × String)
  | .char _ => []
  | .element tag _ => tag.attributes

def ShownLevel.ofItem (item : Item) : ShownLevel where
  number := item.attribute? "w:ilvl"
  start := item.childValue? "w:start"
  format := item.childValue? "w:numFmt"
  text := item.childValue? "w:lvlText"
  alignment := item.childValue? "w:lvlJc"
  indents :=
    ((item.children.filter (Item.isNamed "w:pPr")).flatMap Item.children).map Item.attributes

/-- How a level is to be shown. -/
def NumberingLevel.shown (level : NumberingLevel) : ShownLevel where
  number := toString level.level
  start := "1"
  format := level.format.code
  text := Xml.visible level.text
  alignment := level.alignment.code
  indents := level.indent.toList.map fun indent =>
    ("w:left", toString indent) ::
      if level.format = .bullet then [("w:hanging", "360")] else []

/-- An abstract definition, by its identifier. -/
structure ShownDefinition where
  id : Option String
  levels : List ShownLevel

/-- An instance, bound to an abstract definition. -/
structure ShownInstance where
  id : Option String
  definition : Option String

def ShownDefinition.ofItem (item : Item) : ShownDefinition where
  id := item.attribute? "w:abstractNumId"
  levels := (item.children.filter (Item.isNamed "w:lvl")).map .ofItem

def ShownInstance.ofItem (item : Item) : ShownInstance where
  id := item.attribute? "w:numId"
  definition := item.childValue? "w:abstractNumId"

def definitionsIn (root : Item) : List ShownDefinition :=
  (root.children.filter (Item.isNamed "w:abstractNum")).map .ofItem

def instancesIn (root : Item) : List ShownInstance :=
  (root.children.filter (Item.isNamed "w:num")).map .ofItem

/-- The levels of bullets and of the definitions, in the order of their identifiers. -/
def abstractLevels (definitions : List NumberingDefinition) : List (List NumberingLevel) :=
  bulletLevels :: definitions.map NumberingDefinition.levels

theorem visible_formatCode (format : LevelFormat) : Xml.visible format.code = format.code := by
  cases format <;> rfl

theorem visible_alignmentCode (alignment : Alignment) :
    Xml.visible alignment.code = alignment.code := by
  cases alignment <;> rfl

theorem ShownLevel.ofItem_markup (level : NumberingLevel) :
    ∃ item, level.markup.items = [item] ∧ item.isNamed "w:lvl" = true
      ∧ ShownLevel.ofItem item = level.shown := by
  refine ⟨_, rfl, rfl, ?_⟩
  have first : Xml.visible "1" = "1" := rfl
  have hanging : Xml.visible "360" = "360" := rfl
  have number (value : Nat) : Xml.visible value.repr = value.repr := visible_toString value
  obtain ⟨_, format, _, _, indent⟩ := level
  rcases indent with _ | indent <;> cases format <;>
    simp [ShownLevel.ofItem, NumberingLevel.shown, NumberingLevel.indentMarkup, Item.childValue?,
      Item.children, Item.attributes, Item.isNamed, Item.attribute?, Tag.visible, Node.items,
      childItems, first, hanging, number, visible_formatCode, visible_alignmentCode]

section

variable {α β : Type} {markup : α → Node} {name : String} {shown : Item → β} {ofValue : α → β}

/-- Markup with one item each is read item by item. -/
theorem childItems_map (written : ∀ value, ∃ item, (markup value).items = [item]
    ∧ item.isNamed name = true ∧ shown item = ofValue value) (values : List α) :
    ((childItems (values.map markup)).filter (Item.isNamed name)).map shown
      = values.map ofValue := by
  induction values with
  | nil => rfl
  | cons value values ih =>
    obtain ⟨item, single, named, same⟩ := written value
    rw [List.map_cons, childItems, single, List.singleton_append, List.filter_cons_of_pos named,
      List.map_cons, ih, same, List.map_cons]

/-- Items of another name are passed over. -/
theorem childItems_map_other (written : ∀ value, ∃ item, (markup value).items = [item]
    ∧ item.isNamed name = true ∧ shown item = ofValue value) {other : String}
    (unlike : other ≠ name) (values : List α) : (childItems (values.map markup)).filter (Item.isNamed other) = [] := by
  induction values with
  | nil => rfl
  | cons value values ih =>
    obtain ⟨item, single, named, _⟩ := written value
    have passed : ¬ item.isNamed other = true := by
      intro picked
      cases item with
      | char c => cases picked
      | element tag children => exact unlike ((eq_of_beq picked).symm.trans (eq_of_beq named))
    rw [List.map_cons, childItems, single, List.singleton_append,
      List.filter_cons_of_neg passed, ih]

end

theorem ShownDefinition.ofItem_markup (id : Nat) (levels : List NumberingLevel) :
    ∃ item, (abstractNumbering id levels).items = [item] ∧ item.isNamed "w:abstractNum" = true
      ∧ ShownDefinition.ofItem item = ⟨toString id, levels.map NumberingLevel.shown⟩ := by
  refine ⟨_, rfl, rfl, ?_⟩
  have shown := childItems_map ShownLevel.ofItem_markup levels
  have id : Item.attribute? "w:abstractNumId" (.element (Tag.visible ⟨"w:abstractNum",
      [("w:abstractNumId", toString id)]⟩) []) = some (toString id) :=
    congrArg some (visible_toString id)
  exact congrArg₂ ShownDefinition.mk id shown

theorem ShownInstance.ofItem_markup (id definition : Nat) :
    ∃ item, (instanceMarkup id definition).items = [item] ∧ item.isNamed "w:num" = true
      ∧ ShownInstance.ofItem item = ⟨toString id, toString definition⟩ :=
  ⟨_, rfl, rfl, congrArg₂ ShownInstance.mk (congrArg some (visible_toString id))
    (congrArg some (visible_toString definition))⟩

/-- The numbering part lists the abstract definitions and then the instances bound to them. -/
theorem numberingPart_eq (definitions : List NumberingDefinition) :
    numberingPart definitions = .element "w:numbering"
      [("xmlns:w", "http://schemas.openxmlformats.org/wordprocessingml/2006/main")]
      ((abstractLevels definitions).zipIdx.map (fun entry => abstractNumbering entry.2 entry.1)
        ++ (List.range (definitions.length + 1)).map fun id => instanceMarkup (id + 1) id) := by
  have abstracts : (abstractLevels definitions).zipIdx.map
        (fun entry => abstractNumbering entry.2 entry.1)
      = abstractNumbering 0 bulletLevels :: definitions.mapIdx fun index definition =>
        abstractNumbering (index + 1) definition.levels := by
    refine List.ext_getElem (by simp [abstractLevels]) fun index _ _ => ?_
    cases index <;> simp [abstractLevels, Nat.add_comm]
  have instances : (List.range (definitions.length + 1)).map (fun id => instanceMarkup (id + 1) id)
      = instanceMarkup bulletInstance.id 0 :: definitions.mapIdx fun index _ =>
        instanceMarkup (bulletInstance.id + 1 + index) (index + 1) := by
    refine List.ext_getElem (by simp) fun index _ _ => ?_
    cases index <;> simp [bulletInstance, Nat.add_comm, Nat.add_left_comm]
  rw [abstracts, instances]
  rfl

/-- The numbering part declares the abstract definitions in order, and one instance for each. -/
structure Declares (numbering : Item) (definitions : List NumberingDefinition) : Prop where
  abstracts : definitionsIn numbering = (abstractLevels definitions).zipIdx.map fun entry =>
    ⟨toString entry.2, entry.1.map NumberingLevel.shown⟩
  bullets : ∃ bullets definitions, definitionsIn numbering = bullets :: definitions
    ∧ bullets.levels.map (fun level => (level.number, level.format))
      = (List.range 9).map fun level => (some (toString level), some "bullet")
  instances : instancesIn numbering = (List.range (definitions.length + 1)).map fun id =>
    ⟨toString (id + 1), toString id⟩

theorem numberingPart_declares (definitions : List NumberingDefinition) :
    ∃ tag children, (numberingPart definitions).items = [.element tag children]
      ∧ Declares (.element tag children) definitions := by
  have abstracts (entry : List NumberingLevel × Nat) :=
    ShownDefinition.ofItem_markup entry.2 entry.1
  have instances (id : Nat) := ShownInstance.ofItem_markup (id + 1) id
  rw [numberingPart_eq]
  refine ⟨_, _, rfl, ?_⟩
  generalize written : Item.element _ _ = root
  have definitionsShown : definitionsIn root = (abstractLevels definitions).zipIdx.map fun entry =>
      ⟨toString entry.2, entry.1.map NumberingLevel.shown⟩ := by
    rw [← written, definitionsIn, Item.children, childItems_append, List.filter_append,
      List.map_append, childItems_map abstracts, childItems_map_other instances (by decide)]
    exact List.append_nil _
  refine ⟨definitionsShown, ⟨_, _, definitionsShown, rfl⟩, ?_⟩
  rw [← written, instancesIn, Item.children, childItems_append, List.filter_append, List.map_append,
    childItems_map instances, childItems_map_other abstracts (by decide)]
  rfl

theorem itemOf?_numbering (document : Document) (mode : OutputMode) :
    ∃ numbering, itemOf? (document.pack mode).parts "word/numbering.xml" = some numbering
      ∧ Declares numbering document.numbering := by
  obtain ⟨_, _, written, declares⟩ := numberingPart_declares document.numbering
  exact ⟨_, (numberingPart_plain document.numbering).bears.itemOf?_eq rfl written, declares⟩

end WordExport
