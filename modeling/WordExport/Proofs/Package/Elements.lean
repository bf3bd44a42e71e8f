import WordExport.Proofs.Package.Relations
import WordExport.Proofs.Package.Tags
import WordExport.Proofs.Xml.ReadBack

set_option autoImplicit false

namespace WordExport

open Xml (Item Node Tag)
open Xml.Node (childItems childItems_append childTags)

namespace Xml.Item

def isNamed (name : String) : Item → Bool
  | char _ => false
  | element tag _ => tag.name == name

def attribute? (key : String) : Item → Option String
  | char _ => none
  | element tag _ => tag.attributes.lookup key

def children : Item → List Item
  | char _ => []
  | element _ children => children

mutual

/-- The elements in an item in order, each before those in it. An element that is not entered is
left out with all that it holds. -/
def elements (enters : String → Bool) : Item → List Item
  | char _ => []
  | element tag children =>
    if enters tag.name then element tag children :: elementsIn enters children else []

def elementsIn (enters : String → Bool) : List Item → List Item
  | [] => []
  | item :: items => item.elements enters ++ elementsIn enters items

end

end Xml.Item

open Xml.Item (elementsIn)

/-- The root of a part, read from its text. -/
def itemOf? (parts : List Part) (name : String) : Option Item :=
  (rootOf? parts name).bind fun root => Xml.document? (Xml.print root)

/-- A part is read back as the items of the markup that it was written from. -/
theorem Bears.itemOf?_eq {notes : List Tag} {root : Node} (borne : Bears notes [root])
    {parts : List Part} {name : String} (holds : rootOf? parts name = some root) {tag : Tag}
    {children : List Item} (rooted : root.items = [.element tag children]) :
    itemOf? parts name = some (.element tag children) := by
  rw [itemOf?, holds]
  exact Xml.document?_print borne.sound_tags rooted

theorem itemOf?_document (document : Document) (mode : OutputMode) :
    ∃ ledger root, itemOf? (document.pack mode).parts "word/document.xml" = some root
      ∧ (bodyPart document ledger).1.items = [root] :=
  ⟨{ relationships := bodyRelationships }, _, (bodyPart_bears document _).itemOf?_eq rfl rfl, rfl⟩

theorem itemOf?_footnotes (document : Document) (mode : OutputMode) :
    ∃ ledger root, itemOf? (document.pack mode).parts "word/footnotes.xml" = some root
      ∧ (footnotesPart document ledger).1.items = [root] :=
  ⟨{ media := (bodyPart document { relationships := bodyRelationships }).2.media }, _,
    (footnotesPart_bears document _).itemOf?_eq rfl rfl, rfl⟩

section

variable (enters : String → Bool)

theorem elementsIn_append (first second : List Item) :
    elementsIn enters (first ++ second) = elementsIn enters first ++ elementsIn enters second := by
  induction first with
  | nil => rfl
  | cons item items ih => rw [List.cons_append, elementsIn, elementsIn, ih, List.append_assoc]

theorem elementsIn_chars (text : List Char) : elementsIn enters (text.map .char) = [] := by
  induction text with
  | nil => rfl
  | cons c text ih =>
    rw [List.map_cons, elementsIn, ih]
    rfl

mutual

theorem exists_tag_of_mem_elements (node : Node) :
    ∀ item ∈ elementsIn enters node.items,
      ∃ tag ∈ node.tags, ∃ children, item = .element tag.visible children := by
  cases node with
  | text content =>
    rw [Node.items, elementsIn_chars]
    exact List.forall_mem_nil _
  | leaf name attributes =>
    intro item mem
    simp only [Node.items, elementsIn, Item.elements, List.append_nil] at mem
    split at mem
    · exact ⟨_, List.mem_cons_self, _, List.mem_singleton.mp mem⟩
    · contradiction
  | element name attributes children =>
    intro item mem
    simp only [Node.items, elementsIn, Item.elements, List.append_nil] at mem
    split at mem
    · rcases List.mem_cons.mp mem with same | below
      · exact ⟨_, List.mem_cons_self, _, same⟩
      · obtain ⟨tag, listed, found⟩ := exists_tag_of_mem_elementsIn children item below
        exact ⟨tag, List.mem_cons_of_mem _ listed, found⟩
    · contradiction

theorem exists_tag_of_mem_elementsIn (nodes : List Node) :
    ∀ item ∈ elementsIn enters (childItems nodes),
      ∃ tag ∈ childTags nodes, ∃ children, item = .element tag.visible children := by
  cases nodes with
  | nil => exact List.forall_mem_nil _
  | cons node nodes =>
    intro item mem
    rw [childItems, elementsIn_append] at mem
    rcases List.mem_append.mp mem with first | later
    · obtain ⟨tag, listed, found⟩ := exists_tag_of_mem_elements node item first
      exact ⟨tag, List.mem_append_left _ listed, found⟩
    · obtain ⟨tag, listed, found⟩ := exists_tag_of_mem_elementsIn nodes item later
      exact ⟨tag, List.mem_append_right _ listed, found⟩

end

end

/-- Only paragraphs, runs and numbers are picked. -/
def PicksContent (picks : Item → Bool) : Prop :=
  ∀ tag children, picks (.element tag children) = true → tag.name ∈ ["w:p", "w:r", "w:numPr"]

/-- What a reader looks for: the elements that are entered, those picked out of them, and what each
of those shows. -/
structure Query (α : Type) where
  enters : String → Bool := fun _ => true
  picks : Item → Bool
  shows : Item → α

namespace Query

variable {α : Type} (query : Query α)

def inside (items : List Item) : List α :=
  ((elementsIn query.enters items).filter query.picks).map query.shows

/-- What is found in an item, the item included. -/
def within (item : Item) : List α :=
  query.inside [item]

/-- What is found in what was written. -/
def found (nodes : List Node) : List α :=
  query.inside (childItems nodes)

theorem found_append (first second : List Node) :
    query.found (first ++ second) = query.found first ++ query.found second := by
  rw [found, inside, childItems_append, elementsIn_append, List.filter_append, List.map_append]
  rfl

theorem found_cons (node : Node) (nodes : List Node) :
    query.found (node :: nodes) = query.found [node] ++ query.found nodes :=
  query.found_append [node] nodes

/-- What is found in the item of an element is what is found in the element. -/
theorem within_of_items {node : Node} {item : Item} (written : node.items = [item]) :
    query.within item = query.found [node] := by
  rw [found, childItems, written]
  rfl

variable {query} {name : String} {attributes : List (String × String)} {children : List Node}

/-- What is found in an element that is entered and not picked is found below it. -/
theorem found_element (entered : query.enters name = true)
    (passed : query.picks (.element (Tag.visible ⟨name, attributes⟩) (childItems children))
      = false) :
    query.found [.element name attributes children] = query.found children := by
  simp only [found, inside, childItems, Node.items, List.append_nil, elementsIn, Item.elements]
  rw [if_pos (show query.enters (Tag.visible ⟨name, attributes⟩).name = true from entered),
    List.filter_cons_of_neg (by simp [passed])]

theorem found_elementUnlessEmpty (entered : query.enters name = true)
    (passed : ∀ items, query.picks (.element (Tag.visible ⟨name, []⟩) items) = false)
    (nodes : List Node) : query.found (Xml.elementUnlessEmpty name nodes) = query.found nodes := by
  cases nodes with
  | nil => rfl
  | cons node nodes => exact found_element entered (passed _)

theorem found_picked (entered : query.enters name = true)
    (picked : query.picks (.element (Tag.visible ⟨name, attributes⟩) (childItems children))
      = true) :
    query.found [.element name attributes children]
      = query.shows (.element (Tag.visible ⟨name, attributes⟩) (childItems children))
        :: query.found children := by
  simp only [found, inside, childItems, Node.items, List.append_nil, elementsIn, Item.elements]
  rw [if_pos (show query.enters (Tag.visible ⟨name, attributes⟩).name = true from entered),
    List.filter_cons_of_pos picked]
  rfl

end Query

/-- A query finds nothing where every tag passes a check that what it picks does not. -/
theorem Checked.found_eq_nil {check : Tag → Bool} {nodes : List Node}
    (checked : Checked check nodes) {α : Type} {query : Query α}
    (passed : ∀ tag children, check tag = true →
      query.picks (.element tag.visible children) = false) :
    query.found nodes = [] := by
  refine List.map_eq_nil_iff.mpr (List.filter_eq_nil_iff.mpr fun item mem picked => ?_)
  obtain ⟨tag, listed, children, rfl⟩ := exists_tag_of_mem_elementsIn query.enters nodes item mem
  have unpicked := passed tag children (List.all_eq_true.mp checked tag listed)
  rw [unpicked] at picked
  cases picked

theorem Bare.found_eq_nil {nodes : List Node} (bare : Bare nodes) {α : Type} {query : Query α}
    (content : PicksContent query.picks) : query.found nodes = [] := by
  refine Checked.found_eq_nil bare fun tag children bareTag => ?_
  rw [isBareTag, Bool.and_eq_true, Bool.not_eq_true', ← Bool.not_eq_true, List.contains_iff_mem]
    at bareTag
  exact Bool.eq_false_iff.mpr fun picked => bareTag.2 (content tag.visible children picked)

end WordExport
