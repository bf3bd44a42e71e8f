import Mathlib.Tactic.SplitIfs
import WordExport.Proofs.Xml.Grammar

set_option autoImplicit false

namespace WordExport.Xml

/-- A character is dropped, or has a reference, or stands for itself. -/
theorem escapeChar_cases (c : Char) :
    escapeChar c = [] ∨ escapeChar c ∈ entities
      ∨ escapeChar c = [c] ∧ c ∉ ['<', '&', '"', '>', '\''] := by
  unfold escapeChar
  split_ifs with amp less greater quote apostrophe dropped
  · exact .inr (.inl (by decide))
  · exact .inr (.inl (by decide))
  · exact .inr (.inl (by decide))
  · exact .inr (.inl (by decide))
  · exact .inr (.inl (by decide))
  · exact .inl rfl
  · exact .inr (.inr ⟨rfl, by simp [amp, less, greater, quote, apostrophe]⟩)

theorem escape_cons (c : Char) (text : List Char) :
    escape (c :: text) = escapeChar c ++ escape text :=
  List.flatMap_cons

theorem isValue_escape (text : List Char) : IsValue (escape text) := by
  induction text with
  | nil => exact .nil
  | cons c text ih =>
    rw [escape_cons]
    rcases escapeChar_cases c with dropped | known | ⟨itself, plain⟩
    · rw [dropped]
      exact ih
    · exact .reference known ih
    · rw [itself]
      have unmarked : c ∉ ['<', '&', '"'] := by
        intro mem
        exact plain (List.mem_append_left ['>', '\''] mem)
      exact .char unmarked ih

theorem IsContent.escape_append (text : List Char) {rest : List Char} (next : IsContent rest) :
    IsContent (escape text ++ rest) := by
  induction text with
  | nil => exact next
  | cons c text ih =>
    rw [escape_cons, List.append_assoc]
    rcases escapeChar_cases c with dropped | known | ⟨itself, plain⟩
    · rw [dropped]
      exact ih
    · exact .reference known ih
    · rw [itself]
      have unmarked : c ∉ ['<', '&'] := by
        intro mem
        exact plain (List.mem_append_left ['"', '>', '\''] mem)
      exact .char unmarked ih

structure Tag where
  name : String
  attributes : List (String × String)
  deriving DecidableEq

/-- Sound attributes have names, no two of them the same one. -/
def areSound : List (String × String) → Bool
  | [] => true
  | (name, _) :: rest =>
    isName name.toList && rest.all (fun (other, _) => other != name) && areSound rest

def Tag.isSound : Tag → Bool
  | ⟨name, attributes⟩ => isName name.toList && areSound attributes

namespace Node

mutual

/-- The tags of a tree in order of appearance, end tags left out. -/
def tags : Node → List Tag
  | text _ => []
  | leaf name attributes => [⟨name, attributes⟩]
  | element name attributes children => ⟨name, attributes⟩ :: childTags children

def childTags : List Node → List Tag
  | [] => []
  | child :: children => child.tags ++ childTags children

end

theorem childTags_append (first second : List Node) :
    childTags (first ++ second) = childTags first ++ childTags second := by
  induction first with
  | nil => rfl
  | cons child children ih =>
    rw [List.cons_append, childTags, childTags, ih, List.append_assoc]

end Node

theorem isAttributes_chars {attributes : List (String × String)}
    (sound : areSound attributes = true) :
    IsAttributes (attributes.map fun (name, _) => name.toList) (attributeChars attributes) := by
  induction attributes with
  | nil => exact .nil
  | cons first attributes ih =>
    obtain ⟨name, value⟩ := first
    simp only [areSound, Bool.and_eq_true, List.all_eq_true, bne_iff_ne] at sound
    obtain ⟨⟨named, apart⟩, rest⟩ := sound
    have fresh : name.toList ∉ attributes.map fun (name, _) => name.toList := by
      intro mem
      obtain ⟨other, listed, same⟩ := List.mem_map.mp mem
      exact apart other listed (String.toList_inj.mp same)
    have written := IsAttributes.cons named fresh (isValue_escape value.toList) (ih rest)
    simpa [attributeChars] using written

theorem Node.isElement_leaf (name : String) (attributes : List (String × String))
    (sound : (Node.leaf name attributes).tags.all Tag.isSound = true) :
    IsElement (Node.leaf name attributes).chars := by
  simp only [Node.tags, List.all_cons, List.all_nil, Bool.and_true, Tag.isSound,
    Bool.and_eq_true] at sound
  exact .empty sound.1 (isAttributes_chars sound.2)

mutual

theorem Node.isContent_chars_append (node : Node) (sound : node.tags.all Tag.isSound = true)
    {rest : List Char} (next : IsContent rest) : IsContent (node.chars ++ rest) := by
  cases node with
  | text content => exact next.escape_append content.toList
  | leaf name attributes => exact .element (Node.isElement_leaf name attributes sound) next
  | element name attributes children =>
    exact .element (Node.isElement_chars name attributes children sound) next

theorem Node.isElement_chars (name : String) (attributes : List (String × String))
    (children : List Node)
    (sound : (Node.element name attributes children).tags.all Tag.isSound = true) :
    IsElement (Node.element name attributes children).chars := by
  simp only [Node.tags, List.all_cons, Tag.isSound, Bool.and_eq_true] at sound
  obtain ⟨⟨named, tagged⟩, below⟩ := sound
  exact .closed named (isAttributes_chars tagged) (Node.isContent_childChars children below)

theorem Node.isContent_childChars (children : List Node)
    (sound : (Node.childTags children).all Tag.isSound = true) :
    IsContent (Node.childChars children) := by
  cases children with
  | nil => exact .nil
  | cons child children =>
    rw [Node.childTags, List.all_append, Bool.and_eq_true] at sound
    exact Node.isContent_chars_append child sound.1 (Node.isContent_childChars children sound.2)

end

/-- A tree with tags, all of them sound, prints as a document. -/
theorem isDocument_print {root : Node} (tagged : root.tags ≠ [])
    (sound : root.tags.all Tag.isSound = true) : IsDocument (print root) := by
  refine ⟨root.chars, ?_, String.toList_ofList⟩
  cases root with
  | text content => exact absurd rfl tagged
  | leaf name attributes => exact Node.isElement_leaf name attributes sound
  | element name attributes children => exact Node.isElement_chars name attributes children sound

end WordExport.Xml
