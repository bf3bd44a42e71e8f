import Mathlib.Data.List.Basic
import WordExport.Proofs.Xml.Reader

set_option autoImplicit false

namespace WordExport.Xml

theorem escapeChar_of_dropped {c : Char} (dropped : isDropped c = true) : escapeChar c = [] := by
  unfold escapeChar
  split_ifs with amp less greater quote apostrophe
  · rw [amp] at dropped; contradiction
  · rw [less] at dropped; contradiction
  · rw [greater] at dropped; contradiction
  · rw [quote] at dropped; contradiction
  · rw [apostrophe] at dropped; contradiction
  · rfl

/-- What is written for a character starts no tag, ends no value, and is read as the character. -/
theorem escapeChar_of_kept {c : Char} (kept : isDropped c = false) (rest : List Char) :
    ∃ first more, escapeChar c ++ rest = first :: more ∧ first ≠ '<' ∧ first ≠ '"'
      ∧ character? (first :: more) = some (c, rest) := by
  unfold escapeChar
  split_ifs with amp less greater quote apostrophe dropped
  · exact ⟨'&', _, rfl, by decide, by decide, by rw [amp]; rfl⟩
  · exact ⟨'&', _, rfl, by decide, by decide, by rw [less]; rfl⟩
  · exact ⟨'&', _, rfl, by decide, by decide, by rw [greater]; rfl⟩
  · exact ⟨'&', _, rfl, by decide, by decide, by rw [quote]; rfl⟩
  · exact ⟨'&', _, rfl, by decide, by decide, by rw [apostrophe]; rfl⟩
  · rw [kept] at dropped; contradiction
  · refine ⟨c, rest, rfl, less, quote, ?_⟩
    unfold character?
    split <;> simp_all

theorem value?_escape (text rest : List Char) :
    value? (escape text ++ '"' :: rest) = some (text.filter fun c => !isDropped c, rest) := by
  induction text with
  | nil =>
    unfold value?
    rfl
  | cons c text ih =>
    rw [escape_cons]
    by_cases dropped : isDropped c = true
    · rw [escapeChar_of_dropped dropped, List.filter_cons_of_neg (by simp [dropped])]
      exact ih
    · have kept : isDropped c = false := Bool.eq_false_iff.mpr dropped
      obtain ⟨first, more, head, _, unquoted, read⟩ :=
        escapeChar_of_kept kept (escape text ++ '"' :: rest)
      rw [List.append_assoc, head, List.filter_cons_of_pos (by simp [kept])]
      unfold value?
      rw [if_neg (by simpa using unquoted)]
      split
      next missing => rw [read] at missing; cases missing
      next found =>
        rw [read] at found
        cases found
        rw [ih]
        rfl

theorem isNameChar_of_isName {name : List Char} (named : isName name = true) :
    ∀ c ∈ name, isNameChar c = true := by
  cases name with
  | nil => contradiction
  | cons first rest =>
    simp only [isName, Bool.and_eq_true, List.all_eq_true] at named
    intro c mem
    rcases List.mem_cons.mp mem with rfl | later
    · simp [isNameChar, named.1]
    · exact named.2 c later

section

variable {name : String} (named : isName name.toList = true)
include named

/-- A name is taken up to the first character that is none of a name. -/
theorem takeWhile_name {stop : Char} (stops : isNameChar stop = false) (rest : List Char) :
    (name.toList ++ stop :: rest).takeWhile isNameChar = name.toList := by
  rw [List.takeWhile_append_of_pos (isNameChar_of_isName named),
    List.takeWhile_cons_of_neg (by simp [stops]), List.append_nil]

theorem dropWhile_name {stop : Char} (stops : isNameChar stop = false) (rest : List Char) :
    (name.toList ++ stop :: rest).dropWhile isNameChar = stop :: rest := by
  rw [List.dropWhile_append_of_pos (isNameChar_of_isName named),
    List.dropWhile_cons_of_neg (by simp [stops])]

/-- No name starts as an end tag goes on after its bracket. -/
theorem exists_name_cons : ∃ first more, name.toList = first :: more ∧ first ≠ '/' := by
  cases same : name.toList with
  | nil => rw [same] at named; contradiction
  | cons first more =>
    refine ⟨first, more, rfl, ?_⟩
    rintro rfl
    rw [same] at named
    simp [isName, isNameStart] at named

end

theorem attributes?_chars {attributes : List (String × String)}
    (sound : areSound attributes = true) {stop : Char} (stops : stop ≠ ' ') (rest : List Char) :
    attributes? (attributeChars attributes ++ stop :: rest)
      = some (attributes.map fun (key, value) => (key, visible value), stop :: rest) := by
  induction attributes with
  | nil =>
    unfold attributes?
    split
    next same => simp_all [attributeChars]
    next => rfl
  | cons first attributes ih =>
    obtain ⟨name, value⟩ := first
    simp only [areSound, Bool.and_eq_true] at sound
    obtain ⟨⟨named, _⟩, below⟩ := sound
    have written : attributeChars ((name, value) :: attributes) ++ stop :: rest
        = ' ' :: (name.toList ++ '=' :: '"' :: (escape value.toList ++ '"'
          :: (attributeChars attributes ++ stop :: rest))) := by
      simp [attributeChars]
    have ended : isNameChar '=' = false := rfl
    have taken := takeWhile_name named ended
    have dropped := dropWhile_name named ended
    rw [written]
    unfold attributes?
    simp only [taken]
    split
    next equals =>
      rw [dropped] at equals
      cases equals
      split
      next missing => rw [value?_escape] at missing; cases missing
      next found =>
        rw [value?_escape] at found
        cases found
        rw [ih below]
        simp [visible]
    next other => exact absurd (dropped _) (other _)

theorem areSound_visible {attributes : List (String × String)}
    (sound : areSound attributes = true) :
    areSound (attributes.map fun (key, value) => (key, visible value)) = true := by
  induction attributes with
  | nil => rfl
  | cons first attributes ih =>
    simp only [areSound, Bool.and_eq_true] at sound
    simp only [List.map_cons, areSound, sound.1.1, ih sound.2, List.all_map, Bool.true_and,
      Bool.and_true]
    exact sound.1.2

theorem Tag.isSound_visible {tag : Tag} (sound : tag.isSound = true) :
    tag.visible.isSound = true := by
  simp only [Tag.isSound, Tag.visible, Bool.and_eq_true] at sound ⊢
  exact ⟨sound.1, areSound_visible sound.2⟩

/-- The text of a start tag between its brackets. -/
def Tag.chars (tag : Tag) : List Char :=
  tag.name.toList ++ attributeChars tag.attributes

/-- After a name comes the end of its tag, or the blank before an attribute. -/
theorem exists_stop (attributes : List (String × String)) {stop : Char}
    (stops : isNameChar stop = false) (rest : List Char) :
    ∃ next more, attributeChars attributes ++ stop :: rest = next :: more
      ∧ isNameChar next = false := by
  cases attributes with
  | nil => exact ⟨stop, rest, rfl, stops⟩
  | cons first attributes => exact ⟨' ', _, rfl, rfl⟩

theorem tag?_chars {tag : Tag} (sound : tag.isSound = true) {stop : Char} (spaced : stop ≠ ' ')
    (stops : isNameChar stop = false) (rest : List Char) :
    tag? (tag.chars ++ stop :: rest) = some (tag.visible, stop :: rest) := by
  have visibleSound := Tag.isSound_visible sound
  obtain ⟨name, attributes⟩ := tag
  simp only [Tag.isSound, Bool.and_eq_true] at sound
  obtain ⟨next, more, after, nextStops⟩ := exists_stop attributes stops rest
  have read := attributes?_chars sound.2 spaced rest
  rw [after] at read
  rw [Tag.chars, List.append_assoc, after, tag?, takeWhile_name sound.1 nextStops,
    dropWhile_name sound.1 nextStops, read, String.ofList_toList]
  exact if_pos visibleSound

theorem lexeme?_tag {tag : Tag} (sound : tag.isSound = true) (tail : List Char) :
    lexeme? ('<' :: (tag.chars ++ tail))
      = match tag? (tag.chars ++ tail) with
        | some (tag, '>' :: rest) => some (.opening tag, rest)
        | some (tag, '/' :: '>' :: rest) => some (.empty tag, rest)
        | _ => none := by
  simp only [Tag.isSound, Bool.and_eq_true] at sound
  obtain ⟨first, more, head, starts⟩ := exists_name_cons sound.1
  rw [Tag.chars, head]
  unfold lexeme?
  split
  next same =>
    cases same
    exact absurd rfl starts
  next same =>
    cases same
    rfl
  next other => exact absurd rfl (other _)

theorem lexeme?_opening {tag : Tag} (sound : tag.isSound = true) (rest : List Char) :
    lexeme? ('<' :: (tag.chars ++ '>' :: rest)) = some (.opening tag.visible, rest) := by
  rw [lexeme?_tag sound, tag?_chars sound (by decide) rfl]
  rfl

theorem lexeme?_empty {tag : Tag} (sound : tag.isSound = true) (rest : List Char) :
    lexeme? ('<' :: (tag.chars ++ '/' :: '>' :: rest)) = some (.empty tag.visible, rest) := by
  rw [lexeme?_tag sound, tag?_chars sound (by decide) rfl]
  rfl

theorem lexeme?_closing {name : String} (named : isName name.toList = true) (rest : List Char) :
    lexeme? ('<' :: '/' :: (name.toList ++ '>' :: rest)) = some (.closing name, rest) := by
  rw [lexeme?, dropWhile_name named rfl, takeWhile_name named rfl, String.ofList_toList]
  rfl

theorem lexeme?_escapeChar {c : Char} (kept : isDropped c = false) (rest : List Char) :
    lexeme? (escapeChar c ++ rest) = some (.char c, rest) := by
  obtain ⟨first, more, head, untagged, _, read⟩ := escapeChar_of_kept kept rest
  rw [head]
  unfold lexeme?
  split
  next same => exact absurd (List.cons.inj same).1 untagged
  next same => exact absurd (List.cons.inj same).1 untagged
  next =>
    rw [read]
    rfl

section

variable {cs rest : List Char}

theorem items?_of_char {c : Char} (read : lexeme? cs = some (.char c, rest))
    (around : List (Tag × List Item)) (items : List Item) :
    items? around items cs = items? around (.char c :: items) rest := by
  rw [items?]
  split <;> simp_all

theorem items?_of_opening {tag : Tag} (read : lexeme? cs = some (.opening tag, rest))
    (around : List (Tag × List Item)) (items : List Item) :
    items? around items cs = items? ((tag, items) :: around) [] rest := by
  rw [items?]
  split <;> simp_all

theorem items?_of_empty {tag : Tag} (read : lexeme? cs = some (.empty tag, rest))
    (around : List (Tag × List Item)) (items : List Item) :
    items? around items cs = items? around (.element tag [] :: items) rest := by
  rw [items?]
  split <;> simp_all

theorem items?_of_closing {tag : Tag} (read : lexeme? cs = some (.closing tag.name, rest))
    (around : List (Tag × List Item)) (before items : List Item) :
    items? ((tag, before) :: around) items cs
      = items? around (.element tag items.reverse :: before) rest := by
  rw [items?]
  split <;> simp_all

end

theorem items?_escape (text rest : List Char) (around : List (Tag × List Item))
    (items : List Item) :
    items? around items (escape text ++ rest)
      = items? around (((text.filter fun c => !isDropped c).map Item.char).reverse ++ items)
        rest := by
  induction text generalizing items with
  | nil => rfl
  | cons c text ih =>
    rw [escape_cons, List.append_assoc]
    by_cases dropped : isDropped c = true
    · rw [escapeChar_of_dropped dropped, List.filter_cons_of_neg (by simp [dropped])]
      exact ih items
    · have kept : isDropped c = false := Bool.eq_false_iff.mpr dropped
      rw [items?_of_char (lexeme?_escapeChar kept _), ih,
        List.filter_cons_of_pos (by simp [kept])]
      simp

mutual

/-- A printed tree is read as its items, whatever is open around it and comes after it. -/
theorem items?_chars (node : Node) (sound : node.tags.all Tag.isSound = true)
    (around : List (Tag × List Item)) (items : List Item) (rest : List Char) :
    items? around items (node.chars ++ rest)
      = items? around (node.items.reverse ++ items) rest := by
  cases node with
  | text content =>
    rw [Node.chars, items?_escape, Node.items, visible, String.toList_ofList]
  | leaf name attributes =>
    simp only [Node.tags, List.all_cons, List.all_nil, Bool.and_true] at sound
    have read := lexeme?_empty sound rest
    have written : (Node.leaf name attributes).chars ++ rest
        = '<' :: ((Tag.mk name attributes).chars ++ '/' :: '>' :: rest) := by
      simp [Node.chars, Tag.chars]
    rw [written, items?_of_empty read]
    rfl
  | element name attributes children =>
    simp only [Node.tags, List.all_cons, Bool.and_eq_true] at sound
    obtain ⟨tagged, below⟩ := sound
    have named : isName name.toList = true := by
      simp only [Tag.isSound, Bool.and_eq_true] at tagged
      exact tagged.1
    have written : (Node.element name attributes children).chars ++ rest
        = '<' :: ((Tag.mk name attributes).chars ++ '>' :: (Node.childChars children
          ++ '<' :: '/' :: (name.toList ++ '>' :: rest))) := by
      simp [Node.chars, Tag.chars]
    have closing : lexeme? ('<' :: '/' :: (name.toList ++ '>' :: rest))
        = some (.closing (Tag.visible ⟨name, attributes⟩).name, rest) := lexeme?_closing named rest
    rw [written, items?_of_opening (lexeme?_opening tagged _), items?_childChars children below,
      items?_of_closing closing]
    simp [Node.items]

theorem items?_childChars (children : List Node)
    (sound : (Node.childTags children).all Tag.isSound = true)
    (around : List (Tag × List Item)) (items : List Item) (rest : List Char) :
    items? around items (Node.childChars children ++ rest)
      = items? around ((Node.childItems children).reverse ++ items) rest := by
  cases children with
  | nil => rfl
  | cons child children =>
    rw [Node.childTags, List.all_append, Bool.and_eq_true] at sound
    rw [Node.childChars, List.append_assoc, items?_chars child sound.1,
      items?_childChars children sound.2, Node.childItems, List.reverse_append, List.append_assoc]

end

theorem items?_nil (items : List Item) : items? [] items [] = some items.reverse := by
  rw [items?]
  rfl

/-- The document of a tree with sound tags is read as the tree. -/
theorem document?_print {root : Node} (sound : root.tags.all Tag.isSound = true) {tag : Tag}
    {children : List Item} (rooted : root.items = [.element tag children]) :
    document? (print root) = some (.element tag children) := by
  have body : declaration.toList.isPrefixOf? (print root).toList = some root.chars := by
    rw [print, String.toList_ofList]
    exact List.isPrefixOf?_eq_some_iff_append_eq.mpr rfl
  have read := items?_chars root sound [] [] []
  rw [List.append_nil, List.append_nil, items?_nil, List.reverse_reverse, rooted] at read
  rw [document?, body]
  simp only [bind, Option.bind, read]

end WordExport.Xml
