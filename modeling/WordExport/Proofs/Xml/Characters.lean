import WordExport.Proofs.Xml.ReadBack

set_option autoImplicit false

namespace WordExport.Xml

/-- What XML 1.0 takes for a character: tab, line feed, carriage return, and all from the space on
but surrogates and the last two of the basic plane. -/
def isChar (c : Char) : Bool :=
  (0x20 ≤ c.toNat && c.toNat ≤ 0xD7FF) || (0xE000 ≤ c.toNat && c.toNat ≤ 0xFFFD)
    || (0x10000 ≤ c.toNat && c.toNat ≤ 0x10FFFF)
    || c.toNat = 0x9 || c.toNat = 0xA || c.toNat = 0xD

/-- The last two characters of the basic plane. -/
def isNoncharacter (c : Char) : Bool :=
  c.toNat = 0xFFFE || c.toNat = 0xFFFF

/-- The characters that are kept are those that XML can represent, and two more. -/
theorem isDropped_eq_false {c : Char} :
    isDropped c = false ↔ isChar c = true ∨ isNoncharacter c = true := by
  have tab : c = '\t' ↔ c.toNat = 0x9 := by rw [← Char.toNat_inj]; rfl
  have feed : c = '\n' ↔ c.toNat = 0xA := by rw [← Char.toNat_inj]; rfl
  have carriage : c = '\r' ↔ c.toNat = 0xD := by rw [← Char.toNat_inj]; rfl
  have scalar : c.toNat < 0xD800 ∨ 0xDFFF < c.toNat ∧ c.toNat < 0x110000 := c.valid
  simp only [isDropped, isChar, isNoncharacter, Bool.and_eq_false_iff, Bool.or_eq_true,
    Bool.and_eq_true, decide_eq_true_eq, decide_eq_false_iff_not, bne_eq_false_iff_eq, tab, feed,
    carriage]
  omega

theorem isChar_of_ascii {c : Char} (lower : 0x20 ≤ c.toNat) (upper : c.toNat < 0x80) :
    isChar c = true := by
  simp only [isChar, Bool.or_eq_true, Bool.and_eq_true, decide_eq_true_eq]
  omega

theorem isChar_of_isNameChar {c : Char} (named : isNameChar c = true) : isChar c = true := by
  have classes : isNameChar c
      = ((c.val ≥ 65 ∧ c.val ≤ 90) || (c.val ≥ 97 && c.val ≤ 122) || c == ':' || c == '_'
        || (c.val ≥ 48 && c.val ≤ 57) || c == '-' || c == '.') := rfl
  simp only [classes, Bool.or_eq_true, Bool.and_eq_true, decide_eq_true_eq, beq_iff_eq,
    ge_iff_le, UInt32.le_iff_toNat_le] at named
  change ((((((65 ≤ c.toNat ∧ c.toNat ≤ 90) ∨ (97 ≤ c.toNat ∧ c.toNat ≤ 122)) ∨ c = ':') ∨ c = '_')
    ∨ (48 ≤ c.toNat ∧ c.toNat ≤ 57)) ∨ c = '-') ∨ c = '.' at named
  rcases named with (((((capital | small) | rfl) | rfl) | digit) | rfl) | rfl
  · apply isChar_of_ascii <;> omega
  · apply isChar_of_ascii <;> omega
  · decide
  · decide
  · apply isChar_of_ascii <;> omega
  · decide
  · decide

/-- All characters of a text can be represented. -/
def isText (text : String) : Bool :=
  text.toList.all isChar

/-- A literal is checked by its characters, without decoding it. -/
theorem isText_ofList {points : List Char} (all : points.all isChar = true) :
    isText (String.ofList points) = true := by
  rw [isText, String.toList_ofList]
  exact all

theorem isText_append {first second : String} (text : isText first = true)
    (text' : isText second = true) : isText (first ++ second) = true := by
  rw [isText, String.toList_append, List.all_append, Bool.and_eq_true]
  exact ⟨text, text'⟩

theorem isChar_of_mem_name {name : List Char} (named : isName name = true) {c : Char}
    (mem : c ∈ name) : isChar c = true := by
  cases name with
  | nil => contradiction
  | cons first rest =>
    rw [isName, Bool.and_eq_true, List.all_eq_true] at named
    apply isChar_of_isNameChar
    rcases List.mem_cons.mp mem with same | later
    · rw [same, isNameChar, named.1]
      rfl
    · exact named.2 c later

theorem isChar_of_mem_entity {entity : List Char} (known : entity ∈ entities) {c : Char}
    (mem : c ∈ entity) : isChar c = true := by
  have all : entities.all (·.all isChar) = true := by decide
  exact List.all_eq_true.mp (List.all_eq_true.mp all entity known) c mem

/-- What is written of a text are entities, and characters of the text that are kept. -/
theorem mem_escape {text : List Char} {c : Char} (mem : c ∈ escape text) :
    isChar c = true ∨ isNoncharacter c = true ∧ c ∈ text := by
  obtain ⟨d, inside, written⟩ := List.mem_flatMap.mp mem
  rcases escapeChar_cases d with dropped | known | ⟨itself, _⟩
  · rw [dropped] at written
    contradiction
  · exact .inl (isChar_of_mem_entity known written)
  · have kept : isDropped d = false := by
      by_contra dropped
      rw [Bool.not_eq_false] at dropped
      rw [escapeChar_of_dropped dropped] at itself
      contradiction
    rw [itself, List.mem_singleton] at written
    subst written
    exact (isDropped_eq_false.mp kept).imp_right fun last => ⟨last, inside⟩

namespace Node

mutual

/-- The texts and the values of attributes in a tree, in order of appearance. -/
def texts : Node → List String
  | text content => [content]
  | leaf _ attributes => attributes.map Prod.snd
  | element _ attributes children => attributes.map Prod.snd ++ childTexts children

def childTexts : List Node → List String
  | [] => []
  | child :: children => child.texts ++ childTexts children

end

theorem childTexts_append (first second : List Node) :
    childTexts (first ++ second) = childTexts first ++ childTexts second := by
  induction first with
  | nil => rfl
  | cons child children ih =>
    rw [List.cons_append, childTexts, childTexts, ih, List.append_assoc]

end Node

/-- A character that XML can represent, or one of the two others from one of the texts. -/
def ComesFrom (texts : List String) (c : Char) : Prop :=
  isChar c = true ∨ isNoncharacter c = true ∧ ∃ text ∈ texts, c ∈ text.toList

namespace ComesFrom

variable {texts texts' : List String} {c : Char}

theorem left (comes : ComesFrom texts c) : ComesFrom (texts ++ texts') c :=
  comes.imp_right fun ⟨last, text, mem, inside⟩ => ⟨last, text, List.mem_append_left _ mem, inside⟩

theorem right (comes : ComesFrom texts' c) : ComesFrom (texts ++ texts') c :=
  comes.imp_right fun ⟨last, text, mem, inside⟩ => ⟨last, text, List.mem_append_right _ mem, inside⟩

theorem escaped {text : String} (mem : c ∈ escape text.toList) : ComesFrom [text] c :=
  (mem_escape mem).imp_right fun ⟨last, inside⟩ =>
    ⟨last, text, List.mem_singleton_self text, inside⟩

/-- The marks between names and texts are characters. -/
theorem mark (mem : c ∈ [' ', '=', '"', '<', '>', '/']) : ComesFrom texts c := by
  have all : [' ', '=', '"', '<', '>', '/'].all isChar = true := by decide
  exact .inl (List.all_eq_true.mp all c mem)

theorem named {name : List Char} (isName : isName name = true) (mem : c ∈ name) :
    ComesFrom texts c :=
  .inl (isChar_of_mem_name isName mem)

end ComesFrom

theorem comesFrom_attributeChars {attributes : List (String × String)}
    (sound : areSound attributes = true) {c : Char} (mem : c ∈ attributeChars attributes) :
    ComesFrom (attributes.map Prod.snd) c := by
  induction attributes with
  | nil => contradiction
  | cons first attributes ih =>
    obtain ⟨name, value⟩ := first
    simp only [areSound, Bool.and_eq_true] at sound
    have split : attributeChars ((name, value) :: attributes)
        = ' ' :: name.toList ++ '=' :: '"' :: escape value.toList ++ ['"']
          ++ attributeChars attributes := rfl
    simp only [split, List.mem_append, List.mem_cons, List.not_mem_nil, or_false] at mem
    rw [List.map_cons, ← List.singleton_append]
    rcases mem with (((rfl | written) | rfl | rfl | written) | rfl) | written
    · exact .mark (by decide)
    · exact .named sound.1.1 written
    · exact .mark (by decide)
    · exact .mark (by decide)
    · exact (ComesFrom.escaped written).left
    · exact .mark (by decide)
    · exact (ih sound.2 written).right

mutual

theorem comesFrom_chars (node : Node) (sound : node.tags.all Tag.isSound = true) {c : Char}
    (mem : c ∈ node.chars) : ComesFrom node.texts c := by
  cases node with
  | text content => exact .escaped mem
  | leaf name attributes =>
    simp only [Node.tags, List.all_cons, List.all_nil, Bool.and_true, Tag.isSound,
      Bool.and_eq_true] at sound
    simp only [Node.chars, List.mem_append, List.mem_cons, List.not_mem_nil, or_false] at mem
    rcases mem with ((rfl | written) | written) | rfl | rfl
    · exact .mark (by decide)
    · exact .named sound.1 written
    · exact comesFrom_attributeChars sound.2 written
    · exact .mark (by decide)
    · exact .mark (by decide)
  | element name attributes children =>
    simp only [Node.tags, List.all_cons, Tag.isSound, Bool.and_eq_true] at sound
    obtain ⟨⟨named, tagged⟩, below⟩ := sound
    simp only [Node.chars, List.mem_append, List.mem_cons, List.not_mem_nil, or_false] at mem
    rcases mem with ((((rfl | written) | written) | rfl | written) | rfl | rfl | written) | rfl
    · exact .mark (by decide)
    · exact .named named written
    · exact (comesFrom_attributeChars tagged written).left
    · exact .mark (by decide)
    · exact (comesFrom_childChars children below written).right
    · exact .mark (by decide)
    · exact .mark (by decide)
    · exact .named named written
    · exact .mark (by decide)

theorem comesFrom_childChars (nodes : List Node)
    (sound : (Node.childTags nodes).all Tag.isSound = true) {c : Char}
    (mem : c ∈ Node.childChars nodes) : ComesFrom (Node.childTexts nodes) c := by
  cases nodes with
  | nil => contradiction
  | cons node nodes =>
    rw [Node.childTags, List.all_append, Bool.and_eq_true] at sound
    rcases List.mem_append.mp mem with first | later
    · exact (comesFrom_chars node sound.1 first).left
    · exact (comesFrom_childChars nodes sound.2 later).right

end

/-- In a printed document stands no character that XML cannot represent, but for two that stand in
its texts or values as well. -/
theorem comesFrom_print {root : Node} (sound : root.tags.all Tag.isSound = true) {c : Char}
    (mem : c ∈ (print root).toList) : ComesFrom root.texts c := by
  rw [print, String.toList_ofList, List.mem_append] at mem
  rcases mem with declared | written
  · have all : declaration.toList.all isChar = true := by decide
    exact .inl (List.all_eq_true.mp all c declared)
  · exact comesFrom_chars root sound written

theorem mem_attributeChars {attributes : List (String × String)} {value : String}
    (holds : value ∈ attributes.map Prod.snd) {c : Char} (kept : c ∈ escape value.toList) :
    c ∈ attributeChars attributes := by
  obtain ⟨⟨name, value⟩, listed, rfl⟩ := List.mem_map.mp holds
  refine List.mem_flatMap.mpr ⟨(name, value), listed, ?_⟩
  simp only [List.mem_append, List.mem_cons]
  tauto

mutual

theorem mem_chars (node : Node) {text : String} (holds : text ∈ node.texts) {c : Char}
    (kept : c ∈ escape text.toList) : c ∈ node.chars := by
  cases node with
  | text content => exact List.mem_singleton.mp holds ▸ kept
  | leaf name attributes =>
    have written := mem_attributeChars holds kept
    simp only [Node.chars, List.mem_append, List.mem_cons]
    tauto
  | element name attributes children =>
    simp only [Node.chars, List.mem_append, List.mem_cons]
    rcases List.mem_append.mp holds with value | below
    · have written := mem_attributeChars value kept
      tauto
    · have written := mem_childChars children below kept
      tauto

theorem mem_childChars (nodes : List Node) {text : String} (holds : text ∈ Node.childTexts nodes)
    {c : Char} (kept : c ∈ escape text.toList) : c ∈ Node.childChars nodes := by
  cases nodes with
  | nil => contradiction
  | cons node nodes =>
    rcases List.mem_append.mp holds with first | later
    · exact List.mem_append_left _ (mem_chars node first kept)
    · exact List.mem_append_right _ (mem_childChars nodes later kept)

end

/-- The last two characters of the basic plane are printed wherever a text or value has one. -/
theorem mem_print {root : Node} {text : String} (holds : text ∈ root.texts) {c : Char}
    (inside : c ∈ text.toList) (last : isNoncharacter c = true) : c ∈ (print root).toList := by
  have kept : escapeChar c = [c] := by
    simp only [isNoncharacter, Bool.or_eq_true, decide_eq_true_eq] at last
    rcases last with code | code
    · rw [Char.toNat_inj.mp (show c.toNat = '\ufffe'.toNat from code)]
      rfl
    · rw [Char.toNat_inj.mp (show c.toNat = '\uffff'.toNat from code)]
      rfl
  have written : c ∈ escape text.toList :=
    List.mem_flatMap.mpr ⟨c, inside, kept ▸ List.mem_singleton_self c⟩
  rw [print, String.toList_ofList]
  exact List.mem_append_right _ (mem_chars root holds written)

end WordExport.Xml
