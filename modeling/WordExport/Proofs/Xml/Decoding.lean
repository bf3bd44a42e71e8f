import WordExport.Proofs.Xml.ReadBack

set_option autoImplicit false

namespace WordExport.Xml

/-- References to their characters, in one pass from the left. A mark that starts no reference
stands for itself. -/
def decode (cs : List Char) : List Char :=
  match _read : character? cs with
  | some (c, rest) => c :: decode rest
  | none =>
    match cs with
    | [] => []
    | c :: rest => c :: decode rest
termination_by cs.length
decreasing_by
  · exact length_of_character? _read
  · exact Nat.lt_succ_self _

theorem decode_nil : decode [] = [] := by
  rw [decode.eq_def]
  rfl

theorem decode_of_character? {cs rest : List Char} {c : Char}
    (read : character? cs = some (c, rest)) : decode cs = c :: decode rest := by
  rw [decode.eq_def]
  split <;> simp_all

/-- Characters from the space on, and the three controls below it that XML text can hold. -/
def isKept (c : Char) : Bool :=
  0x20 ≤ c.toNat || ['\t', '\n', '\r'].contains c

theorem isDropped_eq_not_isKept (c : Char) : isDropped c = !isKept c := by
  simp only [isDropped, isKept]
  grind

/-- An escaped text is decoded in front of any other, so that neither completes a reference of the
other. -/
theorem decode_escape_append (text rest : List Char) :
    decode (escape text ++ rest) = text.filter isKept ++ decode rest := by
  induction text with
  | nil => rfl
  | cons c text ih =>
    rw [escape_cons, List.append_assoc]
    cases kept : isKept c with
    | false =>
      have dropped : isDropped c = true := by rw [isDropped_eq_not_isKept, kept]; rfl
      rw [escapeChar_of_dropped dropped, List.filter_cons_of_neg (by simp [kept])]
      exact ih
    | true =>
      have written : isDropped c = false := by rw [isDropped_eq_not_isKept, kept]; rfl
      obtain ⟨first, more, head, _, _, read⟩ := escapeChar_of_kept written (escape text ++ rest)
      rw [head, decode_of_character? read, ih, List.filter_cons_of_pos kept]
      rfl

theorem decode_escape (text : List Char) : decode (escape text) = text.filter isKept := by
  have decoded := decode_escape_append text []
  rwa [List.append_nil, decode_nil, List.append_nil] at decoded

theorem escape_append (text other : List Char) :
    escape (text ++ other) = escape text ++ escape other :=
  List.flatMap_append

/-- A reference has no mark but the one that it starts with. -/
theorem exists_tail_of_mem_entities {entity : List Char} (known : entity ∈ entities) :
    ∃ tail, entity = '&' :: tail ∧ ∀ mark ∈ ['<', '&', '"', '>', '\''], mark ∉ tail := by
  simp only [entities, List.mem_cons, List.not_mem_nil, or_false] at known
  rcases known with rfl | rfl | rfl | rfl | rfl
  · exact ⟨"amp;".toList, rfl, by simp⟩
  · exact ⟨"lt;".toList, rfl, by simp⟩
  · exact ⟨"gt;".toList, rfl, by simp⟩
  · exact ⟨"quot;".toList, rfl, by simp⟩
  · exact ⟨"apos;".toList, rfl, by simp⟩

theorem mark_not_mem_escape {mark : Char} (isMark : mark ∈ ['<', '"', '>', '\''])
    (text : List Char) : mark ∉ escape text := by
  intro isIn
  obtain ⟨c, _, written⟩ := List.mem_flatMap.mp isIn
  have listed : mark ∈ ['<', '&', '"', '>', '\''] := by
    revert isMark
    simp only [List.mem_cons]
    tauto
  rcases escapeChar_cases c with dropped | known | ⟨itself, plain⟩
  · rw [dropped] at written
    contradiction
  · obtain ⟨tail, whole, unmarked⟩ := exists_tail_of_mem_entities known
    rw [whole] at written
    rcases List.mem_cons.mp written with rfl | later
    · revert isMark; decide
    · exact unmarked mark listed later
  · rw [itself, List.mem_singleton] at written
    exact plain (written ▸ listed)

/-- A mark behind a text without one is a mark of what follows. -/
theorem suffix_of_suffix_append {mark : Char} {before after rest : List Char}
    (unmarked : mark ∉ before) (suffix : mark :: after <:+ before ++ rest) :
    mark :: after <:+ rest := by
  induction before with
  | nil => exact suffix
  | cons c before ih =>
    rw [List.mem_cons, not_or] at unmarked
    rcases List.suffix_cons_iff.mp suffix with same | later
    · exact absurd (List.cons.inj same).1 unmarked.1
    · exact ih unmarked.2 later

theorem entity_prefix_of_suffix {text after : List Char} (suffix : '&' :: after <:+ escape text) :
    ∃ entity ∈ entities, entity <+: '&' :: after := by
  induction text with
  | nil => exact absurd suffix (by simp [escape])
  | cons c text ih =>
    rw [escape_cons] at suffix
    rcases escapeChar_cases c with dropped | known | ⟨itself, plain⟩
    · rw [dropped] at suffix
      exact ih suffix
    · obtain ⟨tail, whole, unmarked⟩ := exists_tail_of_mem_entities known
      rw [whole, List.cons_append] at suffix
      rcases List.suffix_cons_iff.mp suffix with same | later
      · refine ⟨_, known, ?_⟩
        rw [whole, same]
        exact List.prefix_append ('&' :: tail) (escape text)
      · exact ih (suffix_of_suffix_append (unmarked '&' (by decide)) later)
    · rw [itself] at suffix
      have unmarked : '&' ∉ [c] := by
        rw [List.mem_singleton]
        rintro rfl
        exact plain (by decide)
      exact ih (suffix_of_suffix_append unmarked suffix)

/-- An escaped text has no mark of its own, and is decoded to what is kept of the text. Texts of
which all is kept are escaped differently, and one after another as they are alone. -/
theorem escape_decodes (text other : List Char) :
    decode (escape text) = text.filter isKept ∧
      (∀ mark ∈ ['<', '"', '>', '\''], mark ∉ escape text) ∧
      (∀ after, '&' :: after <:+ escape text → ∃ entity ∈ entities, entity <+: '&' :: after) ∧
      (text.all isKept → other.all isKept → (escape text = escape other ↔ text = other)) ∧
      escape (text ++ other) = escape text ++ escape other := by
  refine ⟨decode_escape text, fun mark isMark => mark_not_mem_escape isMark text,
    fun after => entity_prefix_of_suffix, fun kept kept' => ⟨fun same => ?_, congrArg escape⟩,
    escape_append text other⟩
  have decoded := congrArg decode same
  rwa [decode_escape, decode_escape, List.filter_eq_self.mpr (List.all_eq_true.mp kept),
    List.filter_eq_self.mpr (List.all_eq_true.mp kept')] at decoded

/-- Two texts that make a reference when they are put together, of which neither is one. -/
theorem escape_decodes_halves :
    ("<&l".toList.all isKept ∧ "t;\t".toList.all isKept) ∧
      decode (escape "<&l".toList) = "<&l".toList ∧
      ('<' ∈ ['<', '"', '>', '\''] ∧ '<' ∉ escape "<&l".toList) ∧
      ('&' :: "amp;l".toList <:+ escape "<&l".toList ∧
        ∃ entity ∈ entities, entity <+: '&' :: "amp;l".toList) ∧
      (escape "<&l".toList = escape "t;\t".toList ↔ "<&l".toList = "t;\t".toList) ∧
      decode (escape ("<&l".toList ++ "t;\t".toList)) = "<&lt;\t".toList := by
  obtain ⟨decoded, unmarked, referenced, apart, _⟩ := escape_decodes "<&l".toList "t;\t".toList
  have suffix : '&' :: "amp;l".toList <:+ escape "<&l".toList := ⟨"&lt;".toList, by decide⟩
  exact ⟨by decide, decoded, ⟨by decide, unmarked '<' (by decide)⟩,
    ⟨suffix, referenced _ suffix⟩, apart (by decide) (by decide),
    (escape_decodes ("<&l".toList ++ "t;\t".toList) []).1⟩

end WordExport.Xml
