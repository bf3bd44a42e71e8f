set_option autoImplicit false

namespace WordExport.Text

/-- The text before the first occurrence of the mark, and the text after it. -/
def splitAtFirst (mark : List Char) : List Char → Option (List Char × List Char)
  | [] => if mark.isEmpty then some ([], []) else none
  | c :: cs =>
    match mark.isPrefixOf? (c :: cs) with
    | some after => some ([], after)
    | none => (splitAtFirst mark cs).map fun (before, after) => (c :: before, after)

theorem isPrefixOf?_nil (cs : List Char) : List.isPrefixOf? [] cs = some cs := by
  cases cs <;> rfl

theorem isPrefixOf?_cons (m c : Char) (mark cs : List Char) :
    List.isPrefixOf? (m :: mark) (c :: cs) = if m == c then mark.isPrefixOf? cs else none :=
  rfl

theorem isPrefixOf?_cons_nil (m : Char) (mark : List Char) :
    List.isPrefixOf? (m :: mark) [] = none :=
  rfl

theorem length_of_isPrefixOf? {mark cs rest : List Char} (found : mark.isPrefixOf? cs = some rest) :
    cs.length = mark.length + rest.length := by
  induction mark generalizing cs with
  | nil =>
    rw [isPrefixOf?_nil, Option.some.injEq] at found
    simp [found]
  | cons m mark ih =>
    cases cs with
    | nil =>
      rw [isPrefixOf?_cons_nil] at found
      nomatch found
    | cons c cs =>
      rw [isPrefixOf?_cons] at found
      split at found
      · have := ih found
        simp only [List.length_cons]
        omega
      · simp at found

theorem length_of_splitAtFirst {mark cs before after : List Char}
    (found : splitAtFirst mark cs = some (before, after)) :
    cs.length = before.length + mark.length + after.length := by
  induction cs generalizing before with
  | nil =>
    simp only [splitAtFirst] at found
    split at found <;> simp_all
  | cons c cs ih =>
    simp only [splitAtFirst] at found
    split at found
    · next rest head =>
      simp only [Option.some.injEq, Prod.mk.injEq] at found
      have := length_of_isPrefixOf? head
      simp only [← found.1, ← found.2, List.length_nil]
      omega
    · simp only [Option.map_eq_some_iff, Prod.exists, Prod.mk.injEq] at found
      obtain ⟨shorter, rest, tail, rfl, rfl⟩ := found
      have := ih tail
      simp only [List.length_cons]
      omega

theorem length_dropWhile_le (p : Char → Bool) (cs : List Char) :
    (cs.dropWhile p).length ≤ cs.length :=
  (List.dropWhile_sublist p).length_le

end WordExport.Text
