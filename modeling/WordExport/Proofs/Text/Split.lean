import Mathlib.Data.List.Basic
import WordExport.Text.Split

set_option autoImplicit false

namespace WordExport.Text

theorem eq_append_of_splitAtFirst {mark cs before after : List Char}
    (found : splitAtFirst mark cs = some (before, after)) : cs = before ++ mark ++ after := by
  induction cs generalizing before with
  | nil =>
    simp only [splitAtFirst] at found
    split at found <;> simp_all
  | cons c cs ih =>
    simp only [splitAtFirst] at found
    split at found
    · next rest head =>
      simp only [Option.some.injEq, Prod.mk.injEq] at found
      obtain ⟨rfl, rfl⟩ := found
      exact (List.append_eq_of_isPrefixOf?_eq_some head).symm
    · simp only [Option.map_eq_some_iff, Prod.exists, Prod.mk.injEq] at found
      obtain ⟨shorter, rest, tail, rfl, rfl⟩ := found
      rw [ih tail]
      rfl

theorem splitAtFirst_singleton_cons (mark c : Char) (cs : List Char) :
    splitAtFirst [mark] (c :: cs)
      = if mark = c then some ([], cs)
        else (splitAtFirst [mark] cs).map fun (before, after) => (c :: before, after) := by
  rw [splitAtFirst, isPrefixOf?_cons, isPrefixOf?_nil]
  by_cases same : mark = c
  · simp [same]
  · simp [same]

theorem not_mem_of_splitAtFirst {mark : Char} {cs before after : List Char}
    (found : splitAtFirst [mark] cs = some (before, after)) : mark ∉ before := by
  induction cs generalizing before with
  | nil => cases found
  | cons c cs ih =>
    rw [splitAtFirst_singleton_cons] at found
    split at found
    · cases found
      exact List.not_mem_nil
    · next other =>
      simp only [Option.map_eq_some_iff, Prod.exists, Prod.mk.injEq] at found
      obtain ⟨shorter, rest, tail, rfl, rfl⟩ := found
      rw [List.mem_cons, not_or]
      exact ⟨other, ih tail⟩

theorem not_mem_of_splitAtFirst_eq_none {mark : Char} {cs : List Char}
    (absent : splitAtFirst [mark] cs = none) : mark ∉ cs := by
  induction cs with
  | nil => exact List.not_mem_nil
  | cons c cs ih =>
    rw [splitAtFirst_singleton_cons] at absent
    split at absent
    · cases absent
    · next other =>
      rw [List.mem_cons, not_or]
      exact ⟨other, ih (Option.map_eq_none_iff.mp absent)⟩

/-- A mark that does not repeat its first character is found where it first stands: no occurrence
runs into its start. -/
theorem splitAtFirst_append {first : Char} {tail content : List Char} (alone : first ∉ tail)
    (absent : ¬ (first :: tail) <:+: content) (rest : List Char) :
    splitAtFirst (first :: tail) (content ++ (first :: tail ++ rest)) = some (content, rest) := by
  induction content with
  | nil =>
    have head : (first :: tail).isPrefixOf? (first :: (tail ++ rest)) = some rest :=
      List.isPrefixOf?_eq_some_iff_append_eq.mpr rfl
    rw [List.nil_append, List.cons_append, splitAtFirst, head]
  | cons c content ih =>
    have later : ¬ (first :: tail) <:+: content := fun inside =>
      absent (inside.trans (List.suffix_cons c content).isInfix)
    cases found : (first :: tail).isPrefixOf? (c :: content ++ (first :: tail ++ rest)) with
    | none =>
      rw [List.cons_append] at found
      rw [List.cons_append, splitAtFirst, found, ih later]
      rfl
    | some after =>
      exfalso
      have cut := List.append_eq_of_isPrefixOf?_eq_some found
      rcases List.append_eq_append_iff.mp cut with ⟨more, whole, -⟩ | ⟨more, mark, past⟩
      · exact absent ⟨[], more, whole.symm⟩
      · cases more with
        | nil => exact absent ⟨[], [], by rw [mark, List.append_nil, List.append_nil]; rfl⟩
        | cons d more =>
          cases (List.cons.inj past).1
          rw [(List.cons.inj mark).2] at alone
          exact alone (List.mem_append_right _ List.mem_cons_self)

end WordExport.Text
