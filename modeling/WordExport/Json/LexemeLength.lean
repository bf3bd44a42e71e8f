import WordExport.Json.Lexeme

set_option autoImplicit false

namespace WordExport.Json

open Text

theorem length_skipBlanks_le (cs : List Char) : (skipBlanks cs).length ≤ cs.length :=
  length_dropWhile_le isBlank cs

theorem length_takeDigits_le {cs digits rest : List Char} (found : takeDigits cs = (digits, rest)) :
    rest.length ≤ cs.length := by
  simp only [takeDigits, Prod.mk.injEq] at found
  rw [← found.2]
  exact length_dropWhile_le Char.isDigit cs

theorem length_takeDigits_lt {c : Char} {cs digits rest : List Char}
    (found : takeDigits cs = (c :: digits, rest)) : rest.length < cs.length := by
  simp only [takeDigits, Prod.mk.injEq] at found
  cases cs with
  | nil => simp at found
  | cons head tail =>
    by_cases digit : head.isDigit
    · rw [← found.2, List.dropWhile_cons_of_pos digit]
      exact Nat.lt_succ_of_le (length_dropWhile_le _ _)
    · simp [List.takeWhile_cons_of_neg digit] at found

theorem length_of_stringBody? {cs rest : List Char} {points : List Nat}
    (found : stringBody? cs = some (points, rest)) : rest.length < cs.length := by
  fun_induction stringBody? cs generalizing points rest with
  | case1 => simp at found
  | case2 => simp_all
  | case3 a b c d tail ih =>
    simp only [bind, Option.bind_eq_some_iff, Prod.exists] at found
    obtain ⟨_, _, _, _, body, same⟩ := found
    simp only [pure, Option.some.injEq, Prod.mk.injEq] at same
    have := ih body
    simp only [← same.2, List.length_cons]
    omega
  | case4 c tail _ ih =>
    simp only [bind, Option.bind_eq_some_iff, Prod.exists] at found
    obtain ⟨_, _, _, _, body, same⟩ := found
    simp only [pure, Option.some.injEq, Prod.mk.injEq] at same
    have := ih body
    simp only [← same.2, List.length_cons]
    omega
  | case5 => simp at found
  | case6 c tail _ _ _ _ ih =>
    simp only [Option.map_eq_some_iff, Prod.exists, Prod.mk.injEq] at found
    obtain ⟨_, _, body, _, rfl⟩ := found
    exact Nat.lt_succ_of_lt (ih body)

theorem length_of_string? {cs rest : List Char} {points : List Nat}
    (found : string? cs = some (points, rest)) : rest.length < cs.length := by
  unfold string? at found
  split at found
  · simp only [Option.map_eq_some_iff, Prod.exists, Prod.mk.injEq] at found
    obtain ⟨_, _, body, _, rfl⟩ := found
    exact Nat.lt_succ_of_lt (length_of_stringBody? body)
  · simp at found

theorem length_of_whole? {cs digits rest : List Char} (found : whole? cs = some (digits, rest)) :
    rest.length < cs.length := by
  unfold whole? at found
  split at found
  · simp only [Option.some.injEq, Prod.mk.injEq] at found
    simp [← found.2]
  · split at found
    · simp at found
    · next pair nonempty =>
      simp only [Option.some.injEq] at found
      cases digits with
      | nil => exact (nonempty _ found).elim
      | cons c digits => exact length_takeDigits_lt found

theorem length_of_fraction? {cs digits rest : List Char}
    (found : fraction? cs = some (digits, rest)) : rest.length ≤ cs.length := by
  unfold fraction? at found
  split at found
  · split at found
    · simp at found
    · simp only [Option.some.injEq] at found
      exact Nat.le_succ_of_le (length_takeDigits_le found)
  · simp only [Option.some.injEq, Prod.mk.injEq] at found
    simp [found.2]

theorem length_of_exponent? {cs rest : List Char} {exponent : Option Int}
    (found : exponent? cs = some (exponent, rest)) : rest.length ≤ cs.length := by
  unfold exponent? at found
  split at found
  · next c tail =>
    split at found
    · dsimp only at found
      split at found
      · simp at found
      · next unsigned_found =>
        have shorter := length_takeDigits_le unsigned_found
        simp only [Option.some.injEq, Prod.mk.injEq] at found
        rw [← found.2]
        refine Nat.le_trans shorter ?_
        split <;> simp only [List.length_cons] <;> omega
    · simp only [Option.some.injEq, Prod.mk.injEq] at found
      simp [← found.2]
  · simp only [Option.some.injEq, Prod.mk.injEq] at found
    simp [← found.2]

theorem length_of_number? {cs rest : List Char} {n : Number}
    (found : number? cs = some (n, rest)) : rest.length < cs.length := by
  simp only [number?, bind, Option.bind_eq_some_iff, Prod.exists] at found
  obtain ⟨_, _, whole, _, _, fraction, _, _, exponent, same⟩ := found
  simp only [pure, Option.some.injEq, Prod.mk.injEq] at same
  have first := length_of_whole? whole
  have second := length_of_fraction? fraction
  have third := length_of_exponent? exponent
  rw [← same.2]
  split at first <;> simp only [List.length_cons] at * <;> omega

def Lexeme.rest : Lexeme → List Char
  | scalar _ rest => rest
  | array rest => rest
  | object rest => rest

theorem length_of_lexeme? {cs : List Char} {lexeme : Lexeme} (found : lexeme? cs = some lexeme) :
    lexeme.rest.length < cs.length := by
  unfold lexeme? at found
  split at found
  · simp only [Option.some.injEq] at found
    simp [← found, Lexeme.rest]
  · simp only [Option.some.injEq] at found
    simp [← found, Lexeme.rest]
  · simp only [Option.some.injEq] at found
    simp only [← found, Lexeme.rest, List.length_cons]
    omega
  · simp only [Option.some.injEq] at found
    simp only [← found, Lexeme.rest, List.length_cons]
    omega
  · simp only [Option.some.injEq] at found
    simp only [← found, Lexeme.rest, List.length_cons]
    omega
  · simp only [Option.map_eq_some_iff, Prod.exists] at found
    obtain ⟨_, _, string, rfl⟩ := found
    exact length_of_string? string
  · simp only [Option.map_eq_some_iff, Prod.exists] at found
    obtain ⟨_, _, number, rfl⟩ := found
    exact length_of_number? number

theorem length_of_key? {cs rest : List Char} {points : List Nat}
    (found : key? cs = some (points, rest)) : rest.length < cs.length := by
  simp only [key?, bind, Option.bind_eq_some_iff, Prod.exists] at found
  obtain ⟨_, after, string, found⟩ := found
  have first := length_of_string? string
  have second := length_skipBlanks_le cs
  have third := length_skipBlanks_le after
  split at found
  · next colon =>
    simp only [Option.some.injEq, Prod.mk.injEq] at found
    rw [colon, List.length_cons] at third
    rw [← found.2]
    omega
  · simp at found

end WordExport.Json
