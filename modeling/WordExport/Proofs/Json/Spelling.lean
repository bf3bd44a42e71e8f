import Mathlib.Data.List.Basic
import WordExport.Json.Printer
import WordExport.Json.Reader

set_option autoImplicit false

namespace WordExport.Json

open Text

/-- A point in front of what is read. -/
def withPoint (n : Nat) (found : List Nat × List Char) : List Nat × List Char :=
  (n :: found.1, found.2)

theorem hexadecimalValue?_unitEscape :
    ∀ n < 0x20, hexadecimalValue? [hexDigit (n / 4096 % 16), hexDigit (n / 256 % 16),
      hexDigit (n / 16 % 16), hexDigit (n % 16)] = some n := by
  decide

theorem stringBody?_unitEscape {n : Nat} (control : n < 0x20) (rest : List Char) :
    stringBody? (unitEscape n ++ rest) = (stringBody? rest).map (withPoint n) := by
  rw [unitEscape, List.cons_append, List.cons_append, List.cons_append, List.cons_append,
    List.cons_append, List.cons_append, List.nil_append, stringBody?,
    hexadecimalValue?_unitEscape n control]
  cases stringBody? rest <;> rfl

theorem stringBody?_letter {letter : Char} (notUnit : letter ≠ 'u') (rest : List Char) :
    stringBody? ('\\' :: letter :: rest)
      = (escaped? letter).bind fun plain => (stringBody? rest).map (withPoint plain.toNat) := by
  rw [stringBody?]
  · cases escaped? letter <;> cases stringBody? rest <;> rfl
  · intro a b c d tail same
    exact absurd same notUnit

theorem stringBody?_plain {c : Char} (notQuote : c ≠ '"') (notEscape : c ≠ '\\')
    (notControl : 0x20 ≤ c.toNat) (rest : List Char) :
    stringBody? (c :: rest) = (stringBody? rest).map (withPoint c.toNat) := by
  have plain : ¬ (c == '\\' || decide (c.toNat < 0x20)) = true := by simp [notEscape, notControl]
  rw [stringBody?, if_neg plain]
  · rfl
  · exact notQuote
  · intro _ _ _ _ _ same
    exact absurd same notEscape
  · intro _ _ same
    exact absurd same notEscape

theorem toNat_ofNat {n : Nat} (valid : n.isValidChar) : (Char.ofNat n).toNat = n := by
  rw [Char.ofNat, dif_pos valid]
  rfl

theorem controlLetter?_escaped {n : Nat} {letter : Char}
    (found : controlLetter? n = some letter) :
    letter ≠ 'u' ∧ (escaped? letter).map Char.toNat = some n := by
  unfold controlLetter? at found
  split at found
  case h_6 => contradiction
  all_goals
    obtain rfl := Option.some.inj found
    decide

theorem stringBody?_control {n : Nat} (control : n < 0x20) (rest : List Char) :
    stringBody? (pointText n ++ rest) = (stringBody? rest).map (withPoint n) := by
  have notQuote : ¬ (n == '"'.toNat) = true := by simp; omega
  have notEscape : ¬ (n == '\\'.toNat) = true := by simp; omega
  rw [pointText, if_neg notQuote, if_neg notEscape, if_pos (by simp [control])]
  split
  next letter found =>
    obtain ⟨notUnit, escaped⟩ := controlLetter?_escaped found
    obtain ⟨plain, isPlain, rfl⟩ := Option.map_eq_some_iff.mp escaped
    rw [List.cons_append, List.singleton_append, stringBody?_letter notUnit, isPlain]
    rfl
  next => exact stringBody?_unitEscape control rest

theorem stringBody?_pointText {n : Nat} (valid : n.isValidChar) (rest : List Char) :
    stringBody? (pointText n ++ rest) = (stringBody? rest).map (withPoint n) := by
  by_cases control : n < 0x20
  · exact stringBody?_control control rest
  · by_cases quote : n = '"'.toNat
    · subst quote
      exact stringBody?_letter (by decide) rest
    by_cases escape : n = '\\'.toNat
    · subst escape
      exact stringBody?_letter (by decide) rest
    have itself := toNat_ofNat valid
    have spelled : pointText n = [Char.ofNat n] := by
      rw [pointText, if_neg (by simpa using quote), if_neg (by simpa using escape),
        if_neg (by simp [control, valid])]
    rw [spelled, List.singleton_append, stringBody?_plain, itself]
    · rintro same
      exact quote (itself.symm.trans (congrArg Char.toNat same))
    · rintro same
      exact escape (itself.symm.trans (congrArg Char.toNat same))
    · omega

theorem stringBody?_points {points : List Nat} (valid : ∀ n ∈ points, n.isValidChar)
    (rest : List Char) :
    stringBody? (points.flatMap pointText ++ '"' :: rest) = some (points, rest) := by
  induction points with
  | nil => rfl
  | cons n points ih =>
    obtain ⟨first, others⟩ := List.forall_mem_cons.mp valid
    rw [List.flatMap_cons, List.append_assoc, stringBody?_pointText first, ih others]
    rfl

/-- Code points that are no surrogates are not joined. -/
theorem joinSurrogates_of_valid {points : List Nat} (valid : ∀ n ∈ points, n.isValidChar) :
    joinSurrogates points = points := by
  fun_induction joinSurrogates points with
  | case1 high low points pair =>
    have valid := valid high List.mem_cons_self
    simp only [isHighSurrogate, Bool.and_eq_true, decide_eq_true_eq] at pair
    rw [Nat.isValidChar] at valid
    omega
  | case2 high low points _ ih => rw [ih (List.forall_mem_cons.mp valid).2]
  | case3 points => rfl

theorem string?_stringText {points : List Nat} (valid : ∀ n ∈ points, n.isValidChar)
    (rest : List Char) : string? (stringText points ++ rest) = some (points, rest) := by
  have spelled : stringText points ++ rest = '"' :: (points.flatMap pointText ++ '"' :: rest) := by
    rw [stringText, List.append_assoc]
    rfl
  rw [spelled, string?, stringBody?_points valid]
  exact congrArg (fun points => some (points, rest)) (joinSurrogates_of_valid valid)

theorem decimalValue_toDigits (n : Nat) : decimalValue (Nat.toDigits 10 n) = n :=
  Nat.ofDigitChars_ten_toDigits

/-- Only zero is spelled with a zero at the start. -/
theorem toDigits_head {n : Nat} (positive : 0 < n) : (Nat.toDigits 10 n).head? ≠ some '0' := by
  induction n using Nat.strongRecOn with
  | ind n ih =>
    by_cases small : n < 10
    · rw [Nat.toDigits_of_lt_base small]
      have digits : ∀ n < 10, 0 < n → [n.digitChar].head? ≠ some '0' := by decide
      exact digits n small positive
    · have shorter := ih (n / 10) (by omega) (by omega)
      rw [Nat.toDigits_of_base_le (by decide) (by omega)]
      rwa [List.head?_append_of_ne_nil _ Nat.toDigits_ne_nil]

theorem exists_digit (n : Nat) :
    ∃ c digits, Nat.toDigits 10 n = c :: digits ∧ c.isDigit = true := by
  obtain ⟨c, digits, spelled⟩ := List.exists_cons_of_ne_nil (Nat.toDigits_ne_nil (b := 10) (n := n))
  have mem : c ∈ Nat.toDigits 10 n := spelled ▸ List.mem_cons_self
  exact ⟨c, digits, spelled, Nat.isDigit_of_mem_toDigits (by decide) (by decide) mem⟩

/-- What may follow a number that has neither fraction nor exponent. -/
def EndsNumber : List Char → Prop
  | [] => True
  | c :: _ => c.isDigit = false ∧ c ≠ '.' ∧ c ≠ 'e' ∧ c ≠ 'E'

theorem takeDigits_toDigits (n : Nat) {rest : List Char} (ends : EndsNumber rest) :
    takeDigits (Nat.toDigits 10 n ++ rest) = (Nat.toDigits 10 n, rest) := by
  have digits : ∀ c ∈ Nat.toDigits 10 n, c.isDigit = true :=
    fun c mem => Nat.isDigit_of_mem_toDigits (by decide) (by decide) mem
  rw [takeDigits, List.takeWhile_append_of_pos digits, List.dropWhile_append_of_pos digits]
  cases rest with
  | nil => rw [List.takeWhile_nil, List.append_nil, List.dropWhile_nil]
  | cons c rest =>
    have stop : ¬ c.isDigit = true := by simp [ends.1]
    rw [List.takeWhile_cons_of_neg stop, List.append_nil, List.dropWhile_cons_of_neg stop]

theorem whole?_toDigits (n : Nat) {rest : List Char} (ends : EndsNumber rest) :
    whole? (Nat.toDigits 10 n ++ rest) = some (Nat.toDigits 10 n, rest) := by
  by_cases zero : n = 0
  · rw [zero, Nat.toDigits_zero]
    rfl
  · have taken := takeDigits_toDigits n ends
    have head := toDigits_head (Nat.pos_of_ne_zero zero)
    obtain ⟨c, digits, spelled, _⟩ := exists_digit n
    rw [spelled] at taken head ⊢
    rw [List.cons_append] at taken ⊢
    rw [whole?, taken]
    rintro _ same
    exact head (congrArg some (List.cons.inj same).1)

theorem fraction?_absent {rest : List Char} (ends : EndsNumber rest) :
    fraction? rest = some ([], rest) := by
  cases rest with
  | nil => rfl
  | cons c rest =>
    rw [fraction?]
    intro tail same
    exact absurd (List.cons.inj same).1 ends.2.1

theorem exponent?_absent {rest : List Char} (ends : EndsNumber rest) :
    exponent? rest = some (none, rest) := by
  cases rest with
  | nil => rfl
  | cons c rest =>
    unfold exponent?
    exact if_neg (by simp [ends.2.2.1, ends.2.2.2])

theorem number?_ofNat (n : Nat) {rest : List Char} (ends : EndsNumber rest) :
    number? (Nat.toDigits 10 n ++ rest) = some (.ofNat n, rest) := by
  rw [number?, whole?_toDigits n ends]
  · simp only [bind, Option.bind_some, fraction?_absent ends, exponent?_absent ends]
    rfl
  · intro unsigned same
    obtain ⟨c, digits, spelled, digit⟩ := exists_digit n
    rw [spelled] at same
    obtain rfl := (List.cons.inj same).1
    contradiction

theorem text_ofNat (n : Nat) : (Number.ofNat n).text = Nat.toDigits 10 n := by
  simp [Number.text, Number.ofNat]

theorem natural?_ofNat (n : Nat) : (Number.ofNat n).natural? = some n := by
  rw [Number.natural?, if_neg (by simp [Number.ofNat])]
  exact congrArg some (decimalValue_toDigits n)

theorem le_decimalValue (start : Nat) (digits : List Char) :
    start ≤ digits.foldl (fun value c => 10 * value + digitValue c) start := by
  induction digits generalizing start with
  | nil => exact Nat.le_refl start
  | cons c digits ih =>
    have next := ih (10 * start + digitValue c)
    rw [List.foldl_cons]
    omega

/-- Digits of a number of 64 bits are all leading. -/
theorem leading_eq (start : Nat) (digits : List Char)
    (small : digits.foldl (fun value c => 10 * value + digitValue c) start < UInt64.size) :
    Number.leading start digits
      = (digits.foldl (fun value c => 10 * value + digitValue c) start, 0) := by
  induction digits generalizing start with
  | nil => rfl
  | cons c digits ih =>
    rw [List.foldl_cons] at small ⊢
    have next := le_decimalValue (10 * start + digitValue c) digits
    rw [Number.leading]
    exact (if_pos (Nat.lt_of_le_of_lt next small)).trans (ih _ small)

theorem isFinite_ofNat {n : Nat} (small : n < UInt64.size) : (Number.ofNat n).isFinite = true := by
  have whole : Number.leading 0 (Nat.toDigits 10 n) = (n, 0) := by
    have leading := leading_eq 0 (Nat.toDigits 10 n)
    have value : (Nat.toDigits 10 n).foldl (fun value c => 10 * value + digitValue c) 0 = n :=
      decimalValue_toDigits n
    rw [value] at leading
    exact leading small
  simp [Number.isFinite, Number.ofNat, whole, Number.leading]

end WordExport.Json
