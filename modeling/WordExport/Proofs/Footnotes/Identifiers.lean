import Mathlib.Data.List.Induction
import Mathlib.Data.List.TakeWhile
import Mathlib.Data.Nat.Digits.Defs
import WordExport.Document.FootnoteId

set_option autoImplicit false

namespace WordExport

open Text

def IsDecimal (c : Char) : Prop :=
  '0' ≤ c ∧ c ≤ '9'

instance (c : Char) : Decidable (IsDecimal c) :=
  inferInstanceAs (Decidable ('0' ≤ c ∧ c ≤ '9'))

theorem isDigit_iff {c : Char} : c.isDigit = true ↔ IsDecimal c := by
  simp only [Char.isDigit, Bool.and_eq_true, decide_eq_true_eq]
  rfl

theorem decimalValue_append_singleton (digits : List Char) (digit : Char) :
    decimalValue (digits ++ [digit]) = 10 * decimalValue digits + digitValue digit := by
  simp only [decimalValue, List.foldl_append, List.foldl_cons, List.foldl_nil]

/-- Read from the left, digits have the value of the sum over their powers of ten. -/
theorem decimalValue_eq_ofDigits (digits : List Char) :
    decimalValue digits = Nat.ofDigits 10 (digits.reverse.map digitValue) := by
  induction digits using List.reverseRecOn with
  | nil => rfl
  | append_singleton digits digit ih =>
    rw [decimalValue_append_singleton, ih, List.reverse_concat, List.map_cons, Nat.ofDigits_cons]
    exact Nat.add_comm _ _

/-- The parts of an identifier that starts with a number: blanks before it, its digits, as many as
there are, and whatever follows them. -/
structure StartsNumber (identifier : String) (blanks digits rest : List Char) : Prop where
  whole : identifier.toList = blanks ++ (digits ++ rest)
  blank : ∀ c ∈ blanks, c ∈ [' ', '\t', '\r', '\n']
  nonempty : digits ≠ []
  decimal : ∀ c ∈ digits, IsDecimal c
  all : ∀ c ∈ rest.head?, ¬ IsDecimal c

/-- An identifier that goes by a number. Number 0 is taken, and 32 bits have to do. -/
def GoesBy (identifier : String) (id : Nat) : Prop :=
  ∃ blanks digits rest, StartsNumber identifier blanks digits rest ∧
    Nat.ofDigits 10 (digits.reverse.map fun c => c.toNat - '0'.toNat) = id ∧
    1 ≤ id ∧ id ≤ 4294967295

theorem isBlank_iff {c : Char} : isBlank c = true ↔ c ∈ [' ', '\t', '\r', '\n'] := by
  simp only [isBlank, Bool.or_eq_true, beq_iff_eq, List.mem_cons, List.not_mem_nil, or_false,
    or_assoc]
  tauto

theorem isBlank_of_isDecimal {c : Char} (decimal : IsDecimal c) : isBlank c = false := by
  rw [← Bool.not_eq_true, isBlank_iff]
  intro blank
  simp only [List.mem_cons, List.not_mem_nil, or_false] at blank
  rcases blank with rfl | rfl | rfl | rfl <;> exact absurd decimal (by decide)

section

variable {identifier : String} {blanks digits rest : List Char}

/-- The parts are determined: blanks end at the first digit, and digits where none follows. -/
theorem StartsNumber.takeDigits_eq (starts : StartsNumber identifier blanks digits rest) :
    (takeDigits (identifier.toList.dropWhile isBlank)).1 = digits := by
  have passed : (blanks ++ (digits ++ rest)).dropWhile isBlank = digits ++ rest := by
    rw [List.dropWhile_append_of_pos fun c isIn => isBlank_iff.mpr (starts.blank c isIn)]
    cases digits with
    | nil => exact absurd rfl starts.nonempty
    | cons digit digits =>
      have ink := isBlank_of_isDecimal (starts.decimal digit List.mem_cons_self)
      exact List.dropWhile_cons_of_neg (by simp [ink])
  have ended : rest.takeWhile Char.isDigit = [] := by
    cases rest with
    | nil => rfl
    | cons c rest =>
      exact List.takeWhile_cons_of_neg fun digit => starts.all c rfl (isDigit_iff.mp digit)
  rw [starts.whole, passed, takeDigits,
    List.takeWhile_append_of_pos fun c isIn => isDigit_iff.mpr (starts.decimal c isIn), ended,
    List.append_nil]

/-- An identifier with a digit behind its blanks starts with a number. -/
theorem startsNumber_of_takeDigits
    (found : (takeDigits (identifier.toList.dropWhile isBlank)).1 = digits) (some : digits ≠ []) :
    ∃ blanks rest, StartsNumber identifier blanks digits rest := by
  subst found
  refine ⟨identifier.toList.takeWhile isBlank,
    (identifier.toList.dropWhile isBlank).dropWhile Char.isDigit, ?_, ?_, some, ?_, ?_⟩
  · rw [takeDigits, List.takeWhile_append_dropWhile, List.takeWhile_append_dropWhile]
  · intro c isIn
    exact isBlank_iff.mp (List.mem_takeWhile_imp isIn)
  · intro c isIn
    exact isDigit_iff.mp (List.mem_takeWhile_imp isIn)
  · intro c head decimal
    have follows := List.head?_dropWhile_not Char.isDigit (identifier.toList.dropWhile isBlank)
    rw [Option.mem_def.mp head] at follows
    simp only [isDigit_iff.mpr decimal] at follows
    contradiction

end

theorem footnoteId_eq_ok_iff {identifier : String} {id : Nat} :
    footnoteId identifier = .ok id ↔ GoesBy identifier id := by
  constructor
  · intro numbered
    rw [footnoteId] at numbered
    split at numbered
    next bounds =>
      obtain ⟨positive, below⟩ := bounds
      obtain rfl := Except.ok.inj numbered
      -- no digits have the value 0, which is out of bounds
      have some : (takeDigits (identifier.toList.dropWhile isBlank)).1 ≠ [] := by
        intro none
        rw [none] at positive
        exact absurd positive (by decide)
      obtain ⟨blanks, rest, starts⟩ := startsNumber_of_takeDigits rfl some
      exact ⟨blanks, _, rest, starts, (decimalValue_eq_ofDigits _).symm, positive,
        Nat.le_of_lt_succ below⟩
    next => cases numbered
  · rintro ⟨blanks, digits, rest, starts, rfl, positive, below⟩
    rw [footnoteId, starts.takeDigits_eq, decimalValue_eq_ofDigits]
    exact if_pos ⟨positive, Nat.lt_succ_of_le below⟩

/-- The number of an identifier is the one that it goes by, and it is refused, whole as it is, where
it goes by none. -/
theorem footnoteId_accepts (identifier : String) :
    (∀ id, footnoteId identifier = .ok id ↔ GoesBy identifier id) ∧
      (footnoteId identifier = .error (.invalidFootnoteId identifier) ↔
        ∀ id, ¬ GoesBy identifier id) := by
  refine ⟨fun id => footnoteId_eq_ok_iff, fun refused id goesBy => ?_, fun none => ?_⟩
  · rw [footnoteId_eq_ok_iff.mpr goesBy] at refused
    cases refused
  · rcases outcome : footnoteId identifier with fault | id
    · rw [footnoteId_eq_error outcome]
    · exact absurd (footnoteId_eq_ok_iff.mp outcome) (none id)

example : footnoteId "\r 00000000004294967295٣ b" = .ok 4294967295 := by decide

end WordExport
