import WordExport.Proofs.Json.Spelling
import WordExport.Proofs.Json.Values

set_option autoImplicit false

namespace WordExport.Json

open Text

/-- Whether the number is a natural one in its usual spelling. -/
def Number.isNatural (n : Number) : Bool :=
  n == .ofNat (decimalValue n.whole)

theorem Number.isNatural_ofNat (n : Nat) : (Number.ofNat n).isNatural = true := by
  have same : decimalValue (Number.ofNat n).whole = n := decimalValue_toDigits n
  rw [isNatural, same]
  exact beq_self_eq_true _

/-- Plain values hold texts and natural numbers. -/
abbrev Value.isPlain : Value → Bool :=
  passes Number.isNatural

theorem membersPass_key {key : List Nat} {value : Value} {members : List (List Nat × Value)}
    (plain : Value.membersPass Number.isNatural ((key, value) :: members) = true) :
    (textOf? key).isSome = true :=
  (Bool.and_eq_true_iff.mp (Bool.and_eq_true_iff.mp plain).1).1

theorem valid_of_isText {points : List Nat} (isText : (textOf? points).isSome = true) :
    ∀ n ∈ points, n.isValidChar := by
  unfold textOf? at isText
  split at isText
  next all => simpa using all
  next => contradiction

section

variable {frames : List Frame} {cs rest : List Char}

theorem run_scalar {value : Value} (found : lexeme? (skipBlanks cs) = some (.scalar value rest)) :
    run frames .value cs = run frames (.done value) rest := by
  rw [run]
  split <;> simp_all

theorem run_emptyArray {after : List Char} (found : lexeme? (skipBlanks cs) = some (.array rest))
    (closed : skipBlanks rest = ']' :: after) :
    run frames .value cs = run frames (.done (.array [])) after := by
  rw [run]
  split
  case h_3 tail read =>
    obtain rfl : tail = rest := Lexeme.array.inj (Option.some.inj (read.symm.trans found))
    split <;> simp_all
  all_goals simp_all

theorem run_array (found : lexeme? (skipBlanks cs) = some (.array rest))
    (opened : ∀ after, skipBlanks rest ≠ ']' :: after) :
    run frames .value cs = run (.array [] :: frames) .value rest := by
  rw [run]
  split <;> simp_all

theorem run_emptyObject {after : List Char} (found : lexeme? (skipBlanks cs) = some (.object rest))
    (closed : skipBlanks rest = '}' :: after) :
    run frames .value cs = run frames (.done (.object [])) after := by
  rw [run]
  split
  case h_4 tail read =>
    obtain rfl : tail = rest := Lexeme.object.inj (Option.some.inj (read.symm.trans found))
    split <;> simp_all
  all_goals simp_all

theorem run_object {key : List Nat} {after : List Char}
    (found : lexeme? (skipBlanks cs) = some (.object rest))
    (opened : ∀ after, skipBlanks rest ≠ '}' :: after) (named : key? rest = some (key, after)) :
    run frames .value cs = run (.object [] key :: frames) .value after := by
  rw [run]
  split
  case h_4 tail read =>
    obtain rfl : tail = rest := Lexeme.object.inj (Option.some.inj (read.symm.trans found))
    split
    · simp_all
    · split <;> simp_all
  all_goals simp_all

variable {value : Value} {items : List Value} {members : List (List Nat × Value)} {key : List Nat}

theorem run_nextItem : run (.array items :: frames) (.done value) (',' :: rest)
    = run (.array (value :: items) :: frames) .value rest := by
  conv_lhs => rw [run]
  rfl

theorem run_lastItem : run (.array items :: frames) (.done value) (']' :: rest)
    = run frames (.done (.array (value :: items).reverse)) rest := by
  conv_lhs => rw [run]
  rfl

theorem run_nextMember {key' : List Nat} {after : List Char}
    (named : key? rest = some (key', after)) :
    run (.object members key :: frames) (.done value) (',' :: rest)
      = run (.object ((key, value) :: members) key' :: frames) .value after := by
  have comma : skipBlanks (',' :: rest) = ',' :: rest := rfl
  conv_lhs => rw [run]
  split
  · split <;> simp_all
  all_goals simp_all

theorem run_lastMember : run (.object members key :: frames) (.done value) ('}' :: rest)
    = run frames (.done (.object ((key, value) :: members).reverse)) rest := by
  conv_lhs => rw [run]
  rfl

end

/-- Values are printed without a blank in front, and none like the end of an array. -/
def StartsValue (cs : List Char) : Prop :=
  ∃ c more, cs = c :: more ∧ isBlank c = false ∧ c ≠ ']'

theorem StartsValue.append {cs : List Char} (starts : StartsValue cs) (rest : List Char) :
    StartsValue (cs ++ rest) := by
  obtain ⟨c, more, rfl, visible, notEnd⟩ := starts
  exact ⟨c, more ++ rest, rfl, visible, notEnd⟩

theorem StartsValue.skipBlanks_eq {cs : List Char} (starts : StartsValue cs) :
    skipBlanks cs = cs := by
  obtain ⟨c, more, rfl, visible, _⟩ := starts
  exact List.dropWhile_cons_of_neg (by simp [visible])

theorem StartsValue.ne_end {cs : List Char} (starts : StartsValue cs) (after : List Char) :
    skipBlanks cs ≠ ']' :: after := by
  rw [starts.skipBlanks_eq]
  obtain ⟨c, more, rfl, _, notEnd⟩ := starts
  exact fun same => notEnd (List.cons.inj same).1

theorem isDigit_bounds {c : Char} (digit : c.isDigit = true) : 48 ≤ c.toNat ∧ c.toNat ≤ 57 := by
  simpa [Char.isDigit, UInt32.le_iff_toNat_le] using digit

theorem not_isBlank_of_isDigit {c : Char} (digit : c.isDigit = true) : isBlank c = false := by
  refine Bool.eq_false_iff.mpr fun blank => ?_
  have bounds := isDigit_bounds digit
  simp only [isBlank, Bool.or_eq_true, beq_iff_eq] at blank
  rcases blank with ((rfl | rfl) | rfl) | rfl <;> simp at bounds

theorem chars_ofNat {n : Number} (plain : Value.isPlain (.number n) = true) :
    Value.chars (.number n) = Nat.toDigits 10 (decimalValue n.whole) := by
  have natural : n = .ofNat (decimalValue n.whole) := eq_of_beq plain
  rw [Value.chars, natural, text_ofNat, Number.ofNat, decimalValue_toDigits]

theorem startsValue_chars {value : Value} (plain : value.isPlain = true) :
    StartsValue value.chars := by
  cases value with
  | null => exact ⟨_, _, rfl, rfl, by decide⟩
  | bool b => cases b <;> exact ⟨_, _, rfl, rfl, by decide⟩
  | number n =>
    obtain ⟨c, digits, spelled, digit⟩ := exists_digit (decimalValue n.whole)
    rw [chars_ofNat plain, spelled]
    refine ⟨c, digits, rfl, not_isBlank_of_isDigit digit, ?_⟩
    rintro rfl
    contradiction
  | string points => exact ⟨_, _, rfl, rfl, by decide⟩
  | array items => exact ⟨_, _, rfl, rfl, by decide⟩
  | object members => exact ⟨_, _, rfl, rfl, by decide⟩

theorem lexeme?_digit {c : Char} (digit : c.isDigit = true) (cs : List Char) :
    lexeme? (c :: cs) = (number? (c :: cs)).map fun found => .scalar (.number found.1) found.2 := by
  have bounds := isDigit_bounds digit
  unfold lexeme?
  split
  all_goals first
    | rfl
    | simp_all

theorem lexeme?_number {n : Number} (plain : Value.isPlain (.number n) = true) {rest : List Char}
    (ends : EndsNumber rest) :
    lexeme? (Value.chars (.number n) ++ rest) = some (.scalar (.number n) rest) := by
  have natural : n = .ofNat (decimalValue n.whole) := eq_of_beq plain
  obtain ⟨c, digits, spelled, digit⟩ := exists_digit (decimalValue n.whole)
  have read := number?_ofNat (decimalValue n.whole) ends
  rw [chars_ofNat plain, spelled, List.cons_append, lexeme?_digit digit, ← List.cons_append,
    ← spelled, read, ← natural]
  rfl

theorem lexeme?_string {points : List Nat} (valid : ∀ n ∈ points, n.isValidChar)
    (rest : List Char) :
    lexeme? (stringText points ++ rest) = some (.scalar (.string points) rest) := by
  have spelled : lexeme? (stringText points ++ rest)
      = (string? (stringText points ++ rest)).map fun found => .scalar (.string found.1) found.2 :=
    rfl
  rw [spelled, string?_stringText valid]
  rfl

theorem key?_stringText {points : List Nat} (valid : ∀ n ∈ points, n.isValidChar)
    (rest : List Char) : key? (stringText points ++ ':' :: rest) = some (points, rest) := by
  have start : skipBlanks (stringText points ++ ':' :: rest) = stringText points ++ ':' :: rest :=
    rfl
  rw [key?, start, string?_stringText valid]
  rfl

/-- What is printed after an item. -/
def itemTail : List Value → List Char
  | [] => []
  | items => ',' :: Value.itemChars items

def memberTail : List (List Nat × Value) → List Char
  | [] => []
  | members => ',' :: Value.memberChars members

theorem itemChars_cons (item : Value) (items : List Value) :
    Value.itemChars (item :: items) = item.chars ++ itemTail items := by
  cases items with
  | nil => exact (List.append_nil _).symm
  | cons next items => rfl

theorem memberChars_cons (key : List Nat) (value : Value) (members : List (List Nat × Value)) :
    Value.memberChars ((key, value) :: members)
      = stringText key ++ ':' :: (value.chars ++ memberTail members) := by
  cases members with
  | nil => rw [memberTail, List.append_nil]; rfl
  | cons next members => simp [Value.memberChars, memberTail]

theorem key?_memberChars {key : List Nat} {value : Value} {members : List (List Nat × Value)}
    (plain : Value.membersPass Number.isNatural ((key, value) :: members) = true)
    (rest : List Char) :
    key? (Value.memberChars ((key, value) :: members) ++ rest)
      = some (key, value.chars ++ (memberTail members ++ rest)) := by
  rw [memberChars_cons, List.append_assoc, List.cons_append, List.append_assoc]
  exact key?_stringText (valid_of_isText (membersPass_key plain)) _

theorem endsNumber_itemTail (items : List Value) (rest : List Char) :
    EndsNumber (itemTail items ++ ']' :: rest) := by
  cases items <;> exact ⟨rfl, by decide, by decide, by decide⟩

theorem endsNumber_memberTail (members : List (List Nat × Value)) (rest : List Char) :
    EndsNumber (memberTail members ++ '}' :: rest) := by
  cases members <;> exact ⟨rfl, by decide, by decide, by decide⟩

mutual

/-- A value in front of what may follow it is read as the value. -/
theorem run_chars {value : Value} (plain : value.isPlain = true) (frames : List Frame)
    {rest : List Char} (ends : EndsNumber rest) :
    run frames .value (value.chars ++ rest) = run frames (.done value) rest := by
  have start := ((startsValue_chars plain).append rest).skipBlanks_eq
  cases value with
  | null => exact run_scalar rfl
  | bool b => cases b <;> exact run_scalar rfl
  | number n =>
    refine run_scalar ?_
    rw [start]
    exact lexeme?_number plain ends
  | string points =>
    refine run_scalar ?_
    rw [start]
    exact lexeme?_string (valid_of_isText plain) rest
  | array items =>
    have spelled : (Value.array items).chars ++ rest
        = '[' :: (Value.itemChars items ++ ']' :: rest) := by
      simp [Value.chars]
    rw [spelled]
    cases items with
    | nil => exact run_emptyArray rfl rfl
    | cons item items =>
      have opened : StartsValue (Value.itemChars (item :: items) ++ ']' :: rest) := by
        rw [itemChars_cons, List.append_assoc]
        exact (startsValue_chars (Bool.and_eq_true_iff.mp plain).1).append _
      exact (run_array rfl opened.ne_end).trans
        (run_itemChars plain (List.cons_ne_nil _ _) [] frames rest)
  | object members =>
    have spelled : (Value.object members).chars ++ rest
        = '{' :: (Value.memberChars members ++ '}' :: rest) := by
      simp [Value.chars]
    rw [spelled]
    match members with
    | [] => exact run_emptyObject rfl rfl
    | (key, value) :: others =>
      have named := key?_memberChars plain ('}' :: rest)
      have opened (after : List Char) :
          skipBlanks (Value.memberChars ((key, value) :: others) ++ '}' :: rest)
            ≠ '}' :: after := by
        rw [memberChars_cons]
        nofun
      exact (run_object rfl opened named).trans
        (run_memberChars plain (List.cons_ne_nil _ _) named [] frames)

theorem run_itemChars {items : List Value} (plain : Value.allPass Number.isNatural items = true)
    (nonempty : items ≠ []) (read : List Value) (frames : List Frame) (rest : List Char) :
    run (.array read :: frames) .value (Value.itemChars items ++ ']' :: rest)
      = run frames (.done (.array (read.reverse ++ items))) rest := by
  cases items with
  | nil => contradiction
  | cons item items =>
    obtain ⟨first, others⟩ := Bool.and_eq_true_iff.mp plain
    rw [itemChars_cons, List.append_assoc, run_chars first _ (endsNumber_itemTail items rest)]
    cases items with
    | nil =>
      rw [← List.reverse_cons]
      exact run_lastItem
    | cons next items =>
      have following := run_itemChars others (List.cons_ne_nil _ _) (item :: read) frames rest
      rw [List.reverse_cons, List.append_assoc] at following
      exact run_nextItem.trans following

/-- The name of the first member is read already. -/
theorem run_memberChars {members : List (List Nat × Value)}
    (plain : Value.membersPass Number.isNatural members = true) (nonempty : members ≠ [])
    {key : List Nat} {after rest : List Char}
    (named : key? (Value.memberChars members ++ '}' :: rest) = some (key, after))
    (read : List (List Nat × Value)) (frames : List Frame) :
    run (.object read key :: frames) .value after
      = run frames (.done (.object (read.reverse ++ members))) rest := by
  match members with
  | [] => contradiction
  | (key', value) :: others =>
    obtain ⟨first, below⟩ := Bool.and_eq_true_iff.mp plain
    have split := Option.some.inj ((key?_memberChars plain ('}' :: rest)).symm.trans named)
    obtain ⟨rfl, rfl⟩ := Prod.mk.inj split
    rw [run_chars (Bool.and_eq_true_iff.mp first).2 _ (endsNumber_memberTail others rest)]
    match others with
    | [] =>
      rw [← List.reverse_cons]
      exact run_lastMember
    | (next, other) :: others =>
      have named := key?_memberChars below ('}' :: rest)
      have following :=
        run_memberChars below (List.cons_ne_nil _ _) named ((key', value) :: read) frames
      rw [List.reverse_cons, List.append_assoc] at following
      exact (run_nextMember named).trans following

end

/-- What is printed for a plain value is read as that value. -/
theorem read?_print {value : Value} (plain : value.isPlain = true) :
    read? value.print = some value := by
  have read : run [] .value (value.chars ++ []) = run [] (.done value) [] :=
    run_chars plain [] trivial
  rw [List.append_nil] at read
  rw [read?, Value.print, String.toList_ofList, read, run]
  rfl

end WordExport.Json
