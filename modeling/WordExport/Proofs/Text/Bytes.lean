import Mathlib.Data.String.Basic

set_option autoImplicit false

namespace WordExport.Text

/-- The bytes that a text is stored in. -/
def bytes (text : String) : List UInt8 :=
  text.toUTF8.data.toList

theorem bytes_eq (text : String) : bytes text = text.toList.flatMap String.utf8EncodeChar := by
  have encoded : text.toByteArray = text.toList.utf8Encode := by
    rw [← String.toByteArray_ofList, String.ofList_toList]
  change text.toByteArray.data.toList = _
  rw [encoded, List.utf8Encode, List.data_toByteArray, List.toList_toArray]

/-- Numbers below a bound are written in their order, whatever follows them. -/
def Rising (bound : Nat) (write : Nat → List UInt8) : Prop :=
  ∀ v w, v < w → w < bound → ∀ after after', write v ++ after < write w ++ after'

namespace Rising

theorem leading {bound : Nat} {lead : Nat → Nat}
    (rises : ∀ v w, v < w → w < bound → lead v < lead w ∧ lead w < 256) :
    Rising bound fun v => [UInt8.ofNat (lead v)] := by
  intro v w below small after after'
  obtain ⟨less, byte⟩ := rises v w below small
  rw [List.singleton_append, List.singleton_append, List.cons_lt_cons_iff]
  left
  rw [UInt8.lt_iff_toNat_lt, UInt8.toNat_ofNat', UInt8.toNat_ofNat']
  omega

/-- Six more bits go into a byte after those of the others. -/
theorem continued {bound : Nat} {write : Nat → List UInt8} (rising : Rising bound write) :
    Rising (64 * bound) fun v => write (v / 64) ++ [UInt8.ofNat (v % 64 + 128)] := by
  intro v w below small after after'
  rw [List.append_assoc, List.append_assoc]
  by_cases same : v / 64 = w / 64
  · have lowest : Rising 64 fun v => [UInt8.ofNat (v + 128)] := leading (by omega)
    rw [same]
    apply List.append_left_lt
    exact lowest (v % 64) (w % 64) (by omega) (by omega) after after'
  · exact rising (v / 64) (w / 64) (by omega) (by omega) _ _

/-- The first byte tells the numbers above a limit from the others. -/
theorem join {limit bound : Nat} (mark : Nat) {low high : Nat → List UInt8}
    (rising : Rising (limit + 1) low) (rising' : Rising bound high)
    (below : ∀ v ≤ limit, ∃ lead rest, low v = UInt8.ofNat lead :: rest ∧ lead < mark)
    (above : ∀ v, limit < v → v < bound →
      ∃ lead rest, high v = UInt8.ofNat lead :: rest ∧ mark ≤ lead ∧ lead < 256) :
    Rising bound fun v => if v ≤ limit then low v else high v := by
  intro v w less small after after'
  by_cases belowLimit : w ≤ limit
  · simpa only [belowLimit, Nat.le_of_lt (Nat.lt_of_lt_of_le less belowLimit), if_true]
      using rising v w less (Nat.lt_succ_of_le belowLimit) after after'
  · by_cases across : v ≤ limit
    · obtain ⟨lead, rest, first, under⟩ := below v across
      obtain ⟨lead', rest', first', atLeast, byte⟩ := above w (by omega) small
      simp only [across, belowLimit, if_true, if_false, first, first', List.cons_append,
        List.cons_lt_cons_iff, UInt8.lt_iff_toNat_lt, UInt8.toNat_ofNat']
      left
      omega
    · simpa only [across, belowLimit, if_false] using rising' v w less small after after'

end Rising

/-- The bytes of a character by its number. -/
def written (v : Nat) : List UInt8 :=
  if v ≤ 127 then [UInt8.ofNat v]
  else if v ≤ 2047 then [UInt8.ofNat (v / 64 % 32 + 192), UInt8.ofNat (v % 64 + 128)]
  else if v ≤ 65535 then
    [UInt8.ofNat (v / 64 / 64 % 16 + 224), UInt8.ofNat (v / 64 % 64 + 128),
      UInt8.ofNat (v % 64 + 128)]
  else
    [UInt8.ofNat (v / 64 / 64 / 64 % 8 + 240), UInt8.ofNat (v / 64 / 64 % 64 + 128),
      UInt8.ofNat (v / 64 % 64 + 128), UInt8.ofNat (v % 64 + 128)]

theorem utf8EncodeChar_eq (c : Char) : String.utf8EncodeChar c = written c.toNat := by
  simp only [String.utf8EncodeChar, written, Nat.div_div_eq_div_mul]
  rfl

theorem rising_written : Rising (64 * (64 * (64 * 8))) written := by
  have one : Rising 128 fun v => [UInt8.ofNat v] := .leading (by omega)
  have two : Rising 32 fun v => [UInt8.ofNat (v % 32 + 192)] := .leading (by omega)
  have three : Rising 16 fun v => [UInt8.ofNat (v % 16 + 224)] := .leading (by omega)
  have four : Rising 8 fun v => [UInt8.ofNat (v % 8 + 240)] := .leading (by omega)
  have long := three.continued.continued.join 240 four.continued.continued.continued
    (fun v small => ⟨_, _, rfl, by omega⟩) (fun v large small => ⟨_, _, rfl, by omega⟩)
  have longer := two.continued.join 224 long (fun v small => ⟨_, _, rfl, by omega⟩)
    (fun v large small => by split <;> exact ⟨_, _, rfl, by omega⟩)
  refine one.join 192 longer (fun v small => ⟨_, _, rfl, by omega⟩) ?_
  intro v large small
  split
  · exact ⟨_, _, rfl, by omega⟩
  · split <;> exact ⟨_, _, rfl, by omega⟩

theorem utf8EncodeChar_lt {c d : Char} (less : c < d) (after after' : List UInt8) :
    String.utf8EncodeChar c ++ after < String.utf8EncodeChar d ++ after' := by
  have bound : d.toNat < 0x110000 := by
    rcases d.valid with below | ⟨_, below⟩
    · exact Nat.lt_trans below (by decide)
    · exact below
  rw [utf8EncodeChar_eq, utf8EncodeChar_eq]
  exact rising_written c.toNat d.toNat less (Nat.lt_trans bound (by decide)) after after'

theorem flatMap_utf8EncodeChar_lt {cs ds : List Char} (less : cs < ds) :
    cs.flatMap String.utf8EncodeChar < ds.flatMap String.utf8EncodeChar := by
  induction cs generalizing ds with
  | nil =>
    cases ds with
    | nil => exact absurd less (List.not_lt_nil [])
    | cons d ds =>
      obtain ⟨byte, rest, first⟩ := List.exists_cons_of_ne_nil (String.utf8EncodeChar_ne_nil (c := d))
      rw [List.flatMap_cons, first]
      exact List.nil_lt_cons _ _
  | cons c cs ih =>
    cases ds with
    | nil => exact absurd less (List.not_lt_nil _)
    | cons d ds =>
      rw [List.flatMap_cons, List.flatMap_cons]
      rcases List.cons_lt_cons_iff.mp less with first | ⟨rfl, rest⟩
      · exact utf8EncodeChar_lt first _ _
      · exact List.append_left_lt (ih rest)

theorem bytes_lt {s t : String} (less : s < t) : bytes s < bytes t := by
  rw [bytes_eq, bytes_eq]
  exact flatMap_utf8EncodeChar_lt less

/-- Texts are in the order of their bytes. -/
theorem lt_iff_bytes_lt (s t : String) : s < t ↔ bytes s < bytes t := by
  refine ⟨bytes_lt, fun less => ?_⟩
  rcases lt_trichotomy s t with below | rfl | above
  · exact below
  · exact absurd less (List.lt_irrefl _)
  · exact absurd less (List.lt_asymm (bytes_lt above))

end WordExport.Text
