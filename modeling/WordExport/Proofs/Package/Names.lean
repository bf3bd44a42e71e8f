import Mathlib.Data.List.Nodup
import WordExport.Proofs.Package.Recording
import WordExport.Proofs.Package.Relations

set_option autoImplicit false

namespace WordExport

theorem toString_injective : Function.Injective (toString : Nat → String) := by
  intro first second same
  have digits : Nat.toDigits 10 first = Nat.toDigits 10 second := by
    rw [← Nat.toList_repr, ← Nat.toList_repr]
    exact congrArg String.toList same
  rw [← Nat.ofDigitChars_ten_toDigits (n := first), digits, Nat.ofDigitChars_ten_toDigits]

theorem isDigit_of_mem_toString {number : Nat} {c : Char} (mem : c ∈ (toString number).toList) :
    c.isDigit := by
  have digits : (toString number).toList = Nat.toDigits 10 number := Nat.toList_repr
  rw [digits] at mem
  exact Nat.isDigit_of_mem_toDigits (by decide) (by decide) mem

theorem relationshipId_injective : Function.Injective relationshipId := by
  intro first second same
  have numbers : toString (first + 1) = toString (second + 1) := by
    have texts := congrArg String.toList same
    rw [relationshipId, relationshipId, String.toList_append, String.toList_append] at texts
    exact String.toList_inj.mp (List.append_cancel_left texts)
  have := toString_injective numbers
  omega

theorem mediaName_injective {first second : Nat} {data data' : List UInt8}
    (same : mediaName first data = mediaName second data') : first = second := by
  have before (number : Nat) (rest : List Char) :
      ((toString number).toList ++ '.' :: rest).takeWhile (· ≠ '.') = (toString number).toList := by
    rw [List.takeWhile_append_of_pos, List.takeWhile_cons_of_neg, List.append_nil]
    · decide
    · intro c mem
      have digit := isDigit_of_mem_toString mem
      exact decide_eq_true fun dot => by rw [dot] at digit; contradiction
  have texts := congrArg String.toList same
  simp only [mediaName, String.toList_append, List.append_assoc] at texts
  have numbers := congrArg (List.takeWhile (· ≠ '.')) (List.append_cancel_left texts)
  rw [show ".".toList = ['.'] from rfl] at numbers
  rw [List.singleton_append, List.singleton_append, before, before] at numbers
  exact toString_injective (String.toList_inj.mp numbers)

theorem imageExtension_mem (data : List UInt8) :
    imageExtension data ∈ ["png", "jpeg", "gif", "bmp"] := by
  unfold imageExtension
  split <;> decide

theorem visible_append (first second : String) :
    Xml.visible (first ++ second) = Xml.visible first ++ Xml.visible second := by
  rw [Xml.visible, String.toList_append, List.filter_append, String.ofList_append]
  rfl

theorem visible_of_kept {text : String} (kept : ∀ c ∈ text.toList, Xml.isDropped c = false) :
    Xml.visible text = text := by
  have all : ∀ c ∈ text.toList, (!Xml.isDropped c) = true := by simpa using kept
  rw [Xml.visible, List.filter_eq_self.mpr all, String.ofList_toList]

theorem visible_toString (number : Nat) : Xml.visible (toString number) = toString number := by
  apply visible_of_kept
  intro c mem
  have digit := isDigit_of_mem_toString mem
  simp only [Char.isDigit, ge_iff_le, Bool.and_eq_true, decide_eq_true_eq,
    UInt32.le_iff_toNat_le] at digit
  have above : ¬c.toNat < 0x20 := fun below => by
    have := digit.1
    change 48 ≤ c.toNat at this
    omega
  simp [Xml.isDropped, above]

theorem visible_mediaName (number : Nat) (data : List UInt8) :
    Xml.visible (mediaName number data) = mediaName number data := by
  have extension : Xml.visible (imageExtension data) = imageExtension data := by
    have mem := imageExtension_mem data
    simp only [List.mem_cons, List.not_mem_nil, or_false] at mem
    rcases mem with same | same | same | same <;> rw [same] <;> rfl
  rw [mediaName, visible_append, visible_append, visible_append, visible_toString, extension]
  rfl

end WordExport
