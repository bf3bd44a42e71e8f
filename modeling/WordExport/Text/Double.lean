set_option autoImplicit false

namespace WordExport.Text

/-- The nearest number of at most 53 significant bits, a tie going to the even one. -/
def roundToDouble (n : Nat) : Nat :=
  let unit := Nat.pow 2 (n.log2 - 52)
  let kept := n / unit
  let lost := n % unit
  if 2 * lost > unit ∨ (2 * lost = unit ∧ kept % 2 = 1) then (kept + 1) * unit else kept * unit

/-- The least number that rounds to infinity: half a unit above the greatest double. -/
def doubleOverflow : Nat := Nat.pow 2 1024 - Nat.pow 2 970

/-- Whether the double nearest to `significand * 10 ^ exponent` is infinite. -/
def decimalOverflows (significand : Nat) (exponent : Int) : Bool :=
  let size := exponent + (Nat.toDigits 10 significand).length
  if significand = 0 ∨ size ≤ 308 then false
  else if 310 ≤ size then true
  else if 0 ≤ exponent then doubleOverflow ≤ significand * Nat.pow 10 exponent.toNat
  else doubleOverflow * Nat.pow 10 (-exponent).toNat ≤ significand

end WordExport.Text
