import WordExport.Text.Digits
import WordExport.Text.Double

set_option autoImplicit false

namespace WordExport.Json

open Text

/-- A number by its spelling. -/
structure Number where
  negative : Bool := false
  whole : List Char
  fraction : List Char := []
  exponent : Option Int := none
  deriving DecidableEq, Repr

/-- A JSON value as it is spelled: members keep their order and repeats. A string is given by its
code points, which may be halves of surrogate pairs. -/
inductive Value where
  | null
  | bool (b : Bool)
  | number (n : Number)
  | string (points : List Nat)
  | array (items : List Value)
  | object (members : List (List Nat × Value))

def pointsOf (s : String) : List Nat :=
  s.toList.map Char.toNat

/-- The text of code points, where none of them is a surrogate. -/
def textOf? (points : List Nat) : Option String :=
  if points.all fun n => n.isValidChar then some (String.ofList (points.map Char.ofNat)) else none

namespace Number

/-- The value of a number written without sign, fraction or exponent. -/
def natural? (n : Number) : Option Nat :=
  if n.negative ∨ n.fraction ≠ [] ∨ n.exponent ≠ none then none
  else some (decimalValue n.whole)

/-- The leading digits as far as they fit into 64 bits, and how many of the digits did not. -/
def leading (start : Nat) : List Char → Nat × Nat
  | [] => (start, 0)
  | c :: digits =>
    let next := 10 * start + digitValue c
    if next < UInt64.size then leading next digits else (start, digits.length + 1)

/-- Whether a double holds the number: the double nearest to its leading digits, scaled by the
double nearest to the power of ten, stays below infinity. -/
def isFinite (n : Number) : Bool :=
  let (whole, cut) := leading 0 n.whole
  let (significand, lost) := leading whole n.fraction
  let exponent := n.exponent.getD 0 + cut - (n.fraction.length - lost : Nat)
  significand == 0 || exponent ≤ 0
    || (exponent ≤ 308
      && roundToDouble significand * roundToDouble (Nat.pow 10 exponent.toNat) < doubleOverflow)

end Number

namespace Value

mutual

/-- Whether the value opens at most `depth` arrays and objects at once, all its strings are
texts and all its numbers finite. -/
def isReadable (depth : Nat) : Value → Bool
  | null | bool _ => true
  | number n => n.isFinite
  | string points => (textOf? points).isSome
  | array items => depth != 0 && areReadable (depth - 1) items
  | object members => depth != 0 && membersReadable (depth - 1) members

def areReadable (depth : Nat) : List Value → Bool
  | [] => true
  | item :: items => item.isReadable depth && areReadable depth items

def membersReadable (depth : Nat) : List (List Nat × Value) → Bool
  | [] => true
  | (key, value) :: members =>
    (textOf? key).isSome && value.isReadable depth && membersReadable depth members

end

end Value

end WordExport.Json
