set_option autoImplicit false

namespace WordExport

/-- The greatest length that a document holds. -/
def maxTwips : Nat := UInt32.size - 1

def twipsPerInch : Nat := 1440

/-- The nearest number of twips, half a twip counting as a whole one. A negative length is 0, and
so is one that is no number. -/
def twipsOfInches (inches : Float) : Nat :=
  (inches * twipsPerInch.toFloat).round.toUInt32.toNat

/-- The indent of a quotation or list level, half an inch for each. -/
def levelIndent (level : Nat) : Nat :=
  min (level * (twipsPerInch / 2)) maxTwips

end WordExport
