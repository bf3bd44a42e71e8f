set_option autoImplicit false

namespace WordExport.Text

/-- Membership in one of the ranges `(first, last)`, which ascend and do not overlap. -/
def inRanges : List (Nat × Nat) → Nat → Bool
  | [], _ => false
  | (first, last) :: above, code =>
    if code < first then false else code ≤ last || inRanges above code

end WordExport.Text
