import WordExport.Error
import WordExport.Text.Digits
import WordExport.Text.Space

set_option autoImplicit false

namespace WordExport

open Text

/-- Identifiers are numbered by the digits they start with, blanks before them aside. Number 0 is
that of the continuation separator, and a number has at most 32 bits. -/
def footnoteId (identifier : String) : Except TreeFault Nat :=
  let digits := (takeDigits (identifier.toList.dropWhile isBlank)).1
  let id := decimalValue digits
  if 1 ≤ id ∧ id < UInt32.size then .ok id else .error (.invalidFootnoteId identifier)

/-- An identifier that has no number is named by the error. -/
theorem footnoteId_eq_error {identifier : String} {fault : TreeFault}
    (refused : footnoteId identifier = .error fault) : fault = .invalidFootnoteId identifier := by
  simp only [footnoteId] at refused
  split at refused
  next => cases refused
  next => exact (Except.error.inj refused).symm

end WordExport
