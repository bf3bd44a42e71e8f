import WordExport.Document.Style

set_option autoImplicit false

namespace WordExport

/-- The form a package is handed over in: its bytes alone, or labelled with their type. -/
inductive OutputMode where
  | buffer
  | blob
  deriving DecidableEq, Repr

/-- What a caller chooses for an export. -/
structure Options where
  output : OutputMode := .buffer
  title : Option String := none
  subject : Option String := none
  creator : Option String := none
  keywords : Option String := none
  description : Option String := none
  lastModifiedBy : Option String := none
  revision : Option Nat := none
  styles : Option StyleSheet := none
  background : Option String := none
  tablePreset : Option TablePreset := none
  deriving DecidableEq, Repr

end WordExport
