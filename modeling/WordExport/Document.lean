import WordExport.Document.Content

set_option autoImplicit false

namespace WordExport

structure CoreProperties where
  title : Option String := none
  subject : Option String := none
  creator : Option String := none
  keywords : Option String := none
  description : Option String := none
  lastModifiedBy : Option String := none
  revision : Option Nat := none
  deriving DecidableEq, Repr

inductive LevelFormat where
  | decimal
  | bullet
  deriving DecidableEq, Repr

def LevelFormat.code : LevelFormat → String
  | decimal => "decimal"
  | bullet => "bullet"

/-- A level of a numbering definition. In its text `%1` is the number on the first level. -/
structure NumberingLevel where
  level : Nat := 0
  format : LevelFormat := .decimal
  text : String := ""
  alignment : Alignment := .left
  indent : Option Nat := none
  deriving DecidableEq, Repr

structure NumberingDefinition where
  reference : String := ""
  levels : List NumberingLevel := []
  deriving DecidableEq, Repr

/-- A document. Its background is a hexadecimal color, and its footnotes ascend by their id. -/
structure Document where
  properties : CoreProperties := {}
  styles : Option StyleSheet := none
  background : Option String := none
  numbering : List NumberingDefinition := []
  sections : List (List Block) := []
  footnotes : List (Nat × List Paragraph) := []

end WordExport
