import WordExport.Document.Style
import WordExport.Image
import WordExport.Math.Run

set_option autoImplicit false

namespace WordExport

/-- The paragraph styles that headings select. -/
inductive Heading where
  | title
  | heading1
  | heading2
  | heading3
  | heading4
  | heading5
  deriving DecidableEq, Repr

namespace Heading

/-- The identifier of the paragraph style. -/
def styleId : Heading → String
  | title => "Title"
  | heading1 => "Heading1"
  | heading2 => "Heading2"
  | heading3 => "Heading3"
  | heading4 => "Heading4"
  | heading5 => "Heading5"

def all : List Heading := [title, heading1, heading2, heading3, heading4, heading5]

end Heading

/-- The place of a paragraph in a list, numbered by the definition of a reference or bulleted. -/
inductive Numbering where
  | ordered (reference : String) (level : Nat)
  | bullet (level : Nat)
  deriving DecidableEq, Repr

/-- A run of text, after its line breaks. -/
structure TextRun where
  text : String := ""
  bold : Bool := false
  italics : Bool := false
  strike : Bool := false
  breaks : Nat := 0
  deriving DecidableEq, Repr

inductive Inline where
  | text (run : TextRun)
  | image (image : Image)
  | link (url : String) (children : List Inline)
  | math (runs : List Math.Run)
  | checkbox (checked : Bool)
  | footnoteReference (id : Nat)

/-- The sign of a checkbox. -/
def checkboxGlyph (checked : Bool) : Char :=
  if checked then '☑' else '☐'

/-- A paragraph. Its indent is in twips, and a thematic break is a rule below it. -/
structure Paragraph where
  children : List Inline := []
  heading : Option Heading := none
  indent : Option Nat := none
  numbering : Option Numbering := none
  alignment : Option Alignment := none
  thematicBreak : Bool := false
  properties : Option ParagraphProperties := none

mutual

inductive Block where
  | paragraph (paragraph : Paragraph)
  | table (table : Table)

structure Table where
  rows : List Row
  options : Option TableOptions := none

structure Row where
  cells : List Cell
  properties : Option RowProperties := none

structure Cell where
  children : List Block
  properties : Option CellProperties := none

end

end WordExport
