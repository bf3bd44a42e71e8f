set_option autoImplicit false

namespace WordExport

inductive Alignment where
  | left
  | center
  | right
  | start
  | both
  deriving DecidableEq, Repr

/-- The unit of a table or cell width: twips for `dxa`, fiftieths of a percent for `pct`. -/
inductive WidthUnit where
  | auto
  | dxa
  | pct
  | nil
  deriving DecidableEq, Repr

structure Width where
  size : Nat
  unit : WidthUnit := .auto
  deriving DecidableEq, Repr

inductive TableLayout where
  | autofit
  | fixed
  deriving DecidableEq, Repr

inductive VerticalAlignment where
  | top
  | center
  | bottom
  deriving DecidableEq, Repr

namespace Alignment

def code : Alignment → String
  | left => "left"
  | center => "center"
  | right => "right"
  | start => "start"
  | both => "both"

def all : List Alignment := [left, center, right, start, both]

end Alignment

namespace WidthUnit

def code : WidthUnit → String
  | auto => "auto"
  | dxa => "dxa"
  | pct => "pct"
  | nil => "nil"

def all : List WidthUnit := [auto, dxa, pct, nil]

end WidthUnit

namespace TableLayout

def code : TableLayout → String
  | autofit => "autofit"
  | fixed => "fixed"

def all : List TableLayout := [autofit, fixed]

end TableLayout

namespace VerticalAlignment

def code : VerticalAlignment → String
  | top => "top"
  | center => "center"
  | bottom => "bottom"

def all : List VerticalAlignment := [top, center, bottom]

end VerticalAlignment

/-- Properties of a table row; its least height is in twips. -/
structure RowProperties where
  isHeader : Bool := false
  cantSplit : Bool := false
  height : Option Nat := none
  deriving DecidableEq, Repr

/-- Properties of a table cell; its shading is a hexadecimal color. -/
structure CellProperties where
  width : Option Width := none
  shading : Option String := none
  verticalAlignment : Option VerticalAlignment := none
  deriving DecidableEq, Repr

/-- Properties that a preset gives to a paragraph. Spacing is in twips, and a bold paragraph has
every run bold. -/
structure ParagraphProperties where
  style : Option String := none
  alignment : Option Alignment := none
  spacingBefore : Option Nat := none
  spacingAfter : Option Nat := none
  bold : Bool := false
  deriving DecidableEq, Repr

structure TableOptions where
  width : Option Width := none
  layout : Option TableLayout := none
  style : Option String := none
  deriving DecidableEq, Repr

/-- The preset of the first row of a table, or of all the others. -/
structure TablePart where
  row : RowProperties := {}
  cell : CellProperties := {}
  paragraph : ParagraphProperties := {}
  deriving DecidableEq, Repr

/-- A preset for every table of a document. -/
structure TablePreset where
  options : Option TableOptions := none
  header : Option TablePart := none
  body : Option TablePart := none
  deriving DecidableEq, Repr

/-- A paragraph style; its size is in half-points. -/
structure ParagraphStyle where
  id : String := ""
  name : String := ""
  basedOn : Option String := none
  next : Option String := none
  bold : Bool := false
  italics : Bool := false
  size : Option Nat := none
  color : Option String := none
  font : Option String := none
  outlineLevel : Option Nat := none
  deriving DecidableEq, Repr

structure StyleSheet where
  defaultFont : Option String := none
  defaultSize : Option Nat := none
  paragraphStyles : List ParagraphStyle := []
  deriving DecidableEq, Repr

end WordExport
