import WordExport.Package.InlineMarkup
import WordExport.Package.Numbering

set_option autoImplicit false

namespace WordExport

open Xml (Node elementUnlessEmpty)

/-- A leaf with its one value. -/
def valueLeaf (name value : String) : Node :=
  .leaf name [("w:val", value)]

def optionalLeaf {α : Type} (value : Option α) (markup : α → Node) : List Node :=
  match value with
  | some present => [markup present]
  | none => []

/-- The instance and level of a numbered paragraph. A level is no deeper than the deepest one
declared, and a reference without a definition gives no number. -/
def Numbering.place? (instances : List (String × NumberingInstance)) :
    Numbering → Option (Nat × Nat)
  | ordered reference level =>
    (findInstance? instances reference).map fun found => (found.id, min level found.deepest)
  | bullet level => some (bulletInstance.id, min level bulletInstance.deepest)

def numberMarkup (place : Nat × Nat) : Node :=
  .element "w:numPr" [] [
    valueLeaf "w:ilvl" (toString place.2), valueLeaf "w:numId" (toString place.1)]

def ruleMarkup : Node :=
  .element "w:pBdr" [] [
    .leaf "w:bottom" [("w:val", "single"), ("w:color", "auto"), ("w:space", "1"), ("w:sz", "6")]]

def optionalAttribute (name : String) (value : Option Nat) : List (String × String) :=
  match value with
  | some present => [(name, toString present)]
  | none => []

def spacingMarkup (properties : ParagraphProperties) : List Node :=
  let attributes := optionalAttribute "w:before" properties.spacingBefore
    ++ optionalAttribute "w:after" properties.spacingAfter
  if attributes.isEmpty then [] else [.leaf "w:spacing" attributes]

/-- The properties of a paragraph. The style given from outside goes before that of its heading,
and its heading and alignment go before its preset. -/
def Paragraph.propertyMarkup (instances : List (String × NumberingInstance))
    (style : Option String) (paragraph : Paragraph) : List Node :=
  let preset := paragraph.properties
  let style := style.or <| (paragraph.heading.map Heading.styleId).or <|
    preset.bind ParagraphProperties.style
  let alignment := paragraph.alignment.or (preset.bind ParagraphProperties.alignment)
  optionalLeaf style (valueLeaf "w:pStyle")
    ++ optionalLeaf (paragraph.numbering.bind (Numbering.place? instances)) numberMarkup
    ++ (if paragraph.thematicBreak then [ruleMarkup] else [])
    ++ (preset.map spacingMarkup).getD []
    ++ optionalLeaf paragraph.indent (fun indent => .leaf "w:ind" [("w:left", toString indent)])
    ++ optionalLeaf alignment fun alignment => valueLeaf "w:jc" alignment.code

/-- A paragraph, with markup that goes before its items. -/
def Paragraph.markup (instances : List (String × NumberingInstance)) (style : Option String)
    (lead : List Node) (paragraph : Paragraph) : Writing Node := do
  let format := { bold := (paragraph.properties.map ParagraphProperties.bold).getD false }
  let items ← inlinesMarkup format paragraph.children
  return .element "w:p" [] <|
    elementUnlessEmpty "w:pPr" (paragraph.propertyMarkup instances style) ++ lead ++ items

def widthLeaf (name : String) (width : Width) : Node :=
  .leaf name [("w:w", toString width.size), ("w:type", width.unit.code)]

def tableBorders : Node :=
  .element "w:tblBorders" [] <|
    ["top", "left", "bottom", "right", "insideH", "insideV"].map fun side =>
      .leaf ("w:" ++ side)
        [("w:val", "single"), ("w:sz", "4"), ("w:space", "0"), ("w:color", "auto")]

/-- The properties of a table; a width that is not given is automatic. -/
def tableProperties (options : Option TableOptions) : Node :=
  let width := (options.bind TableOptions.width).getD { size := 0 }
  .element "w:tblPr" [] <|
    optionalLeaf (options.bind TableOptions.style) (valueLeaf "w:tblStyle")
    ++ [widthLeaf "w:tblW" width, tableBorders]
    ++ optionalLeaf (options.bind TableOptions.layout) fun layout =>
      .leaf "w:tblLayout" [("w:type", layout.code)]

/-- As many columns as the longest row has cells. -/
def tableGrid (rows : List Row) : Node :=
  let columns := (rows.map fun row => row.cells.length).foldl max 0
  .element "w:tblGrid" [] (List.replicate columns (.leaf "w:gridCol"))

def RowProperties.markup (properties : RowProperties) : List Node :=
  elementUnlessEmpty "w:trPr" <|
    (if properties.cantSplit then [.leaf "w:cantSplit"] else [])
    ++ optionalLeaf properties.height (fun height => valueLeaf "w:trHeight" (toString height))
    ++ if properties.isHeader then [.leaf "w:tblHeader"] else []

def CellProperties.markup (properties : CellProperties) : List Node :=
  elementUnlessEmpty "w:tcPr" <|
    optionalLeaf properties.width (widthLeaf "w:tcW")
    ++ optionalLeaf properties.shading (fun fill =>
      .leaf "w:shd" [("w:val", "clear"), ("w:color", "auto"), ("w:fill", fill)])
    ++ optionalLeaf properties.verticalAlignment fun alignment =>
      valueLeaf "w:vAlign" alignment.code

mutual

def blockMarkup (instances : List (String × NumberingInstance)) : Block → Writing Node
  | .paragraph paragraph => paragraph.markup instances none []
  | .table ⟨rows, options⟩ => do
    let written ← rowsMarkup instances rows
    return .element "w:tbl" [] (tableProperties options :: tableGrid rows :: written)

def rowsMarkup (instances : List (String × NumberingInstance)) : List Row → Writing (List Node)
  | [] => return []
  | ⟨cells, properties⟩ :: rows => do
    let written ← cellsMarkup instances cells
    let rest ← rowsMarkup instances rows
    return .element "w:tr" [] ((properties.map RowProperties.markup).getD [] ++ written) :: rest

/-- A cell without blocks has an empty paragraph. -/
def cellsMarkup (instances : List (String × NumberingInstance)) :
    List Cell → Writing (List Node)
  | [] => return []
  | ⟨children, properties⟩ :: cells => do
    let written ← blocksMarkup instances children
    let rest ← cellsMarkup instances cells
    let blocks := if children.isEmpty then [.leaf "w:p"] else written
    return .element "w:tc" [] ((properties.map CellProperties.markup).getD [] ++ blocks) :: rest

def blocksMarkup (instances : List (String × NumberingInstance)) :
    List Block → Writing (List Node)
  | [] => return []
  | block :: blocks => do
    let first ← blockMarkup instances block
    let rest ← blocksMarkup instances blocks
    return first :: rest

end

end WordExport
