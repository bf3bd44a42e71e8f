import WordExport.Document
import WordExport.Xml.Node

set_option autoImplicit false

namespace WordExport

open Xml (Node)

/-- A numbering instance, with the deepest level that its definition declares. -/
structure NumberingInstance where
  id : Nat
  deepest : Nat
  deriving DecidableEq, Repr

/-- The instance of bulleted paragraphs has nine levels. -/
def bulletInstance : NumberingInstance := ⟨1, 8⟩

def deepestLevel (levels : List NumberingLevel) : Nat :=
  (levels.map NumberingLevel.level).foldl max 0

/-- The instances of a document by reference, in order. -/
def numberingInstances (definitions : List NumberingDefinition) :
    List (String × NumberingInstance) :=
  definitions.mapIdx fun index definition =>
    (definition.reference, ⟨bulletInstance.id + 1 + index, deepestLevel definition.levels⟩)

/-- The last instance of a reference. -/
def findInstance? (instances : List (String × NumberingInstance)) (reference : String) :
    Option NumberingInstance :=
  instances.reverse.lookup reference

/-- Disc, circle and square take turns, each level indented by half an inch more. -/
def bulletLevels : List NumberingLevel :=
  (List.range (bulletInstance.deepest + 1)).map fun level =>
    { level
      format := .bullet
      text := if level % 3 = 0 then "●" else if level % 3 = 1 then "○" else "■"
      alignment := .left
      indent := some (720 * (level + 1)) }

/-- The number of a bulleted level hangs out of its indent. -/
def NumberingLevel.indentMarkup (level : NumberingLevel) : List Node :=
  match level.indent with
  | none => []
  | some indent =>
    let hanging := match level.format with
      | .bullet => [("w:hanging", "360")]
      | .decimal => []
    [.element "w:pPr" [] [.leaf "w:ind" (("w:left", toString indent) :: hanging)]]

def NumberingLevel.markup (level : NumberingLevel) : Node :=
  .element "w:lvl" [("w:ilvl", toString level.level)] <|
    [.leaf "w:start" [("w:val", "1")],
      .leaf "w:numFmt" [("w:val", level.format.code)],
      .leaf "w:lvlText" [("w:val", level.text)],
      .leaf "w:lvlJc" [("w:val", level.alignment.code)]]
    ++ level.indentMarkup

def abstractNumbering (id : Nat) (levels : List NumberingLevel) : Node :=
  .element "w:abstractNum" [("w:abstractNumId", toString id)] <|
    .leaf "w:multiLevelType" [("w:val", "hybridMultilevel")]
      :: levels.map NumberingLevel.markup

def instanceMarkup (id abstractId : Nat) : Node :=
  .element "w:num" [("w:numId", toString id)]
    [.leaf "w:abstractNumId" [("w:val", toString abstractId)]]

/-- The bullets come first, then the definitions of the document in order. -/
def numberingPart (definitions : List NumberingDefinition) : Node :=
  .element "w:numbering"
    [("xmlns:w", "http://schemas.openxmlformats.org/wordprocessingml/2006/main")] <|
    abstractNumbering 0 bulletLevels
      :: definitions.mapIdx (fun index definition => abstractNumbering (index + 1) definition.levels)
    ++ instanceMarkup bulletInstance.id 0
      :: definitions.mapIdx fun index _ =>
        instanceMarkup (bulletInstance.id + 1 + index) (index + 1)

end WordExport
