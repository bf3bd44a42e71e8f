import WordExport.Math.Run
import WordExport.Xml.Node

set_option autoImplicit false

namespace WordExport

open Math (Run)
open Xml (Node)

def mathText (text : String) : Node :=
  .element "m:r" [] [
    .element "w:rPr" [] [
      .leaf "w:rFonts" [("w:ascii", "Cambria Math"), ("w:hAnsi", "Cambria Math")]],
    .element "m:t" [("xml:space", "preserve")] [.text text]]

/-- The properties of a summation sign whose limits are hidden. -/
def sumProperties : Node :=
  .element "m:naryPr" [] [
    .leaf "m:chr" [("m:val", "∑")],
    .leaf "m:limLoc" [("m:val", "undOvr")],
    .leaf "m:subHide" [("m:val", "1")],
    .leaf "m:supHide" [("m:val", "1")]]

mutual

def runMarkup : Run → Node
  | .text text => mathText text
  | .superscript base script =>
    .element "m:sSup" [] [
      .element "m:e" [] (runsMarkup base), .element "m:sup" [] (runsMarkup script)]
  | .subscript base script =>
    .element "m:sSub" [] [
      .element "m:e" [] (runsMarkup base), .element "m:sub" [] (runsMarkup script)]
  | .fraction numerator denominator =>
    .element "m:f" [] [
      .element "m:num" [] (runsMarkup numerator), .element "m:den" [] (runsMarkup denominator)]
  | .squareRoot body =>
    .element "m:rad" [] [
      .element "m:radPr" [] [.leaf "m:degHide" [("m:val", "1")]],
      .leaf "m:deg",
      .element "m:e" [] (runsMarkup body)]
  | .root degree body =>
    .element "m:rad" [] [
      .element "m:deg" [] (runsMarkup degree), .element "m:e" [] (runsMarkup body)]
  | .sum body =>
    .element "m:nary" [] [
      sumProperties, .leaf "m:sub", .leaf "m:sup", .element "m:e" [] (runsMarkup body)]

def runsMarkup : List Run → List Node
  | [] => []
  | run :: runs => runMarkup run :: runsMarkup runs

end

end WordExport
