import WordExport.Document.Content
import WordExport.Package.Ledger
import WordExport.Package.MathMarkup

set_option autoImplicit false

namespace WordExport

open Xml (Node elementUnlessEmpty)

/-- What surrounding markup makes of a run. -/
structure RunFormat where
  bold : Bool := false
  hyperlink : Bool := false

def runStyle (style : String) : Node :=
  .leaf "w:rStyle" [("w:val", style)]

def TextRun.properties (format : RunFormat) (run : TextRun) : List Node :=
  (if format.hyperlink then [runStyle "Hyperlink"] else [])
    ++ (if run.bold || format.bold then [.leaf "w:b", .leaf "w:bCs"] else [])
    ++ (if run.italics then [.leaf "w:i", .leaf "w:iCs"] else [])
    ++ (if run.strike then [.leaf "w:strike"] else [])

def TextRun.markup (format : RunFormat) (run : TextRun) : Node :=
  .element "w:r" [] <|
    elementUnlessEmpty "w:rPr" (run.properties format)
    ++ List.replicate run.breaks (.leaf "w:br")
    ++ if run.text.isEmpty then []
      else [.element "w:t" [("xml:space", "preserve")] [.text run.text]]

def checkboxState (name : String) (glyph : String) : Node :=
  .leaf name [("w14:font", "MS Gothic"), ("w14:val", glyph)]

def checkboxMarkup (checked : Bool) : Node :=
  .element "w:sdt" [] [
    .element "w:sdtPr" [] [
      .element "w14:checkbox" [] [
        .leaf "w14:checked" [("w14:val", if checked then "1" else "0")],
        checkboxState "w14:checkedState" "2611",
        checkboxState "w14:uncheckedState" "2610"]],
    .element "w:sdtContent" [] [
      .element "w:r" [] [
        .element "w:rPr" [] [
          .leaf "w:rFonts" [("w:ascii", "MS Gothic"), ("w:eastAsia", "MS Gothic"),
            ("w:hAnsi", "MS Gothic")]],
        .element "w:t" [] [.text (String.singleton (checkboxGlyph checked))]]]]

def footnoteReferenceMarkup (id : Nat) : Node :=
  .element "w:r" [] [
    .element "w:rPr" [] [runStyle "FootnoteReference"],
    .leaf "w:footnoteReference" [("w:id", toString id)]]

/-- English metric units in a pixel, at 96 pixels to the inch. -/
def emuPerPixel : Nat := 9525

/-- A picture in line with the text, from its number, its file name and its relationship. -/
def drawingMarkup (image : Image) (number : Nat) (name relationship : String) : Node :=
  let id := toString number
  let extent := [("cx", toString (image.width * emuPerPixel)),
    ("cy", toString (image.height * emuPerPixel))]
  .element "w:r" [] [
    .element "w:drawing" [] [
      .element "wp:inline" [("distT", "0"), ("distB", "0"), ("distL", "0"), ("distR", "0")] [
        .leaf "wp:extent" extent,
        .leaf "wp:effectExtent" [("l", "0"), ("t", "0"), ("r", "0"), ("b", "0")],
        .leaf "wp:docPr" [("id", id), ("name", "Picture " ++ id)],
        .element "wp:cNvGraphicFramePr" [] [
          .leaf "a:graphicFrameLocks" [("noChangeAspect", "1")]],
        .element "a:graphic" [] [
          .element "a:graphicData"
            [("uri", "http://schemas.openxmlformats.org/drawingml/2006/picture")] [
            .element "pic:pic" [] [
              .element "pic:nvPicPr" [] [
                .leaf "pic:cNvPr" [("id", id), ("name", name)],
                .leaf "pic:cNvPicPr"],
              .element "pic:blipFill" [] [
                .leaf "a:blip" [("r:embed", relationship)],
                .element "a:stretch" [] [.leaf "a:fillRect"]],
              .element "pic:spPr" [] [
                .element "a:xfrm" [] [
                  .leaf "a:off" [("x", "0"), ("y", "0")],
                  .leaf "a:ext" extent],
                .element "a:prstGeom" [("prst", "rect")] [.leaf "a:avLst"]]]]]]]]

def imageMarkup (image : Image) : Writing Node := do
  let (number, name) ← Writing.store image.data
  let relationship ← Writing.relate .image ("media/" ++ name)
  return drawingMarkup image number name relationship

mutual

def inlineMarkup (format : RunFormat) : Inline → Writing Node
  | .text run => return run.markup format
  | .image image => imageMarkup image
  | .link url children => do
    let relationship ← Writing.relate .hyperlink url
    let markup ← inlinesMarkup { format with hyperlink := true } children
    return .element "w:hyperlink" [("r:id", relationship), ("w:history", "1")] markup
  | .math runs => return .element "m:oMath" [] (runsMarkup runs)
  | .checkbox checked => return checkboxMarkup checked
  | .footnoteReference id => return footnoteReferenceMarkup id

def inlinesMarkup (format : RunFormat) : List Inline → Writing (List Node)
  | [] => return []
  | item :: items => do
    let first ← inlineMarkup format item
    let rest ← inlinesMarkup format items
    return first :: rest

end

end WordExport
