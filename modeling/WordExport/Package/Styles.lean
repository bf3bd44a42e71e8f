import WordExport.Package.BlockMarkup

set_option autoImplicit false

namespace WordExport

open Xml (Node elementUnlessEmpty)

def headingStyle (level size : Nat) : ParagraphStyle where
  id := "Heading" ++ toString level
  name := "heading " ++ toString level
  basedOn := some "Normal"
  next := some "Normal"
  bold := true
  size := some size
  color := some "2E74B5"
  outlineLevel := some (level - 1)

def builtInStyles : List ParagraphStyle := [
  { id := "Title", name := "Title", basedOn := some "Normal", next := some "Normal",
    size := some 56 },
  headingStyle 1 32, headingStyle 2 26, headingStyle 3 24, headingStyle 4 22, headingStyle 5 22,
  { id := "FootnoteText", name := "footnote text", basedOn := some "Normal", size := some 20 }]

/-- The built-in styles whose id the custom ones do not use, and then the custom ones. -/
def paragraphStyles (custom : List ParagraphStyle) : List ParagraphStyle :=
  builtInStyles.filter (fun style => !custom.any fun other => other.id == style.id) ++ custom

def sizeMarkup (size : Nat) : List Node :=
  [valueLeaf "w:sz" (toString size), valueLeaf "w:szCs" (toString size)]

def ParagraphStyle.runProperties (style : ParagraphStyle) : List Node :=
  optionalLeaf style.font (fun font =>
      .leaf "w:rFonts" [("w:ascii", font), ("w:hAnsi", font), ("w:cs", font)])
    ++ (if style.bold then [.leaf "w:b", .leaf "w:bCs"] else [])
    ++ (if style.italics then [.leaf "w:i", .leaf "w:iCs"] else [])
    ++ optionalLeaf style.color (valueLeaf "w:color")
    ++ (style.size.map sizeMarkup).getD []

def ParagraphStyle.markup (style : ParagraphStyle) : Node :=
  .element "w:style" [("w:type", "paragraph"), ("w:styleId", style.id)] <|
    [valueLeaf "w:name" style.name]
    ++ optionalLeaf style.basedOn (valueLeaf "w:basedOn")
    ++ optionalLeaf style.next (valueLeaf "w:next")
    ++ [.leaf "w:qFormat"]
    ++ optionalLeaf style.outlineLevel (fun level =>
      .element "w:pPr" [] [valueLeaf "w:outlineLvl" (toString level)])
    ++ elementUnlessEmpty "w:rPr" style.runProperties

def defaultProperties (sheet : StyleSheet) : Node :=
  .element "w:docDefaults" [] [
    .element "w:rPrDefault" [] [
      .element "w:rPr" [] <|
        optionalLeaf sheet.defaultFont (fun font =>
          .leaf "w:rFonts"
            [("w:ascii", font), ("w:eastAsia", font), ("w:hAnsi", font), ("w:cs", font)])
        ++ (sheet.defaultSize.map sizeMarkup).getD []],
    .leaf "w:pPrDefault"]

def normalStyle : Node :=
  .element "w:style" [("w:type", "paragraph"), ("w:default", "1"), ("w:styleId", "Normal")] [
    valueLeaf "w:name" "Normal", .leaf "w:qFormat"]

def characterStyle (id name : String) (properties : List Node) : Node :=
  .element "w:style" [("w:type", "character"), ("w:styleId", id)] [
    valueLeaf "w:name" name, .element "w:rPr" [] properties]

def stylesPart (sheet : StyleSheet) : Node :=
  .element "w:styles"
    [("xmlns:w", "http://schemas.openxmlformats.org/wordprocessingml/2006/main")] <|
    [defaultProperties sheet, normalStyle]
    ++ (paragraphStyles sheet.paragraphStyles).map ParagraphStyle.markup
    ++ [characterStyle "Hyperlink" "Hyperlink"
          [valueLeaf "w:color" "0563C1", valueLeaf "w:u" "single"],
        characterStyle "FootnoteReference" "footnote reference"
          [valueLeaf "w:vertAlign" "superscript"]]

end WordExport
