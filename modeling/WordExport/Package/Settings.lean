import WordExport.Package.BlockMarkup

set_option autoImplicit false

namespace WordExport

open Xml (Node)

/-- The settings name the two footnote separators, and ask for the background to be shown. -/
def settingsPart (hasBackground : Bool) : Node :=
  .element "w:settings"
    [("xmlns:w", "http://schemas.openxmlformats.org/wordprocessingml/2006/main")] <|
    (if hasBackground then [.leaf "w:displayBackgroundShape"] else [])
    ++ [.element "w:footnotePr" [] [
          .leaf "w:footnote" [("w:id", "-1")], .leaf "w:footnote" [("w:id", "0")]]]

def CoreProperties.part (properties : CoreProperties) : Node :=
  let field := fun name value => optionalLeaf value fun text => Node.element name [] [.text text]
  .element "cp:coreProperties" [
    ("xmlns:cp", "http://schemas.openxmlformats.org/package/2006/metadata/core-properties"),
    ("xmlns:dc", "http://purl.org/dc/elements/1.1/"),
    ("xmlns:dcterms", "http://purl.org/dc/terms/"),
    ("xmlns:dcmitype", "http://purl.org/dc/dcmitype/"),
    ("xmlns:xsi", "http://www.w3.org/2001/XMLSchema-instance")] <|
    field "dc:title" properties.title
    ++ field "dc:subject" properties.subject
    ++ field "dc:creator" properties.creator
    ++ field "cp:keywords" properties.keywords
    ++ field "dc:description" properties.description
    ++ field "cp:lastModifiedBy" properties.lastModifiedBy
    ++ field "cp:revision" (properties.revision.map toString)

def defaultType (extension type : String) : Node :=
  .leaf "Default" [("Extension", extension), ("ContentType", type)]

def overrideType (part type : String) : Node :=
  .leaf "Override" [("PartName", part), ("ContentType", type)]

def contentTypesPart : Node :=
  let word := "application/vnd.openxmlformats-officedocument.wordprocessingml."
  .element "Types" [("xmlns", "http://schemas.openxmlformats.org/package/2006/content-types")] [
    defaultType "rels" "application/vnd.openxmlformats-package.relationships+xml",
    defaultType "xml" "application/xml",
    defaultType "png" "image/png",
    defaultType "jpeg" "image/jpeg",
    defaultType "gif" "image/gif",
    defaultType "bmp" "image/bmp",
    overrideType "/word/document.xml" (word ++ "document.main+xml"),
    overrideType "/word/styles.xml" (word ++ "styles+xml"),
    overrideType "/word/numbering.xml" (word ++ "numbering+xml"),
    overrideType "/word/footnotes.xml" (word ++ "footnotes+xml"),
    overrideType "/word/settings.xml" (word ++ "settings+xml"),
    overrideType "/docProps/core.xml" "application/vnd.openxmlformats-package.core-properties+xml"]

end WordExport
