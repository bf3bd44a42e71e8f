import WordExport.Package.BlockMarkup

set_option autoImplicit false

namespace WordExport

open Xml (Node)

def bodyNamespaces : List (String × String) := [
  ("xmlns:w", "http://schemas.openxmlformats.org/wordprocessingml/2006/main"),
  ("xmlns:r", "http://schemas.openxmlformats.org/officeDocument/2006/relationships"),
  ("xmlns:m", "http://schemas.openxmlformats.org/officeDocument/2006/math"),
  ("xmlns:wp", "http://schemas.openxmlformats.org/drawingml/2006/wordprocessingDrawing"),
  ("xmlns:a", "http://schemas.openxmlformats.org/drawingml/2006/main"),
  ("xmlns:pic", "http://schemas.openxmlformats.org/drawingml/2006/picture"),
  ("xmlns:w14", "http://schemas.microsoft.com/office/word/2010/wordml"),
  ("xmlns:mc", "http://schemas.openxmlformats.org/markup-compatibility/2006"),
  ("mc:Ignorable", "w14")]

/-- The relationships that every body has. -/
def bodyRelationships : List Relationship := [
  ⟨.styles, "styles.xml"⟩, ⟨.numbering, "numbering.xml"⟩, ⟨.footnotes, "footnotes.xml"⟩,
  ⟨.settings, "settings.xml"⟩]

/-- Pages are of size A4 with margins of an inch. -/
def pageMarkup : Node :=
  .element "w:sectPr" [] [
    .leaf "w:pgSz" [("w:w", "11906"), ("w:h", "16838")],
    .leaf "w:pgMar" [("w:top", "1440"), ("w:right", "1440"), ("w:bottom", "1440"),
      ("w:left", "1440"), ("w:header", "708"), ("w:footer", "708"), ("w:gutter", "0")]]

/-- The body of a document: all sections one after another. -/
def bodyPart (document : Document) : Writing Node := do
  let instances := numberingInstances document.numbering
  let blocks ← blocksMarkup instances document.sections.flatten
  return .element "w:document" bodyNamespaces <|
    optionalLeaf document.background (fun color => .leaf "w:background" [("w:color", color)])
    ++ [.element "w:body" [] (blocks ++ [pageMarkup])]

/-- The mark that shows the number of a footnote in front of its text. -/
def footnoteMark : Node :=
  .element "w:r" [] [
    .element "w:rPr" [] [runStyle "FootnoteReference"],
    .leaf "w:footnoteRef"]

/-- The paragraphs of a footnote, the mark in front of the first. -/
def footnoteParagraphs (instances : List (String × NumberingInstance)) (lead : List Node) :
    List Paragraph → Writing (List Node)
  | [] => return []
  | paragraph :: paragraphs => do
    let first ← paragraph.markup instances (some "FootnoteText") lead
    let rest ← footnoteParagraphs instances [] paragraphs
    return first :: rest

/-- A footnote; one without paragraphs gets an empty one. -/
def footnoteMarkup (instances : List (String × NumberingInstance)) (id : Nat)
    (body : List Paragraph) : Writing Node := do
  let body := if body.isEmpty then [{}] else body
  let paragraphs ← footnoteParagraphs instances [footnoteMark] body
  return .element "w:footnote" [("w:id", toString id)] paragraphs

def footnotesMarkup (instances : List (String × NumberingInstance)) :
    List (Nat × List Paragraph) → Writing (List Node)
  | [] => return []
  | (id, body) :: footnotes => do
    let first ← footnoteMarkup instances id body
    let rest ← footnotesMarkup instances footnotes
    return first :: rest

/-- The rule between text and footnotes, of the given kind. -/
def separatorMarkup (kind id : String) : Node :=
  .element "w:footnote" [("w:type", kind), ("w:id", id)] [
    .element "w:p" [] [
      .element "w:pPr" [] [
        .leaf "w:spacing" [("w:after", "0"), ("w:line", "240"), ("w:lineRule", "auto")]],
      .element "w:r" [] [.leaf ("w:" ++ kind)]]]

/-- The two separators and all footnotes in order. -/
def footnotesPart (document : Document) : Writing Node := do
  let instances := numberingInstances document.numbering
  let footnotes ← footnotesMarkup instances document.footnotes
  return .element "w:footnotes" bodyNamespaces <|
    separatorMarkup "separator" "-1" :: separatorMarkup "continuationSeparator" "0" :: footnotes

end WordExport
