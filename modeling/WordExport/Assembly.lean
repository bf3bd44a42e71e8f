import WordExport.Ascending
import WordExport.Conversion.Nodes
import WordExport.Document
import WordExport.Options

set_option autoImplicit false

namespace WordExport

open Markdown (Tree)

/-- Ordered lists have six decimal levels, each indented by one unit more than the last. -/
def orderedNumbering : NumberingDefinition where
  reference := orderedReference
  levels := (List.range 6).map fun level =>
    { level
      text := "%" ++ toString (level + 1) ++ "."
      alignment := .start
      indent := if level = 0 then none else some (levelIndent level) }

/-- Puts footnotes under their numbers, the smallest identifier first. An identifier is refused
where it has no number or where its number is taken. -/
def numberFootnotes (taken : List (Nat × List Paragraph)) :
    List (String × List Paragraph) → Except TreeFault (List (Nat × List Paragraph))
  | [] => .ok taken
  | (identifier, body) :: footnotes => do
    let id ← footnoteId identifier
    if taken.any fun (other, _) => other == id then throw (.invalidFootnoteId identifier)
    numberFootnotes (insertAscending id body taken) footnotes

/-- The footnotes of a document: every reference has to have its footnote. -/
def footnotesOf (definitions : List (String × List Paragraph)) (references : List (Nat × String)) :
    Except TreeFault (List (Nat × List Paragraph)) := do
  let footnotes ← numberFootnotes [] (lastByKey definitions)
  match (firstByKey references).find? fun (id, _) => !footnotes.any fun (other, _) => other == id with
  | some (_, identifier) => throw (.undefinedFootnote identifier)
  | none => return footnotes

/-- The document of a tree, the images of which are in the table. -/
def buildDocument (tree : Tree) (options : Options) (images : ImageTable) :
    Except Error Document := do
  let noted ← convertNodes { images, preset := options.tablePreset } tree.children
  let footnotes ← (footnotesOf noted.definitions noted.references).mapError Error.conversion
  return {
    properties := {
      title := options.title
      subject := options.subject
      creator := options.creator
      keywords := options.keywords
      description := options.description
      lastModifiedBy := options.lastModifiedBy
      revision := options.revision }
    styles := options.styles
    background := options.background
    numbering := [orderedNumbering]
    sections := [toBlocks noted.value]
    footnotes }

end WordExport
