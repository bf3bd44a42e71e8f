import WordExport.Conversion.Basic
import WordExport.Conversion.Context
import WordExport.Document.FootnoteId
import WordExport.Markdown.Node
import WordExport.Math.Lines
import WordExport.Text.Lines

set_option autoImplicit false

namespace WordExport

open Markdown (Node ColumnAlignment)

/-- Text as it stands, a line break before every line but the first. -/
def literalParagraph (value : String) : Paragraph where
  children :=
    match Text.lines value.toList with
    | [] => []
    | first :: below =>
      .text { text := String.ofList first }
        :: below.map fun line => .text { text := String.ofList line, breaks := 1 }

/-- Headings of depth 1 are titles; below depth 6 there is no style. -/
def headingOfDepth? : Nat → Option Heading
  | 1 => some .title
  | 2 => some .heading1
  | 3 => some .heading2
  | 4 => some .heading3
  | 5 => some .heading4
  | 6 => some .heading5
  | _ => none

def columnAlignment : Option ColumnAlignment → Alignment
  | some .right => .right
  | some .center => .center
  | some .left | none => .left

/-- The cell of a table part with the given items. -/
def tableCell (part : Option TablePart) (alignment : Option Alignment) (children : List Inline) :
    Cell where
  children := [.paragraph { children, alignment, properties := part.map TablePart.paragraph }]
  properties := part.map TablePart.cell

/-- A footnote holds paragraphs only: of a table its items are left, in one paragraph. -/
def footnoteParagraph : Block → Paragraph
  | .paragraph paragraph => paragraph
  | .table table => { children := table.inlines }

mutual

def convertNode (context : Context) : Node → Conversion (List Content)
  | .paragraph children => do
    let contents ← convertNodes context children
    return [.paragraph (context.paragraph (toInlines contents))]
  | .heading depth children => do
    let contents ← convertNodes context children
    return [.paragraph { children := toInlines contents, heading := headingOfDepth? depth }]
  | .thematicBreak => return [.paragraph { thematicBreak := true }]
  | .blockquote children => convertNodes context.quoted children
  | .list ordered _ _ children => convertItems (context.listed (ordered.getD false)) children
  | .table align children => do
    let header := context.preset.bind TablePreset.header
    let body := context.preset.bind TablePreset.body
    let rows ← convertRows context align header body children
    return [.table ⟨rows, context.preset.bind TablePreset.options⟩]
  | .html value | .code value _ _ => return [.paragraph (literalParagraph value)]
  | .footnoteDefinition identifier _ children => do
    let body ← convertBody context children
    Conversion.define identifier body
    return []
  | .text value | .inlineCode value => return [.inline (.text (context.textRun value))]
  | .emphasis children => convertNodes context.emphasized children
  | .strong children => convertNodes context.strong children
  | .delete children => convertNodes context.deleted children
  | .lineBreak => return [.inline (.text { breaks := 1 })]
  | .link url _ children => do
    let contents ← convertNodes context children
    return [.inline (.link url (toInlines contents))]
  | .image url _ _ =>
    match context.images.find? url with
    | some image => return [.inline (.image image)]
    | none => Conversion.fail (.resolution (.notResolved url))
  | .footnote children => do
    let contents ← convertNodes context children
    return [.paragraph { children := toInlines contents }]
  | .footnoteReference identifier _ =>
    match footnoteId identifier with
    | .ok id => do
      Conversion.refer id identifier
      return [.inline (.footnoteReference id)]
    | .error fault => Conversion.fail (.conversion fault)
  | .math value =>
    return (Math.lines value).map fun runs => .paragraph { children := [.math runs] }
  | .inlineMath value => return [.inline (.math (Math.lines value).flatten)]
  | .yaml _ | .toml _ | .definition _ _ _ _ | .linkReference _ _ _ _
  | .imageReference _ _ _ _ => return []
  | .root _ => Conversion.fail (.conversion (.unexpectedNode "root"))
  | .listItem _ _ _ => Conversion.fail (.conversion (.unexpectedNode "listItem"))
  | .tableRow _ => Conversion.fail (.conversion (.unexpectedNode "tableRow"))
  | .tableCell _ => Conversion.fail (.conversion (.unexpectedNode "tableCell"))
  | .unknown => Conversion.fail (.conversion .unknownNode)

def convertNodes (context : Context) : List Node → Conversion (List Content)
  | [] => return []
  | node :: nodes => do
    let first ← convertNode context node
    let rest ← convertNodes context nodes
    return first ++ rest

/-- The children of a list, in its context. -/
def convertItems (context : Context) : List Node → Conversion (List Content)
  | [] => return []
  | .listItem checked _ children :: nodes => do
    let first ← convertNodes (context.item checked) children
    let rest ← convertItems context nodes
    return first ++ rest
  | node :: nodes => do
    let first ← convertNode context node
    let rest ← convertItems context nodes
    return first ++ rest

/-- The children of a table, of which the first has a part of its own. What is no row is passed
over. -/
def convertRows (context : Context) (align : List (Option ColumnAlignment))
    (first others : Option TablePart) : List Node → Conversion (List Row)
  | [] => return []
  | .tableRow children :: nodes => do
    let cells ← convertCells context first align children
    let rest ← convertRows context align others others nodes
    return ⟨cells, first.map TablePart.row⟩ :: rest
  | _ :: nodes => convertRows context align others others nodes

/-- The children of a table row; each takes one alignment. What is no cell is passed over. -/
def convertCells (context : Context) (part : Option TablePart) :
    List (Option ColumnAlignment) → List Node → Conversion (List Cell)
  | _, [] => return []
  | align, .tableCell children :: nodes => do
    let contents ← convertNodes context children
    let rest ← convertCells context part align.tail nodes
    return tableCell part (align.head?.map columnAlignment) (toInlines contents) :: rest
  | align, _ :: nodes => convertCells context part align.tail nodes

/-- The body of a footnote. Each child makes blocks of its own. -/
def convertBody (context : Context) : List Node → Conversion (List Paragraph)
  | [] => return []
  | node :: nodes => do
    let contents ← convertNode context node
    let rest ← convertBody context nodes
    return (toBlocks contents).map footnoteParagraph ++ rest

end

end WordExport
