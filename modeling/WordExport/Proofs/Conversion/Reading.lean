import Mathlib.Data.List.Forall2
import WordExport.Conversion.Nodes

set_option autoImplicit false

namespace WordExport

mutual

/-- The leaf items of an item. Links are looked into, and checkboxes are left out. -/
def Inline.leaves : Inline → List Inline
  | .link _ children => itemLeaves children
  | .checkbox _ => []
  | item => [item]

def itemLeaves : List Inline → List Inline
  | [] => []
  | item :: items => item.leaves ++ itemLeaves items

end

def Paragraph.leaves (paragraph : Paragraph) : List Inline :=
  itemLeaves paragraph.children

mutual

def Block.leaves : Block → List Inline
  | .paragraph paragraph => paragraph.leaves
  | .table ⟨rows, _⟩ => rowLeaves rows

def rowLeaves : List Row → List Inline
  | [] => []
  | ⟨cells, _⟩ :: rows => cellLeaves cells ++ rowLeaves rows

def cellLeaves : List Cell → List Inline
  | [] => []
  | ⟨children, _⟩ :: cells => blockLeaves children ++ cellLeaves cells

def blockLeaves : List Block → List Inline
  | [] => []
  | block :: blocks => block.leaves ++ blockLeaves blocks

end

def Content.leaves : Content → List Inline
  | .paragraph written => written.leaves
  | .table written => rowLeaves written.rows
  | .inline item => item.leaves

abbrev contentLeaves (contents : List Content) : List Inline :=
  contents.flatMap Content.leaves

namespace Markdown

/-- A leaf of a tree, below nodes of the given kinds, the outermost first. -/
structure Leaf where
  around : List String := []
  node : Node

def Leaf.under (kind : String) (leaf : Leaf) : Leaf :=
  { leaf with around := kind :: leaf.around }

/-- The leaves in a text, and those of each footnote defined in it. A footnote comes after those
that are defined inside of it. -/
structure Reading where
  text : List Leaf := []
  footnotes : List (String × List Leaf) := []

namespace Reading

def append (first second : Reading) : Reading :=
  ⟨first.text ++ second.text, first.footnotes ++ second.footnotes⟩

instance : Append Reading := ⟨append⟩

def under (kind : String) (reading : Reading) : Reading where
  text := reading.text.map (Leaf.under kind)
  footnotes := reading.footnotes.map fun (identifier, leaves) =>
    (identifier, leaves.map (Leaf.under kind))

/-- What is read in a footnote definition belongs to the footnote. -/
def define (identifier : String) (reading : Reading) : Reading :=
  ⟨[], reading.footnotes ++ [(identifier, reading.text)]⟩

end Reading

mutual

/-- What is read in a node. Front matter, rules, definitions and references of links and images
give nothing. -/
def Node.reading (node : Node) : Reading :=
  match node with
  | .text _ | .inlineCode _ | .lineBreak | .html _ | .code _ _ _ | .image _ _ _
  | .footnoteReference _ _ | .math _ | .inlineMath _ => { text := [{ node }] }
  | .paragraph children | .heading _ children | .blockquote children | .list _ _ _ children
  | .listItem _ _ children | .emphasis children | .strong children | .delete children
  | .link _ _ children | .footnote children => (readAll children).under node.kind
  | .table _ children => (readRows children).under node.kind
  | .footnoteDefinition identifier _ children =>
    ((readAll children).under node.kind).define identifier
  | _ => {}

def readAll : List Node → Reading
  | [] => {}
  | node :: nodes => node.reading ++ readAll nodes

/-- What is read in the rows among the children of a table. -/
def readRows : List Node → Reading
  | [] => {}
  | .tableRow children :: nodes => (readCells children).under "tableRow" ++ readRows nodes
  | _ :: nodes => readRows nodes

/-- What is read in the cells among the children of a row. -/
def readCells : List Node → Reading
  | [] => {}
  | .tableCell children :: nodes => (readAll children).under "tableCell" ++ readCells nodes
  | _ :: nodes => readCells nodes

end

end Markdown

open Markdown (Leaf Reading)

/-- The decoration inside of nodes of the given kinds. -/
def Decoration.inside (start : Decoration) (around : List String) : Decoration where
  strong := start.strong || around.contains "strong"
  emphasis := start.emphasis || around.contains "emphasis"
  delete := start.delete || around.contains "delete"

/-- A plain run for each line of a value, after a line break except for the first. -/
def ShowsLines (value : String) (items : List Inline) : Prop :=
  ∃ first below, "\n".intercalate (first :: below) = value ∧
    (∀ line ∈ first :: below, '\n' ∉ line.toList) ∧
    items = .text { text := first }
      :: below.map fun line => .text { text := line, breaks := 1 }

/-- The items that show a leaf to a reader. -/
def ShowsLeaf (context : Context) (leaf : Leaf) (items : List Inline) : Prop :=
  let decoration := context.decoration.inside leaf.around
  match leaf.node with
  | .text value | .inlineCode value =>
    items = [.text {
      text := value, bold := decoration.strong, italics := decoration.emphasis,
      strike := decoration.delete }]
  | .lineBreak => items = [.text { breaks := 1 }]
  | .html value | .code value _ _ => ShowsLines value items
  | .image url _ _ => ∃ image, context.images.find? url = some image ∧ items = [.image image]
  | .footnoteReference identifier _ =>
    ∃ id, footnoteId identifier = .ok id ∧ items = [.footnoteReference id]
  | .inlineMath value => items = [.math (Math.lines value).flatten]
  | .math value => items = (Math.lines value).map .math
  | _ => False

/-- Leaves shown one after another. -/
inductive Shows (context : Context) : List Leaf → List Inline → Prop
  | nil : Shows context [] []
  | cons {leaf : Leaf} {leaves : List Leaf} {first rest : List Inline} :
    ShowsLeaf context leaf first → Shows context leaves rest →
      Shows context (leaf :: leaves) (first ++ rest)

/-- Footnotes in order, each with its own identifier and body. -/
def ShowsFootnotes (context : Context) (footnotes : List (String × List Leaf))
    (definitions : List (String × List Paragraph)) : Prop :=
  List.Forall₂ (fun footnote definition => definition.1 = footnote.1 ∧
    Shows context footnote.2 (definition.2.flatMap Paragraph.leaves)) footnotes definitions

/-- What is related to a list has its counterpart in it. -/
theorem exists_of_forall₂ {α β : Type} {related : α → β → Prop} {first : List α} {second : List β}
    (all : List.Forall₂ related first second) {value : β} (mem : value ∈ second) :
    ∃ other ∈ first, related other value := by
  induction all with
  | nil => contradiction
  | cons holds _ ih =>
    rcases List.mem_cons.mp mem with rfl | later
    · exact ⟨_, List.mem_cons_self, holds⟩
    · obtain ⟨other, listed, holds⟩ := ih later
      exact ⟨other, List.mem_cons_of_mem _ listed, holds⟩

end WordExport
