set_option autoImplicit false

namespace WordExport.Markdown

inductive ColumnAlignment where
  | left
  | right
  | center
  deriving DecidableEq, Repr

/-- A node of a tree. Every kind outside of the vocabulary is `unknown`. -/
inductive Node where
  | root (children : List Node)
  | paragraph (children : List Node)
  | heading (depth : Nat) (children : List Node)
  | thematicBreak
  | blockquote (children : List Node)
  | list (ordered : Option Bool) (start : Option Nat) (spread : Option Bool)
      (children : List Node)
  | listItem (checked spread : Option Bool) (children : List Node)
  | table (align : List (Option ColumnAlignment)) (children : List Node)
  | tableRow (children : List Node)
  | tableCell (children : List Node)
  | html (value : String)
  | code (value : String) (lang info : Option String)
  | yaml (value : String)
  | toml (value : String)
  | definition (identifier : String) (label : Option String) (url : String)
      (title : Option String)
  | footnoteDefinition (identifier : String) (label : Option String) (children : List Node)
  | text (value : String)
  | emphasis (children : List Node)
  | strong (children : List Node)
  | delete (children : List Node)
  | inlineCode (value : String)
  | lineBreak
  | link (url : String) (title : Option String) (children : List Node)
  | image (url : String) (title alt : Option String)
  | linkReference (identifier : String) (label referenceType : Option String)
      (children : List Node)
  | imageReference (identifier : String) (label referenceType alt : Option String)
  | footnote (children : List Node)
  | footnoteReference (identifier : String) (label : Option String)
  | math (value : String)
  | inlineMath (value : String)
  | unknown

structure Tree where
  children : List Node

namespace Node

/-- The names of the kinds in the order of the vocabulary. -/
def kindNames : List String := [
  "root", "paragraph", "heading", "thematicBreak", "blockquote", "list", "listItem", "table",
  "tableRow", "tableCell", "html", "code", "yaml", "toml", "definition", "footnoteDefinition",
  "text", "emphasis", "strong", "delete", "inlineCode", "break", "link", "image",
  "linkReference", "imageReference", "footnote", "footnoteReference", "math", "inlineMath"]

/-- The name of the kind of a node. -/
def kind : Node → String
  | root _ => "root"
  | paragraph _ => "paragraph"
  | heading _ _ => "heading"
  | thematicBreak => "thematicBreak"
  | blockquote _ => "blockquote"
  | list _ _ _ _ => "list"
  | listItem _ _ _ => "listItem"
  | table _ _ => "table"
  | tableRow _ => "tableRow"
  | tableCell _ => "tableCell"
  | html _ => "html"
  | code _ _ _ => "code"
  | yaml _ => "yaml"
  | toml _ => "toml"
  | definition _ _ _ _ => "definition"
  | footnoteDefinition _ _ _ => "footnoteDefinition"
  | text _ => "text"
  | emphasis _ => "emphasis"
  | strong _ => "strong"
  | delete _ => "delete"
  | inlineCode _ => "inlineCode"
  | lineBreak => "break"
  | link _ _ _ => "link"
  | image _ _ _ => "image"
  | linkReference _ _ _ _ => "linkReference"
  | imageReference _ _ _ _ => "imageReference"
  | footnote _ => "footnote"
  | footnoteReference _ _ => "footnoteReference"
  | math _ => "math"
  | inlineMath _ => "inlineMath"
  | unknown => "unknown"

def children : Node → List Node
  | root children | paragraph children | heading _ children | blockquote children
  | list _ _ _ children | listItem _ _ children | table _ children | tableRow children
  | tableCell children | footnoteDefinition _ _ children | emphasis children | strong children
  | delete children | link _ _ children | linkReference _ _ _ children | footnote children =>
    children
  | _ => []

def imageUrl? : Node → Option String
  | image url _ _ => some url
  | _ => none

mutual

/-- The node and all nodes below it, each before its children. -/
def walk (node : Node) : List Node :=
  match node with
  | root children | paragraph children | heading _ children | blockquote children
  | list _ _ _ children | listItem _ _ children | table _ children | tableRow children
  | tableCell children | footnoteDefinition _ _ children | emphasis children | strong children
  | delete children | link _ _ children | linkReference _ _ _ children | footnote children =>
    node :: walkAll children
  | _ => [node]

def walkAll : List Node → List Node
  | [] => []
  | node :: nodes => node.walk ++ walkAll nodes

end

theorem walk_eq (node : Node) : node.walk = node :: walkAll node.children := by
  cases node <;> rfl

end Node

namespace Tree

/-- All nodes of the tree, each before its children. -/
def walk (tree : Tree) : List Node :=
  Node.walkAll tree.children

/-- The addresses of the images in the order of the walk, repeats included. -/
def imageUrls (tree : Tree) : List String :=
  tree.walk.filterMap Node.imageUrl?

end Tree

end WordExport.Markdown
