import WordExport.Json.Value
import WordExport.Markdown.Node

set_option autoImplicit false

namespace WordExport.Markdown

open Json (Value)

/-- The value of a field, and the nodes it lists if it is a list of nodes. -/
structure Entry where
  value : Value
  nodes : Option (List Node)

/-- The fields given for a node, by name. -/
abbrev Record := List (String × Entry)

/-- The fields of each kind of node in the order in which a list gives them. A kind without
fields is not listed, and neither is an unknown one. -/
def fieldNames? (kind : String) : Option (List String) :=
  List.lookup kind [
    ("root", ["children"]), ("paragraph", ["children"]), ("heading", ["depth", "children"]),
    ("blockquote", ["children"]), ("list", ["ordered", "start", "spread", "children"]),
    ("listItem", ["checked", "spread", "children"]), ("table", ["align", "children"]),
    ("tableRow", ["children"]), ("tableCell", ["children"]), ("html", ["value"]),
    ("code", ["value", "lang", "meta"]), ("yaml", ["value"]), ("toml", ["value"]),
    ("definition", ["identifier", "label", "url", "title"]),
    ("footnoteDefinition", ["identifier", "label", "children"]), ("text", ["value"]),
    ("emphasis", ["children"]), ("strong", ["children"]), ("delete", ["children"]),
    ("inlineCode", ["value"]), ("link", ["url", "title", "children"]),
    ("image", ["url", "title", "alt"]),
    ("linkReference", ["identifier", "label", "referenceType", "children"]),
    ("imageReference", ["identifier", "label", "referenceType", "alt"]),
    ("footnote", ["children"]), ("footnoteReference", ["identifier", "label"]),
    ("math", ["value"]), ("inlineMath", ["value"])]

def string? : Value → Option String
  | .string points => Json.textOf? points
  | _ => none

def bool? : Value → Option Bool
  | .bool b => some b
  | _ => none

/-- A number below the bound, written without fraction or exponent. -/
def below? (bound : Nat) : Value → Option Nat
  | .number n => n.natural?.filter (· < bound)
  | _ => none

/-- The kind of a node below another one: its name, or its place in the vocabulary counted from 0.
A place of 64 bits beyond the vocabulary is that of an unknown kind. -/
def kind? : Value → Option String
  | .number n => (below? UInt64.size (.number n)).map fun place =>
    (Node.kindNames[place]?).getD "unknown"
  | value => string? value

def alignmentNamed? (name : String) : Option ColumnAlignment :=
  if name == "left" then some .left
  else if name == "right" then some .right
  else if name == "center" then some .center
  else none

/-- An alignment is its name, or an object with the name as its only member and nothing there. -/
def alignment? : Value → Option ColumnAlignment
  | .object [(name, .null)] | .object [(name, .object [])] =>
    (Json.textOf? name).bind alignmentNamed?
  | value => (string? value).bind alignmentNamed?

def orNull? {α : Type} (read : Value → Option α) : Value → Option (Option α)
  | .null => some none
  | value => (read value).map some

def listOf? {α : Type} (read : Value → Option α) : Value → Option (List α)
  | .array items => items.mapM read
  | _ => none

namespace Record

def required? {α : Type} (record : Record) (name : String) (read : Value → Option α) : Option α :=
  (record.lookup name).bind fun entry => read entry.value

def orElse? {α : Type} (record : Record) (name : String) (absent : α) (read : Value → Option α) :
    Option α :=
  match record.lookup name with
  | some entry => read entry.value
  | none => some absent

def text? (record : Record) (name : String) : Option String :=
  record.orElse? name "" string?

def optional? {α : Type} (record : Record) (name : String) (read : Value → Option α) :
    Option (Option α) :=
  record.orElse? name none (orNull? read)

def children? (record : Record) : Option (List Node) :=
  match record.lookup "children" with
  | some entry => entry.nodes
  | none => some []

end Record

/-- The node of a kind that has the fields given. -/
def Node.ofRecord? (kind : String) (record : Record) : Option Node :=
  match kind with
  | "root" => return .root (← record.children?)
  | "paragraph" => return .paragraph (← record.children?)
  | "heading" => return .heading (← record.required? "depth" (below? 256)) (← record.children?)
  | "blockquote" => return .blockquote (← record.children?)
  | "list" =>
    return .list (← record.optional? "ordered" bool?)
      (← record.optional? "start" (below? UInt32.size)) (← record.optional? "spread" bool?)
      (← record.children?)
  | "listItem" =>
    return .listItem (← record.optional? "checked" bool?) (← record.optional? "spread" bool?)
      (← record.children?)
  | "table" =>
    return .table (← record.orElse? "align" [] (listOf? (orNull? alignment?)))
      (← record.children?)
  | "tableRow" => return .tableRow (← record.children?)
  | "tableCell" => return .tableCell (← record.children?)
  | "html" => return .html (← record.text? "value")
  | "code" =>
    return .code (← record.text? "value") (← record.optional? "lang" string?)
      (← record.optional? "meta" string?)
  | "yaml" => return .yaml (← record.text? "value")
  | "toml" => return .toml (← record.text? "value")
  | "definition" =>
    return .definition (← record.text? "identifier") (← record.optional? "label" string?)
      (← record.text? "url") (← record.optional? "title" string?)
  | "footnoteDefinition" =>
    return .footnoteDefinition (← record.required? "identifier" string?)
      (← record.optional? "label" string?) (← record.children?)
  | "text" => return .text (← record.text? "value")
  | "emphasis" => return .emphasis (← record.children?)
  | "strong" => return .strong (← record.children?)
  | "delete" => return .delete (← record.children?)
  | "inlineCode" => return .inlineCode (← record.text? "value")
  | "link" =>
    return .link (← record.required? "url" string?) (← record.optional? "title" string?)
      (← record.children?)
  | "image" =>
    return .image (← record.required? "url" string?) (← record.optional? "title" string?)
      (← record.optional? "alt" string?)
  | "linkReference" =>
    return .linkReference (← record.text? "identifier") (← record.optional? "label" string?)
      (← record.optional? "referenceType" string?) (← record.children?)
  | "imageReference" =>
    return .imageReference (← record.text? "identifier") (← record.optional? "label" string?)
      (← record.optional? "referenceType" string?) (← record.optional? "alt" string?)
  | "footnote" => return .footnote (← record.children?)
  | "footnoteReference" =>
    return .footnoteReference (← record.required? "identifier" string?)
      (← record.optional? "label" string?)
  | "math" => return .math (← record.text? "value")
  | "inlineMath" => return .inlineMath (← record.text? "value")
  | _ => none

/-- The node of a kind that takes no fields. -/
def Node.fieldless (kind : String) : Node :=
  if kind == "thematicBreak" then .thematicBreak
  else if kind == "break" then .lineBreak
  else .unknown

end WordExport.Markdown
