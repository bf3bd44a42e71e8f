import WordExport.Json.Printer
import WordExport.Markdown.Node

set_option autoImplicit false

namespace WordExport.Markdown

open Json (Value)

def textValue (s : String) : Value :=
  .string (Json.pointsOf s)

def natValue (n : Nat) : Value :=
  .number (.ofNat n)

def optionValue {α : Type} (write : α → Value) : Option α → Value
  | some x => write x
  | none => .null

def ColumnAlignment.toValue : ColumnAlignment → Value
  | left => textValue "left"
  | right => textValue "right"
  | center => textValue "center"

/-- An object of the given fields. -/
def objectValue (fields : List (String × Value)) : Value :=
  .object (fields.map fun (name, value) => (Json.pointsOf name, value))

namespace Node

/-- The fields of a node, the values of its children being given. -/
def fieldValues (children : List Value) : Node → List (String × Value)
  | heading depth _ => [("depth", natValue depth), ("children", .array children)]
  | list ordered start spread _ =>
    [("ordered", optionValue .bool ordered), ("start", optionValue natValue start),
      ("spread", optionValue .bool spread), ("children", .array children)]
  | listItem checked spread _ =>
    [("checked", optionValue .bool checked), ("spread", optionValue .bool spread),
      ("children", .array children)]
  | table align _ =>
    [("align", .array (align.map (optionValue ColumnAlignment.toValue))),
      ("children", .array children)]
  | code value lang info =>
    [("value", textValue value), ("lang", optionValue textValue lang),
      ("meta", optionValue textValue info)]
  | definition identifier label url title =>
    [("identifier", textValue identifier), ("label", optionValue textValue label),
      ("url", textValue url), ("title", optionValue textValue title)]
  | footnoteDefinition identifier label _ =>
    [("identifier", textValue identifier), ("label", optionValue textValue label),
      ("children", .array children)]
  | link url title _ =>
    [("url", textValue url), ("title", optionValue textValue title),
      ("children", .array children)]
  | image url title alt =>
    [("url", textValue url), ("title", optionValue textValue title),
      ("alt", optionValue textValue alt)]
  | linkReference identifier label referenceType _ =>
    [("identifier", textValue identifier), ("label", optionValue textValue label),
      ("referenceType", optionValue textValue referenceType), ("children", .array children)]
  | imageReference identifier label referenceType alt =>
    [("identifier", textValue identifier), ("label", optionValue textValue label),
      ("referenceType", optionValue textValue referenceType), ("alt", optionValue textValue alt)]
  | footnoteReference identifier label =>
    [("identifier", textValue identifier), ("label", optionValue textValue label)]
  | html value | yaml value | toml value | text value | inlineCode value | math value
  | inlineMath value => [("value", textValue value)]
  | thematicBreak | lineBreak | unknown => []
  | root _ | paragraph _ | blockquote _ | tableRow _ | tableCell _ | emphasis _ | strong _
  | delete _ | footnote _ => [("children", .array children)]

mutual

def toValue (node : Node) : Value :=
  let children := match node with
    | root children | paragraph children | heading _ children | blockquote children
    | list _ _ _ children | listItem _ _ children | table _ children | tableRow children
    | tableCell children | footnoteDefinition _ _ children | emphasis children
    | strong children | delete children | link _ _ children | linkReference _ _ _ children
    | footnote children => toValues children
    | _ => []
  objectValue (("type", textValue node.kind) :: node.fieldValues children)

def toValues : List Node → List Value
  | [] => []
  | node :: nodes => node.toValue :: toValues nodes

end

theorem toValue_eq (node : Node) :
    node.toValue = objectValue
      (("type", textValue node.kind) :: node.fieldValues (toValues node.children)) := by
  cases node <;> rfl

end Node

/-- The JSON value of a tree. The root has no `type`. -/
def Tree.toValue (tree : Tree) : Value :=
  objectValue [("children", .array (Node.toValues tree.children))]

/-- The JSON text of a tree. -/
def Tree.toJson (tree : Tree) : String :=
  tree.toValue.print

end WordExport.Markdown
