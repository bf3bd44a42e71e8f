import WordExport.Xml.Escape

set_option autoImplicit false

namespace WordExport.Xml

/-- An XML tree. A `leaf` is an empty element written as one tag, while an `element` without
children has both of its tags. -/
inductive Node where
  | text (content : String)
  | leaf (name : String) (attributes : List (String × String) := [])
  | element (name : String) (attributes : List (String × String)) (children : List Node)

def attributeChars (attributes : List (String × String)) : List Char :=
  attributes.flatMap fun (name, value) =>
    ' ' :: name.toList ++ '=' :: '"' :: escape value.toList ++ ['"']

namespace Node

mutual

def chars : Node → List Char
  | text content => escape content.toList
  | leaf name attributes => '<' :: name.toList ++ attributeChars attributes ++ ['/', '>']
  | element name attributes children =>
    '<' :: name.toList ++ attributeChars attributes ++ '>' :: childChars children
      ++ '<' :: '/' :: name.toList ++ ['>']

def childChars : List Node → List Char
  | [] => []
  | child :: children => child.chars ++ childChars children

end

end Node

def declaration : String :=
  "<?xml version=\"1.0\" encoding=\"UTF-8\" standalone=\"yes\"?>"

/-- The text of a document with the given root. -/
def print (root : Node) : String :=
  String.ofList (declaration.toList ++ root.chars)

/-- An element with children, or nothing where there are none. -/
def elementUnlessEmpty (name : String) (children : List Node) : List Node :=
  if children.isEmpty then [] else [.element name [] children]

end WordExport.Xml
