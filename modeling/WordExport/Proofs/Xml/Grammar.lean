import WordExport.Xml.Node

set_option autoImplicit false

namespace WordExport.Xml

/-- The references that every reader knows. -/
def entities : List (List Char) :=
  ["&amp;".toList, "&lt;".toList, "&gt;".toList, "&quot;".toList, "&apos;".toList]

def isNameStart (c : Char) : Bool :=
  c.isAlpha || c == ':' || c == '_'

def isNameChar (c : Char) : Bool :=
  isNameStart c || c.isDigit || c == '-' || c == '.'

/-- Names are in ASCII here. -/
def isName : List Char → Bool
  | [] => false
  | first :: rest => isNameStart first && rest.all isNameChar

/-- What may stand between the quotes of an attribute. -/
inductive IsValue : List Char → Prop
  | nil : IsValue []
  | char {c : Char} {rest : List Char} (plain : c ∉ ['<', '&', '"']) (next : IsValue rest) :
    IsValue (c :: rest)
  | reference {entity rest : List Char} (known : entity ∈ entities) (next : IsValue rest) :
    IsValue (entity ++ rest)

/-- The attributes in a tag, with the names in it, none of which comes twice. -/
inductive IsAttributes : List (List Char) → List Char → Prop
  | nil : IsAttributes [] []
  | cons {name value rest : List Char} {names : List (List Char)} (named : isName name = true)
      (fresh : name ∉ names) (quoted : IsValue value) (next : IsAttributes names rest) :
    IsAttributes (name :: names) (' ' :: name ++ '=' :: '"' :: value ++ '"' :: rest)

mutual

inductive IsElement : List Char → Prop
  | empty {name attributes : List Char} {names : List (List Char)} (named : isName name = true)
      (tagged : IsAttributes names attributes) :
    IsElement ('<' :: name ++ attributes ++ ['/', '>'])
  | closed {name attributes content : List Char} {names : List (List Char)}
      (named : isName name = true) (tagged : IsAttributes names attributes)
      (inside : IsContent content) :
    IsElement ('<' :: name ++ attributes ++ '>' :: content ++ '<' :: '/' :: name ++ ['>'])

/-- What may stand between two tags: characters, references and whole elements. -/
inductive IsContent : List Char → Prop
  | nil : IsContent []
  | char {c : Char} {rest : List Char} (plain : c ∉ ['<', '&']) (next : IsContent rest) :
    IsContent (c :: rest)
  | reference {entity rest : List Char} (known : entity ∈ entities) (next : IsContent rest) :
    IsContent (entity ++ rest)
  | element {text rest : List Char} (whole : IsElement text) (next : IsContent rest) :
    IsContent (text ++ rest)

end

/-- Exactly one element comes after the declaration. -/
def IsDocument (text : String) : Prop :=
  ∃ root, IsElement root ∧ text.toList = declaration.toList ++ root

end WordExport.Xml
