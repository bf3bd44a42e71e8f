set_option autoImplicit false

namespace WordExport.Xml

/-- The controls below the space that XML text cannot hold. -/
def isDropped (c : Char) : Bool :=
  c.toNat < 0x20 && c != '\t' && c != '\n' && c != '\r'

/-- The spelling of one character: five have an entity, and controls are dropped. -/
def escapeChar (c : Char) : List Char :=
  if c = '&' then "&amp;".toList
  else if c = '<' then "&lt;".toList
  else if c = '>' then "&gt;".toList
  else if c = '"' then "&quot;".toList
  else if c = '\'' then "&apos;".toList
  else if isDropped c then []
  else [c]

/-- The spelling of a text, the same in content as in an attribute. -/
def escape (text : List Char) : List Char :=
  text.flatMap escapeChar

/-- A text less the controls that markup drops. -/
def visible (text : String) : String :=
  String.ofList (text.toList.filter fun c => !isDropped c)

end WordExport.Xml
