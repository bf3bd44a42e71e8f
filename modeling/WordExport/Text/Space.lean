import WordExport.Text.Ranges

set_option autoImplicit false

namespace WordExport.Text

/-- The blanks between the words of a source: space, tab, line feed and carriage return. -/
def isBlank (c : Char) : Bool :=
  c == ' ' || c == '\t' || c == '\n' || c == '\r'

/-- The code points with the Unicode property White_Space. -/
def spaceRanges : List (Nat × Nat) := [
  (0x9, 0xd), (0x20, 0x20), (0x85, 0x85), (0xa0, 0xa0), (0x1680, 0x1680), (0x2000, 0x200a),
  (0x2028, 0x2029), (0x202f, 0x202f), (0x205f, 0x205f), (0x3000, 0x3000)]

/-- Whether the character has the Unicode property White_Space. -/
def isSpace (c : Char) : Bool :=
  inRanges spaceRanges c.toNat

end WordExport.Text
