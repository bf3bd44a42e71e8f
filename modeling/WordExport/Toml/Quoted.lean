import WordExport.Text.Digits

set_option autoImplicit false

namespace WordExport.Toml

open Text

/-- A space or a tab. -/
def isGap (c : Char) : Bool :=
  c == ' ' || c == '\t'

/-- What may stand in a comment or a literal string: anything but controls, though tabs may. -/
def isPrintable (c : Char) : Bool :=
  c == '\t' || (0x20 ≤ c.toNat && c.toNat != 0x7F)

/-- The text after a line feed, or a carriage return and a line feed. -/
def newline? : List Char → Option (List Char)
  | '\n' :: rest => some rest
  | '\r' :: '\n' :: rest => some rest
  | _ => none

def escaped? : Char → Option Char
  | 'b' => some '\x08'
  | 't' => some '\t'
  | 'n' => some '\n'
  | 'f' => some '\x0c'
  | 'r' => some '\r'
  | '"' => some '"'
  | '\\' => some '\\'
  | _ => none

/-- The character whose code point is written in hexadecimal. -/
def scalar? (digits : List Char) : Option Char :=
  (hexadecimalValue? digits).bind fun code =>
    if code.isValidChar then some (Char.ofNat code) else none

/-- Puts a character in front of a string that is read already. -/
def prepend (c : Char) (read : Option (List Char × List Char)) : Option (List Char × List Char) :=
  read.map fun (text, rest) => (c :: text, rest)

/-- A basic string after its quote. -/
def basicBody? : List Char → Option (List Char × List Char)
  | [] => none
  | '"' :: rest => some ([], rest)
  | '\\' :: 'u' :: a :: b :: c :: d :: rest =>
    (scalar? [a, b, c, d]).bind fun plain => prepend plain (basicBody? rest)
  | '\\' :: 'U' :: a :: b :: c :: d :: e :: f :: g :: h :: rest =>
    (scalar? [a, b, c, d, e, f, g, h]).bind fun plain => prepend plain (basicBody? rest)
  | '\\' :: c :: rest => (escaped? c).bind fun plain => prepend plain (basicBody? rest)
  | c :: rest =>
    if isPrintable c && c != '\\' then prepend c (basicBody? rest) else none

/-- A literal string after its quote. -/
def literalBody? : List Char → Option (List Char × List Char)
  | [] => none
  | '\'' :: rest => some ([], rest)
  | c :: rest => if isPrintable c then prepend c (literalBody? rest) else none

/-- The end of a multi-line string after its three quotes: up to two more quotes belong to it. -/
def closing (quote : Char) : List Char → List Char × List Char
  | a :: b :: rest =>
    if a == quote && b == quote then ([quote, quote], rest)
    else if a == quote then ([quote], b :: rest)
    else ([], a :: b :: rest)
  | [a] => if a == quote then ([quote], []) else ([], [a])
  | [] => ([], [])

/-- Whether nothing but gaps stands between here and the end of the line. -/
def endsLine (cs : List Char) : Bool :=
  (newline? (cs.dropWhile isGap)).isSome

/-- A multi-line basic string after its quotes. A backslash that ends a line takes all gaps and
newlines after it away, which are dropped while `joining`. -/
def multiBasicBody? (joining : Bool) : List Char → Option (List Char × List Char)
  | [] => none
  | '"' :: '"' :: '"' :: rest => some (closing '"' rest)
  | '\n' :: rest =>
    if joining then multiBasicBody? true rest else prepend '\n' (multiBasicBody? false rest)
  | '\r' :: '\n' :: rest =>
    if joining then multiBasicBody? true rest else prepend '\n' (multiBasicBody? false rest)
  | '\\' :: 'u' :: a :: b :: c :: d :: rest =>
    (scalar? [a, b, c, d]).bind fun plain => prepend plain (multiBasicBody? false rest)
  | '\\' :: 'U' :: a :: b :: c :: d :: e :: f :: g :: h :: rest =>
    (scalar? [a, b, c, d, e, f, g, h]).bind fun plain =>
      prepend plain (multiBasicBody? false rest)
  | '\\' :: c :: rest =>
    match escaped? c with
    | some plain => prepend plain (multiBasicBody? false rest)
    | none => if endsLine (c :: rest) then multiBasicBody? true (c :: rest) else none
  | c :: rest =>
    if joining && isGap c then multiBasicBody? true rest
    else if isPrintable c && c != '\\' then prepend c (multiBasicBody? false rest)
    else none

/-- A multi-line literal string after its quotes. -/
def multiLiteralBody? : List Char → Option (List Char × List Char)
  | [] => none
  | '\'' :: '\'' :: '\'' :: rest => some (closing '\'' rest)
  | '\n' :: rest => prepend '\n' (multiLiteralBody? rest)
  | '\r' :: '\n' :: rest => prepend '\n' (multiLiteralBody? rest)
  | c :: rest => if isPrintable c then prepend c (multiLiteralBody? rest) else none

/-- A newline right after the opening quotes of a multi-line string does not count. -/
def afterOpening (cs : List Char) : List Char :=
  (newline? cs).getD cs

/-- A string of any of the four kinds. -/
def string? (cs : List Char) : Option (String × List Char) :=
  let read := match cs with
    | '"' :: '"' :: '"' :: rest => multiBasicBody? false (afterOpening rest)
    | '"' :: rest => basicBody? rest
    | '\'' :: '\'' :: '\'' :: rest => multiLiteralBody? (afterOpening rest)
    | '\'' :: rest => literalBody? rest
    | _ => none
  read.map fun (text, rest) => (String.ofList text, rest)

end WordExport.Toml
