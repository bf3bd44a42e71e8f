import WordExport.Json.Value

set_option autoImplicit false

namespace WordExport.Json

def hexDigit (n : Nat) : Char :=
  if n < 10 then Char.ofNat ('0'.toNat + n) else Char.ofNat ('a'.toNat + n - 10)

/-- An escape of four hexadecimal digits. -/
def unitEscape (n : Nat) : List Char :=
  ['\\', 'u', hexDigit (n / 4096 % 16), hexDigit (n / 256 % 16), hexDigit (n / 16 % 16),
    hexDigit (n % 16)]

/-- The letter that stands for a control after a backslash. -/
def controlLetter? : Nat → Option Char
  | 0x08 => some 'b'
  | 0x09 => some 't'
  | 0x0a => some 'n'
  | 0x0c => some 'f'
  | 0x0d => some 'r'
  | _ => none

/-- A code point in a string: quotes and backslashes are escaped, and so are controls and
surrogates; all others stand for themselves. -/
def pointText (n : Nat) : List Char :=
  if n == '"'.toNat then ['\\', '"']
  else if n == '\\'.toNat then ['\\', '\\']
  else if n < 0x20 || !n.isValidChar then
    match controlLetter? n with
    | some letter => ['\\', letter]
    | none => unitEscape n
  else [Char.ofNat n]

def stringText (points : List Nat) : List Char :=
  '"' :: points.flatMap pointText ++ ['"']

namespace Number

def ofNat (n : Nat) : Number where
  whole := Nat.toDigits 10 n

def text (n : Number) : List Char :=
  let sign := if n.negative then ['-'] else []
  let fraction := if n.fraction.isEmpty then [] else '.' :: n.fraction
  let exponent := match n.exponent with
    | none => []
    | some (.ofNat size) => 'e' :: Nat.toDigits 10 size
    | some (.negSucc size) => 'e' :: '-' :: Nat.toDigits 10 (size + 1)
  sign ++ n.whole ++ fraction ++ exponent

end Number

namespace Value

mutual

def chars : Value → List Char
  | null => "null".toList
  | bool b => (if b then "true" else "false").toList
  | number n => n.text
  | string points => stringText points
  | array items => '[' :: itemChars items ++ [']']
  | object members => '{' :: memberChars members ++ ['}']

def itemChars : List Value → List Char
  | [] => []
  | [item] => item.chars
  | item :: items => item.chars ++ ',' :: itemChars items

def memberChars : List (List Nat × Value) → List Char
  | [] => []
  | [(key, value)] => stringText key ++ ':' :: value.chars
  | (key, value) :: members => stringText key ++ ':' :: value.chars ++ ',' :: memberChars members

end

def print (value : Value) : String :=
  String.ofList value.chars

end Value

end WordExport.Json
