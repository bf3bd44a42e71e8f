import WordExport.Json.Value
import WordExport.Text.Space
import WordExport.Text.Split

set_option autoImplicit false

namespace WordExport.Json

open Text

def skipBlanks (cs : List Char) : List Char :=
  cs.dropWhile isBlank

/-- The character that stands for itself, or for a control, after a backslash. -/
def escaped? : Char → Option Char
  | '"' => some '"'
  | '\\' => some '\\'
  | '/' => some '/'
  | 'b' => some '\x08'
  | 'f' => some '\x0c'
  | 'n' => some '\n'
  | 'r' => some '\r'
  | 't' => some '\t'
  | _ => none

/-- The code points of a string after its opening quote, every escape of four hexadecimal digits
being one, and what follows the closing quote. -/
def stringBody? : List Char → Option (List Nat × List Char)
  | [] => none
  | '"' :: rest => some ([], rest)
  | '\\' :: 'u' :: a :: b :: c :: d :: rest => do
    let point ← hexadecimalValue? [a, b, c, d]
    let (points, after) ← stringBody? rest
    return (point :: points, after)
  | '\\' :: c :: rest => do
    let plain ← escaped? c
    let (points, after) ← stringBody? rest
    return (plain.toNat :: points, after)
  | c :: rest =>
    if c == '\\' || c.toNat < 0x20 then none
    else (stringBody? rest).map fun (points, after) => (c.toNat :: points, after)

def isHighSurrogate (n : Nat) : Bool := 0xD800 ≤ n && n < 0xDC00

def isLowSurrogate (n : Nat) : Bool := 0xDC00 ≤ n && n < 0xE000

/-- Makes one code point of each surrogate pair. -/
def joinSurrogates : List Nat → List Nat
  | high :: low :: points =>
    if isHighSurrogate high && isLowSurrogate low then
      (0x10000 + (high - 0xD800) * 0x400 + (low - 0xDC00)) :: joinSurrogates points
    else high :: joinSurrogates (low :: points)
  | points => points

def string? : List Char → Option (List Nat × List Char)
  | '"' :: rest => (stringBody? rest).map fun (points, after) => (joinSurrogates points, after)
  | _ => none

/-- A whole part has no leading zero. -/
def whole? : List Char → Option (List Char × List Char)
  | '0' :: rest => some (['0'], rest)
  | cs =>
    match takeDigits cs with
    | ([], _) => none
    | found => some found

/-- A fraction, absent where no point follows. -/
def fraction? : List Char → Option (List Char × List Char)
  | '.' :: rest =>
    match takeDigits rest with
    | ([], _) => none
    | found => some found
  | cs => some ([], cs)

/-- An exponent, absent where no `e` follows. -/
def exponent? : List Char → Option (Option Int × List Char)
  | c :: rest =>
    if c == 'e' || c == 'E' then
      let (negative, unsigned) := match rest with
        | '-' :: unsigned => (true, unsigned)
        | '+' :: unsigned => (false, unsigned)
        | unsigned => (false, unsigned)
      match takeDigits unsigned with
      | ([], _) => none
      | (digits, after) =>
        let size : Int := decimalValue digits
        some (some (if negative then -size else size), after)
    else some (none, c :: rest)
  | [] => some (none, [])

def number? (cs : List Char) : Option (Number × List Char) := do
  let (negative, unsigned) := match cs with
    | '-' :: unsigned => (true, unsigned)
    | unsigned => (false, unsigned)
  let (whole, afterWhole) ← whole? unsigned
  let (fraction, afterFraction) ← fraction? afterWhole
  let (exponent, after) ← exponent? afterFraction
  return (⟨negative, whole, fraction, exponent⟩, after)

/-- The start of a value: all of one that holds no others, or the bracket of one that may. -/
inductive Lexeme where
  | scalar (value : Value) (rest : List Char)
  | array (rest : List Char)
  | object (rest : List Char)

def lexeme? : List Char → Option Lexeme
  | '[' :: rest => some (.array rest)
  | '{' :: rest => some (.object rest)
  | 't' :: 'r' :: 'u' :: 'e' :: rest => some (.scalar (.bool true) rest)
  | 'f' :: 'a' :: 'l' :: 's' :: 'e' :: rest => some (.scalar (.bool false) rest)
  | 'n' :: 'u' :: 'l' :: 'l' :: rest => some (.scalar .null rest)
  | '"' :: rest => (string? ('"' :: rest)).map fun (points, after) => .scalar (.string points) after
  | cs => (number? cs).map fun (n, after) => .scalar (.number n) after

/-- The name of a member, with the colon after it. -/
def key? (cs : List Char) : Option (List Nat × List Char) := do
  let (points, after) ← string? (skipBlanks cs)
  match skipBlanks after with
  | ':' :: rest => some (points, rest)
  | _ => none

end WordExport.Json
