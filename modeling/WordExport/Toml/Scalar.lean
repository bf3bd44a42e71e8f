import WordExport.Text.Double
import WordExport.Toml.Quoted
import WordExport.Toml.Value

set_option autoImplicit false

namespace WordExport.Toml

open Text

/-- Digits, between any two of which an underscore may stand. -/
def groupedTail (isDigit : Char → Bool) : List Char → List Char × List Char
  | [] => ([], [])
  | [c] => if isDigit c then ([c], []) else ([], [c])
  | c :: next :: rest =>
    if isDigit c then
      let (digits, after) := groupedTail isDigit (next :: rest)
      (c :: digits, after)
    else if c == '_' && isDigit next then groupedTail isDigit (next :: rest)
    else ([], c :: next :: rest)

def grouped? (isDigit : Char → Bool) (cs : List Char) : Option (List Char × List Char) :=
  match cs with
  | c :: _ => if isDigit c then some (groupedTail isDigit cs) else none
  | [] => none

/-- Integers have 64 bits, one of them for the sign. -/
def integerBound : Nat := Nat.pow 2 63

/-- A whole number in another base. -/
def based? (base : Nat) (cs : List Char) : Option (Value × List Char) := do
  let isDigit := fun c => (hexValue? c).any (· < base)
  let (digits, rest) ← grouped? isDigit cs
  let size := digits.foldl (fun n c => base * n + (hexValue? c).getD 0) 0
  if size < integerBound then some (.integer size, rest) else none

/-- The whole part of a decimal number, without leading zeros. -/
def whole? : List Char → Option (List Char × List Char)
  | '0' :: rest => some (['0'], rest)
  | cs => grouped? Char.isDigit cs

/-- Whether a minus sign stands in front, and what follows the sign. -/
def sign (cs : List Char) : Bool × List Char :=
  match cs with
  | '-' :: rest => (true, rest)
  | '+' :: rest => (false, rest)
  | rest => (false, rest)

def fraction? : List Char → Option (Option (List Char) × List Char)
  | '.' :: rest => (grouped? Char.isDigit rest).map fun (digits, after) => (some digits, after)
  | cs => some (none, cs)

def exponent? : List Char → Option (Option Int × List Char)
  | c :: rest =>
    if c == 'e' || c == 'E' then do
      let (negative, unsigned) := sign rest
      let (digits, after) ← grouped? Char.isDigit unsigned
      let size : Int := decimalValue digits
      return (some (if negative then -size else size), after)
    else some (none, c :: rest)
  | [] => some (none, [])

/-- A decimal number. A float must not be infinite upwards. -/
def decimal? (cs : List Char) : Option (Value × List Char) := do
  let (negative, unsigned) := sign cs
  let (whole, afterWhole) ← whole? unsigned
  let (fraction, afterFraction) ← fraction? afterWhole
  let (exponent, rest) ← exponent? afterFraction
  if fraction.isNone && exponent.isNone then
    let size : Int := decimalValue whole
    let n := if negative then -size else size
    if -integerBound ≤ n ∧ n < integerBound then some (.integer n, rest) else none
  else
    let places := fraction.getD []
    let overflows := decimalOverflows (decimalValue (whole ++ places))
      (exponent.getD 0 - places.length)
    if overflows && !negative then none else some (.float, rest)

/-- Infinity and what is no number, with or without a sign. -/
def special? (cs : List Char) : Option (Value × List Char) :=
  let unsigned := (sign cs).2
  (("inf".toList.isPrefixOf? unsigned).or ("nan".toList.isPrefixOf? unsigned)).map fun rest =>
    (.float, rest)

def number? (cs : List Char) : Option (Value × List Char) :=
  match cs with
  | '0' :: 'x' :: rest => based? 16 rest
  | '0' :: 'o' :: rest => based? 8 rest
  | '0' :: 'b' :: rest => based? 2 rest
  | _ => (special? cs).or (decimal? cs)

/-- A number of a fixed count of digits, in a range. -/
def fixed? (count low high : Nat) (cs : List Char) : Option (Nat × List Char) :=
  let digits := cs.take count
  let n := decimalValue digits
  if digits.length = count ∧ digits.all Char.isDigit ∧ low ≤ n ∧ n ≤ high then
    some (n, cs.drop count)
  else none

/-- What follows the mark. -/
def mark? (mark : Char) : List Char → Option (List Char)
  | c :: rest => if c == mark then some rest else none
  | [] => none

def daysInMonth (year month : Nat) : Nat :=
  if month = 2 then
    if year % 4 = 0 ∧ (year % 100 ≠ 0 ∨ year % 400 = 0) then 29 else 28
  else if [4, 6, 9, 11].contains month then 30
  else 31

def date? (cs : List Char) : Option (List Char) := do
  let (year, cs) ← fixed? 4 0 9999 cs
  let cs ← mark? '-' cs
  let (month, cs) ← fixed? 2 1 12 cs
  let cs ← mark? '-' cs
  let (_, cs) ← fixed? 2 1 (daysInMonth year month) cs
  return cs

/-- A fraction of a second, which may be absent. -/
def secondFraction (cs : List Char) : List Char :=
  match cs with
  | '.' :: rest =>
    match takeDigits rest with
    | ([], _) => cs
    | (_, after) => after
  | _ => cs

def time? (cs : List Char) : Option (List Char) := do
  let (_, cs) ← fixed? 2 0 23 cs
  let cs ← mark? ':' cs
  let (_, cs) ← fixed? 2 0 59 cs
  let cs ← mark? ':' cs
  let (_, cs) ← fixed? 2 0 60 cs
  return secondFraction cs

/-- The offset of a time from the zero meridian, which may be absent. -/
def offset? (cs : List Char) : Option (List Char) :=
  match cs with
  | c :: rest =>
    if c == 'Z' || c == 'z' then some rest
    else if c == '+' || c == '-' then do
      let (_, cs) ← fixed? 2 0 23 rest
      let cs ← mark? ':' cs
      let (_, cs) ← fixed? 2 0 59 cs
      return cs
    else some cs
  | [] => some []

/-- A date, a time or both, in which case there may be an offset. -/
def dateTime? (cs : List Char) : Option (List Char) :=
  match date? cs with
  | none => time? cs
  | some afterDate =>
    match afterDate with
    | c :: rest =>
      if c == 'T' || c == 't' || c == ' ' then
        match time? rest with
        | some afterTime => offset? afterTime
        | none => some afterDate
      else some afterDate
    | [] => some []

def scalarValue? (cs : List Char) : Option (Value × List Char) :=
  match cs with
  | 't' :: 'r' :: 'u' :: 'e' :: rest => some (.boolean true, rest)
  | 'f' :: 'a' :: 'l' :: 's' :: 'e' :: rest => some (.boolean false, rest)
  | '"' :: _ | '\'' :: _ => (string? cs).map fun (text, rest) => (.string text, rest)
  | _ => ((dateTime? cs).map fun rest => (.dateTime, rest)).or (number? cs)

end WordExport.Toml
