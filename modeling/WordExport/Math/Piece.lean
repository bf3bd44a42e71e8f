import WordExport.Math.Token
import WordExport.Text.Numeric
import WordExport.Text.Space
import WordExport.Text.Split

set_option autoImplicit false

/- What stands at the head of math-mode source: a whole token, the opening of a group or of an
environment, a math shift with its content still unread, or the end of the sequence. -/

namespace WordExport.Math

open Text

/-- Environments whose body is kept as it is written. -/
def verbatimNames : List String := ["verbatim", "verbatim*", "lstlisting", "comment"]

/-- Environments that are math in their own right. -/
def mathNames : List String := [
  "equation", "equation*", "align", "align*", "aligned", "gather", "gather*", "multline",
  "multline*", "split", "eqnarray", "cases", "array", "matrix", "pmatrix", "bmatrix",
  "Bmatrix", "vmatrix", "Vmatrix", "smallmatrix"]

/-- What a nested sequence of tokens was opened by. -/
inductive Opener where
  | group
  | environment (name : String)

/-- A math shift: inline or displayed. -/
inductive Shift where
  | inline
  | display

inductive Piece where
  | token (token : Token) (rest : List Char)
  | opener (opener : Opener) (rest : List Char)
  | shift (shift : Shift) (content rest : List Char)
  | boundary

namespace Opener

/-- The text that closes an environment. -/
def environmentEnd (name : String) : List Char :=
  "\\end\x7b".toList ++ name.toList ++ ['}']

/-- The closing text of a sequence is dropped where it stands. -/
def dropCloser (opener : Opener) (cs : List Char) : List Char :=
  let closer := match opener with
    | group => ['}']
    | environment name => environmentEnd name
  (closer.isPrefixOf? cs).getD cs

def token (opener : Opener) (body : List Token) : Token :=
  match opener with
  | group => .group body
  | environment name =>
    if mathNames.contains name then .mathEnvironment name body else .environment name body

theorem length_dropCloser_le (opener : Opener) (cs : List Char) :
    (opener.dropCloser cs).length ≤ cs.length := by
  simp only [dropCloser]
  cases found : List.isPrefixOf? _ cs with
  | none => simp
  | some rest =>
    have := length_of_isPrefixOf? found
    simp only [Option.getD_some]
    omega

end Opener

namespace Shift

def token (shift : Shift) (body : List Token) : Token :=
  match shift with
  | inline => .inlineMath body
  | display => .displayMath body

end Shift

/-- A comment runs to the end of its line. Where the first line ending after the sign is a
carriage return without a line feed, the sign is an ordinary character. -/
def commentPiece (rest : List Char) : Piece :=
  let inLine := fun c => c != '\n' && c != '\r'
  match rest.dropWhile inLine with
  | '\r' :: '\n' :: after =>
    .token (.comment (String.ofList (rest.takeWhile inLine))) ('\r' :: '\n' :: after)
  | '\r' :: _ => .token (.char '%') rest
  | after => .token (.comment (String.ofList (rest.takeWhile inLine))) after

/-- A run of blanks is a paragraph break when it holds two line feeds. -/
def blankPiece (cs : List Char) : Piece :=
  let token := if 2 ≤ (cs.takeWhile isBlank).count '\n' then Token.parbreak else .whitespace
  .token token (cs.dropWhile isBlank)

def isNameChar (c : Char) : Bool :=
  isAlphanumeric c || c == '*'

/-- An environment, after its backslash. A verbatim one that is never closed runs to the end. -/
def environmentPiece? (cs : List Char) : Option Piece := do
  let afterBegin ← "begin\x7b".toList.isPrefixOf? cs
  let name := String.ofList (afterBegin.takeWhile isNameChar)
  match afterBegin.dropWhile isNameChar with
  | '}' :: rest =>
    if name.isEmpty then none
    else if verbatimNames.contains name then
      let (content, after) := (splitAtFirst (Opener.environmentEnd name) rest).getD (rest, [])
      some (.token (.verbatim name (String.ofList content)) after)
    else some (.opener (.environment name) rest)
  | _ => none

/-- A verbatim span, after its backslash: it is delimited by any one character that is neither
alphabetic nor a space, and runs to the end where the second delimiter is missing. -/
def verbPiece? (cs : List Char) : Option Piece := do
  let afterName ← "verb".toList.isPrefixOf? cs
  match (['*'].isPrefixOf? afterName).getD afterName with
  | mark :: rest =>
    if isAlphabetic mark || isSpace mark then none
    else
      let (content, after) := (splitAtFirst [mark] rest).getD (rest, [])
      some (.token (.verb (String.ofList content)) after)
  | [] => none

/-- A math shift between two marks ends at the first occurrence of the closing one. -/
def shiftPiece? (shift : Shift) (opening closing cs : List Char) : Option Piece := do
  let inside ← opening.isPrefixOf? cs
  let (content, rest) ← splitAtFirst closing inside
  return .shift shift content rest

/-- A control sequence, after its backslash: a word of ASCII letters or one character of any
kind. A backslash that ends the source is an ordinary character. -/
def controlPiece (cs : List Char) : Piece :=
  match cs.takeWhile Char.isAlpha, cs with
  | [], [] => .token (.char '\\') []
  | [], c :: rest => .token (.command (String.singleton c) []) rest
  | word, _ => .token (.command (String.ofList word) []) (cs.dropWhile Char.isAlpha)

def backslashPiece (cs : List Char) : Piece :=
  if "end\x7b".toList.isPrefixOf cs then .boundary
  else
    let found := (environmentPiece? cs).or <| (verbPiece? cs).or <|
      (shiftPiece? .display ['['] ['\\', ']'] cs).or <|
      shiftPiece? .inline ['('] ['\\', ')'] cs
    found.getD (controlPiece cs)

def dollarPiece (cs : List Char) : Piece :=
  ((shiftPiece? .display ['$'] ['$', '$'] cs).or (shiftPiece? .inline [] ['$'] cs)).getD
    (.token (.char '$') cs)

/-- The piece at the head of a source. A closing brace, `\end` with its brace and the end of the
source are boundaries. -/
def piece : List Char → Piece
  | [] => .boundary
  | '}' :: _ => .boundary
  | '%' :: rest => commentPiece rest
  | '{' :: rest => .opener .group rest
  | '\\' :: rest => backslashPiece rest
  | '$' :: rest => dollarPiece rest
  | '^' :: rest => .token (.command "^" []) rest
  | '_' :: rest => .token (.command "_" []) rest
  | c :: rest => if isBlank c then blankPiece (c :: rest) else .token (.char c) rest

/-- All that a piece leaves to be read has fewer than `bound` characters. -/
def Piece.Below (bound : Nat) : Piece → Prop
  | token _ rest => rest.length < bound
  | opener _ rest => rest.length < bound
  | shift _ content rest => content.length < bound ∧ rest.length < bound
  | boundary => True

theorem commentPiece_below (rest : List Char) : (commentPiece rest).Below (rest.length + 1) := by
  have shorter := length_dropWhile_le (fun c => c != '\n' && c != '\r') rest
  simp only [commentPiece]
  split
  · next found => rw [found] at shorter; exact Nat.lt_succ_of_le shorter
  · exact Nat.lt_succ_self _
  · exact Nat.lt_succ_of_le shorter

theorem blankPiece_below {c : Char} (rest : List Char) (blank : isBlank c = true) :
    (blankPiece (c :: rest)).Below (rest.length + 1) := by
  simp only [blankPiece, List.dropWhile_cons, blank, if_true, Piece.Below]
  exact Nat.lt_succ_of_le (length_dropWhile_le _ _)

theorem environmentPiece?_below {cs : List Char} {piece : Piece}
    (found : environmentPiece? cs = some piece) : piece.Below (cs.length + 1) := by
  simp only [environmentPiece?, bind, Option.bind_eq_some_iff] at found
  obtain ⟨afterBegin, head, found⟩ := found
  have short := length_of_isPrefixOf? head
  have shorter := length_dropWhile_le isNameChar afterBegin
  split at found
  · next rest named =>
    rw [named, List.length_cons] at shorter
    split at found
    · simp at found
    · split at found
      · cases cut : splitAtFirst (Opener.environmentEnd
          (String.ofList (afterBegin.takeWhile isNameChar))) rest with
        | none =>
          simp only [cut, Option.getD_none, Option.some.injEq] at found
          subst found
          exact Nat.succ_pos _
        | some parts =>
          have := length_of_splitAtFirst cut
          simp only [cut, Option.getD_some, Option.some.injEq] at found
          subst found
          simp only [Piece.Below]
          omega
      · simp only [Option.some.injEq] at found
        subst found
        simp only [Piece.Below]
        omega
  · simp at found

theorem verbPiece?_below {cs : List Char} {piece : Piece}
    (found : verbPiece? cs = some piece) : piece.Below (cs.length + 1) := by
  simp only [verbPiece?, bind, Option.bind_eq_some_iff] at found
  obtain ⟨afterName, head, found⟩ := found
  have short := length_of_isPrefixOf? head
  have star : ((['*'].isPrefixOf? afterName).getD afterName).length ≤ afterName.length := by
    cases starred : List.isPrefixOf? ['*'] afterName with
    | none => simp
    | some rest =>
      have := length_of_isPrefixOf? starred
      simp only [Option.getD_some]
      omega
  split at found
  · next mark rest marked =>
    rw [marked, List.length_cons] at star
    split at found
    · simp at found
    · cases cut : splitAtFirst [mark] rest with
      | none =>
        simp only [cut, Option.getD_none, Option.some.injEq] at found
        subst found
        exact Nat.succ_pos _
      | some parts =>
        have := length_of_splitAtFirst cut
        simp only [cut, Option.getD_some, Option.some.injEq] at found
        subst found
        simp only [Piece.Below]
        omega
  · simp at found

theorem shiftPiece?_below {shift : Shift} {opening closing cs : List Char} {piece : Piece}
    (found : shiftPiece? shift opening closing cs = some piece) : piece.Below (cs.length + 1) := by
  simp only [shiftPiece?, bind, Option.bind_eq_some_iff] at found
  obtain ⟨inside, head, ⟨content, rest⟩, cut, found⟩ := found
  have short := length_of_isPrefixOf? head
  have := length_of_splitAtFirst cut
  simp only [pure, Option.some.injEq] at found
  subst found
  simp only [Piece.Below]
  omega

theorem controlPiece_below (cs : List Char) : (controlPiece cs).Below (cs.length + 1) := by
  simp only [controlPiece]
  split
  · exact Nat.lt_succ_self _
  · exact Nat.lt_succ_of_le (Nat.le_succ _)
  · exact Nat.lt_succ_of_le (length_dropWhile_le _ _)

theorem getD_below {found : Option Piece} {fallback : Piece} {bound : Nat}
    (some_below : ∀ piece, found = some piece → piece.Below bound)
    (fallback_below : fallback.Below bound) : (found.getD fallback).Below bound := by
  cases found with
  | none => exact fallback_below
  | some piece => exact some_below piece rfl

theorem backslashPiece_below (cs : List Char) : (backslashPiece cs).Below (cs.length + 1) := by
  simp only [backslashPiece]
  split
  · trivial
  · apply getD_below _ (controlPiece_below cs)
    intro piece found
    simp only [Option.or_eq_some_iff] at found
    rcases found with found | ⟨-, found | ⟨-, found | ⟨-, found⟩⟩⟩
    · exact environmentPiece?_below found
    · exact verbPiece?_below found
    · exact shiftPiece?_below found
    · exact shiftPiece?_below found

theorem dollarPiece_below (cs : List Char) : (dollarPiece cs).Below (cs.length + 1) := by
  apply getD_below _ (Nat.lt_succ_self _)
  intro piece found
  simp only [Option.or_eq_some_iff] at found
  rcases found with found | ⟨-, found⟩ <;> exact shiftPiece?_below found

/-- A piece takes at least one character. -/
theorem piece_below (cs : List Char) : (piece cs).Below cs.length := by
  unfold piece
  split
  · trivial
  · trivial
  · exact commentPiece_below _
  · exact Nat.lt_succ_self _
  · exact backslashPiece_below _
  · exact dollarPiece_below _
  · exact Nat.lt_succ_self _
  · exact Nat.lt_succ_self _
  · split
    · next blank => exact blankPiece_below _ blank
    · exact Nat.lt_succ_self _

end WordExport.Math
