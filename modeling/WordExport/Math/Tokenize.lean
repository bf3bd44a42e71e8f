import WordExport.Math.Arguments
import WordExport.Math.Piece

set_option autoImplicit false

/- Math-mode source to tokens. Every source has tokens: a group or environment left open is closed
where its sequence ends, and a closer that closes nothing is an ordinary token. -/

namespace WordExport.Math

/-- A sequence that waits for a nested one to end: what opened the nested one, and the tokens
before it, latest first. -/
structure Frame where
  opener : Opener
  before : List Token

/-- A boundary outside of every sequence: `\end` is a command and a brace a character. -/
def strayCloser? : List Char → Option (Token × List Char)
  | [] => none
  | c :: rest =>
    match "\\end".toList.isPrefixOf? (c :: rest) with
    | some after => some (.command "end" [], after)
    | none => some (.char c, rest)

theorem length_of_strayCloser? {cs rest : List Char} {token : Token}
    (found : strayCloser? cs = some (token, rest)) : rest.length < cs.length := by
  cases cs with
  | nil => simp [strayCloser?] at found
  | cons c tail =>
    simp only [strayCloser?] at found
    split at found <;> simp only [Option.some.injEq, Prod.mk.injEq] at found
    · next after head =>
      have := Text.length_of_isPrefixOf? head
      simp only [← found.2, this, String.reduceToList, List.length_cons, List.length_nil]
      omega
    · simp [← found.2]

/-- Reads a source inside the given frames, after the given tokens, latest first. The content of a
math shift is tokenized on its own, arguments included. -/
def scan (frames : List Frame) (before : List Token) (cs : List Char) : List Token :=
  match _found : piece cs with
  | .token token rest => scan frames (token :: before) rest
  | .opener opener rest => scan (⟨opener, before⟩ :: frames) [] rest
  | .shift shift content rest =>
    scan frames (shift.token (attachArguments (scan [] [] content)) :: before) rest
  | .boundary =>
    match frames with
    | frame :: outer =>
      scan outer (frame.opener.token before.reverse :: frame.before) (frame.opener.dropCloser cs)
    | [] =>
      match _stray : strayCloser? cs with
      | some (token, rest) => scan [] (token :: before) rest
      | none => before.reverse
termination_by 2 * cs.length + frames.length
decreasing_by
  all_goals
    have below := piece_below cs
    try simp only [_found, Piece.Below] at below
  · omega
  · simp only [List.length_cons]
    omega
  · simp only [List.length_nil]
    omega
  · omega
  · have := frame.opener.length_dropCloser_le cs
    simp only [List.length_cons]
    omega
  · have := length_of_strayCloser? _stray
    omega

/-- The tokens of a source, with the arguments of its commands attached. -/
def tokenize (source : String) : List Token :=
  attachArguments (scan [] [] source.toList)

end WordExport.Math
