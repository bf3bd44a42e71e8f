import WordExport.Math.Token

set_option autoImplicit false

namespace WordExport.Math

/-- One place for an argument in the signature of a command. -/
inductive Slot where
  | mandatory
  | optional
  deriving DecidableEq, Repr

def signature (name : String) : List Slot :=
  if ["^", "_", "hat", "widehat"].contains name then [.mandatory]
  else if ["frac", "tfrac", "dfrac"].contains name then [.mandatory, .mandatory]
  else if name == "sqrt" then [.optional, .mandatory]
  else []

def Token.isChar (c : Char) : Token → Bool
  | char d => c == d
  | _ => false

namespace Slot

/-- A mandatory argument is the next token that is no trivia, without its braces if it is a group.
An optional one stands between brackets, the closing one being the first that follows. Trivia
before an argument goes with it; where there is no argument nothing is taken. -/
def take (slot : Slot) (tokens : List Token) : Option (Argument × List Token) :=
  match slot, tokens.dropWhile Token.isTrivia with
  | mandatory, .group body :: rest => some (⟨.braces, body⟩, rest)
  | mandatory, token :: rest => some (⟨.bare, [token]⟩, rest)
  | optional, .char '[' :: inside =>
    match inside.dropWhile (!Token.isChar ']' ·) with
    | _ :: rest => some (⟨.brackets, inside.takeWhile (!Token.isChar ']' ·)⟩, rest)
    | [] => none
  | _, _ => none

end Slot

/-- Fills the slots in order; one that finds no argument is passed over. -/
def takeArguments : List Slot → List Token → List Argument × List Token
  | [], tokens => ([], tokens)
  | slot :: slots, tokens =>
    match slot.take tokens with
    | some (argument, rest) =>
      let (arguments, rest) := takeArguments slots rest
      (argument :: arguments, rest)
    | none => takeArguments slots tokens

/-- Puts a token in front of tokens whose arguments are attached, attaching its own. -/
def attachTo (tokens : List Token) : Token → List Token
  | .command name [] =>
    let (arguments, rest) := takeArguments (signature name) tokens
    .command name arguments :: rest
  | token => token :: tokens

mutual

/-- Attaches arguments inside a token. Those a command already holds are left as they are. -/
def Token.attachInside : Token → Token
  | .group body => .group (attachArguments body)
  | .inlineMath body => .inlineMath (attachArguments body)
  | .displayMath body => .displayMath (attachArguments body)
  | .environment name body => .environment name (attachArguments body)
  | .mathEnvironment name body => .mathEnvironment name (attachArguments body)
  | token => token

/-- Attaches arguments from right to left, so that a command taken as an argument has its own. -/
def attachArguments : List Token → List Token
  | [] => []
  | token :: tokens => attachTo (attachArguments tokens) token.attachInside

end

end WordExport.Math
