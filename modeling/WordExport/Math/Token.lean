set_option autoImplicit false

namespace WordExport.Math

/-- What an argument stands between: `{` and `}`, `[` and `]`, or nothing. -/
inductive Delimiter where
  | braces
  | brackets
  | bare
  deriving DecidableEq, Repr

mutual

/-- A token of math-mode source. Groups, environments and math shifts hold the tokens inside them,
and a command the arguments attached to it. -/
inductive Token where
  | char (c : Char)
  | whitespace
  | parbreak
  | comment (text : String)
  | command (name : String) (args : List Argument)
  | environment (name : String) (body : List Token)
  | mathEnvironment (name : String) (body : List Token)
  | verbatim (name content : String)
  | inlineMath (body : List Token)
  | displayMath (body : List Token)
  | group (body : List Token)
  | verb (content : String)

inductive Argument where
  | mk (delimiter : Delimiter) (content : List Token)

end

namespace Argument

def delimiter : Argument → Delimiter
  | mk delimiter _ => delimiter

def content : Argument → List Token
  | mk _ content => content

end Argument

namespace Token

/-- Tokens that may stand between a command and its arguments. -/
def isTrivia : Token → Bool
  | whitespace | comment _ => true
  | _ => false

/-- The commands `\\` and `\newline`, which end a line. -/
def isLineBreak : Token → Bool
  | command name _ => name == "\\" || name == "newline"
  | _ => false

end Token

end WordExport.Math
