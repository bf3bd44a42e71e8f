import WordExport.Math.Run
import WordExport.Math.Symbol
import WordExport.Math.Tokenize

set_option autoImplicit false

namespace WordExport.Math

/-- An argument whose content is set as runs. -/
structure RunArgument where
  delimiter : Delimiter
  runs : List Run

/-- The run of a command that is neither a symbol, a line break nor a script marker. One without
the arguments its form asks for is written as its name. -/
def Run.ofCommand (name : String) (arguments : List RunArgument) : Run :=
  if name == "sum" then .sum []
  else if ["frac", "tfrac", "dfrac"].contains name then
    match arguments with
    | [⟨.braces, numerator⟩, ⟨.braces, denominator⟩] => .fraction numerator denominator
    | _ => .text name
  else if name == "sqrt" then
    match arguments with
    | [⟨.braces, body⟩] => .squareRoot body
    | [⟨.brackets, degree⟩, ⟨.braces, body⟩] => .root degree body
    | _ => .text name
  else .text name

/-- The run that a script marker makes of the run before it; without one it makes nothing. -/
def applyScript (script : List Run → List Run → Run) (arguments : List RunArgument) :
    List Run → List Run
  | [] => []
  | base :: earlier => script [base] ((arguments.head?.map RunArgument.runs).getD []) :: earlier

/-- The runs so far, latest first, after a command. -/
def applyCommand (runs : List Run) (name : String) (arguments : List RunArgument) : List Run :=
  match symbol? name with
  | some c => .text (String.singleton c) :: runs
  | none =>
    if name == "\\" || name == "newline" then runs
    else if name == "^" then applyScript .superscript arguments runs
    else if name == "_" then applyScript .subscript arguments runs
    else Run.ofCommand name arguments :: runs

mutual

/-- The runs so far, latest first, after a token. A group adds its own runs one by one; line
breaks and what is no math add nothing. -/
def Token.typeset (runs : List Run) : Token → List Run
  | .char c => .text (String.singleton c) :: runs
  | .command name arguments => applyCommand runs name (typesetArguments arguments)
  | .group body => typesetAll [] body ++ runs
  | _ => runs

def typesetAll (runs : List Run) : List Token → List Run
  | [] => runs
  | token :: tokens => typesetAll (token.typeset runs) tokens

def typesetArguments : List Argument → List RunArgument
  | [] => []
  | ⟨delimiter, content⟩ :: arguments =>
    ⟨delimiter, (typesetAll [] content).reverse⟩ :: typesetArguments arguments

end

/-- The runs of tokens that make one sequence, such as the content of a group. Line breaks in it
add nothing, so a line of `lines` has the runs of its own tokens read this way. -/
def typesetGroup (tokens : List Token) : List Run :=
  (typesetAll [] tokens).reverse

/-- The lines of tokens, the first one going on from the given runs, latest first. -/
def linesFrom (runs : List Run) : List Token → List (List Run)
  | [] => [runs.reverse]
  | token :: tokens =>
    if token.isLineBreak then runs.reverse :: linesFrom [] tokens
    else linesFrom (token.typeset runs) tokens

/-- The lines of math-mode source, at least one. Line breaks count where they stand in no group
and are no argument. -/
def lines (source : String) : List (List Run) :=
  linesFrom [] (tokenize source)

end WordExport.Math
