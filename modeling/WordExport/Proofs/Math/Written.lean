import WordExport.Math.Piece

set_option autoImplicit false

/- How tokens are written in a source. Each is written before the rest of the input that it is part
of, since the closing mark of a verbatim token may be missing only where nothing follows. -/

namespace WordExport.Math

open Text

/-- The name of a command after a backslash, or a script marker. -/
def CommandMark (name : String) (mark : List Char) : Prop :=
  mark = '\\' :: name.toList ∨ (name = "^" ∨ name = "_") ∧ mark = name.toList

/-- What stands around the content of an argument or a group. A closing brace may be missing. -/
inductive Encloses : Delimiter → List Char → List Char → Prop
  | braces : Encloses .braces ['{'] ['}']
  | openBrace : Encloses .braces ['{'] []
  | brackets : Encloses .brackets ['['] [']']
  | bare : Encloses .bare [] []

inductive ShiftMarks : Shift → List Char → List Char → Prop
  | dollar : ShiftMarks .inline ['$'] ['$']
  | parentheses : ShiftMarks .inline ['\\', '('] ['\\', ')']
  | dollars : ShiftMarks .display ['$', '$'] ['$', '$']
  | brackets : ShiftMarks .display ['\\', '['] ['\\', ']']

def environmentBegin (name : String) : List Char :=
  '\\' :: "begin\x7b".toList ++ name.toList ++ ['}']

mutual

/-- `Written rest token text`: before the rest of its input, the token is written as the text. -/
inductive Written : List Char → Token → List Char → Prop
  | char (rest : List Char) (c : Char) : Written rest (.char c) [c]
  | whitespace {rest blanks : List Char} (present : blanks ≠ [])
    (blank : ∀ c ∈ blanks, isBlank c = true) (feeds : blanks.count '\n' < 2) :
    Written rest .whitespace blanks
  | parbreak {rest blanks : List Char} (blank : ∀ c ∈ blanks, isBlank c = true)
    (feeds : 2 ≤ blanks.count '\n') : Written rest .parbreak blanks
  | comment (rest : List Char) (text : String) : Written rest (.comment text) ('%' :: text.toList)
  | command {rest mark text : List Char} {name : String} {args : List Argument}
    (marked : CommandMark name mark) (written : WrittenArguments rest args text) :
    Written rest (.command name args) (mark ++ text)
  | group {rest opening closing text : List Char} {body : List Token}
    (encloses : Encloses .braces opening closing) (written : WrittenAll (closing ++ rest) body text) :
    Written rest (.group body) (opening ++ text ++ closing)
  | environment {rest closing text : List Char} {name : String} {body : List Token}
    (closes : closing = [] ∨ closing = Opener.environmentEnd name)
    (written : WrittenAll (closing ++ rest) body text) :
    Written rest (.environment name body) (environmentBegin name ++ text ++ closing)
  | mathEnvironment {rest closing text : List Char} {name : String} {body : List Token}
    (closes : closing = [] ∨ closing = Opener.environmentEnd name)
    (written : WrittenAll (closing ++ rest) body text) :
    Written rest (.mathEnvironment name body) (environmentBegin name ++ text ++ closing)
  | verbatim {rest closing : List Char} {name content : String}
    (closes : closing = Opener.environmentEnd name ∨ closing = [] ∧ rest = []) :
    Written rest (.verbatim name content) (environmentBegin name ++ content.toList ++ closing)
  | inlineMath {opening closing text : List Char} {body : List Token} (rest : List Char)
    (marks : ShiftMarks .inline opening closing) (written : WrittenAll [] body text) :
    Written rest (.inlineMath body) (opening ++ text ++ closing)
  | displayMath {opening closing text : List Char} {body : List Token} (rest : List Char)
    (marks : ShiftMarks .display opening closing) (written : WrittenAll [] body text) :
    Written rest (.displayMath body) (opening ++ text ++ closing)
  | verb {rest star closing : List Char} {mark : Char} {content : String}
    (starred : star = [] ∨ star = ['*']) (visible : (isAlphabetic mark || isSpace mark) = false)
    (within : mark ∉ content.toList) (closes : closing = [mark] ∨ closing = [] ∧ rest = []) :
    Written rest (.verb content) ("\\verb".toList ++ star ++ mark :: content.toList ++ closing)

/-- Tokens written one after another. -/
inductive WrittenAll : List Char → List Token → List Char → Prop
  | nil (rest : List Char) : WrittenAll rest [] []
  | cons {rest first later : List Char} {token : Token} {tokens : List Token}
    (written : Written (later ++ rest) token first) (following : WrittenAll rest tokens later) :
    WrittenAll rest (token :: tokens) (first ++ later)

/-- An argument, after any blanks and comments. -/
inductive WrittenArgument : List Char → Argument → List Char → Prop
  | mk {rest gap opening closing text : List Char} {trivia content : List Token}
    {delimiter : Delimiter} (skipped : WrittenAll (opening ++ text ++ closing ++ rest) trivia gap)
    (trivial : ∀ token ∈ trivia, token.isTrivia = true)
    (encloses : Encloses delimiter opening closing)
    (written : WrittenAll (closing ++ rest) content text) :
    WrittenArgument rest ⟨delimiter, content⟩ (gap ++ (opening ++ text ++ closing))

inductive WrittenArguments : List Char → List Argument → List Char → Prop
  | nil (rest : List Char) : WrittenArguments rest [] []
  | cons {rest first later : List Char} {argument : Argument} {arguments : List Argument}
    (written : WrittenArgument (later ++ rest) argument first)
    (following : WrittenArguments rest arguments later) :
    WrittenArguments rest (argument :: arguments) (first ++ later)

end

end WordExport.Math
