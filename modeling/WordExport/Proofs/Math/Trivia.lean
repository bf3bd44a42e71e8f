import Mathlib.Logic.Relation
import WordExport.Proofs.Math.Typesetting
import WordExport.Proofs.Math.Unfolding

set_option autoImplicit false

namespace WordExport.Math

mutual

/-- A token without the trivia inside it. -/
def Token.strip : Token → Token
  | .command name arguments => .command name (stripArguments arguments)
  | .group body => .group (stripAll body)
  | .inlineMath body => .inlineMath (stripAll body)
  | .displayMath body => .displayMath (stripAll body)
  | .environment name body => .environment name (stripAll body)
  | .mathEnvironment name body => .mathEnvironment name (stripAll body)
  | token => token

/-- Tokens without trivia, at any depth. -/
def stripAll : List Token → List Token
  | [] => []
  | token :: tokens => if token.isTrivia then stripAll tokens else token.strip :: stripAll tokens

def stripArguments : List Argument → List Argument
  | [] => []
  | ⟨delimiter, content⟩ :: arguments => ⟨delimiter, stripAll content⟩ :: stripArguments arguments

end

def Argument.strip : Argument → Argument
  | ⟨delimiter, content⟩ => ⟨delimiter, stripAll content⟩

variable {token : Token}

theorem stripAll_trivia (trivia : token.isTrivia = true) (tokens : List Token) :
    stripAll (token :: tokens) = stripAll tokens := by
  rw [stripAll, if_pos trivia]

theorem stripAll_cons (significant : token.isTrivia = false) (tokens : List Token) :
    stripAll (token :: tokens) = token.strip :: stripAll tokens := by
  rw [stripAll, if_neg (Bool.eq_false_iff.mp significant)]

theorem Token.strip_isTrivia (token : Token) : token.strip.isTrivia = token.isTrivia := by
  cases token <;> rfl

theorem Token.strip_isChar (c : Char) (token : Token) :
    token.strip.isChar c = token.isChar c := by
  cases token <;> rfl

theorem Token.strip_isLineBreak (token : Token) :
    token.strip.isLineBreak = token.isLineBreak := by
  cases token <;> rfl

/-- What passes over trivia stops at the same place without them. -/
theorem span_stripAll {passes : Token → Bool} (same : ∀ token, passes token.strip = passes token)
    (trivial : ∀ token, token.isTrivia = true → passes token = true) (tokens : List Token) :
    (stripAll tokens).takeWhile passes = stripAll (tokens.takeWhile passes) ∧
      (stripAll tokens).dropWhile passes = stripAll (tokens.dropWhile passes) := by
  induction tokens with
  | nil => exact ⟨rfl, rfl⟩
  | cons token tokens ih =>
    cases trivia : token.isTrivia with
    | true =>
      have passed := trivial token trivia
      rw [stripAll_trivia trivia, List.takeWhile_cons_of_pos passed, stripAll_trivia trivia,
        List.dropWhile_cons_of_pos passed]
      exact ih
    | false =>
      rw [stripAll_cons trivia, List.takeWhile_cons, List.dropWhile_cons, List.takeWhile_cons,
        List.dropWhile_cons, same]
      split
      · rw [stripAll_cons trivia, ih.1, ih.2]
        exact ⟨rfl, rfl⟩
      · rw [stripAll_cons trivia]
        exact ⟨rfl, rfl⟩

theorem Slot.take_optional_stripAll (inside : List Token) :
    Slot.optional.take (stripAll (.char '[' :: inside))
      = (Slot.optional.take (.char '[' :: inside)).map
        fun (argument, rest) => (argument.strip, stripAll rest) := by
  have closing (token : Token) : (!token.strip.isChar ']') = !token.isChar ']' := by
    rw [Token.strip_isChar]
  have passed (token : Token) (trivia : token.isTrivia = true) : (!token.isChar ']') = true := by
    cases token <;> first | rfl | cases trivia
  obtain ⟨content, stopped⟩ := span_stripAll closing passed inside
  have opening : stripAll (.char '[' :: inside) = .char '[' :: stripAll inside := rfl
  rw [opening, take_optional, take_optional, content, stopped]
  cases head : inside.dropWhile (!Token.isChar ']' ·) with
  | nil => rfl
  | cons bracket rest =>
    cases eq_closing_of_dropWhile head
    rfl

theorem Slot.take_stripAll (slot : Slot) (tokens : List Token) :
    slot.take (stripAll tokens)
      = (slot.take tokens).map fun (argument, rest) => (argument.strip, stripAll rest) := by
  have skipped := (span_stripAll Token.strip_isTrivia (fun _ trivia => trivia) tokens).2
  rw [← slot.take_dropWhile (stripAll tokens), skipped, ← slot.take_dropWhile tokens]
  cases head : tokens.dropWhile Token.isTrivia with
  | nil => cases slot <;> rfl
  | cons token after =>
    have significant := isTrivia_eq_false_of_dropWhile head
    cases slot with
    | mandatory => cases token <;> first | rfl | cases significant
    | optional =>
      by_cases opens : token = .char '['
      · rw [opens, take_optional_stripAll]
      · rw [stripAll_cons significant]
        cases token <;> simp_all [Slot.take, Token.strip, Token.isTrivia]

theorem takeArguments_stripAll (slots : List Slot) (tokens : List Token) :
    takeArguments slots (stripAll tokens)
      = (stripArguments (takeArguments slots tokens).1, stripAll (takeArguments slots tokens).2) := by
  induction slots generalizing tokens with
  | nil => rfl
  | cons slot slots ih =>
    rw [takeArguments, takeArguments, slot.take_stripAll]
    cases slot.take tokens with
    | none => exact ih tokens
    | some taken =>
      obtain ⟨⟨delimiter, content⟩, rest⟩ := taken
      simp only [Option.map_some, ih rest]
      rfl

theorem stripAll_attachTo (significant : token.isTrivia = false) (tokens : List Token) :
    stripAll (attachTo tokens token) = attachTo (stripAll tokens) token.strip := by
  have kept := stripAll_cons significant tokens
  cases token with
  | command name arguments =>
    cases arguments with
    | nil =>
      have taken := takeArguments_stripAll (signature name) tokens
      rw [attachTo, stripAll_cons rfl, Token.strip, Token.strip, stripArguments, attachTo, taken]
    | cons argument arguments =>
      cases argument
      exact kept
  | _ => exact kept

mutual

theorem Token.strip_attachInside (token : Token) :
    token.attachInside.strip = token.strip.attachInside := by
  cases token with
  | group body | inlineMath body | displayMath body | environment name body
    | mathEnvironment name body =>
    simp only [Token.attachInside, Token.strip, stripAll_attachArguments body]
  | _ => rfl

/-- Trivia can be left out before arguments are attached or after. -/
theorem stripAll_attachArguments (tokens : List Token) :
    stripAll (attachArguments tokens) = attachArguments (stripAll tokens) := by
  cases tokens with
  | nil => rfl
  | cons token tokens =>
    have later := stripAll_attachArguments tokens
    rw [attachArguments]
    cases trivia : token.isTrivia with
    | true =>
      rw [stripAll_trivia trivia, ← later]
      cases token <;> first | rfl | cases trivia
    | false =>
      have significant : token.attachInside.isTrivia = false := by
        cases token <;> first | rfl | cases trivia
      rw [stripAll_attachTo significant, later, token.strip_attachInside, stripAll_cons trivia,
        attachArguments]

end

theorem Token.typeset_trivia (trivia : token.isTrivia = true) (runs : List Run) :
    token.typeset runs = runs := by
  cases token <;> first | rfl | cases trivia

mutual

theorem Token.typeset_strip (token : Token) (runs : List Run) :
    token.strip.typeset runs = token.typeset runs := by
  cases token with
  | command name arguments =>
    rw [Token.strip, Token.typeset, typesetArguments_stripArguments arguments, Token.typeset]
  | group body => rw [Token.strip, Token.typeset, typesetAll_stripAll body, Token.typeset]
  | _ => rfl

theorem typesetAll_stripAll (tokens : List Token) (runs : List Run) :
    typesetAll runs (stripAll tokens) = typesetAll runs tokens := by
  cases tokens with
  | nil => rfl
  | cons token tokens =>
    have later := typesetAll_stripAll tokens
    rw [typesetAll]
    cases trivia : token.isTrivia with
    | true => rw [stripAll_trivia trivia, Token.typeset_trivia trivia, later]
    | false => rw [stripAll_cons trivia, typesetAll, token.typeset_strip, later]

theorem typesetArguments_stripArguments (arguments : List Argument) :
    typesetArguments (stripArguments arguments) = typesetArguments arguments := by
  match arguments with
  | [] => rfl
  | ⟨delimiter, content⟩ :: arguments =>
    rw [stripArguments, typesetArguments, typesetAll_stripAll content,
      typesetArguments_stripArguments arguments, typesetArguments]

end

theorem linesFrom_stripAll (tokens : List Token) (runs : List Run) :
    linesFrom runs (stripAll tokens) = linesFrom runs tokens := by
  induction tokens generalizing runs with
  | nil => rfl
  | cons token tokens ih =>
    cases trivia : token.isTrivia with
    | true =>
      have onLine : token.isLineBreak = false := by
        cases token <;> first | rfl | cases trivia
      rw [stripAll_trivia trivia, ih, linesFrom, onLine, Token.typeset_trivia trivia]
      rfl
    | false =>
      rw [stripAll_cons trivia, linesFrom, linesFrom, token.strip_isLineBreak, token.typeset_strip,
        ih, ih]

theorem Trims.stripAll_eq {kept full : List Token} (trims : Trims kept full) :
    stripAll kept = stripAll full := by
  induction trims with
  | nil => rfl
  | drop trivia _ ih => rw [stripAll_trivia trivia, ih]
  | keep token _ ih => rw [stripAll, stripAll, ih]
  | inside holds _ _ body later =>
    cases holds <;> rw [stripAll_cons rfl, stripAll_cons rfl, Token.strip, Token.strip, body, later]

/-- The lines of tokens stay the same however trivia are put in and left out, between the tokens
and at any depth inside them. -/
theorem linesFrom_of_edits {tokens edited : List Token} (edits : Relation.EqvGen Trims tokens edited) :
    linesFrom [] (attachArguments edited) = linesFrom [] (attachArguments tokens) := by
  have same : stripAll tokens = stripAll edited := by
    induction edits with
    | rel _ _ trims => exact trims.stripAll_eq
    | refl => rfl
    | symm _ _ _ ih => exact ih.symm
    | trans _ _ _ _ _ first second => exact first.trans second
  calc linesFrom [] (attachArguments edited)
      = linesFrom [] (attachArguments (stripAll edited)) := by
        rw [← stripAll_attachArguments, linesFrom_stripAll]
    _ = linesFrom [] (attachArguments tokens) := by
        rw [← same, ← stripAll_attachArguments, linesFrom_stripAll]

/-- The radical `\sqrt[3]{x^2}` with blanks and comments in two ways, each with one where the
other has none. -/
def blankRadical : List Token :=
  [.command "sqrt" [], .whitespace, .char '[', .comment "degree", .char '3', .char ']',
    .group [.char 'x', .whitespace, .command "^" [], .comment "power", .char '2']]

def commentRadical : List Token :=
  [.comment "root", .command "sqrt" [], .char '[', .char '3', .whitespace, .char ']', .whitespace,
    .group [.char 'x', .command "^" [], .char '2', .comment "end"]]

theorem linesFrom_of_edits_radical :
    Relation.EqvGen Trims blankRadical commentRadical ∧
      linesFrom [] (attachArguments commentRadical)
        = [[.root [.text "3"] [.superscript [.text "x"] [.text "2"]]]] ∧
      linesFrom [] (attachArguments commentRadical) = linesFrom [] (attachArguments blankRadical) := by
  have power : Trims [.char 'x', .command "^" [], .char '2']
      [.char 'x', .whitespace, .command "^" [], .comment "power", .char '2'] :=
    .keep _ (.drop rfl (.keep _ (.drop rfl (.keep _ .nil))))
  have ended : Trims [.char 'x', .command "^" [], .char '2']
      [.char 'x', .command "^" [], .char '2', .comment "end"] :=
    .keep _ (.keep _ (.keep _ (.drop rfl .nil)))
  have blank : Trims [.command "sqrt" [], .char '[', .char '3', .char ']',
      .group [.char 'x', .command "^" [], .char '2']] blankRadical :=
    .keep _ (.drop rfl (.keep _ (.drop rfl (.keep _ (.keep _ (.inside .group power .nil))))))
  have comment : Trims [.command "sqrt" [], .char '[', .char '3', .char ']',
      .group [.char 'x', .command "^" [], .char '2']] commentRadical :=
    .drop rfl (.keep _ (.keep _ (.keep _ (.drop rfl (.keep _ (.drop rfl
      (.inside .group ended .nil)))))))
  have edits : Relation.EqvGen Trims blankRadical commentRadical :=
    .trans _ _ _ (.symm _ _ (.rel _ _ blank)) (.rel _ _ comment)
  exact ⟨edits, rfl, linesFrom_of_edits edits⟩

end WordExport.Math
