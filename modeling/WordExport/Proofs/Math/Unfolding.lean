import WordExport.Proofs.Math.InPlace

set_option autoImplicit false

namespace WordExport.Math

/-- The tokens of an argument with the given content. -/
def Delimiter.around : Delimiter → List Token → List Token
  | braces, content => [.group content]
  | brackets, content => .char '[' :: content ++ [.char ']']
  | bare, content => content

mutual

/-- Tokens in which every command stands bare, the arguments it had following it. -/
def Token.unfold : Token → List Token
  | .command name arguments => .command name [] :: unfoldArguments arguments
  | .group body => [.group (unfoldAll body)]
  | .inlineMath body => [.inlineMath (unfoldAll body)]
  | .displayMath body => [.displayMath (unfoldAll body)]
  | .environment name body => [.environment name (unfoldAll body)]
  | .mathEnvironment name body => [.mathEnvironment name (unfoldAll body)]
  | token => [token]

def unfoldAll : List Token → List Token
  | [] => []
  | token :: tokens => token.unfold ++ unfoldAll tokens

def unfoldArguments : List Argument → List Token
  | [] => []
  | ⟨delimiter, content⟩ :: arguments =>
    delimiter.around (unfoldAll content) ++ unfoldArguments arguments

end

inductive Holds : (List Token → Token) → Prop
  | group : Holds .group
  | inlineMath : Holds .inlineMath
  | displayMath : Holds .displayMath
  | environment (name : String) : Holds (.environment name)
  | mathEnvironment (name : String) : Holds (.mathEnvironment name)

/-- Tokens that hold neither tokens nor arguments. -/
def Token.isPlain : Token → Bool
  | .char _ | .whitespace | .parbreak | .comment _ | .verbatim _ _ | .verb _ => true
  | _ => false

theorem Token.isPlain_of_isTrivia {token : Token} (trivia : token.isTrivia = true) :
    token.isPlain = true := by
  cases token <;> first | rfl | cases trivia

mutual

/-- What a token unfolds to, but for trivia in front of arguments. -/
inductive Loose : Token → List Token → Prop
  | plain {token : Token} (plain : token.isPlain = true) : Loose token [token]
  | holding {wrap : List Token → Token} {body flat : List Token} (holds : Holds wrap)
    (inside : LooseAll body flat) : Loose (wrap body) [wrap flat]
  | command {name : String} {arguments : List Argument} {flat : List Token}
    (following : LooseArguments arguments flat) :
    Loose (.command name arguments) (.command name [] :: flat)

inductive LooseAll : List Token → List Token → Prop
  | nil : LooseAll [] []
  | cons {token : Token} {tokens first later : List Token} (head : Loose token first)
    (tail : LooseAll tokens later) : LooseAll (token :: tokens) (first ++ later)

/-- Each argument follows its command, or the argument before it, after a gap of trivia. -/
inductive LooseArguments : List Argument → List Token → Prop
  | nil : LooseArguments [] []
  | cons {delimiter : Delimiter} {content gap flat later : List Token} {arguments : List Argument}
    (trivia : ∀ token ∈ gap, token.isTrivia = true) (inside : LooseAll content flat)
    (following : LooseArguments arguments later) :
    LooseArguments (⟨delimiter, content⟩ :: arguments) (gap ++ delimiter.around flat ++ later)

end

namespace LooseAll

variable {tokens following first later : List Token}

theorem single {token : Token} (loose : Loose token first) : LooseAll [token] first := by
  simpa only [List.append_nil] using LooseAll.cons loose .nil

theorem append (loose : LooseAll tokens first) (next : LooseAll following later) :
    LooseAll (tokens ++ following) (first ++ later) := by
  induction tokens generalizing first with
  | nil =>
    cases loose
    exact next
  | cons token tokens ih =>
    cases loose with
    | cons head tail =>
      rw [List.append_assoc]
      exact .cons head (ih tail)

theorem split {flat : List Token} (loose : LooseAll (tokens ++ following) flat) :
    ∃ first later, flat = first ++ later ∧ LooseAll tokens first ∧ LooseAll following later := by
  induction tokens generalizing flat with
  | nil => exact ⟨[], flat, rfl, .nil, loose⟩
  | cons token tokens ih =>
    cases loose with
    | cons head tail =>
      obtain ⟨first, later, rfl, tokens, following⟩ := ih tail
      exact ⟨_ ++ first, later, (List.append_assoc ..).symm, .cons head tokens, following⟩

end LooseAll

theorem Loose.eq_of_isPlain {token : Token} {flat : List Token} (plain : token.isPlain = true)
    (loose : Loose token flat) : flat = [token] := by
  cases loose with
  | plain => rfl
  | holding holds => cases holds <;> cases plain
  | command => cases plain

theorem Loose.of_holds {wrap : List Token → Token} (holds : Holds wrap) {body flat : List Token}
    (loose : Loose (wrap body) flat) : ∃ inside, flat = [wrap inside] ∧ LooseAll body inside := by
  generalize same : wrap body = token at loose
  cases loose with
  | plain plain =>
    subst same
    cases holds <;> cases plain
  | holding holds' inside =>
    cases holds <;> cases holds' <;> cases same <;> exact ⟨_, rfl, inside⟩
  | command => cases holds <;> cases same

theorem Loose.of_command {name : String} {arguments : List Argument} {flat : List Token}
    (loose : Loose (.command name arguments) flat) :
    ∃ following, flat = .command name [] :: following ∧ LooseArguments arguments following := by
  generalize same : Token.command name arguments = token at loose
  cases loose with
  | plain plain =>
    subst same
    cases plain
  | holding holds => cases holds <;> cases same
  | command following =>
    cases same
    exact ⟨_, rfl, following⟩

theorem LooseAll.eq_of_isPlain {tokens flat : List Token}
    (plain : ∀ token ∈ tokens, token.isPlain = true) (loose : LooseAll tokens flat) :
    flat = tokens := by
  induction tokens generalizing flat with
  | nil =>
    cases loose
    rfl
  | cons token tokens ih =>
    obtain ⟨first, rest⟩ := List.forall_mem_cons.mp plain
    cases loose with
    | cons head tail =>
      rw [head.eq_of_isPlain first, ih rest tail]
      rfl

theorem LooseAll.bracketed {inside after flat : List Token}
    (loose : LooseAll (.char '[' :: inside ++ .char ']' :: after) flat) :
    ∃ content later, flat = Delimiter.brackets.around content ++ later ∧
      LooseAll inside content ∧ LooseAll after later := by
  cases loose with
  | cons opening inner =>
    obtain ⟨content, _, rfl, between, outer⟩ := inner.split
    cases outer with
    | @cons _ _ _ later bracket following =>
      rw [opening.eq_of_isPlain rfl, bracket.eq_of_isPlain rfl]
      have cut := List.append_assoc (.char '[' :: content) [.char ']'] later
      exact ⟨content, later, cut.symm, between, following⟩

/-- A slot takes the tokens of its argument, and trivia before them, off the front. -/
theorem Slot.take_loose {slot : Slot} {tokens remaining flat : List Token} {argument : Argument}
    (found : slot.take tokens = some (argument, remaining)) (loose : LooseAll tokens flat) :
    ∃ first later, flat = first ++ later ∧ LooseArguments [argument] first ∧
      LooseAll remaining later := by
  rw [← List.takeWhile_append_dropWhile (p := Token.isTrivia) (l := tokens)] at loose
  obtain ⟨gap, significant, rfl, skipped, loose⟩ := loose.split
  have trivia : ∀ token ∈ tokens.takeWhile Token.isTrivia, token.isTrivia = true :=
    fun _ => List.mem_takeWhile_imp
  rw [skipped.eq_of_isPlain fun token mem => Token.isPlain_of_isTrivia (trivia token mem)]
  have takes := Slot.take_takes found
  generalize tokens.dropWhile Token.isTrivia = behind at takes loose
  -- An argument unfolds after the trivia that were skipped.
  have argue {delimiter : Delimiter} {content inside later : List Token}
      (cut : significant = delimiter.around inside ++ later) (inner : LooseAll content inside)
      (following : LooseAll remaining later) :
      ∃ first later, tokens.takeWhile Token.isTrivia ++ significant = first ++ later ∧
        LooseArguments [⟨delimiter, content⟩] first ∧ LooseAll remaining later := by
    subst cut
    refine ⟨_, later, ?_, .cons trivia inner .nil, following⟩
    rw [List.append_nil, List.append_assoc]
  cases takes with
  | group body =>
    cases loose with
    | cons group following =>
      obtain ⟨inside, rfl, inner⟩ := group.of_holds .group
      exact argue rfl inner following
  | bare token =>
    cases loose with
    | cons bare following =>
      have around : ∀ flat, Delimiter.bare.around flat = flat := fun _ => rfl
      exact argue (by rw [around]) (.single bare) following
  | brackets inside =>
    obtain ⟨content, later, cut, inner, following⟩ := loose.bracketed
    exact argue cut inner following

theorem takeArguments_loose (slots : List Slot) {tokens flat : List Token}
    (loose : LooseAll tokens flat) :
    ∃ first later, flat = first ++ later ∧ LooseArguments (takeArguments slots tokens).1 first ∧
      LooseAll (takeArguments slots tokens).2 later := by
  induction slots generalizing tokens flat with
  | nil => exact ⟨[], flat, rfl, .nil, loose⟩
  | cons slot slots ih =>
    rw [takeArguments]
    split
    · next argument remaining found =>
      obtain ⟨_, _, rfl, head, loose⟩ := Slot.take_loose found loose
      obtain ⟨second, later, rfl, arguments, remains⟩ := ih loose
      cases head with
      | cons trivia inside none =>
        cases none
        refine ⟨_, later, ?_, .cons trivia inside arguments, remains⟩
        simp only [List.append_nil, List.append_assoc]
    · exact ih loose

theorem attachTo_loose {token : Token} {tokens first later : List Token}
    (head : Loose token first) (loose : LooseAll tokens later) :
    LooseAll (attachTo tokens token) (first ++ later) := by
  unfold attachTo
  split
  · next name =>
    obtain ⟨_, rfl, none⟩ := head.of_command
    cases none
    obtain ⟨taken, remaining, rfl, arguments, remains⟩ :=
      takeArguments_loose (signature name) loose
    have filled : Loose (.command name (takeArguments (signature name) tokens).1)
        (.command name [] :: taken) := .command arguments
    have attached := LooseAll.cons filled remains
    exact attached
  · exact .cons head loose

mutual

theorem attachInside_loose (token : Token) {flat : List Token} (loose : Loose token flat) :
    Loose token.attachInside flat := by
  cases token with
  | group body | inlineMath body | displayMath body | environment name body
    | mathEnvironment name body =>
    obtain ⟨inside, rfl, inner⟩ := loose.of_holds (by constructor)
    exact .holding (by constructor) (attachArguments_loose body inner)
  | _ => exact loose

theorem attachArguments_loose (tokens : List Token) {flat : List Token}
    (loose : LooseAll tokens flat) : LooseAll (attachArguments tokens) flat := by
  cases tokens with
  | nil => exact loose
  | cons token tokens =>
    cases loose with
    | cons head tail =>
      exact attachTo_loose (attachInside_loose token head) (attachArguments_loose tokens tail)

end

mutual

theorem Token.loose_unfold (token : Token) : Loose token token.unfold := by
  cases token with
  | command name arguments => exact .command (looseArguments_unfold arguments)
  | group body | inlineMath body | displayMath body | environment name body
    | mathEnvironment name body => exact .holding (by constructor) (looseAll_unfold body)
  | _ => exact .plain rfl

theorem looseAll_unfold (tokens : List Token) : LooseAll tokens (unfoldAll tokens) := by
  cases tokens with
  | nil => exact .nil
  | cons token tokens => exact .cons token.loose_unfold (looseAll_unfold tokens)

theorem looseArguments_unfold (arguments : List Argument) :
    LooseArguments arguments (unfoldArguments arguments) := by
  match arguments with
  | [] => exact .nil
  | ⟨delimiter, content⟩ :: arguments =>
    exact .cons (List.forall_mem_nil _) (looseAll_unfold content) (looseArguments_unfold arguments)

end

/-- Tokens less some trivia, at any depth. -/
inductive Trims : List Token → List Token → Prop
  | nil : Trims [] []
  | drop {token : Token} {kept full : List Token} (trivia : token.isTrivia = true)
    (rest : Trims kept full) : Trims kept (token :: full)
  | keep {kept full : List Token} (token : Token) (rest : Trims kept full) :
    Trims (token :: kept) (token :: full)
  | inside {wrap : List Token → Token} {body whole kept full : List Token} (holds : Holds wrap)
    (trims : Trims body whole) (rest : Trims kept full) :
    Trims (wrap body :: kept) (wrap whole :: full)

namespace Trims

variable {kept full kept' full' : List Token}

theorem append (trims : Trims kept full) (trims' : Trims kept' full') :
    Trims (kept ++ kept') (full ++ full') := by
  induction trims with
  | nil => exact trims'
  | drop trivia _ ih => exact .drop trivia ih
  | keep token _ ih => exact .keep token ih
  | inside holds trims _ _ ih => exact .inside holds trims ih

theorem gap {gap : List Token} (trivia : ∀ token ∈ gap, token.isTrivia = true)
    (trims : Trims kept full) : Trims kept (gap ++ full) := by
  induction gap with
  | nil => exact trims
  | cons token gap ih =>
    obtain ⟨first, rest⟩ := List.forall_mem_cons.mp trivia
    exact .drop first (ih rest)

theorem around (delimiter : Delimiter) (trims : Trims kept full) :
    Trims (delimiter.around kept) (delimiter.around full) := by
  cases delimiter with
  | braces => exact .inside .group trims .nil
  | brackets => exact .keep _ (trims.append (.keep _ .nil))
  | bare => exact trims

end Trims

mutual

theorem Token.trims_of_loose (token : Token) {flat : List Token} (loose : Loose token flat) :
    Trims token.unfold flat := by
  cases token with
  | command name arguments =>
    obtain ⟨following, rfl, inner⟩ := loose.of_command
    exact .keep _ (trimsArguments_of_loose arguments inner)
  | group body | inlineMath body | displayMath body | environment name body
    | mathEnvironment name body =>
    obtain ⟨inside, rfl, inner⟩ := loose.of_holds (by constructor)
    exact .inside (by constructor) (trimsAll_of_loose body inner) .nil
  | _ =>
    rw [loose.eq_of_isPlain rfl]
    exact .keep _ .nil

theorem trimsAll_of_loose (tokens : List Token) {flat : List Token}
    (loose : LooseAll tokens flat) : Trims (unfoldAll tokens) flat := by
  cases tokens with
  | nil =>
    cases loose
    exact .nil
  | cons token tokens =>
    cases loose with
    | cons head tail =>
      exact (token.trims_of_loose head).append (trimsAll_of_loose tokens tail)

theorem trimsArguments_of_loose (arguments : List Argument) {flat : List Token}
    (loose : LooseArguments arguments flat) : Trims (unfoldArguments arguments) flat := by
  match arguments with
  | [] =>
    cases loose
    exact .nil
  | ⟨delimiter, content⟩ :: arguments =>
    cases loose with
    | cons trivia inside following =>
      have content := (trimsAll_of_loose content inside).around delimiter
      exact (content.gap trivia).append (trimsArguments_of_loose arguments following)

end

/-- Attaching arguments looks at no position outside of its list. The tokens unfold to what they
unfolded to before, less trivia, all of which stood in front of an argument: between it and its
command or the argument before it. -/
theorem attachArguments_unfolds (tokens : List Token) :
    attachInPlace? tokens = some (attachArguments tokens)
      ∧ LooseAll (attachArguments tokens) (unfoldAll tokens)
      ∧ Trims (unfoldAll (attachArguments tokens)) (unfoldAll tokens) := by
  have loose := attachArguments_loose tokens (looseAll_unfold tokens)
  exact ⟨attachInPlace?_eq tokens, loose, trimsAll_of_loose _ loose⟩

end WordExport.Math
