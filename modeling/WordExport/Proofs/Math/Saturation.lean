import WordExport.Proofs.Math.Unfolding

set_option autoImplicit false

namespace WordExport.Math

variable {slot : Slot} {tokens part rest row : List Token} {argument : Argument} {token : Token}

theorem takeArguments_eq_of_nil {slots : List Slot} (none : (takeArguments slots tokens).1 = []) :
    takeArguments slots tokens = ([], tokens) := by
  induction slots with
  | nil => rfl
  | cons slot slots ih =>
    rw [takeArguments] at none ⊢
    split at none
    · cases none
    · exact ih none

/-- A token that is put in front takes its arguments off the tokens, and leaves the rest of them. -/
theorem attachTo_eq_cons (tokens : List Token) (token : Token) :
    ∃ first rest, attachTo tokens token = first :: rest ∧ rest <:+ tokens := by
  unfold attachTo
  split
  · next name => exact ⟨_, _, rfl, takeArguments_suffix (signature name) tokens⟩
  · exact ⟨_, _, rfl, List.suffix_refl tokens⟩

theorem length_attachArguments_le (tokens : List Token) :
    (attachArguments tokens).length ≤ tokens.length := by
  induction tokens with
  | nil => exact Nat.le_refl 0
  | cons token tokens ih =>
    obtain ⟨first, rest, attached, suffix⟩ :=
      attachTo_eq_cons (attachArguments tokens) token.attachInside
    have shorter := suffix.length_le
    rw [attachArguments, attached, List.length_cons, List.length_cons]
    omega

/-- Tokens that the pass leaves as they are stay so without the first of them: an argument taken
behind it would have made the list shorter. -/
theorem attachArguments_eq_tail (settled : attachArguments (token :: tokens) = token :: tokens) :
    attachArguments tokens = tokens := by
  obtain ⟨first, rest, attached, suffix⟩ :=
    attachTo_eq_cons (attachArguments tokens) token.attachInside
  rw [attachArguments, attached] at settled
  rw [(List.cons.inj settled).2] at suffix
  exact (suffix.eq_of_length_le (length_attachArguments_le tokens)).symm

theorem attachArguments_eq_of_suffix (suffix : part <:+ tokens)
    (settled : attachArguments tokens = tokens) : attachArguments part = part := by
  induction tokens with
  | nil =>
    rw [List.suffix_nil.mp suffix]
    rfl
  | cons token tokens ih =>
    rcases List.suffix_cons_iff.mp suffix with rfl | later
    · exact settled
    · exact ih later (attachArguments_eq_tail settled)

/-- A command with arguments takes no more, and one that found none finds none again. -/
theorem attachTo_settled (settled : attachArguments tokens = tokens)
    (inside : token.attachInside = token) :
    attachArguments (attachTo tokens token) = attachTo tokens token := by
  have kept : attachTo tokens token = token :: tokens →
      attachArguments (attachTo tokens token) = attachTo tokens token := by
    intro alone
    rw [alone, attachArguments, settled, inside, alone]
  cases token with
  | command name arguments =>
    cases arguments with
    | cons argument arguments => exact kept rfl
    | nil =>
      cases taken : takeArguments (signature name) tokens with
      | mk arguments rest =>
      have attached : attachTo tokens (.command name []) = .command name arguments :: rest := by
        rw [attachTo, taken]
      cases arguments with
      | nil =>
        have none := takeArguments_eq_of_nil (congrArg Prod.fst taken)
        exact kept (by rw [attachTo, none])
      | cons argument arguments =>
        have suffix := takeArguments_suffix (signature name) tokens
        rw [taken] at suffix
        rw [attached, attachArguments, attachArguments_eq_of_suffix suffix settled]
        rfl
  | _ => exact kept rfl

mutual

theorem attachInside_attachInside (token : Token) :
    token.attachInside.attachInside = token.attachInside := by
  cases token with
  | group body | inlineMath body | displayMath body | environment name body
    | mathEnvironment name body =>
    simp only [Token.attachInside, attachArguments_attachArguments body]
  | _ => rfl

theorem attachArguments_attachArguments (tokens : List Token) :
    attachArguments (attachArguments tokens) = attachArguments tokens := by
  cases tokens with
  | nil => rfl
  | cons token tokens =>
    exact attachTo_settled (attachArguments_attachArguments tokens) (attachInside_attachInside token)

end

/-- The rows of siblings right inside a token: what it holds, or the content of each argument. -/
def Token.rows : Token → List (List Token)
  | .group body | .inlineMath body | .displayMath body | .environment _ body
  | .mathEnvironment _ body => [body]
  | .command _ arguments => arguments.map Argument.content
  | _ => []

/-- The rows of siblings in tokens, at any depth: the tokens themselves, and the rows inside. -/
inductive RowIn : List Token → List Token → Prop
  | whole (tokens : List Token) : RowIn tokens tokens
  | inside {token : Token} {tokens below row : List Token} (isIn : token ∈ tokens)
    (isRow : below ∈ token.rows) (rowIn : RowIn row below) : RowIn row tokens

/-- What holds of the rows of siblings at every depth. -/
def Everywhere (holds : List Token → Prop) (tokens : List Token) : Prop :=
  ∀ row, RowIn row tokens → holds row

theorem everywhere_iff {holds : List Token → Prop} :
    Everywhere holds tokens ↔
      holds tokens ∧ ∀ token ∈ tokens, ∀ below ∈ token.rows, Everywhere holds below := by
  constructor
  · intro everywhere
    exact ⟨everywhere tokens (.whole tokens), fun token isIn below isRow row rowIn =>
      everywhere row (.inside isIn isRow rowIn)⟩
  · rintro ⟨here, inside⟩ row rowIn
    cases rowIn with
    | whole => exact here
    | inside isIn isRow rowIn => exact inside _ isIn _ isRow row rowIn

/-- No command of the row holds an argument yet. -/
def Bare (row : List Token) : Prop :=
  ∀ name arguments, .command name arguments ∈ row → arguments = []

def mandatorySlots (name : String) : Nat :=
  (signature name).count .mandatory

/-- The arguments in mandatory slots, which are those that stand in no brackets. -/
def mandatoryArguments (arguments : List Argument) : Nat :=
  arguments.countP (·.delimiter != .brackets)

/-- A command of the row goes without a mandatory argument only where there is nothing but trivia
behind it. -/
def Saturated (row : List Token) : Prop :=
  ∀ before name arguments after, row = before ++ .command name arguments :: after →
    mandatoryArguments arguments < mandatorySlots name → ∀ token ∈ after, token.isTrivia = true

namespace Saturated

theorem nil : Saturated [] := by
  intro before name arguments after cut
  cases before <;> cases cut

theorem cons (saturated : Saturated tokens)
    (first : ∀ name arguments, token = .command name arguments →
      mandatoryArguments arguments < mandatorySlots name → ∀ token ∈ tokens, token.isTrivia = true) :
    Saturated (token :: tokens) := by
  intro before name arguments after cut
  cases before with
  | nil =>
    obtain ⟨rfl, rfl⟩ := List.cons.inj cut
    exact first name arguments rfl
  | cons _ before => exact saturated before name arguments after (List.cons.inj cut).2

theorem on_part (saturated : Saturated tokens) (inside : part <:+: tokens) : Saturated part := by
  obtain ⟨front, back, rfl⟩ := inside
  rintro before name arguments after rfl short token isAfter
  have whole : front ++ (before ++ .command name arguments :: after) ++ back
      = (front ++ before) ++ .command name arguments :: (after ++ back) := by
    simp only [List.append_assoc, List.cons_append]
  exact saturated _ name arguments _ whole short token (List.mem_append_left back isAfter)

end Saturated

theorem saturated_part (saturated : Everywhere Saturated tokens) (inside : part <:+: tokens) :
    Everywhere Saturated part := by
  obtain ⟨row, below⟩ := everywhere_iff.mp saturated
  exact everywhere_iff.mpr
    ⟨row.on_part inside, fun token isIn => below token (inside.subset isIn)⟩

theorem saturated_cons (saturated : Everywhere Saturated tokens)
    (inside : ∀ below ∈ token.rows, Everywhere Saturated below)
    (first : ∀ name arguments, token = .command name arguments →
      mandatoryArguments arguments < mandatorySlots name → ∀ token ∈ tokens, token.isTrivia = true) :
    Everywhere Saturated (token :: tokens) := by
  obtain ⟨row, others⟩ := everywhere_iff.mp saturated
  exact everywhere_iff.mpr ⟨row.cons first, List.forall_mem_cons.mpr ⟨inside, others⟩⟩

theorem saturated_content (saturated : Everywhere Saturated tokens)
    (takes : slot.Takes tokens argument rest) : Everywhere Saturated argument.content := by
  cases takes with
  | group body => exact (everywhere_iff.mp saturated).2 _ List.mem_cons_self body (.head _)
  | bare token =>
    have inside := (everywhere_iff.mp saturated).2 token List.mem_cons_self
    have nil : Everywhere Saturated [] := everywhere_iff.mpr ⟨.nil, List.forall_mem_nil _⟩
    exact saturated_cons nil inside fun _ _ _ _ => List.forall_mem_nil _
  | brackets inside =>
    have between : inside <:+: .char '[' :: inside ++ .char ']' :: rest :=
      ⟨[.char '['], .char ']' :: rest, List.append_assoc _ _ _⟩
    exact saturated_part saturated between

theorem Slot.Takes.mandatory (takes : slot.Takes tokens argument rest) :
    (argument.delimiter != .brackets) = (slot == .mandatory) := by
  cases takes <;> rfl

/-- Slots filled from saturated tokens are filled with such; a mandatory one that stays empty has
left nothing but trivia. -/
theorem takeArguments_saturated (slots : List Slot) (saturated : Everywhere Saturated tokens) :
    (∀ argument ∈ (takeArguments slots tokens).1, Everywhere Saturated argument.content) ∧
      (mandatoryArguments (takeArguments slots tokens).1 < slots.count .mandatory →
        ∀ token ∈ (takeArguments slots tokens).2, token.isTrivia = true) := by
  induction slots generalizing tokens with
  | nil => exact ⟨List.forall_mem_nil _, fun short => absurd short (Nat.not_lt_zero _)⟩
  | cons slot slots ih =>
    rw [takeArguments]
    split
    · next argument rest found =>
      have takes := Slot.take_takes found
      have significant := saturated_part saturated
        (List.dropWhile_suffix Token.isTrivia).isInfix
      obtain ⟨filled, left⟩ := ih (saturated_part significant takes.suffix.isInfix)
      have first := saturated_content significant takes
      refine ⟨List.forall_mem_cons.mpr ⟨first, filled⟩, fun short => left ?_⟩
      -- The slot and its argument are both counted, or neither is.
      rw [mandatoryArguments, List.countP_cons, List.count_cons, takes.mandatory] at short
      exact Nat.lt_of_add_lt_add_right short
    · next empty =>
      obtain ⟨filled, left⟩ := ih saturated
      refine ⟨filled, fun short => ?_⟩
      cases slot with
      | optional => exact left (by simpa using short)
      | mandatory =>
        intro token isIn
        exact Slot.trivia_of_take_eq_none empty token
          ((takeArguments_suffix slots tokens).subset isIn)

theorem attachTo_saturated (saturated : Everywhere Saturated tokens)
    (inside : ∀ below ∈ token.rows, Everywhere Saturated below)
    (bare : ∀ name arguments, token = .command name arguments → arguments = []) :
    Everywhere Saturated (attachTo tokens token) := by
  unfold attachTo
  split
  · next name =>
    obtain ⟨filled, left⟩ := takeArguments_saturated (signature name) saturated
    have rest := takeArguments_suffix (signature name) tokens
    apply saturated_cons (saturated_part saturated rest.isInfix)
    · intro below isRow
      obtain ⟨argument, isArgument, rfl⟩ := List.mem_map.mp isRow
      exact filled argument isArgument
    · intro _ _ same
      cases same
      exact left
  · next unlike =>
    refine saturated_cons saturated inside fun name arguments same => ?_
    cases bare name arguments same
    exact absurd same (unlike name)

theorem Token.eq_command_of_attachInside {name : String} {arguments : List Argument}
    (same : token.attachInside = .command name arguments) : token = .command name arguments := by
  cases token with
  | command => exact same
  | _ => cases same

mutual

theorem attachInside_saturated (token : Token)
    (below_bare : ∀ below ∈ token.rows, Everywhere Bare below)
    (bare : ∀ name arguments, token = .command name arguments → arguments = []) :
    ∀ below ∈ token.attachInside.rows, Everywhere Saturated below := by
  intro below isRow
  cases token with
  | group body | inlineMath body | displayMath body | environment name body
    | mathEnvironment name body =>
    cases List.mem_singleton.mp isRow
    exact attachArguments_saturated body (below_bare body (.head _))
  | command name arguments =>
    cases bare name arguments rfl
    cases isRow
  | _ => cases isRow

theorem attachArguments_saturated (tokens : List Token) (bare : Everywhere Bare tokens) :
    Everywhere Saturated (attachArguments tokens) := by
  obtain ⟨row, below⟩ := everywhere_iff.mp bare
  cases tokens with
  | nil => exact everywhere_iff.mpr ⟨.nil, List.forall_mem_nil _⟩
  | cons token tokens =>
    obtain ⟨first, others⟩ := List.forall_mem_cons.mp below
    have later : Everywhere Bare tokens := everywhere_iff.mpr
      ⟨fun name arguments isIn => row name arguments (List.mem_cons_of_mem _ isIn), others⟩
    have bare : ∀ name arguments, token = .command name arguments → arguments = [] := by
      rintro name arguments rfl
      exact row name arguments List.mem_cons_self
    exact attachTo_saturated (attachArguments_saturated tokens later)
      (attachInside_saturated token first bare)
      fun name arguments same => bare name arguments (Token.eq_command_of_attachInside same)

end

/-- To attach arguments once more changes nothing, neither to tokens nor to a math shift that is
read by itself before the tokens around it. Where no command held arguments before, one goes
without a mandatory argument, at any depth, only where nothing but trivia follows. -/
theorem attachArguments_complete (tokens : List Token) :
    attachArguments (attachArguments tokens) = attachArguments tokens ∧
      (∀ shift : Shift, (shift.token (attachArguments tokens)).attachInside
        = shift.token (attachArguments tokens)) ∧
      (Everywhere Bare tokens → Everywhere Saturated (attachArguments tokens)) := by
  have once := attachArguments_attachArguments tokens
  refine ⟨once, fun shift => ?_, attachArguments_saturated tokens⟩
  cases shift with
  | inline => rw [Shift.token, Token.attachInside, once]
  | display => rw [Shift.token, Token.attachInside, once]

/-- A radical over a script, whose argument is a fraction that has only one of its own. -/
def unfinishedRadical : List Token :=
  [.command "sqrt" [], .whitespace, .char '[', .char 'n', .char ']',
    .group [.char 'x', .command "^" [], .command "frac" [], .group [.char '1'], .comment "rest"]]

theorem attachArguments_complete_unfinishedRadical :
    Everywhere Bare unfinishedRadical ∧
      attachArguments unfinishedRadical
        = [.command "sqrt" [⟨.brackets, [.char 'n']⟩, ⟨.braces, [.char 'x',
            .command "^" [⟨.bare, [.command "frac" [⟨.braces, [.char '1']⟩]]⟩],
            .comment "rest"]⟩]] ∧
      Everywhere Saturated (attachArguments unfinishedRadical) := by
  have numerator : Everywhere Bare [.char '1'] :=
    everywhere_iff.mpr ⟨by simp [Bare], by simp [Token.rows]⟩
  have body : Everywhere Bare [.char 'x', .command "^" [], .command "frac" [],
      .group [.char '1'], .comment "rest"] :=
    everywhere_iff.mpr ⟨by simp +contextual [Bare, or_imp], by simpa [Token.rows] using numerator⟩
  have bare : Everywhere Bare unfinishedRadical :=
    everywhere_iff.mpr ⟨by simp [Bare, unfinishedRadical],
      by simpa [Token.rows, unfinishedRadical] using body⟩
  exact ⟨bare, rfl, (attachArguments_complete unfinishedRadical).2.2 bare⟩

end WordExport.Math
