import WordExport.Proofs.Math.Spelling
import WordExport.Proofs.Math.Slots

set_option autoImplicit false

namespace WordExport.Math

/-- Tokens that attach their arguments among themselves. -/
def Attaches (tokens attached : List Token) : Prop :=
  ∀ rest, attachArguments (tokens ++ rest) = attached ++ attachArguments rest

namespace Attaches

theorem nil : Attaches [] [] := fun _ => rfl

theorem append {tokens following attached after : List Token} (first : Attaches tokens attached)
    (second : Attaches following after) : Attaches (tokens ++ following) (attached ++ after) := by
  intro rest
  rw [List.append_assoc, first, second, List.append_assoc]

theorem alone {tokens attached : List Token} (attaches : Attaches tokens attached) :
    attachArguments tokens = attached := by
  simpa only [List.append_nil, attachArguments] using attaches []

theorem char (c : Char) : Attaches [.char c] [.char c] := fun _ => rfl

theorem group {tokens attached : List Token} (inside : Attaches tokens attached) :
    Attaches [.group tokens] [.group attached] := by
  intro rest
  change .group (attachArguments tokens) :: attachArguments rest = _
  rw [inside.alone]
  rfl

/-- A command whose slots are filled from the tokens after it. -/
theorem command {name : String} {tokens attached : List Token} {arguments : List Argument}
    (inside : Attaches tokens attached)
    (taken : ∀ rest, takeArguments (signature name) (attached ++ rest) = (arguments, rest)) :
    Attaches (.command name [] :: tokens) [.command name arguments] := by
  intro rest
  change attachTo (attachArguments (tokens ++ rest)) (.command name []) = _
  rw [inside rest, attachTo, taken]
  rfl

end Attaches

theorem signature_script : signature "^" = [.mandatory] ∧ signature "_" = [.mandatory] := by
  decide

theorem signature_frac : signature "frac" = [.mandatory, .mandatory] := by
  decide

theorem signature_sqrt : signature "sqrt" = [.optional, .mandatory] := by
  decide

theorem signature_sum : signature "sum" = [] := by
  decide

mutual

theorem Run.not_closing (run : Run) (normal : run.Normal) :
    ∀ token ∈ run.attached, token.isChar ']' = false := by
  cases run with
  | text text =>
    obtain ⟨c, plain, rfl⟩ := normal
    simp [Run.attached, Token.isChar, (not_special plain).2.2.2.2.1.symm]
  | superscript base script =>
    simpa [Run.attached, Token.isChar, or_imp, forall_and] using not_closing_all base normal.2.1
  | subscript base script =>
    simpa [Run.attached, Token.isChar, or_imp, forall_and] using not_closing_all base normal.2.1
  | fraction | squareRoot | root | sum => simp [Run.attached, Token.isChar]

theorem not_closing_all (runs : List Run) (normal : AllNormal runs) :
    ∀ token ∈ attachedAll runs, token.isChar ']' = false := by
  cases runs with
  | nil => exact fun _ isIn => absurd isIn List.not_mem_nil
  | cons run runs =>
    intro token isIn
    rcases List.mem_append.mp isIn with isFirst | isLater
    · exact run.not_closing normal.1 token isFirst
    · exact not_closing_all runs normal.2 token isLater

end

mutual

theorem Run.attaches (run : Run) (normal : run.Normal) : Attaches run.tokens run.attached := by
  cases run with
  | text text =>
    obtain ⟨c, -, rfl⟩ := normal
    rw [Run.tokens, Run.attached, String.toList_singleton]
    exact .char c
  | superscript base script =>
    have group := (attaches_all script normal.2.2).group
    apply (attaches_all base normal.2.1).append
    apply group.command
    intro rest
    rw [signature_script.1]
    rfl
  | subscript base script =>
    have group := (attaches_all script normal.2.2).group
    apply (attaches_all base normal.2.1).append
    apply group.command
    intro rest
    rw [signature_script.2]
    rfl
  | fraction numerator denominator =>
    have groups := (attaches_all numerator normal.1).group.append
      (attaches_all denominator normal.2).group
    apply groups.command
    intro rest
    rw [signature_frac]
    rfl
  | squareRoot body =>
    have group := (attaches_all body normal).group
    apply group.command
    intro rest
    rw [signature_sqrt]
    rfl
  | root degree body =>
    have inside := ((Attaches.char '[').append (attaches_all degree normal.1)).append
      ((Attaches.char ']').append (attaches_all body normal.2).group)
    apply inside.command
    intro rest
    have taken := Slot.take_brackets (.group (attachedAll body) :: rest)
      (not_closing_all degree normal.1)
    rw [signature_sqrt, takeArguments]
    simp only [List.cons_append, List.nil_append, List.append_assoc] at taken ⊢
    rw [taken]
    rfl
  | sum body =>
    have name : Attaches [.command "sum" []] [.command "sum" []] := by
      apply Attaches.nil.command
      intro rest
      rw [signature_sum]
      rfl
    have space : Attaches [.whitespace] [.whitespace] := fun _ => rfl
    exact name.append space

theorem attaches_all (runs : List Run) (normal : AllNormal runs) :
    Attaches (tokensAll runs) (attachedAll runs) := by
  cases runs with
  | nil => exact .nil
  | cons run runs =>
    have first := run.attaches normal.1
    have rest := attaches_all runs normal.2
    exact first.append rest

end

end WordExport.Math
