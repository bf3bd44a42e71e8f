import Mathlib.Data.List.DropRight
import WordExport.Math.Arguments

set_option autoImplicit false

namespace WordExport.Math

variable {slot : Slot} {tokens inside rest : List Token} {argument : Argument} {token : Token}

theorem eq_char_of_isChar {c : Char} (same : token.isChar c = true) : token = .char c := by
  cases token with
  | char d => rw [beq_iff_eq.mp same]
  | _ => cases same

/-- What is not skipped on the way to a closing bracket is one. -/
theorem eq_closing_of_dropWhile
    (stopped : inside.dropWhile (!Token.isChar ']' ·) = token :: rest) : token = .char ']' := by
  have first := List.head?_dropWhile_not (!Token.isChar ']' ·) inside
  rw [stopped] at first
  exact eq_char_of_isChar (by simpa using first)

theorem isTrivia_eq_false_of_dropWhile
    (head : tokens.dropWhile Token.isTrivia = token :: rest) : token.isTrivia = false := by
  have first := List.head?_dropWhile_not Token.isTrivia tokens
  rw [head] at first
  simpa using first

namespace Slot

/-- What a slot takes from tokens that do not start with trivia. -/
inductive Takes : Slot → List Token → Argument → List Token → Prop
  | group (body rest : List Token) : Takes mandatory (.group body :: rest) ⟨.braces, body⟩ rest
  | bare (token : Token) (rest : List Token) :
    Takes mandatory (token :: rest) ⟨.bare, [token]⟩ rest
  | brackets (inside rest : List Token) :
    Takes optional (.char '[' :: inside ++ .char ']' :: rest) ⟨.brackets, inside⟩ rest

theorem take_optional (inside : List Token) :
    optional.take (.char '[' :: inside)
      = match inside.dropWhile (!Token.isChar ']' ·) with
        | _ :: rest => some (⟨.brackets, inside.takeWhile (!Token.isChar ']' ·)⟩, rest)
        | [] => none :=
  rfl

theorem take_brackets (rest : List Token) (closed : ∀ token ∈ inside, token.isChar ']' = false) :
    optional.take (.char '[' :: inside ++ .char ']' :: rest) = some (⟨.brackets, inside⟩, rest) := by
  have stops : ∀ token ∈ inside, (!token.isChar ']') = true := by simpa using closed
  have kept : (inside ++ .char ']' :: rest).takeWhile (!Token.isChar ']' ·) = inside := by
    rw [List.takeWhile_append_of_pos stops]
    exact List.append_nil inside
  have left : (inside ++ .char ']' :: rest).dropWhile (!Token.isChar ']' ·) = .char ']' :: rest := by
    rw [List.dropWhile_append_of_pos stops]
    rfl
  rw [List.cons_append, take_optional, left, kept]

/-- Trivia in front of an argument make no difference to it. -/
theorem take_dropWhile (slot : Slot) (tokens : List Token) :
    slot.take (tokens.dropWhile Token.isTrivia) = slot.take tokens := by
  simp only [take, List.dropWhile_idempotent]

theorem take_takes (found : slot.take tokens = some (argument, rest)) :
    slot.Takes (tokens.dropWhile Token.isTrivia) argument rest := by
  simp only [take] at found
  split at found
  · next body after head =>
    cases found
    rw [head]
    exact .group body rest
  · next token after _ head =>
    cases found
    rw [head]
    exact .bare token rest
  · next inside head =>
    rw [head]
    split at found
    · next closing after stopped =>
      cases found
      have cut := List.takeWhile_append_dropWhile (p := (!Token.isChar ']' ·)) (l := inside)
      rw [stopped, eq_closing_of_dropWhile stopped] at cut
      have bracketed := Takes.brackets (inside.takeWhile (!Token.isChar ']' ·)) rest
      rwa [List.cons_append, cut] at bracketed
    · cases found
  · cases found

/-- A mandatory slot stays empty only where there is nothing but trivia. -/
theorem trivia_of_take_eq_none (empty : mandatory.take tokens = none) :
    ∀ token ∈ tokens, token.isTrivia = true := by
  apply List.dropWhile_eq_nil_iff.mp
  cases head : tokens.dropWhile Token.isTrivia with
  | nil => rfl
  | cons token after => cases token <;> simp [take, head] at empty

theorem Takes.suffix (takes : slot.Takes tokens argument rest) : rest <:+ tokens := by
  cases takes with
  | group | bare => exact List.suffix_cons _ rest
  | brackets => exact (List.suffix_cons _ rest).trans (List.suffix_append _ _)

end Slot

theorem takeArguments_suffix (slots : List Slot) (tokens : List Token) :
    (takeArguments slots tokens).2 <:+ tokens := by
  induction slots generalizing tokens with
  | nil => exact List.suffix_refl tokens
  | cons slot slots ih =>
    rw [takeArguments]
    split
    · next argument rest found =>
      exact (ih rest).trans ((Slot.take_takes found).suffix.trans (List.dropWhile_suffix _))
    · exact ih tokens

end WordExport.Math
