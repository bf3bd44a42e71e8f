import WordExport.Document.Placement
import WordExport.Error

set_option autoImplicit false

namespace WordExport

/-- A value, and the footnote definitions and references met on the way to it, in order. -/
structure Noted (α : Type) where
  value : α
  definitions : List (String × List Paragraph) := []
  references : List (Nat × String) := []

/-- The first error, or a value with the footnotes met on the way to it. -/
def Conversion (α : Type) : Type := Except Error (Noted α)

namespace Conversion

def pure {α : Type} (value : α) : Conversion α :=
  .ok { value }

/-- The first error counts; footnotes of the second step come after those of the first. -/
def bind {α β : Type} (first : Conversion α) (next : α → Conversion β) : Conversion β :=
  match first with
  | .error error => .error error
  | .ok noted =>
    match next noted.value with
    | .error error => .error error
    | .ok later =>
      .ok ⟨later.value, noted.definitions ++ later.definitions,
        noted.references ++ later.references⟩

instance : Monad Conversion where
  pure := Conversion.pure
  bind := Conversion.bind

theorem pure_bind {α β : Type} (value : α) (next : α → Conversion β) :
    Conversion.bind (Conversion.pure value) next = next value := by
  simp only [Conversion.bind, Conversion.pure]
  rcases next value with error | later
  · rfl
  · simp only [List.nil_append]
    rfl

theorem bind_pure {α : Type} (step : Conversion α) :
    Conversion.bind step Conversion.pure = step := by
  rcases step with error | noted
  · rfl
  · simp only [Conversion.bind, Conversion.pure, List.append_nil]
    rfl

theorem bind_assoc {α β γ : Type} (first : Conversion α) (next : α → Conversion β)
    (last : β → Conversion γ) :
    Conversion.bind (Conversion.bind first next) last
      = Conversion.bind first fun value => Conversion.bind (next value) last := by
  rcases first with error | noted
  · rfl
  · simp only [Conversion.bind]
    rcases next noted.value with error | later
    · rfl
    · simp only
      rcases last later.value with error | latest
      · rfl
      · simp only [List.append_assoc]
        rfl

instance : LawfulMonad Conversion :=
  LawfulMonad.mk' Conversion bind_pure pure_bind bind_assoc

def fail {α : Type} (error : Error) : Conversion α :=
  .error error

/-- Notes the definition of a footnote. -/
def define (identifier : String) (body : List Paragraph) : Conversion Unit :=
  .ok { value := (), definitions := [(identifier, body)] }

/-- Notes a reference to the footnote of a number, made by an identifier. -/
def refer (id : Nat) (identifier : String) : Conversion Unit :=
  .ok { value := (), references := [(id, identifier)] }

end Conversion

end WordExport
