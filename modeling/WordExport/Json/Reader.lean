import WordExport.Json.LexemeLength

set_option autoImplicit false

namespace WordExport.Json

open Text

/-- An array or object whose end is not reached: what it holds already, latest first, and the
name of the member being read. -/
inductive Frame where
  | array (items : List Value)
  | object (members : List (List Nat × Value)) (key : List Nat)

/-- What comes next: a value, or whatever may follow the value just read. -/
inductive State where
  | value
  | done (value : Value)

/-- Reads on inside the open containers, up to the end of the outermost value. They are held in a
list, so that no depth is too great. -/
def run (frames : List Frame) (state : State) (cs : List Char) : Option (Value × List Char) :=
  match state with
  | .value =>
    match _lexeme : lexeme? (skipBlanks cs) with
    | none => none
    | some (.scalar value rest) => run frames (.done value) rest
    | some (.array rest) =>
      match _next : skipBlanks rest with
      | ']' :: after => run frames (.done (.array [])) after
      | _ => run (.array [] :: frames) .value rest
    | some (.object rest) =>
      match _next : skipBlanks rest with
      | '}' :: after => run frames (.done (.object [])) after
      | _ =>
        match _key : key? rest with
        | none => none
        | some (key, after) => run (.object [] key :: frames) .value after
  | .done value =>
    match frames with
    | [] => some (value, cs)
    | .array items :: outer =>
      match _next : skipBlanks cs with
      | ',' :: rest => run (.array (value :: items) :: outer) .value rest
      | ']' :: rest => run outer (.done (.array (value :: items).reverse)) rest
      | _ => none
    | .object members key :: outer =>
      match _next : skipBlanks cs with
      | ',' :: rest =>
        match _key : key? rest with
        | none => none
        | some (key', after) => run (.object ((key, value) :: members) key' :: outer) .value after
      | '}' :: rest => run outer (.done (.object ((key, value) :: members).reverse)) rest
      | _ => none
termination_by cs.length
decreasing_by
  all_goals
    have blanks := length_skipBlanks_le cs
  · have := length_of_lexeme? _lexeme
    simp only [Lexeme.rest] at this
    omega
  · have := length_of_lexeme? _lexeme
    have inner := length_skipBlanks_le rest
    simp only [Lexeme.rest, _next, List.length_cons] at this inner
    omega
  · have := length_of_lexeme? _lexeme
    simp only [Lexeme.rest] at this
    omega
  · have := length_of_lexeme? _lexeme
    have inner := length_skipBlanks_le rest
    simp only [Lexeme.rest, _next, List.length_cons] at this inner
    omega
  · have := length_of_lexeme? _lexeme
    have := length_of_key? _key
    simp only [Lexeme.rest] at *
    omega
  · rw [_next, List.length_cons] at blanks
    omega
  · rw [_next, List.length_cons] at blanks
    omega
  · have := length_of_key? _key
    rw [_next, List.length_cons] at blanks
    omega
  · rw [_next, List.length_cons] at blanks
    omega

/-- The one value of a text, with nothing but blanks around it. -/
def read? (text : String) : Option Value :=
  match run [] .value text.toList with
  | some (value, rest) => if rest.all isBlank then some value else none
  | none => none

end WordExport.Json
