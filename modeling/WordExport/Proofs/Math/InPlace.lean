import Mathlib.Data.List.Induction
import WordExport.Proofs.Math.Accounting

set_option autoImplicit false

/- Attaching arguments by position. The tokens are one list that is changed in place, from its end
to its start, and every position and every range is looked up in the list as it is by then. None
lies outside of it, and what is left is the list with its arguments attached. -/

namespace WordExport.Math

section

variable {α : Type}

/-- Takes a range out of a list, answering what was in it and what is left. -/
def drain? (items : List α) (start stop : Nat) : Option (List α × List α) :=
  if start ≤ stop ∧ stop ≤ items.length then
    some ((items.take stop).drop start, items.take start ++ items.drop stop)
  else none

/-- The end of a list, from a position on. -/
def splitOff? (items : List α) (place : Nat) : Option (List α) :=
  if place ≤ items.length then some (items.drop place) else none

def subtract? (stop start : Nat) : Option Nat :=
  if start ≤ stop then some (stop - start) else none

/-- The first of the given positions that is not skipped, if there is one. -/
def findAmong? (skips : α → Bool) (items : List α) : List Nat → Option (Option Nat)
  | [] => some none
  | place :: places => do
    let item ← items[place]?
    if skips item then findAmong? skips items places else some (some place)

/-- The first position from the given one on that is not skipped, if there is one. -/
def findFrom? (skips : α → Bool) (items : List α) (start : Nat) : Option (Option Nat) :=
  findAmong? skips items (List.range' start (items.length - start))

theorem getElem?_length (before after : List α) (item : α) :
    (before ++ item :: after)[before.length]? = some item := by
  simp

theorem drain?_append (before middle after : List α) :
    drain? (before ++ (middle ++ after)) before.length (before.length + middle.length)
      = some (middle, before ++ after) := by
  have inside : before.length ≤ before.length + middle.length ∧
      before.length + middle.length ≤ (before ++ (middle ++ after)).length := by
    simp only [List.length_append]
    omega
  rw [drain?, if_pos inside, ← List.append_assoc, ← List.length_append, List.take_left,
    List.drop_left, List.drop_left, List.append_assoc, List.take_left]

theorem splitOff?_append (before after : List α) :
    splitOff? (before ++ after) before.length = some after := by
  have inside : before.length ≤ (before ++ after).length := by
    rw [List.length_append]
    omega
  rw [splitOff?, if_pos inside, List.drop_left]

theorem subtract?_add (start count : Nat) : subtract? (start + count) start = some count := by
  rw [subtract?, if_pos (Nat.le_add_right start count), Nat.add_sub_cancel_left]

theorem findAmong?_range' (skips : α → Bool) (before after : List α) :
    findAmong? skips (before ++ after) (List.range' before.length after.length)
      = some (if (after.dropWhile skips).isEmpty then none
          else some (before.length + (after.takeWhile skips).length)) := by
  induction after generalizing before with
  | nil => rfl
  | cons item after ih =>
    rw [List.length_cons, List.range'_succ, findAmong?, getElem?_length]
    show (if skips item then findAmong? skips (before ++ item :: after) _ else _) = _
    by_cases skipped : skips item = true
    · have later := ih (before ++ [item])
      simp only [List.append_assoc, List.singleton_append, List.length_append,
        List.length_singleton] at later
      rw [if_pos skipped, later, List.dropWhile_cons_of_pos skipped,
        List.takeWhile_cons_of_pos skipped, List.length_cons, Nat.add_right_comm, Nat.add_assoc]
    · rw [if_neg skipped, List.dropWhile_cons_of_neg skipped, List.takeWhile_cons_of_neg skipped]
      rfl

/-- A scan stops at the first element that is left where all that is skipped is dropped. -/
theorem findFrom?_append (skips : α → Bool) (before after : List α) :
    findFrom? skips (before ++ after) before.length
      = some (if (after.dropWhile skips).isEmpty then none
          else some (before.length + (after.takeWhile skips).length)) := by
  rw [findFrom?, List.length_append, Nat.add_sub_cancel_left, findAmong?_range']

end

/-- Takes the next token that is no trivia, and all before it, from a place on. -/
def takeMandatory? (tokens : List Token) (place : Nat) :
    Option (Option Argument × List Token) := do
  match ← findFrom? Token.isTrivia tokens place with
  | none => return (none, tokens)
  | some found =>
    let (taken, tokens) ← drain? tokens place (found + 1)
    let argument := taken.getLast?.map fun
      | .group body => .mk .braces body
      | token => .mk .bare [token]
    return (argument, tokens)

/-- Takes the brackets that open at a position with their content, and all before them, from a
place on. -/
def takeBrackets? (tokens : List Token) (place opening : Nat) :
    Option (Option Argument × List Token) := do
  match ← findFrom? (!Token.isChar ']' ·) tokens (opening + 1) with
  | none => return (none, tokens)
  | some closing =>
    let (taken, tokens) ← drain? tokens place (closing + 1)
    let lead ← subtract? opening place
    let content ← splitOff? taken.dropLast (lead + 1)
    return (some (.mk .brackets content), tokens)

def takeOptional? (tokens : List Token) (place : Nat) :
    Option (Option Argument × List Token) := do
  match ← findFrom? Token.isTrivia tokens place with
  | none => return (none, tokens)
  | some found =>
    let token ← tokens[found]?
    if token.isChar '[' then takeBrackets? tokens place found else return (none, tokens)

def Slot.takeAt? : Slot → List Token → Nat → Option (Option Argument × List Token)
  | .mandatory, tokens, place => takeMandatory? tokens place
  | .optional, tokens, place => takeOptional? tokens place

def takeArgumentsAt? : List Slot → List Token → Nat → Option (List Argument × List Token)
  | [], tokens, _ => some ([], tokens)
  | slot :: slots, tokens, place => do
    let (argument, tokens) ← slot.takeAt? tokens place
    let (arguments, tokens) ← takeArgumentsAt? slots tokens place
    return (argument.toList ++ arguments, tokens)

/-- Fills the slots of the command at a place, if there is one without arguments. -/
def attachAt? (tokens : List Token) (place : Nat) : Option (List Token) := do
  match ← tokens[place]? with
  | .command name [] =>
    let (arguments, tokens) ← takeArgumentsAt? (signature name) tokens (place + 1)
    match ← tokens[place]? with
    | .command name _ => return tokens.set place (.command name arguments)
    | _ => return tokens
  | _ => return tokens

/-- Visits all places below the given one, the last one first. -/
def attachBelow? : Nat → List Token → Option (List Token)
  | 0, tokens => some tokens
  | place + 1, tokens => do attachBelow? place (← attachAt? tokens place)

mutual

/-- Visits what is inside a token, and then all places in it. -/
def Token.attachInPlace? : Token → Option Token
  | .group body => do
    let body ← eachInPlace? body
    return .group (← attachBelow? body.length body)
  | .inlineMath body => do
    let body ← eachInPlace? body
    return .inlineMath (← attachBelow? body.length body)
  | .displayMath body => do
    let body ← eachInPlace? body
    return .displayMath (← attachBelow? body.length body)
  | .environment name body => do
    let body ← eachInPlace? body
    return .environment name (← attachBelow? body.length body)
  | .mathEnvironment name body => do
    let body ← eachInPlace? body
    return .mathEnvironment name (← attachBelow? body.length body)
  | token => some token

def eachInPlace? : List Token → Option (List Token)
  | [] => some []
  | token :: tokens => do
    let token ← token.attachInPlace?
    return token :: (← eachInPlace? tokens)

end

/-- The pass over a whole list; none where it goes out of range. -/
def attachInPlace? (tokens : List Token) : Option (List Token) := do
  let tokens ← eachInPlace? tokens
  attachBelow? tokens.length tokens

/-- What a slot takes off the end of a list, as a slot takes it that looks at no more than that. -/
def Slot.takeBehind (slot : Slot) (before after : List Token) : Option Argument × List Token :=
  match slot.take after with
  | some (argument, rest) => (some argument, before ++ rest)
  | none => (none, before ++ after)

theorem takeMandatory?_append (before after : List Token) :
    takeMandatory? (before ++ after) before.length
      = some (Slot.mandatory.takeBehind before after) := by
  have scanned := findFrom?_append Token.isTrivia before after
  have cut : after.takeWhile Token.isTrivia ++ after.dropWhile Token.isTrivia = after :=
    List.takeWhile_append_dropWhile
  generalize after.takeWhile Token.isTrivia = gap at scanned cut
  cases head : after.dropWhile Token.isTrivia with
  | nil =>
    rw [head] at scanned
    simp [takeMandatory?, scanned, Slot.takeBehind, Slot.take, head]
  | cons token rest =>
    have drained := drain?_append before (gap ++ [token]) rest
    rw [List.append_assoc, List.singleton_append, ← head, cut, List.length_append,
      List.length_singleton, ← Nat.add_assoc] at drained
    rw [head] at scanned
    cases token <;> simp [takeMandatory?, scanned, drained, Slot.takeBehind, Slot.take, head]

theorem takeBrackets?_append (before : List Token) {after gap inside : List Token}
    (cut : gap ++ .char '[' :: inside = after)
    (head : after.dropWhile Token.isTrivia = .char '[' :: inside) :
    takeBrackets? (before ++ after) before.length (before.length + gap.length)
      = some (Slot.optional.takeBehind before after) := by
  have scanned := findFrom?_append (!Token.isChar ']' ·) (before ++ gap ++ [.char '[']) inside
  have whole : before ++ gap ++ [.char '['] ++ inside = before ++ after := by
    rw [← cut, List.append_assoc, List.append_assoc]
    rfl
  rw [whole, List.length_append, List.length_append, List.length_singleton] at scanned
  cases stop : inside.dropWhile (!Token.isChar ']' ·) with
  | nil =>
    rw [stop] at scanned
    simp [takeBrackets?, scanned, Slot.takeBehind, Slot.take, head, stop]
  | cons closing rest =>
    have bracketed := List.takeWhile_append_dropWhile (p := (!Token.isChar ']' ·)) (l := inside)
    rw [stop] at scanned bracketed
    generalize same : inside.takeWhile (!Token.isChar ']' ·) = content at scanned bracketed
    have drained := drain?_append before (gap ++ [.char '['] ++ content ++ [closing]) rest
    have split := splitOff?_append (gap ++ [.char '[']) content
    have range : gap ++ [.char '['] ++ content ++ [closing] ++ rest = after := by
      rw [← cut, ← bracketed]
      simp only [List.append_assoc, List.cons_append, List.nil_append]
    have stops : before.length + (gap ++ [Token.char '['] ++ content ++ [closing]).length
        = before.length + gap.length + 1 + content.length + 1 := by
      simp only [List.length_append, List.length_singleton]
      omega
    rw [range, stops] at drained
    rw [List.length_append, List.length_singleton] at split
    simp only [takeBrackets?, scanned, List.isEmpty_cons, Bool.false_eq_true, if_false,
      Option.bind_eq_bind, Option.bind_some, drained, subtract?_add, List.dropLast_concat, split,
      Slot.takeBehind, Slot.take, head, stop, same]
    rfl

theorem takeOptional?_append (before after : List Token) :
    takeOptional? (before ++ after) before.length
      = some (Slot.optional.takeBehind before after) := by
  have scanned := findFrom?_append Token.isTrivia before after
  have cut : after.takeWhile Token.isTrivia ++ after.dropWhile Token.isTrivia = after :=
    List.takeWhile_append_dropWhile
  generalize after.takeWhile Token.isTrivia = gap at scanned cut
  cases head : after.dropWhile Token.isTrivia with
  | nil =>
    rw [head] at scanned
    simp [takeOptional?, scanned, Slot.takeBehind, Slot.take, head]
  | cons token inside =>
    rw [head] at scanned cut
    have found : (before ++ after)[before.length + gap.length]? = some token := by
      rw [← cut, ← List.append_assoc, ← List.length_append, getElem?_length]
    by_cases opens : token.isChar '[' = true
    · cases eq_char_of_isChar opens
      have taken := takeBrackets?_append before cut head
      simp [takeOptional?, scanned, found, opens, taken]
    · rw [Bool.not_eq_true] at opens
      have untaken : Slot.optional.take after = none := by
        cases token with
        | char c =>
          have other : c ≠ '[' := fun same => by
            subst same
            cases opens
          simp [Slot.take, head, other]
        | _ => simp [Slot.take, head]
      simp [takeOptional?, scanned, found, opens, Slot.takeBehind, untaken]

theorem Slot.takeAt?_append (slot : Slot) (before after : List Token) :
    slot.takeAt? (before ++ after) before.length = some (slot.takeBehind before after) := by
  cases slot with
  | mandatory => exact takeMandatory?_append before after
  | optional => exact takeOptional?_append before after

theorem takeArgumentsAt?_append (slots : List Slot) (before after : List Token) :
    takeArgumentsAt? slots (before ++ after) before.length
      = some ((takeArguments slots after).1, before ++ (takeArguments slots after).2) := by
  induction slots generalizing after with
  | nil => rfl
  | cons slot slots ih =>
    rw [takeArgumentsAt?, slot.takeAt?_append, Slot.takeBehind, takeArguments]
    cases slot.take after with
    | none => simp [ih]
    | some taken => simp [ih]

/-- One visit changes nothing before its place, and leaves the token there with its arguments. -/
theorem attachAt?_append (before after : List Token) (token : Token) :
    attachAt? (before ++ token :: after) before.length = some (before ++ attachTo after token) := by
  cases token with
  | command name arguments =>
    cases arguments with
    | nil =>
      have taken := takeArgumentsAt?_append (signature name) (before ++ [.command name []]) after
      rw [List.append_assoc, List.length_append, List.append_assoc] at taken
      simp only [List.singleton_append, List.length_singleton] at taken
      simp [attachAt?, taken, attachTo]
    | cons => simp [attachAt?, attachTo]
  | _ => simp [attachAt?, attachTo]

/-- What the visits that are to come will find behind their places is what is there by now. -/
theorem attachBelow?_append (before after : List Token) :
    attachBelow? before.length (before ++ after)
      = some (before.foldr (fun token tokens => attachTo tokens token) after) := by
  induction before using List.reverseRecOn generalizing after with
  | nil => rfl
  | append_singleton before token ih =>
    rw [List.length_append, List.length_singleton, attachBelow?, List.append_assoc,
      List.singleton_append, attachAt?_append, List.foldr_append]
    exact ih (attachTo after token)

theorem attachArguments_eq_foldr (tokens : List Token) :
    attachArguments tokens = (tokens.map Token.attachInside).foldr
      (fun token tokens => attachTo tokens token) [] := by
  induction tokens with
  | nil => rfl
  | cons token tokens ih => rw [attachArguments, ih, List.map_cons, List.foldr_cons]

theorem attachBelow?_inside (tokens : List Token) :
    attachBelow? (tokens.map Token.attachInside).length (tokens.map Token.attachInside)
      = some (attachArguments tokens) := by
  have visited := attachBelow?_append (tokens.map Token.attachInside) []
  rw [List.append_nil] at visited
  rw [visited, attachArguments_eq_foldr]

mutual

theorem Token.attachInPlace?_eq (token : Token) :
    token.attachInPlace? = some token.attachInside := by
  cases token with
  | group body | inlineMath body | displayMath body | environment name body
    | mathEnvironment name body =>
    simp only [Token.attachInPlace?, eachInPlace?_eq body, Option.bind_eq_bind, Option.bind_some,
      attachBelow?_inside]
    rfl
  | _ => rfl

theorem eachInPlace?_eq (tokens : List Token) :
    eachInPlace? tokens = some (tokens.map Token.attachInside) := by
  cases tokens with
  | nil => rfl
  | cons token tokens =>
    rw [eachInPlace?, token.attachInPlace?_eq, eachInPlace?_eq tokens]
    rfl

end

/-- No position and no range lies outside of the list as it is when it is looked up. -/
theorem attachInPlace?_eq (tokens : List Token) :
    attachInPlace? tokens = some (attachArguments tokens) := by
  rw [attachInPlace?, eachInPlace?_eq]
  exact attachBelow?_inside tokens

example : attachInPlace? [.command "sqrt" [], .whitespace, .char '[', .char '3', .char ']',
      .comment "degree", .group [.char 'x']]
    = some [.command "sqrt" [⟨.brackets, [.char '3']⟩, ⟨.braces, [.char 'x']⟩]] := by
  rfl

end WordExport.Math
