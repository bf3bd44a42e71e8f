import WordExport.Proofs.Xml.Printing

set_option autoImplicit false

/- Text back to XML, without knowing the tree that it was written from. The reader takes elements,
attributes in double quotes, characters and the five references that need no declaration, and
refuses everything else. It leaves line ends as they are. -/

namespace WordExport.Xml

/-- What is read between two tags: a character, or an element with all that it holds. -/
inductive Item where
  | char (c : Char)
  | element (tag : Tag) (children : List Item)

/-- A character of text, by itself or by its reference, and what follows it. -/
def character? : List Char → Option (Char × List Char)
  | '&' :: 'a' :: 'm' :: 'p' :: ';' :: rest => some ('&', rest)
  | '&' :: 'l' :: 't' :: ';' :: rest => some ('<', rest)
  | '&' :: 'g' :: 't' :: ';' :: rest => some ('>', rest)
  | '&' :: 'q' :: 'u' :: 'o' :: 't' :: ';' :: rest => some ('"', rest)
  | '&' :: 'a' :: 'p' :: 'o' :: 's' :: ';' :: rest => some ('\'', rest)
  | '&' :: _ | '<' :: _ | [] => none
  | c :: rest => some (c, rest)

theorem length_of_character? {cs rest : List Char} {c : Char}
    (found : character? cs = some (c, rest)) : rest.length < cs.length := by
  unfold character? at found
  split at found <;> simp only [Option.some.injEq, Prod.mk.injEq, reduceCtorEq] at found <;>
    (rw [← found.2]; simp only [List.length_cons]; omega)

/-- The value before a closing quote, and what follows the quote. -/
def value? (cs : List Char) : Option (List Char × List Char) :=
  if cs.head? = some '"' then some ([], cs.tail)
  else
    match _character : character? cs with
    | none => none
    | some (c, rest) => (value? rest).map fun (value, after) => (c :: value, after)
termination_by cs.length
decreasing_by exact length_of_character? _character

theorem length_of_value? {cs value rest : List Char} (found : value? cs = some (value, rest)) :
    rest.length < cs.length := by
  fun_induction value? cs generalizing value with
  | case1 cs quote =>
    simp only [Option.some.injEq, Prod.mk.injEq] at found
    cases cs with
    | nil => simp at quote
    | cons c cs => simp [← found.2]
  | case2 => simp at found
  | case3 cs _ c tail character ih =>
    simp only [Option.map_eq_some_iff, Prod.exists, Prod.mk.injEq] at found
    obtain ⟨_, _, below, _, rfl⟩ := found
    exact Nat.lt_trans (ih below) (length_of_character? character)

/-- The attributes of a tag, and what follows them. -/
def attributes? (cs : List Char) : Option (List (String × String) × List Char) :=
  match cs with
  | ' ' :: named =>
    match _equals : named.dropWhile isNameChar with
    | '=' :: '"' :: quoted =>
      match _value : value? quoted with
      | none => none
      | some (value, after) =>
        (attributes? after).map fun (others, rest) =>
          ((String.ofList (named.takeWhile isNameChar), String.ofList value) :: others, rest)
    | _ => none
  | _ => some ([], cs)
termination_by cs.length
decreasing_by
  have quoted := length_of_value? _value
  have named := (List.dropWhile_sublist isNameChar (l := named)).length_le
  rw [_equals] at named
  simp only [List.length_cons] at named ⊢
  omega

theorem length_of_attributes? {cs rest : List Char} {attributes : List (String × String)}
    (found : attributes? cs = some (attributes, rest)) : rest.length ≤ cs.length := by
  fun_induction attributes? cs generalizing attributes with
  | case1 => simp at found
  | case2 named quoted equals value after read ih =>
    simp only [Option.map_eq_some_iff, Prod.exists, Prod.mk.injEq] at found
    obtain ⟨_, _, below, _, rfl⟩ := found
    have first := length_of_value? read
    have second := (List.dropWhile_sublist isNameChar (l := named)).length_le
    have third := ih below
    rw [equals] at second
    simp only [List.length_cons] at second ⊢
    omega
  | case3 => simp at found
  | case4 =>
    simp only [Option.some.injEq, Prod.mk.injEq] at found
    simp [← found.2]

/-- A start tag after its opening bracket, with a name and no attribute twice, and its end. -/
def tag? (cs : List Char) : Option (Tag × List Char) := do
  let (attributes, rest) ← attributes? (cs.dropWhile isNameChar)
  let tag : Tag := ⟨String.ofList (cs.takeWhile isNameChar), attributes⟩
  if tag.isSound then some (tag, rest) else none

theorem length_of_tag? {cs rest : List Char} {tag : Tag} (found : tag? cs = some (tag, rest)) :
    rest.length ≤ cs.length := by
  simp only [tag?, bind, Option.bind_eq_some_iff, Prod.exists] at found
  obtain ⟨attributes, after, read, same⟩ := found
  split at same
  · simp only [Option.some.injEq, Prod.mk.injEq] at same
    rw [← same.2]
    exact Nat.le_trans (length_of_attributes? read)
      (List.dropWhile_sublist isNameChar).length_le
  · simp at same

inductive Lexeme where
  | char (c : Char)
  | opening (tag : Tag)
  | empty (tag : Tag)
  | closing (name : String)

def lexeme? : List Char → Option (Lexeme × List Char)
  | '<' :: '/' :: cs =>
    match cs.dropWhile isNameChar with
    | '>' :: rest => some (.closing (String.ofList (cs.takeWhile isNameChar)), rest)
    | _ => none
  | '<' :: cs =>
    match tag? cs with
    | some (tag, '>' :: rest) => some (.opening tag, rest)
    | some (tag, '/' :: '>' :: rest) => some (.empty tag, rest)
    | _ => none
  | cs => (character? cs).map fun (c, rest) => (.char c, rest)

theorem length_of_lexeme? {cs rest : List Char} {lexeme : Lexeme}
    (found : lexeme? cs = some (lexeme, rest)) : rest.length < cs.length := by
  unfold lexeme? at found
  split at found
  next cs =>
    have shorter := (List.dropWhile_sublist isNameChar (l := cs)).length_le
    split at found
    next closed =>
      simp only [Option.some.injEq, Prod.mk.injEq] at found
      rw [closed, found.2] at shorter
      simp only [List.length_cons] at shorter ⊢
      omega
    next => simp at found
  next cs _ =>
    split at found
    next tagged =>
      have shorter := length_of_tag? tagged
      simp only [Option.some.injEq, Prod.mk.injEq] at found
      rw [← found.2]
      simp only [List.length_cons] at shorter ⊢
      omega
    next tagged =>
      have shorter := length_of_tag? tagged
      simp only [Option.some.injEq, Prod.mk.injEq] at found
      rw [← found.2]
      simp only [List.length_cons] at shorter ⊢
      omega
    next => simp at found
  next =>
    simp only [Option.map_eq_some_iff, Prod.exists, Prod.mk.injEq] at found
    obtain ⟨_, _, character, _, rfl⟩ := found
    exact length_of_character? character

/-- Reads on to the end of the text. Items are held latest first, and so are the elements still
open, each with the items before it. -/
def items? (around : List (Tag × List Item)) (items : List Item) (cs : List Char) :
    Option (List Item) :=
  match _lexeme : lexeme? cs with
  | none => if cs.isEmpty && around.isEmpty then some items.reverse else none
  | some (.char c, rest) => items? around (.char c :: items) rest
  | some (.opening tag, rest) => items? ((tag, items) :: around) [] rest
  | some (.empty tag, rest) => items? around (.element tag [] :: items) rest
  | some (.closing name, rest) =>
    match around with
    | [] => none
    | (tag, before) :: outer =>
      if tag.name = name then items? outer (.element tag items.reverse :: before) rest else none
termination_by cs.length
decreasing_by all_goals exact length_of_lexeme? _lexeme

/-- The one element of a document, after the declaration. -/
def document? (text : String) : Option Item := do
  let body ← declaration.toList.isPrefixOf? text.toList
  match ← items? [] [] body with
  | [.element tag children] => some (.element tag children)
  | _ => none

/-- What a reader makes of a tag that was written. -/
def Tag.visible : Tag → Tag
  | ⟨name, attributes⟩ =>
    ⟨name, attributes.map fun (key, value) => (key, WordExport.Xml.visible value)⟩

namespace Node

mutual

def items : Node → List Item
  | text content => (visible content).toList.map .char
  | leaf name attributes => [.element (Tag.visible ⟨name, attributes⟩) []]
  | element name attributes children =>
    [.element (Tag.visible ⟨name, attributes⟩) (childItems children)]

def childItems : List Node → List Item
  | [] => []
  | child :: children => child.items ++ childItems children

end

theorem childItems_append (first second : List Node) :
    childItems (first ++ second) = childItems first ++ childItems second := by
  induction first with
  | nil => rfl
  | cons child children ih =>
    rw [List.cons_append, childItems, childItems, ih, List.append_assoc]

end Node

end WordExport.Xml
