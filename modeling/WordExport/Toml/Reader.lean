import WordExport.Toml.Scalar
import WordExport.Toml.Table

set_option autoImplicit false

namespace WordExport.Toml

/-- The most arrays and inline tables that may be open at once, and parts that a key may have. -/
def maxDepth : Nat := 79

def skipGaps (cs : List Char) : List Char :=
  cs.dropWhile isGap

/-- What follows a comment, if there is one. -/
def skipComment (cs : List Char) : List Char :=
  match cs with
  | '#' :: rest => rest.dropWhile isPrintable
  | _ => cs

/-- The start of the next line, nothing but gaps and a comment being left of this one. -/
def nextLine? (cs : List Char) : Option (List Char) :=
  match skipComment (skipGaps cs) with
  | [] => some []
  | rest => newline? rest

/-- Drops the gaps, newlines and comments between the items of an array. -/
def skipFiller (lines : Nat) (cs : List Char) : List Char :=
  match lines with
  | 0 => cs
  | lines + 1 =>
    match newline? (skipComment (skipGaps cs)) with
    | some rest => skipFiller lines rest
    | none => skipGaps cs

def isBareKey (c : Char) : Bool :=
  c.isAlphanum || c == '_' || c == '-'

def keyPart? (cs : List Char) : Option (String × List Char) :=
  match cs with
  | '"' :: rest => (basicBody? rest).map fun (text, after) => (String.ofList text, after)
  | '\'' :: rest => (literalBody? rest).map fun (text, after) => (String.ofList text, after)
  | _ =>
    match cs.takeWhile isBareKey with
    | [] => none
    | name => some (String.ofList name, cs.dropWhile isBareKey)

/-- The parts of a key, with the gaps around them; at most so many. -/
def keyParts? : Nat → List Char → Option (List String × List Char)
  | 0, _ => none
  | limit + 1, cs => do
    let (part, rest) ← keyPart? (skipGaps cs)
    match skipGaps rest with
    | '.' :: after => do
      let (parts, after) ← keyParts? limit after
      return (part :: parts, after)
    | after => some ([part], after)

/-- A key, its path apart from its last part. -/
def key? (cs : List Char) : Option ((List String × String) × List Char) := do
  let (parts, rest) ← keyParts? maxDepth cs
  let last ← parts.getLast?
  return ((parts.dropLast, last), rest)

/-- A key and the equals sign after it, up to where the value starts. -/
def assignee? (cs : List Char) : Option ((List String × String) × List Char) := do
  let (path, rest) ← key? cs
  match rest with
  | '=' :: after => some (path, skipGaps after)
  | _ => none

/-- An array or inline table whose end is not reached, with what it holds already, latest first. -/
inductive Frame where
  | array (items : List Value)
  | table (assignments : List Assignment) (path : List String × String)

/-- What comes next: a value, or whatever may follow the value just read. -/
inductive State where
  | value
  | done (value : Value)

/-- Reads on inside the open arrays and tables, up to the end of the outermost value. Every step
takes a character, so that as many steps as there are characters are enough. -/
def run (steps : Nat) (frames : List Frame) (state : State) (cs : List Char) :
    Option (Value × List Char) :=
  match steps with
  | 0 => none
  | steps + 1 =>
    match state, frames with
    | .value, _ =>
      match cs with
      | '[' :: rest =>
        if maxDepth ≤ frames.length then none
        else
          match skipFiller rest.length rest with
          | ']' :: after => run steps frames (.done (.array [])) after
          | inside => run steps (.array [] :: frames) .value inside
      | '{' :: rest =>
        if maxDepth ≤ frames.length then none
        else
          match skipGaps rest with
          | '}' :: after => run steps frames (.done (.table [])) after
          | inside => do
            let (path, after) ← assignee? inside
            run steps (.table [] path :: frames) .value after
      | _ => do
        let (value, rest) ← scalarValue? cs
        run steps frames (.done value) rest
    | .done value, [] => some (value, cs)
    | .done value, .array items :: outer =>
      match skipFiller cs.length cs with
      | ',' :: rest =>
        match skipFiller rest.length rest with
        | ']' :: after => run steps outer (.done (.array (value :: items).reverse)) after
        | inside => run steps (.array (value :: items) :: outer) .value inside
      | ']' :: rest => run steps outer (.done (.array (value :: items).reverse)) rest
      | _ => none
    | .done value, .table assignments (parents, key) :: outer =>
      match skipGaps cs with
      | ',' :: rest => do
        let (path, after) ← assignee? rest
        run steps (.table (⟨parents, key, value⟩ :: assignments) path :: outer) .value after
      | '}' :: rest => do
        let table ← inlineTable? (⟨parents, key, value⟩ :: assignments).reverse
        run steps outer (.done table) rest
      | _ => none

def value? (cs : List Char) : Option (Value × List Char) :=
  run (cs.length + 1) [] .value cs

inductive Statement where
  | table (parents : List String) (key : String)
  | element (parents : List String) (key : String)
  | assignment (assignment : Assignment)

/-- A header in single or double brackets, or an assignment. -/
def statement? (cs : List Char) : Option (Statement × List Char) :=
  match cs with
  | '[' :: '[' :: rest => do
    let ((parents, key), after) ← key? rest
    match after with
    | ']' :: ']' :: after => some (.element parents key, after)
    | _ => none
  | '[' :: rest => do
    let ((parents, key), after) ← key? rest
    match after with
    | ']' :: after => some (.table parents key, after)
    | _ => none
  | _ => do
    let ((parents, key), after) ← assignee? cs
    let (value, rest) ← value? after
    return (.assignment ⟨parents, key, value⟩, rest)

/-- The statements of a text, at most one to a line. -/
def statements? (lines : Nat) (cs : List Char) : Option (List Statement) :=
  match lines, skipGaps cs with
  | _, [] => some []
  | 0, _ => none
  | lines + 1, start =>
    match nextLine? start with
    | some rest => statements? lines rest
    | none => do
      let (statement, after) ← statement? start
      let rest ← nextLine? after
      return statement :: (← statements? lines rest)

/-- The assignments up to the next header, and the statements from there. -/
def untilHeader : List Statement → List Assignment × List Statement
  | .assignment assignment :: statements =>
    let (assignments, rest) := untilHeader statements
    (assignment :: assignments, rest)
  | statements => ([], statements)

/-- Adds tables with headers, each with the assignments that follow it. -/
def addSections (root : Table) : List Statement → Option Table
  | [] => some root
  | .assignment _ :: statements => addSections root statements
  | .table parents key :: statements => do
    addSections (← root.addTable parents key (untilHeader statements).1) statements
  | .element parents key :: statements => do
    addSections (← root.addElement parents key (untilHeader statements).1) statements

/-- The table that statements describe. Assignments before the first header belong to the root. -/
def tableOf? (statements : List Statement) : Option Table := do
  let (assignments, sections) := untilHeader statements
  let root ← Table.assignAll ⟨.header, []⟩ assignments
  addSections root sections

/-- The entries of a TOML text, which a byte order mark may precede. -/
def read? (text : String) : Option (List (String × Value)) := do
  let cs := match text.toList with
    | '\uFEFF' :: rest => rest
    | cs => cs
  let statements ← statements? (cs.length + 1) cs
  let table ← tableOf? statements
  return entryValues table.entries

end WordExport.Toml
