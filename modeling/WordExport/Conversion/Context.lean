import WordExport.Document.Content
import WordExport.Document.Length

set_option autoImplicit false

namespace WordExport

structure Decoration where
  strong : Bool := false
  emphasis : Bool := false
  delete : Bool := false
  deriving DecidableEq, Repr

/-- The innermost list around a node: how deep it is nested, and whether the item in it is a task,
done or not. -/
structure ListPosition where
  level : Nat
  ordered : Bool
  checked : Option Bool := none
  deriving DecidableEq, Repr

/-- The context of a node; `indent` is the number of quotations around it. -/
structure Context where
  images : ImageTable := {}
  decoration : Decoration := {}
  indent : Nat := 0
  list : Option ListPosition := none
  preset : Option TablePreset := none

/-- The numbering definition of ordered lists. -/
def orderedReference : String := "ordered"

namespace Context

def quoted (context : Context) : Context :=
  { context with indent := context.indent + 1 }

def strong (context : Context) : Context :=
  { context with decoration := { context.decoration with strong := true } }

def emphasized (context : Context) : Context :=
  { context with decoration := { context.decoration with emphasis := true } }

def deleted (context : Context) : Context :=
  { context with decoration := { context.decoration with delete := true } }

/-- The context of the children of a list. -/
def listed (context : Context) (ordered : Bool) : Context :=
  let level := match context.list with
    | some outer => outer.level + 1
    | none => 0
  { context with list := some { level, ordered } }

/-- The context of the children of a list item. -/
def item (context : Context) (checked : Option Bool) : Context :=
  { context with list := context.list.map fun position => { position with checked } }

def textRun (context : Context) (text : String) : TextRun where
  text
  bold := context.decoration.strong
  italics := context.decoration.emphasis
  strike := context.decoration.delete

def numbering (context : Context) : Option Numbering :=
  context.list.map fun position =>
    if position.ordered then .ordered orderedReference position.level else .bullet position.level

/-- A paragraph in the context, with the checkbox of a task before its items. -/
def paragraph (context : Context) (children : List Inline) : Paragraph where
  children :=
    match context.list.bind ListPosition.checked with
    | some checked => .checkbox checked :: children
    | none => children
  indent := if context.indent = 0 then none else some (levelIndent context.indent)
  numbering := context.numbering

end Context

end WordExport
