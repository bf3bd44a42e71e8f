import WordExport.Toml.Value

set_option autoImplicit false

namespace WordExport.Toml

/-- What called a table into being: a header of its own, the header of a table inside it, or a
dotted key. -/
inductive Origin where
  | header
  | implied
  | dotted
  deriving DecidableEq, Repr

mutual

/-- An entry of a table under construction; the tables of an array come latest first. -/
inductive Item where
  | value (value : Value)
  | table (table : Table)
  | tables (latestFirst : List Table)

structure Table where
  origin : Origin
  entries : List (String × Item)

end

/-- A key with its path, and the value given to it. -/
structure Assignment where
  parents : List String
  key : String
  value : Value

namespace Table

def put (table : Table) (key : String) (item : Item) : Table :=
  { table with entries := (key, item) :: table.entries.filter (·.1 != key) }

/-- Changes the table at a path, making those on the way that are missing. In an array of tables
the latest one is meant. Dotted keys do not enter a table with a header of its own, and nothing
enters a value. -/
def changeAt (dotted : Bool) (change : Table → Option Table) : List String → Table → Option Table
  | [], table => change table
  | key :: path, table =>
    match table.entries.lookup key with
    | none => do
      let origin := if dotted then .dotted else .implied
      return table.put key (.table (← changeAt dotted change path ⟨origin, []⟩))
    | some (.table inner) =>
      if dotted && inner.origin == .header then none
      else do return table.put key (.table (← changeAt dotted change path inner))
    | some (.tables (latest :: earlier)) => do
      return table.put key (.tables ((← changeAt dotted change path latest) :: earlier))
    | some _ => none

/-- Gives a new key its value. A path ends in a table that dotted keys have made. -/
def assign (table : Table) (assignment : Assignment) : Option Table :=
  let change := fun (target : Table) =>
    if (target.origin == .dotted) == assignment.parents.isEmpty then none
    else if (target.entries.lookup assignment.key).isSome then none
    else some (target.put assignment.key (.value assignment.value))
  table.changeAt true change assignment.parents

def assignAll (table : Table) (assignments : List Assignment) : Option Table :=
  assignments.foldlM assign table

/-- Adds a table with a header: a new one, or one that the headers of others have implied. -/
def addTable (root : Table) (parents : List String) (key : String)
    (assignments : List Assignment) : Option Table :=
  let change := fun (parent : Table) =>
    match parent.entries.lookup key with
    | none => do return parent.put key (.table (← assignAll ⟨.header, []⟩ assignments))
    | some (.table ⟨.implied, entries⟩) => do
      return parent.put key (.table (← assignAll ⟨.header, entries⟩ assignments))
    | some _ => none
  root.changeAt false change parents

/-- Adds a table to an array of tables, which may be a new one. -/
def addElement (root : Table) (parents : List String) (key : String)
    (assignments : List Assignment) : Option Table :=
  let change := fun (parent : Table) => do
    let element ← assignAll ⟨.header, []⟩ assignments
    match parent.entries.lookup key with
    | none => some (parent.put key (.tables [element]))
    | some (.tables earlier) => some (parent.put key (.tables (element :: earlier)))
    | some _ => none
  root.changeAt false change parents

end Table

mutual

def Item.toValue : Item → Value
  | .value value => value
  | .table ⟨_, entries⟩ => .table (entryValues entries)
  | .tables latestFirst => .array (tableValues latestFirst).reverse

def entryValues : List (String × Item) → List (String × Value)
  | [] => []
  | (key, item) :: entries => (key, item.toValue) :: entryValues entries

def tableValues : List Table → List Value
  | [] => []
  | ⟨_, entries⟩ :: tables => .table (entryValues entries) :: tableValues tables

end

/-- The value of an inline table. -/
def inlineTable? (assignments : List Assignment) : Option Value :=
  (Table.assignAll ⟨.header, []⟩ assignments).map fun table => .table (entryValues table.entries)

end WordExport.Toml
