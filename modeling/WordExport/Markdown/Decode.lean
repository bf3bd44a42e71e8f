import WordExport.Error
import WordExport.Json.Reader
import WordExport.Markdown.Record

set_option autoImplicit false

/- JSON to Markdown trees. A node is an object with a `type`, or a list of its kind and its fields;
members that are no fields of its kind are left aside. A child of the root gives its kind by name,
and a node further down may also give it by number. -/

namespace WordExport.Markdown

open Json (Value)

/-- The fields of these names among the members of an object, none of them given twice. -/
def recordOfMembers? (members : List (List Nat × Entry)) : List String → Option Record
  | [] => some []
  | name :: names => do
    let record ← recordOfMembers? members names
    match members.filter (·.1 == Json.pointsOf name) with
    | [] => some record
    | [(_, entry)] => some ((name, entry) :: record)
    | _ => none

def recordOfItems? : List String → List Entry → Option Record
  | _, [] => some []
  | [], _ => none
  | name :: names, entry :: entries => do return (name, entry) :: (← recordOfItems? names entries)

/-- The node of an object, its kind being read as given. -/
def Node.ofMembers? (kindOf? : Value → Option String) (members : List (List Nat × Entry)) :
    Option Node :=
  match members.filter (·.1 == Json.pointsOf "type") with
  | [(_, tag)] => do
    let kind ← kindOf? tag.value
    match fieldNames? kind with
    | some names => Node.ofRecord? kind (← recordOfMembers? members names)
    | none => some (Node.fieldless kind)
  | _ => none

/-- The node of a list, its kind being read as given. -/
def Node.ofItems? (kindOf? : Value → Option String) : List Entry → Option Node
  | tag :: entries => do
    let kind ← kindOf? tag.value
    match fieldNames? kind with
    | some names => Node.ofRecord? kind (← recordOfItems? names entries)
    | none => if entries.isEmpty then some (Node.fieldless kind) else none
  | [] => none

mutual

/-- A node below another node. -/
def Node.ofValue? : Value → Option Node
  | .object members => Node.ofMembers? kind? (memberEntries members)
  | .array items => Node.ofItems? kind? (itemEntries items)
  | _ => none

def nodes? : Value → Option (List Node)
  | .array items => nodeList? items
  | _ => none

def nodeList? : List Value → Option (List Node)
  | [] => some []
  | item :: items => do return (← Node.ofValue? item) :: (← nodeList? items)

def memberEntries : List (List Nat × Value) → List (List Nat × Entry)
  | [] => []
  | (key, value) :: members => (key, ⟨value, nodes? value⟩) :: memberEntries members

def itemEntries : List Value → List Entry
  | [] => []
  | item :: items => ⟨item, nodes? item⟩ :: itemEntries items

end

namespace Tree

/-- The most arrays and objects that may be open at once. -/
def maxDepth : Nat := 127

/-- A child of the root. -/
def child? : Value → Option Node
  | .object members => Node.ofMembers? string? (memberEntries members)
  | .array items => Node.ofItems? string? (itemEntries items)
  | _ => none

def ofChildren? (children : Value) : Option Tree :=
  if children.isReadable (maxDepth - 1) then (listOf? child? children).map Tree.mk else none

/-- The root is an object with its children under `children`, or a list of its children as the one
item. Whatever else the object has is not looked into. -/
def ofValue? : Value → Option Tree
  | .object members =>
    if members.all fun (key, _) => (Json.textOf? key).isSome then
      match members.filter (·.1 == Json.pointsOf "children") with
      | [] => some ⟨[]⟩
      | [(_, children)] => ofChildren? children
      | _ => none
    else none
  | .array [] => some ⟨[]⟩
  | .array [children] => ofChildren? children
  | _ => none

/-- The tree that a JSON text describes. -/
def ofJson (text : String) : Except InputFault Tree :=
  match Json.read? text with
  | none => .error (.tree "not a JSON text")
  | some value =>
    match ofValue? value with
    | none => .error (.tree "not a Markdown tree")
    | some tree => .ok tree

end Tree

end WordExport.Markdown
