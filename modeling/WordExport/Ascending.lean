set_option autoImplicit false

namespace WordExport

/-- Stores a value under its key, in place of an earlier one, in a table whose keys ascend. -/
def insertAscending {κ α : Type} [LT κ] [DecidableLT κ] (key : κ) (value : α) :
    List (κ × α) → List (κ × α)
  | [] => [(key, value)]
  | (other, kept) :: above =>
    if key < other then (key, value) :: (other, kept) :: above
    else if other < key then (other, kept) :: insertAscending key value above
    else (key, value) :: above

/-- The table of entries of which the last one under a key counts. -/
def lastByKey {κ α : Type} [LT κ] [DecidableLT κ] (entries : List (κ × α)) : List (κ × α) :=
  entries.foldl (fun table (key, value) => insertAscending key value table) []

/-- The table of entries of which the first one under a key counts. -/
def firstByKey {κ α : Type} [LT κ] [DecidableLT κ] (entries : List (κ × α)) : List (κ × α) :=
  entries.foldr (fun (key, value) table => insertAscending key value table) []

end WordExport
