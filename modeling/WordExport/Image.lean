set_option autoImplicit false

namespace WordExport

/-- An image with its size in pixels. -/
structure Image where
  data : List UInt8
  width : Nat
  height : Nat
  deriving DecidableEq, Repr

/-- Images by their address; the first entry of an address is the one that counts. -/
structure ImageTable where
  entries : List (String × Image) := []

namespace ImageTable

def find? (table : ImageTable) (url : String) : Option Image :=
  table.entries.lookup url

/-- Stores an image under its address in place of any earlier one. -/
def insert (table : ImageTable) (url : String) (image : Image) : ImageTable :=
  ⟨(url, image) :: table.entries.filter (·.1 != url)⟩

theorem find?_insert (table : ImageTable) (stored sought : String) (image : Image) :
    (table.insert stored image).find? sought
      = if sought = stored then some image else table.find? sought := by
  by_cases same : sought = stored
  · simp [find?, insert, same]
  · simp only [find?, insert, List.lookup_cons, beq_false_of_ne same, if_neg same]
    induction table.entries with
    | nil => rfl
    | cons entry entries ih =>
      obtain ⟨url, _⟩ := entry
      by_cases dropped : url = stored
      · simp [dropped, List.lookup_cons, beq_false_of_ne same, ih]
      · simp [dropped, List.lookup_cons, ih]

end ImageTable

end WordExport
