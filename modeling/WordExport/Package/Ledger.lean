import WordExport.Image
import WordExport.Package.Relationship

set_option autoImplicit false

namespace WordExport

structure Media where
  name : String
  data : List UInt8
  deriving DecidableEq, Repr

/-- The relationships of the part being written and the media of all parts so far. -/
structure Ledger where
  relationships : List Relationship := []
  media : List Media := []

abbrev Writing (α : Type) : Type := StateM Ledger α

/-- The file extension of an image, by the bytes it starts with; `png` where they tell nothing. -/
def imageExtension : List UInt8 → String
  | 0x89 :: 0x50 :: 0x4E :: 0x47 :: _ => "png"
  | 0xFF :: 0xD8 :: 0xFF :: _ => "jpeg"
  | 0x47 :: 0x49 :: 0x46 :: 0x38 :: _ => "gif"
  | 0x42 :: 0x4D :: _ => "bmp"
  | _ => "png"

namespace Writing

/-- Adds a relationship, answering its id. -/
def relate (kind : RelationshipKind) (target : String) : Writing String := fun ledger =>
  (relationshipId ledger.relationships.length,
    { ledger with relationships := ledger.relationships ++ [⟨kind, target⟩] })

/-- Stores image data, answering the number of the image, counted from 1, and its file name. -/
def store (data : List UInt8) : Writing (Nat × String) := fun ledger =>
  let number := ledger.media.length + 1
  let name := "image" ++ toString number ++ "." ++ imageExtension data
  ((number, name), { ledger with media := ledger.media ++ [⟨name, data⟩] })

end Writing

end WordExport
