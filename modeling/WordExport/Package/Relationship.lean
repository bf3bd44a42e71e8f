import WordExport.Xml.Node

set_option autoImplicit false

namespace WordExport

inductive RelationshipKind where
  | document
  | coreProperties
  | styles
  | numbering
  | footnotes
  | settings
  | hyperlink
  | image
  deriving DecidableEq, Repr

/-- A relationship. Its id comes from its place in the list of its part. -/
structure Relationship where
  kind : RelationshipKind
  target : String
  deriving DecidableEq, Repr

namespace RelationshipKind

def uri : RelationshipKind → String
  | document =>
    "http://schemas.openxmlformats.org/officeDocument/2006/relationships/officeDocument"
  | coreProperties =>
    "http://schemas.openxmlformats.org/package/2006/relationships/metadata/core-properties"
  | styles => "http://schemas.openxmlformats.org/officeDocument/2006/relationships/styles"
  | numbering => "http://schemas.openxmlformats.org/officeDocument/2006/relationships/numbering"
  | footnotes => "http://schemas.openxmlformats.org/officeDocument/2006/relationships/footnotes"
  | settings => "http://schemas.openxmlformats.org/officeDocument/2006/relationships/settings"
  | hyperlink => "http://schemas.openxmlformats.org/officeDocument/2006/relationships/hyperlink"
  | image => "http://schemas.openxmlformats.org/officeDocument/2006/relationships/image"

/-- Whether the target lies outside of the package. -/
def isExternal : RelationshipKind → Bool
  | hyperlink => true
  | _ => false

end RelationshipKind

/-- The id of the relationship at a place, counted from 0. -/
def relationshipId (index : Nat) : String :=
  "rId" ++ toString (index + 1)

def Relationship.markup (index : Nat) (relationship : Relationship) : Xml.Node :=
  .leaf "Relationship" <|
    [("Id", relationshipId index), ("Type", relationship.kind.uri),
      ("Target", relationship.target)]
    ++ if relationship.kind.isExternal then [("TargetMode", "External")] else []

def relationshipsPart (relationships : List Relationship) : Xml.Node :=
  .element "Relationships"
    [("xmlns", "http://schemas.openxmlformats.org/package/2006/relationships")]
    (relationships.mapIdx Relationship.markup)

end WordExport
