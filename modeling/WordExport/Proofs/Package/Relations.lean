import Mathlib.Data.List.Forall2
import WordExport.Proofs.Package.Uses

set_option autoImplicit false

namespace WordExport

open Xml (Node)

def Part.root? : Part → Option Node
  | ⟨_, .markup root⟩ => some root
  | ⟨_, .media _⟩ => none

def rootOf? (parts : List Part) (name : String) : Option Node :=
  (parts.find? fun part => part.name = name).bind Part.root?

def Xml.Node.children : Node → List Node
  | element _ _ children => children
  | _ => []

/-- What the root of a part holds; nothing where there is no such part. -/
def childrenOf (parts : List Part) (name : String) : List Node :=
  ((rootOf? parts name).map Node.children).getD []

def mentionsOf (parts : List Part) (name : String) : List (String × String) :=
  ((rootOf? parts name).map Node.mentions).getD []

def drawingIdsOf (parts : List Part) (name : String) : List String :=
  ((rootOf? parts name).map Node.drawingIds).getD []

def mediaParts (parts : List Part) : List Part :=
  parts.filter fun part => "word/media/".toList.isPrefixOf part.name.toList

/-- An entry of a part of relationships. -/
structure Entry where
  id : String
  type : String
  target : String
  external : Bool
  deriving DecidableEq, Repr

def Entry.ofNode? : Node → Option Entry
  | .leaf name attributes =>
    if name = "Relationship" then do
      let id ← attributes.lookup "Id"
      let type ← attributes.lookup "Type"
      let target ← attributes.lookup "Target"
      return { id, type, target := Xml.visible target
               external := attributes.lookup "TargetMode" == some "External" }
    else none
  | _ => none

def entriesOf (parts : List Part) (name : String) : List Entry :=
  (childrenOf parts name).filterMap Entry.ofNode?

/-- A link is served by its address outside of the package, and an image by a file with its bytes. -/
def Entry.Serves (parts : List Part) (entry : Entry) : Use → Prop
  | .link url =>
    entry.type = RelationshipKind.hyperlink.uri ∧ entry.external = true
      ∧ entry.target = Xml.visible url
  | .image image =>
    entry.type = RelationshipKind.image.uri ∧ entry.external = false
      ∧ ∃ name, entry.target = "media/" ++ name
        ∧ ⟨"word/media/" ++ name, .media image.data⟩ ∈ parts

/-- The entries that a part mentions, each one once and in the order of the uses that they serve. -/
structure Served (parts : List Part) (uses : List Use) (mentions : List (String × String))
    (entries : List Entry) : Prop where
  distinct : (mentions.map Prod.snd).Nodup
  ids : mentions.map Prod.snd = entries.map Entry.id
  attributes : mentions.map Prod.fst = uses.map Use.attributeName
  targets : List.Forall₂ (Entry.Serves parts) entries uses

/-- The part that an entry of a part in a folder points to, if it lies in the package. -/
def Entry.Internal (parts : List Part) (folder : String) (entry : Entry) : Prop :=
  entry.external = true ∨ folder ++ entry.target ∈ parts.map Part.name

def HasExtension (name extension : String) : Prop :=
  '.' ∉ extension.toList ∧ ∃ stem, name = stem ++ "." ++ extension

/-- The values of an attribute on the leaves of the given name. -/
def attributeValues (element key : String) (nodes : List Node) : List String :=
  nodes.filterMap fun
    | .leaf name attributes => if name = element then attributes.lookup key else none
    | _ => none

/-- The content types give the part a type, by its name or by its extension. -/
def Covered (parts : List Part) (name : String) : Prop :=
  "/" ++ name ∈ attributeValues "Override" "PartName" (childrenOf parts "[Content_Types].xml")
    ∨ ∃ extension ∈ attributeValues "Default" "Extension"
        (childrenOf parts "[Content_Types].xml"), HasExtension name extension

/-- The entries that the body has whatever its content. -/
def fixedEntries : List Entry := [
  ⟨"rId1", RelationshipKind.styles.uri, "styles.xml", false⟩,
  ⟨"rId2", RelationshipKind.numbering.uri, "numbering.xml", false⟩,
  ⟨"rId3", RelationshipKind.footnotes.uri, "footnotes.xml", false⟩,
  ⟨"rId4", RelationshipKind.settings.uri, "settings.xml", false⟩]

/-- The file of each image, numbered from 1. -/
def filesOf (images : List Image) : List Part :=
  (images.zipIdx 1).map fun (image, number) =>
    ⟨"word/media/image" ++ toString number ++ "." ++ imageExtension image.data,
      .media image.data⟩

/-- What the content of a document mentions in its parts is there, and nothing else is. -/
structure Closed (document : Document) (parts : List Part) : Prop where
  names_distinct : (parts.map Part.name).Nodup
  body_present : (rootOf? parts "word/document.xml").isSome
  body_fixed : (entriesOf parts "word/_rels/document.xml.rels").take 4 = fixedEntries
  body_ids : ((entriesOf parts "word/_rels/document.xml.rels").map Entry.id).Nodup
  body_served : Served parts document.bodyUses (mentionsOf parts "word/document.xml")
    ((entriesOf parts "word/_rels/document.xml.rels").drop 4)
  footnotes_present : (rootOf? parts "word/footnotes.xml").isSome
  footnotes_served : Served parts document.footnoteUses (mentionsOf parts "word/footnotes.xml")
    (entriesOf parts "word/_rels/footnotes.xml.rels")
  footnotes_related : "word/_rels/footnotes.xml.rels" ∈ parts.map Part.name
    ↔ mentionsOf parts "word/footnotes.xml" ≠ []
  media : mediaParts parts = filesOf (imagesOf (document.bodyUses ++ document.footnoteUses))
  media_referenced : ∀ part ∈ mediaParts parts,
    ∃ entry ∈ entriesOf parts "word/_rels/document.xml.rels"
        ++ entriesOf parts "word/_rels/footnotes.xml.rels",
      entry.external = false ∧ part.name = "word/" ++ entry.target
  drawings_numbered :
    drawingIdsOf parts "word/document.xml" ++ drawingIdsOf parts "word/footnotes.xml"
      = (List.range' 1 (mediaParts parts).length).map toString
  drawings_distinct :
    (drawingIdsOf parts "word/document.xml" ++ drawingIdsOf parts "word/footnotes.xml").Nodup
  package_internal : ∀ entry ∈ entriesOf parts "_rels/.rels", entry.Internal parts ""
  body_internal : ∀ entry ∈ entriesOf parts "word/_rels/document.xml.rels",
    entry.Internal parts "word/"
  footnotes_internal : ∀ entry ∈ entriesOf parts "word/_rels/footnotes.xml.rels",
    entry.Internal parts "word/"
  covered : ∀ part ∈ parts, Covered parts part.name

end WordExport
