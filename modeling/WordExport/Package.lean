import WordExport.Options
import WordExport.Package.Body
import WordExport.Package.Settings
import WordExport.Package.Styles

set_option autoImplicit false

namespace WordExport

inductive PartContent where
  | markup (root : Xml.Node)
  | media (data : List UInt8)

structure Part where
  name : String
  content : PartContent

def packageRelationships : List Relationship := [
  ⟨.document, "word/document.xml"⟩, ⟨.coreProperties, "docProps/core.xml"⟩]

/-- The media type of a package. -/
def mediaType : String :=
  "application/vnd.openxmlformats-officedocument.wordprocessingml.document"

/-- The parts of a document. The body is written before the footnotes, whose relationships have a
part of their own only if there are any; media come last. -/
def Document.parts (document : Document) : List Part :=
  let (body, bodyLedger) := (bodyPart document).run { relationships := bodyRelationships }
  let (footnotes, ledger) := (footnotesPart document).run { media := bodyLedger.media }
  let markup := fun name root => Part.mk name (.markup root)
  [markup "[Content_Types].xml" contentTypesPart,
    markup "_rels/.rels" (relationshipsPart packageRelationships),
    markup "docProps/core.xml" document.properties.part,
    markup "word/document.xml" body,
    markup "word/_rels/document.xml.rels" (relationshipsPart bodyLedger.relationships),
    markup "word/styles.xml" (stylesPart (document.styles.getD {})),
    markup "word/numbering.xml" (numberingPart document.numbering),
    markup "word/footnotes.xml" footnotes,
    markup "word/settings.xml" (settingsPart document.background.isSome)]
  ++ (if ledger.relationships.isEmpty then []
    else [markup "word/_rels/footnotes.xml.rels" (relationshipsPart ledger.relationships)])
  ++ ledger.media.map fun media => ⟨"word/media/" ++ media.name, .media media.data⟩

/-- A package, with its media type if it is handed over as a blob. -/
structure Package where
  blobType : Option String := none
  parts : List Part

def Document.pack (document : Document) (mode : OutputMode) : Package where
  blobType :=
    match mode with
    | .buffer => none
    | .blob => some mediaType
  parts := document.parts

end WordExport
