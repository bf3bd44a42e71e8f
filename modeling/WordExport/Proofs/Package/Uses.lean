import WordExport.Package

set_option autoImplicit false

namespace WordExport

/-- What content uses from outside of its part. -/
inductive Use where
  | link (url : String)
  | image (image : Image)

namespace Use

/-- The attribute that names the relationship of a use. -/
def attributeName : Use → String
  | link _ => "r:id"
  | image _ => "r:embed"

def image? : Use → Option Image
  | link _ => none
  | image shown => some shown

end Use

def imagesOf (uses : List Use) : List Image :=
  uses.filterMap Use.image?

mutual

/-- The links and images of content, in order of appearance. -/
def Inline.uses : Inline → List Use
  | .image image => [.image image]
  | .link url children => .link url :: itemUses children
  | _ => []

def itemUses : List Inline → List Use
  | [] => []
  | item :: items => item.uses ++ itemUses items

end

def Paragraph.uses (paragraph : Paragraph) : List Use :=
  itemUses paragraph.children

mutual

def Block.uses : Block → List Use
  | .paragraph paragraph => paragraph.uses
  | .table ⟨rows, _⟩ => rowUses rows

def rowUses : List Row → List Use
  | [] => []
  | ⟨cells, _⟩ :: rows => cellUses cells ++ rowUses rows

def cellUses : List Cell → List Use
  | [] => []
  | ⟨children, _⟩ :: cells => blockUses children ++ cellUses cells

def blockUses : List Block → List Use
  | [] => []
  | block :: blocks => block.uses ++ blockUses blocks

end

namespace Document

def bodyUses (document : Document) : List Use :=
  blockUses document.sections.flatten

/-- Footnotes ascend by their id. -/
def footnoteUses (document : Document) : List Use :=
  document.footnotes.flatMap fun (_, body) => body.flatMap Paragraph.uses

end Document

/-- What markup says of its part: the name of a relationship, or the number of a drawing. -/
inductive Mark where
  | relationship (key id : String)
  | drawing (id : String)
  deriving DecidableEq, Repr

namespace Mark

def relationship? : Mark → Option (String × String)
  | relationship key id => some (key, id)
  | drawing _ => none

def drawing? : Mark → Option String
  | relationship _ _ => none
  | drawing id => some id

/-- The mark that an attribute makes on an element of the given name. -/
def ofAttribute? (element : String) : String × String → Option Mark
  | (key, value) =>
    if key = "r:id" ∨ key = "r:embed" then some (.relationship key value)
    else if key = "id" ∧ element = "wp:docPr" then some (.drawing value)
    else none

end Mark

namespace Xml.Node

mutual

/-- The marks of a tree in order of appearance. -/
def marks : Node → List Mark
  | text _ => []
  | leaf name attributes => attributes.filterMap (Mark.ofAttribute? name)
  | element name attributes children =>
    attributes.filterMap (Mark.ofAttribute? name) ++ childMarks children

def childMarks : List Node → List Mark
  | [] => []
  | child :: children => child.marks ++ childMarks children

end

/-- The values of `r:id` and `r:embed`, each with its attribute. -/
def mentions (root : Node) : List (String × String) :=
  root.marks.filterMap Mark.relationship?

def drawingIds (root : Node) : List String :=
  root.marks.filterMap Mark.drawing?

end Xml.Node

end WordExport
