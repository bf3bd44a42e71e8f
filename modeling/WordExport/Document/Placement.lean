import WordExport.Document.Content

set_option autoImplicit false

namespace WordExport

/-- What may stand among blocks or inside a paragraph. -/
inductive Content where
  | paragraph (paragraph : Paragraph)
  | table (table : Table)
  | inline (item : Inline)

mutual

/-- The inline items of a block, from left to right. -/
def Block.inlines : Block → List Inline
  | .paragraph paragraph => paragraph.children
  | .table ⟨rows, _⟩ => rowInlines rows

def rowInlines : List Row → List Inline
  | [] => []
  | ⟨cells, _⟩ :: rows => cellInlines cells ++ rowInlines rows

def cellInlines : List Cell → List Inline
  | [] => []
  | ⟨children, _⟩ :: cells => blockInlines children ++ cellInlines cells

def blockInlines : List Block → List Inline
  | [] => []
  | block :: blocks => block.inlines ++ blockInlines blocks

end

def Table.inlines (table : Table) : List Inline :=
  rowInlines table.rows

/-- A paragraph of loose inline items, if there are any. -/
def looseParagraph (loose : List Inline) : List Block :=
  if loose.isEmpty then [] else [.paragraph { children := loose }]

/-- The blocks of content that follows loose inline items. -/
def blocksAfter (loose : List Inline) : List Content → List Block
  | [] => looseParagraph loose
  | .inline item :: contents => blocksAfter (loose ++ [item]) contents
  | .paragraph paragraph :: contents =>
    looseParagraph loose ++ .paragraph paragraph :: blocksAfter [] contents
  | .table table :: contents => looseParagraph loose ++ .table table :: blocksAfter [] contents

/-- Content as blocks: inline items next to one another share a paragraph. -/
def toBlocks (contents : List Content) : List Block :=
  blocksAfter [] contents

def Content.inlines : Content → List Inline
  | .paragraph written => written.children
  | .table written => written.inlines
  | .inline item => [item]

/-- Content as inline items: of paragraphs and tables only the items are left. -/
def toInlines (contents : List Content) : List Inline :=
  contents.flatMap Content.inlines

end WordExport
