import WordExport.Conversion.Nodes
import WordExport.Proofs.Footnotes.Ascending

set_option autoImplicit false

/- Conversion in place. Two tables hold the footnotes met so far, and every node is converted with
the tables, and behind the content, that those before it left. What it adds to them is what it
notes by itself. -/

namespace WordExport

open Markdown (Node ColumnAlignment)

/-- The footnotes that a conversion has met: bodies by identifier, and the numbers referred to,
each with the identifier that came to it first. -/
@[ext]
structure FootnoteTables where
  bodies : List (String × List Paragraph)
  references : List (Nat × String)
  bodies_ascending : Ascending bodies
  references_ascending : Ascending references

namespace FootnoteTables

instance : EmptyCollection FootnoteTables :=
  ⟨[], [], .empty, .empty⟩

/-- Takes a definition in, in place of an earlier one of its identifier. -/
def define (identifier : String) (body : List Paragraph) (tables : FootnoteTables) :
    FootnoteTables :=
  { tables with
    bodies := insertAscending identifier body tables.bodies
    bodies_ascending := ascending_insertAscending tables.bodies_ascending identifier body }

/-- Takes a reference in, unless there is one to its number. -/
def refer (id : Nat) (identifier : String) (tables : FootnoteTables) : FootnoteTables :=
  { tables with
    references := enterAscending id identifier tables.references
    references_ascending := ascending_enterAscending tables.references_ascending id identifier }

/-- Takes in what a conversion notes, in order. -/
def add (tables : FootnoteTables) (definitions : List (String × List Paragraph))
    (references : List (Nat × String)) : FootnoteTables where
  bodies := insertAll tables.bodies definitions
  references := enterAll tables.references references
  bodies_ascending := ascending_insertAll tables.bodies_ascending definitions
  references_ascending := ascending_enterAll tables.references_ascending references

theorem add_append (tables : FootnoteTables)
    (definitions definitions' : List (String × List Paragraph))
    (references references' : List (Nat × String)) :
    tables.add (definitions ++ definitions') (references ++ references')
      = (tables.add definitions references).add definitions' references' := by
  apply FootnoteTables.ext
  · exact List.foldl_append
  · exact List.foldl_append

end FootnoteTables

/-- A conversion that holds the tables and changes them as it goes on. Nothing is left of them where
it fails. -/
abbrev Converting : Type → Type := StateT FootnoteTables (Except Error)

/-- The part of the row at a place. -/
def rowPart (place : Nat) (preset : TablePreset) : Option TablePart :=
  if place = 0 then preset.header else preset.body

mutual

/-- Puts what becomes of a node behind what is written already. -/
def writeNode (context : Context) (written : List Content) : Node → Converting (List Content)
  | .paragraph children => do
    let contents ← writeNodes context [] children
    return written ++ [.paragraph (context.paragraph (toInlines contents))]
  | .heading depth children => do
    let contents ← writeNodes context [] children
    return written
      ++ [.paragraph { children := toInlines contents, heading := headingOfDepth? depth }]
  | .thematicBreak => return written ++ [.paragraph { thematicBreak := true }]
  | .blockquote children => do
    let contents ← writeNodes context.quoted [] children
    return written ++ contents
  | .list ordered _ _ children =>
    writeItems (context.listed (ordered.getD false)) written children
  | .table align children => do
    let rows ← writeRows context align [] 0 children
    return written ++ [.table ⟨rows, context.preset.bind TablePreset.options⟩]
  | .html value | .code value _ _ => return written ++ [.paragraph (literalParagraph value)]
  | .footnoteDefinition identifier _ children => do
    let body ← writeBody context [] children
    modify (FootnoteTables.define identifier body)
    return written
  | .text value | .inlineCode value => return written ++ [.inline (.text (context.textRun value))]
  | .emphasis children => do
    let contents ← writeNodes context.emphasized [] children
    return written ++ contents
  | .strong children => do
    let contents ← writeNodes context.strong [] children
    return written ++ contents
  | .delete children => do
    let contents ← writeNodes context.deleted [] children
    return written ++ contents
  | .lineBreak => return written ++ [.inline (.text { breaks := 1 })]
  | .link url _ children => do
    let contents ← writeNodes context [] children
    return written ++ [.inline (.link url (toInlines contents))]
  | .image url _ _ =>
    match context.images.find? url with
    | some image => return written ++ [.inline (.image image)]
    | none => throw (.resolution (.notResolved url))
  | .footnote children => do
    let contents ← writeNodes context [] children
    return written ++ [.paragraph { children := toInlines contents }]
  | .footnoteReference identifier _ =>
    match footnoteId identifier with
    | .ok id => do
      modify (FootnoteTables.refer id identifier)
      return written ++ [.inline (.footnoteReference id)]
    | .error fault => throw (.conversion fault)
  | .math value =>
    return written ++ (Math.lines value).map fun runs => .paragraph { children := [.math runs] }
  | .inlineMath value => return written ++ [.inline (.math (Math.lines value).flatten)]
  | .yaml _ | .toml _ | .definition _ _ _ _ | .linkReference _ _ _ _
  | .imageReference _ _ _ _ => return written
  | .root _ => throw (.conversion (.unexpectedNode "root"))
  | .listItem _ _ _ => throw (.conversion (.unexpectedNode "listItem"))
  | .tableRow _ => throw (.conversion (.unexpectedNode "tableRow"))
  | .tableCell _ => throw (.conversion (.unexpectedNode "tableCell"))
  | .unknown => throw (.conversion .unknownNode)

def writeNodes (context : Context) (written : List Content) :
    List Node → Converting (List Content)
  | [] => return written
  | node :: nodes => do
    let written ← writeNode context written node
    writeNodes context written nodes

/-- The children of a list, in its context. -/
def writeItems (context : Context) (written : List Content) :
    List Node → Converting (List Content)
  | [] => return written
  | .listItem checked _ children :: nodes => do
    let contents ← writeNodes (context.item checked) [] children
    writeItems context (written ++ contents) nodes
  | node :: nodes => do
    let written ← writeNode context written node
    writeItems context written nodes

/-- The children of a table, from a place on. The part of a row is that of its place. -/
def writeRows (context : Context) (align : List (Option ColumnAlignment)) (written : List Row)
    (place : Nat) : List Node → Converting (List Row)
  | [] => return written
  | .tableRow children :: nodes => do
    let part := context.preset.bind (rowPart place)
    let cells ← writeCells context align part [] 0 children
    writeRows context align (written ++ [⟨cells, part.map TablePart.row⟩]) (place + 1) nodes
  | _ :: nodes => writeRows context align written (place + 1) nodes

/-- The children of a table row, from a place on. The alignment of a cell is that of its place. -/
def writeCells (context : Context) (align : List (Option ColumnAlignment))
    (part : Option TablePart) (written : List Cell) (place : Nat) :
    List Node → Converting (List Cell)
  | [] => return written
  | .tableCell children :: nodes => do
    let contents ← writeNodes context [] children
    let cell := tableCell part (align[place]?.map columnAlignment) (toInlines contents)
    writeCells context align part (written ++ [cell]) (place + 1) nodes
  | _ :: nodes => writeCells context align part written (place + 1) nodes

/-- The body of a footnote. Each child makes blocks of its own. -/
def writeBody (context : Context) (written : List Paragraph) :
    List Node → Converting (List Paragraph)
  | [] => return written
  | node :: nodes => do
    let contents ← writeNode context [] node
    writeBody context (written ++ (toBlocks contents).map footnoteParagraph) nodes

end

namespace Conversion

variable {α β : Type}

/-- A conversion that starts out from tables. -/
def resume (step : Conversion α) : Converting α := fun tables =>
  match step with
  | .error error => .error error
  | .ok noted => .ok (noted.value, tables.add noted.definitions noted.references)

/-- A conversion that starts out from tables, its items put behind those written already. -/
def behind (written : List α) (step : Conversion (List α)) : Converting (List α) :=
  (written ++ ·) <$> step.resume

theorem resume_bind (first : Conversion α) (next : α → Conversion β) :
    (first >>= next).resume = first.resume >>= fun value => (next value).resume := by
  funext tables
  rcases first with error | noted
  · rfl
  · change resume (Conversion.bind (.ok noted) next) tables
      = resume (next noted.value) (tables.add noted.definitions noted.references)
    rcases step : next noted.value with error | later
    · simp only [Conversion.bind, step, resume]
    · simp only [Conversion.bind, step, resume, FootnoteTables.add_append]

theorem resume_define (identifier : String) (body : List Paragraph) :
    (define identifier body).resume = modify (FootnoteTables.define identifier body) := rfl

theorem resume_refer (id : Nat) (identifier : String) :
    (refer id identifier).resume = modify (FootnoteTables.refer id identifier) := rfl

theorem behind_nil (step : Conversion (List α)) : step.behind [] = step.resume := by
  simp only [behind, List.nil_append, id_map']

theorem behind_pure (written items : List α) :
    (Pure.pure items : Conversion (List α)).behind written = Pure.pure (written ++ items) := rfl

theorem behind_bind (written : List α) (first : Conversion β) (next : β → Conversion (List α)) :
    (first >>= next).behind written
      = first.resume >>= fun value => (next value).behind written := by
  simp only [behind, resume_bind, map_bind]

theorem bind_append (written : List α) (step : Conversion (List α)) :
    (step.resume >>= fun items => Pure.pure (written ++ items)) = step.behind written := by
  simp only [behind, bind_pure_comp]

/-- Items made of one step and items of a later one. -/
theorem behind_cons (written : List α) (step : Conversion β) (made : β → List α)
    (rest : Conversion (List α)) :
    (step >>= fun value => rest >>= fun later => Pure.pure (made value ++ later)).behind written
      = step.resume >>= fun value => rest.behind (written ++ made value) := by
  simp only [behind_bind, behind_pure]
  simp only [← List.append_assoc, bind_append]

theorem behind_append (written : List α) (first second : Conversion (List α)) :
    (first >>= fun items => second >>= fun later => Pure.pure (items ++ later)).behind written
      = first.behind written >>= fun items => second.behind items := by
  rw [behind_cons written first (fun items => items), behind, bind_map_left]

end Conversion

open Conversion

-- By induction on the nodes, a case for each kind. What is written already is arbitrary in every
-- statement, since it grows from one child to the next.
mutual

theorem writeNode_eq (context : Context) (written : List Content) (node : Node) :
    writeNode context written node = (convertNode context node).behind written := by
  cases node with
  | paragraph children | heading depth children | link url title children | footnote children =>
    simp only [writeNode, convertNode, writeNodes_eq, behind_nil, behind_bind, behind_pure]
  | blockquote children | emphasis children | strong children | delete children =>
    simp only [writeNode, convertNode, writeNodes_eq, behind_nil, bind_append]
  | list ordered start spread children =>
    exact writeItems_eq (context.listed (ordered.getD false)) written children
  | table align children =>
    have header : context.preset.bind (rowPart 0) = context.preset.bind TablePreset.header := rfl
    simp only [writeNode, convertNode, writeRows_eq, header, behind_nil, behind_bind, behind_pure]
  | footnoteDefinition identifier label children =>
    simp only [writeNode, convertNode, writeBody_eq, behind_nil, behind_bind, behind_pure,
      resume_define, List.append_nil]
  | image url title alt =>
    rw [writeNode, convertNode]
    cases context.images.find? url with
    | some image => rfl
    | none => rfl
  | footnoteReference identifier label =>
    rw [writeNode, convertNode]
    cases footnoteId identifier with
    | ok id => simp only [behind_bind, behind_pure, resume_refer]
    | error fault => rfl
  | yaml | toml | definition | linkReference | imageReference =>
    rw [writeNode, convertNode, behind_pure, List.append_nil]
  | _ => rfl

theorem writeNodes_eq (context : Context) (written : List Content) (nodes : List Node) :
    writeNodes context written nodes = (convertNodes context nodes).behind written := by
  cases nodes with
  | nil => rw [writeNodes, convertNodes, behind_pure, List.append_nil]
  | cons node nodes =>
    simp only [writeNodes, convertNodes, behind_append, writeNode_eq context written node,
      writeNodes_eq context _ nodes]

theorem writeItems_eq (context : Context) (written : List Content) (nodes : List Node) :
    writeItems context written nodes = (convertItems context nodes).behind written := by
  cases nodes with
  | nil => rw [writeItems, convertItems, behind_pure, List.append_nil]
  | cons node nodes =>
    cases node with
    | listItem checked spread children =>
      simp only [writeItems, convertItems, behind_cons, writeNodes_eq, behind_nil,
        writeItems_eq context _ nodes]
    | _ =>
      simp only [writeItems, convertItems, behind_append, writeNode_eq context written,
        writeItems_eq context _ nodes]

theorem writeRows_eq (context : Context) (align : List (Option ColumnAlignment))
    (written : List Row) (place : Nat) (nodes : List Node) :
    writeRows context align written place nodes
      = (convertRows context align (context.preset.bind (rowPart place))
          (context.preset.bind TablePreset.body) nodes).behind written := by
  cases nodes with
  | nil => rw [writeRows, convertRows, behind_pure, List.append_nil]
  | cons node nodes =>
    have later := fun written => writeRows_eq context align written (place + 1) nodes
    cases node with
    | tableRow children =>
      simp only [writeRows, convertRows, later, writeCells_eq, behind_nil]
      exact (behind_cons ..).symm
    | _ => exact later written

theorem writeCells_eq (context : Context) (align : List (Option ColumnAlignment))
    (part : Option TablePart) (written : List Cell) (place : Nat) (nodes : List Node) :
    writeCells context align part written place nodes
      = (convertCells context part (align.drop place) nodes).behind written := by
  cases nodes with
  | nil => rw [writeCells, convertCells, behind_pure, List.append_nil]
  | cons node nodes =>
    have later := fun written => writeCells_eq context align part written (place + 1) nodes
    -- the alignments that are left behind a place are the tail of those from the place on
    rw [← List.tail_drop] at later
    cases node with
    | tableCell children =>
      simp only [writeCells, convertCells, later, writeNodes_eq, behind_nil, List.head?_drop]
      exact (behind_cons ..).symm
    | _ => exact later written

theorem writeBody_eq (context : Context) (written : List Paragraph) (nodes : List Node) :
    writeBody context written nodes = (convertBody context nodes).behind written := by
  cases nodes with
  | nil => rw [writeBody, convertBody, behind_pure, List.append_nil]
  | cons node nodes =>
    simp only [writeBody, convertBody, behind_cons, writeNode_eq context [] node, behind_nil,
      writeBody_eq context _ nodes]

end

/-- What nodes become where no footnote is met before them. -/
def converted (context : Context) (nodes : List Node) :
    Except Error (List Content × FootnoteTables) :=
  (writeNodes context [] nodes).run ∅

/-- The value of a conversion with the footnotes it notes: under an identifier the last definition,
and under a number the first reference. -/
def Noted.tabled {α : Type} (noted : Noted α) : α × FootnoteTables where
  fst := noted.value
  snd := {
    bodies := lastByKey noted.definitions
    references := firstByKey noted.references
    bodies_ascending := ascending_insertAll .empty noted.definitions
    references_ascending := ascending_firstByKey noted.references }

theorem Conversion.resume_run {α : Type} (step : Conversion α) :
    step.resume.run ∅ = Except.map Noted.tabled step := by
  rcases step with error | noted
  · rfl
  · have tables : FootnoteTables.add ∅ noted.definitions noted.references = noted.tabled.2 := by
      apply FootnoteTables.ext
      · rfl
      · exact enterAll_nil noted.references
    change Except.ok (noted.value, _) = Except.ok noted.tabled
    rw [tables]
    rfl

/-- Tables that are changed on the way hold what is noted in order. -/
theorem converted_eq (context : Context) (nodes : List Node) :
    converted context nodes = Except.map Noted.tabled (convertNodes context nodes) := by
  rw [converted, writeNodes_eq, behind_nil, resume_run]

end WordExport
