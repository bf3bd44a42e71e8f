import Mathlib.Data.List.Forall2
import WordExport.Conversion.Nodes
import WordExport.Proofs.Conversion.Success

set_option autoImplicit false

/- The rows and cells of a converted table: which children they come from, and what the places of
these children give them. A place counts all children before it, and so also what is passed over. -/

namespace WordExport

open Markdown (Node ColumnAlignment)

namespace Markdown.Node

/-- The children of a row. -/
def row? : Node → Option (List Node)
  | tableRow children => some children
  | _ => none

/-- The children of a cell. -/
def cell? : Node → Option (List Node)
  | tableCell children => some children
  | _ => none

end Markdown.Node

/-- A way to give a place to each of the nodes that are picked. -/
abbrev Placing : Type := (Node → Option (List Node)) → List Node → List (List Node × Nat)

/-- The places among all nodes, counted from a start. -/
def placesFrom (start : Nat) : Placing := fun pick nodes =>
  (nodes.zipIdx start).filterMap fun (node, place) => (pick node).map (·, place)

def placesAmongAll : Placing := placesFrom 0

/-- The places among the nodes that are picked. -/
def placesAmongPicked : Placing := fun pick nodes =>
  (nodes.filterMap pick).zipIdx

/-- The part of the preset for the row at a place. -/
def Context.partAt (context : Context) (place : Nat) : Option TablePart :=
  context.preset.bind (if place = 0 then TablePreset.header else TablePreset.body)

/-- A cell holds the items of its content, aligned as the column of its place. -/
def ShowsCell (context : Context) (part : Option TablePart) (align : List (Option ColumnAlignment))
    (source : List Node × Nat) (cell : Cell) : Prop :=
  ∃ contents, convertNodes context source.1 = .ok contents ∧
    cell.children = [.paragraph {
      children := toInlines contents.value
      alignment := align[source.2]?.map columnAlignment
      properties := part.map TablePart.paragraph }] ∧
    cell.properties = part.map TablePart.cell

def ShowsRow (placing : Placing) (context : Context) (align : List (Option ColumnAlignment))
    (source : List Node × Nat) (row : Row) : Prop :=
  row.properties = (context.partAt source.2).map TablePart.row ∧
    List.Forall₂ (ShowsCell context (context.partAt source.2) align)
      (placing Node.cell? source.1) row.cells

/-- One row for each row among the nodes, and in it one cell for each cell among its children. -/
def ShowsRows (placing : Placing) (context : Context) (align : List (Option ColumnAlignment))
    (nodes : List Node) (rows : List Row) : Prop :=
  List.Forall₂ (ShowsRow placing context align) (placing Node.row? nodes) rows

theorem placesFrom_cons (start : Nat) (pick : Node → Option (List Node)) (node : Node)
    (nodes : List Node) :
    placesFrom start pick (node :: nodes)
      = ((pick node).map (·, start)).toList ++ placesFrom (start + 1) pick nodes := by
  simp only [placesFrom, List.zipIdx_cons, List.filterMap_cons]
  cases pick node <;> rfl

/-- The alignments that are left are those from the place on. -/
theorem convertCells_shows (context : Context) (part : Option TablePart)
    (align : List (Option ColumnAlignment)) (nodes : List Node) (start : Nat)
    {noted : Noted (List Cell)}
    (converted : convertCells context part (align.drop start) nodes = .ok noted) :
    List.Forall₂ (ShowsCell context part align) (placesFrom start Node.cell? nodes)
      noted.value := by
  induction nodes generalizing start noted with
  | nil =>
    obtain rfl := Conversion.pure_eq_ok.mp converted
    exact .nil
  | cons node nodes ih =>
    rw [placesFrom_cons]
    have following : (align.drop start).tail = align.drop (start + 1) := List.tail_drop
    cases node with
    | tableCell children =>
      obtain ⟨contents, rest, first, later, rfl⟩ := Conversion.join_eq_ok.mp converted
      rw [following] at later
      refine .cons ⟨contents, first, ?_, rfl⟩ (ih (start + 1) later)
      rw [tableCell, List.head?_drop]
    | _ =>
      apply ih (start + 1)
      rw [← following]
      exact converted

/-- Only the row at place 0 has the part of the header. -/
theorem convertRows_shows (context : Context) (align : List (Option ColumnAlignment))
    (nodes : List Node) (start : Nat) {noted : Noted (List Row)}
    (converted : convertRows context align (context.partAt start)
      (context.preset.bind TablePreset.body) nodes = .ok noted) :
    List.Forall₂ (ShowsRow placesAmongAll context align) (placesFrom start Node.row? nodes)
      noted.value := by
  induction nodes generalizing start noted with
  | nil =>
    obtain rfl := Conversion.pure_eq_ok.mp converted
    exact .nil
  | cons node nodes ih =>
    rw [placesFrom_cons]
    have following : context.partAt (start + 1) = context.preset.bind TablePreset.body := rfl
    cases node with
    | tableRow children =>
      obtain ⟨cells, rest, first, later, rfl⟩ := Conversion.join_eq_ok.mp converted
      rw [← following] at later
      have shown := convertCells_shows context (context.partAt start) align children 0 first
      exact .cons ⟨rfl, shown⟩ (ih (start + 1) later)
    | _ =>
      apply ih (start + 1)
      rw [following]
      exact converted

/-- Nothing that is passed over stands before a node that is picked. -/
def Leads (pick : Node → Option (List Node)) (nodes : List Node) : Prop :=
  ∃ picked others, nodes = picked ++ others ∧ (∀ node ∈ picked, (pick node).isSome = true) ∧
    ∀ node ∈ others, pick node = none

theorem placesFrom_eq_nil {pick : Node → Option (List Node)} (start : Nat) {nodes : List Node}
    (passed : ∀ node ∈ nodes, pick node = none) : placesFrom start pick nodes = [] := by
  apply List.filterMap_eq_nil_iff.mpr
  rintro ⟨node, place⟩ mem
  simp only [passed node (List.fst_mem_of_mem_zipIdx mem), Option.map_none]

theorem Leads.places_eq {pick : Node → Option (List Node)} {nodes : List Node}
    (leads : Leads pick nodes) : placesAmongAll pick nodes = placesAmongPicked pick nodes := by
  obtain ⟨picked, others, rfl, known, passed⟩ := leads
  have fromStart (start : Nat) : placesFrom start pick (picked ++ others)
      = ((picked ++ others).filterMap pick).zipIdx start := by
    induction picked generalizing start with
    | nil =>
      rw [List.nil_append, placesFrom_eq_nil start passed, List.filterMap_eq_nil_iff.mpr passed]
      rfl
    | cons node picked ih =>
      obtain ⟨first, rest⟩ := List.forall_mem_cons.mp known
      obtain ⟨content, same⟩ := Option.isSome_iff_exists.mp first
      rw [List.cons_append, placesFrom_cons, ih rest (start + 1), List.filterMap_cons, same]
      rfl
  exact fromStart 0

/-- The cells of each row come before anything else in it. -/
def CellsLead (nodes : List Node) : Prop :=
  ∀ node ∈ nodes, ∀ content, node.row? = some content → Leads Node.cell? content

theorem ShowsRow.amongPicked {context : Context} {align : List (Option ColumnAlignment)}
    {content : List Node} {place place' : Nat} {row : Row}
    (shown : ShowsRow placesAmongAll context align (content, place) row)
    (leads : Leads Node.cell? content)
    (same : context.partAt place = context.partAt place') :
    ShowsRow placesAmongPicked context align (content, place') row := by
  obtain ⟨properties, cells⟩ := shown
  rw [leads.places_eq] at cells
  dsimp only at properties cells
  rw [same] at properties cells
  exact ⟨properties, cells⟩

/-- Behind the first child of a table, all rows are rows of the body. -/
theorem showsRows_behind {context : Context} {align : List (Option ColumnAlignment)}
    {nodes : List Node} {rows : List Row} (start start' : Nat)
    (shown : List.Forall₂ (ShowsRow placesAmongAll context align)
      (placesFrom (start + 1) Node.row? nodes) rows)
    (leads : CellsLead nodes) :
    List.Forall₂ (ShowsRow placesAmongPicked context align)
      ((nodes.filterMap Node.row?).zipIdx (start' + 1)) rows := by
  induction nodes generalizing start start' rows with
  | nil =>
    cases shown
    exact .nil
  | cons node nodes ih =>
    obtain ⟨first, rest⟩ := List.forall_mem_cons.mp leads
    rw [placesFrom_cons] at shown
    rw [List.filterMap_cons]
    cases found : node.row? with
    | none =>
      rw [found] at shown
      exact ih (start + 1) start' shown rest
    | some content =>
      rw [found] at shown
      cases shown with
      | cons row shown =>
        exact .cons (row.amongPicked (first content found) rfl)
          (ih (start + 1) (start' + 1) shown rest)

/-- Where the first child of a table is a row, or no child is one, the first row has the part of the
header. -/
theorem ShowsRows.amongPicked {context : Context} {align : List (Option ColumnAlignment)}
    {nodes : List Node} {rows : List Row}
    (shown : ShowsRows placesAmongAll context align nodes rows)
    (started : (nodes.head?.bind Node.row?).isSome = true ∨ nodes.filterMap Node.row? = [])
    (leads : CellsLead nodes) : ShowsRows placesAmongPicked context align nodes rows := by
  cases nodes with
  | nil =>
    cases shown
    exact .nil
  | cons node nodes =>
    obtain ⟨first, rest⟩ := List.forall_mem_cons.mp leads
    rw [ShowsRows, placesAmongAll, placesFrom_cons] at shown
    rw [ShowsRows, placesAmongPicked, List.filterMap_cons]
    cases found : node.row? with
    | none =>
      rcases started with row | rowless
      · simp [found] at row
      · rw [List.filterMap_cons, found] at rowless
        have passed := List.filterMap_eq_nil_iff.mp rowless
        rw [found, placesFrom_eq_nil 1 passed] at shown
        rw [rowless]
        cases shown
        exact .nil
    | some content =>
      rw [found] at shown
      cases shown with
      | cons row shown =>
        exact .cons (row.amongPicked (first content found) rfl) (showsRows_behind 0 0 shown rest)

/-- A converted table has a row for each row among its children, and in it a cell for each cell, in
order. Header, body and columns go by the places among all children; these are the places in the
converted table where the first child is a row and nothing but cells comes before a cell. -/
theorem convertNode_table {context : Context} {align : List (Option ColumnAlignment)}
    {children : List Node} {noted : Noted (List Content)}
    (converted : convertNode context (.table align children) = .ok noted) :
    ∃ rows, noted.value = [.table ⟨rows, context.preset.bind TablePreset.options⟩] ∧
      ShowsRows placesAmongAll context align children rows ∧
      ((children.head?.bind Node.row?).isSome = true ∨ children.filterMap Node.row? = [] →
        CellsLead children → ShowsRows placesAmongPicked context align children rows) := by
  obtain ⟨rows, written, succeeds, wrapped, rfl⟩ := Conversion.bind_eq_ok.mp converted
  obtain rfl := Conversion.pure_eq_ok.mp wrapped
  have shown : ShowsRows placesAmongAll context align children rows.value :=
    convertRows_shows context align children 0 succeeds
  exact ⟨rows.value, rfl, shown, shown.amongPicked⟩

/-- A preset with a row of the header that is repeated. -/
def headedContext : Context where
  preset := some { header := some { row := { isHeader := true } } }

/-- A table with a row longer than its alignments, a text after its cells, and one between rows. -/
def headedTable : List Node := [
  .tableRow [.tableCell [.text "a"], .tableCell [], .tableCell [.strong [.text "b"]], .text "c"],
  .text "d",
  .tableRow [.tableCell [.text "e"]]]

theorem convertNode_table_headed :
    ∃ noted, convertNode headedContext (.table [some .center, none] headedTable) = .ok noted ∧
      CellsLead headedTable ∧
      ∃ rows, noted.value = [.table ⟨rows, none⟩] ∧
        ShowsRows placesAmongAll headedContext [some .center, none] headedTable rows ∧
        ShowsRows placesAmongPicked headedContext [some .center, none] headedTable rows := by
  have leads : CellsLead headedTable := by
    simp only [CellsLead, headedTable, List.forall_mem_cons]
    refine ⟨?first, ?text, ?second, List.forall_mem_nil _⟩
    case first =>
      rintro _ ⟨⟩
      exact ⟨[_, _, _], [_], rfl, by simp [Node.cell?], by simp [Node.cell?]⟩
    case text => rintro _ ⟨⟩
    case second =>
      rintro _ ⟨⟩
      exact ⟨[_], [], rfl, by simp [Node.cell?], List.forall_mem_nil _⟩
  have converted :
      convertNode headedContext (.table [some .center, none] headedTable) = .ok _ := rfl
  obtain ⟨rows, written, shown, picked⟩ := convertNode_table converted
  exact ⟨_, converted, leads, rows, written, shown, picked (.inl rfl) leads⟩

/-- A text before the only row, and one before its only cell. -/
def shiftedTable : List Node := [.text "a", .tableRow [.text "b", .tableCell []]]

/-- The first row is none of the header, and its first cell is aligned as the second column. -/
theorem shiftedTable_displaced :
    ∃ cell, convertNode headedContext (.table [some .center, some .right] shiftedTable)
        = .ok { value := [.table ⟨[⟨[cell], none⟩], none⟩] } ∧
      cell.children = [.paragraph { alignment := some .right }] ∧
      ¬ ShowsRows placesAmongPicked headedContext [some .center, some .right] shiftedTable
        [⟨[cell], none⟩] := by
  refine ⟨_, rfl, rfl, ?_⟩
  intro shown
  cases shown with
  | cons row _ => cases row.1

end WordExport
