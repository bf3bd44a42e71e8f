import WordExport.Proofs.Conversion.Reading
import WordExport.Proofs.Conversion.Success

set_option autoImplicit false

namespace WordExport

open Markdown (Leaf Node Reading readAll readRows readCells)

theorem itemLeaves_append (first second : List Inline) :
    itemLeaves (first ++ second) = itemLeaves first ++ itemLeaves second := by
  induction first with
  | nil => rfl
  | cons item items ih => rw [List.cons_append, itemLeaves, itemLeaves, ih, List.append_assoc]

theorem itemLeaves_singleton (item : Inline) : itemLeaves [item] = item.leaves := by
  simp only [itemLeaves, List.append_nil]

mutual

theorem itemLeaves_inlines (block : Block) : itemLeaves block.inlines = block.leaves := by
  cases block with
  | paragraph written => rfl
  | table written =>
    obtain ⟨rows, _⟩ := written
    exact itemLeaves_rowInlines rows

theorem itemLeaves_rowInlines (rows : List Row) : itemLeaves (rowInlines rows) = rowLeaves rows := by
  match rows with
  | [] => rfl
  | ⟨cells, _⟩ :: rows =>
    rw [rowInlines, itemLeaves_append, itemLeaves_cellInlines cells, itemLeaves_rowInlines rows,
      rowLeaves]

theorem itemLeaves_cellInlines (cells : List Cell) :
    itemLeaves (cellInlines cells) = cellLeaves cells := by
  match cells with
  | [] => rfl
  | ⟨children, _⟩ :: cells =>
    rw [cellInlines, itemLeaves_append, itemLeaves_blockInlines children,
      itemLeaves_cellInlines cells, cellLeaves]

theorem itemLeaves_blockInlines (blocks : List Block) :
    itemLeaves (blockInlines blocks) = blockLeaves blocks := by
  match blocks with
  | [] => rfl
  | block :: blocks =>
    rw [blockInlines, itemLeaves_append, itemLeaves_inlines block, itemLeaves_blockInlines blocks,
      blockLeaves]

end

theorem itemLeaves_toInlines (contents : List Content) :
    itemLeaves (toInlines contents) = contentLeaves contents := by
  induction contents with
  | nil => rfl
  | cons content contents ih =>
    have placed : itemLeaves content.inlines = content.leaves := by
      cases content with
      | paragraph written => rfl
      | table written => exact itemLeaves_rowInlines written.rows
      | inline item => exact itemLeaves_singleton item
    change itemLeaves (content.inlines ++ toInlines contents) = _
    rw [itemLeaves_append, placed, ih]
    rfl

theorem footnoteParagraph_leaves (block : Block) :
    (footnoteParagraph block).leaves = block.leaves := by
  cases block with
  | paragraph written => rfl
  | table written =>
    obtain ⟨rows, _⟩ := written
    exact itemLeaves_rowInlines rows

theorem looseParagraph_leaves (loose : List Inline) :
    (looseParagraph loose).flatMap Block.leaves = itemLeaves loose := by
  cases loose with
  | nil => rfl
  | cons item items => exact List.append_nil _

theorem blocksAfter_leaves (loose : List Inline) (contents : List Content) :
    (blocksAfter loose contents).flatMap Block.leaves
      = itemLeaves loose ++ contentLeaves contents := by
  induction contents generalizing loose with
  | nil =>
    rw [blocksAfter, looseParagraph_leaves]
    exact (List.append_nil _).symm
  | cons content contents ih =>
    cases content with
    | inline item =>
      rw [blocksAfter, ih, itemLeaves_append, itemLeaves_singleton, List.append_assoc]
      rfl
    | paragraph written =>
      rw [blocksAfter, List.flatMap_append, looseParagraph_leaves, List.flatMap_cons, ih]
      rfl
    | table written =>
      rw [blocksAfter, List.flatMap_append, looseParagraph_leaves, List.flatMap_cons, ih]
      obtain ⟨rows, _⟩ := written
      rfl

theorem footnoteBody_leaves (contents : List Content) :
    ((toBlocks contents).map footnoteParagraph).flatMap Paragraph.leaves
      = contentLeaves contents := by
  rw [List.flatMap_map]
  simp only [footnoteParagraph_leaves]
  exact blocksAfter_leaves [] contents

theorem paragraph_leaves (context : Context) (items : List Inline) :
    (context.paragraph items).leaves = itemLeaves items := by
  simp only [Paragraph.leaves, Context.paragraph]
  split
  · rfl
  · rfl

theorem cellLeaves_tableCell (part : Option TablePart) (alignment : Option Alignment)
    (items : List Inline) (cells : List Cell) :
    cellLeaves (tableCell part alignment items :: cells) = itemLeaves items ++ cellLeaves cells :=
  congrArg (· ++ cellLeaves cells) (List.append_nil (itemLeaves items))

theorem literalParagraph_leaves (value : String) :
    ShowsLines value (literalParagraph value).leaves := by
  obtain ⟨first, below, cut⟩ := List.exists_cons_of_ne_nil (Text.lines_ne_nil value.toList)
  have plain : ∀ lines : List (List Char),
      itemLeaves (lines.map fun line => .text { text := String.ofList line, breaks := 1 })
        = lines.map fun line => .text { text := String.ofList line, breaks := 1 } := by
    intro lines
    induction lines with
    | nil => rfl
    | cons line lines ih => rw [List.map_cons, itemLeaves, ih]; rfl
  refine ⟨String.ofList first, below.map String.ofList, ?_, ?_, ?_⟩
  · apply String.toList_injective
    rw [String.toList_intercalate, ← List.map_cons, List.map_map]
    have same : String.toList ∘ String.ofList = id := funext fun _ => String.toList_ofList
    rw [same, List.map_id, ← cut]
    exact Text.intercalate_lines value.toList
  · intro line isLine
    rw [← List.map_cons, ← cut, List.mem_map] at isLine
    obtain ⟨chars, isLine, rfl⟩ := isLine
    rw [String.toList_ofList]
    exact Text.feed_not_mem_of_mem_lines isLine
  · simp only [Paragraph.leaves, literalParagraph, cut, itemLeaves, plain, List.map_map]
    rfl

section

variable {context inner : Context}

theorem Shows.append {earlier later : List Leaf} {first second : List Inline}
    (shown : Shows context earlier first) (next : Shows context later second) :
    Shows context (earlier ++ later) (first ++ second) := by
  induction shown with
  | nil => exact next
  | cons leaf _ ih =>
    rw [List.cons_append, List.append_assoc]
    exact .cons leaf ih

theorem Shows.single {leaf : Leaf} {items : List Inline} (shown : ShowsLeaf context leaf items) :
    Shows context [leaf] items := by
  simpa only [List.append_nil] using Shows.cons shown .nil

theorem Decoration.inside_cons (start : Decoration) (kind : String) (around : List String) :
    start.inside (kind :: around) = (start.inside [kind]).inside around := by
  simp [Decoration.inside, Bool.or_assoc]

/-- The kind of a node around a leaf may as well be part of its context. -/
theorem ShowsLeaf.under {kind : String} {leaf : Leaf} {items : List Inline}
    (images : inner.images = context.images)
    (decoration : inner.decoration = context.decoration.inside [kind])
    (shown : ShowsLeaf inner leaf items) : ShowsLeaf context (leaf.under kind) items := by
  simpa only [ShowsLeaf, Leaf.under, Decoration.inside_cons, ← decoration, ← images] using shown

theorem Shows.under {kind : String} {leaves : List Leaf} {items : List Inline}
    (images : inner.images = context.images)
    (decoration : inner.decoration = context.decoration.inside [kind])
    (shown : Shows inner leaves items) : Shows context (leaves.map (Leaf.under kind)) items := by
  induction shown with
  | nil => exact .nil
  | cons leaf _ ih => exact .cons (leaf.under images decoration) ih

theorem ShowsFootnotes.under {kind : String} {footnotes : List (String × List Leaf)}
    {definitions : List (String × List Paragraph)} (images : inner.images = context.images)
    (decoration : inner.decoration = context.decoration.inside [kind])
    (shown : ShowsFootnotes inner footnotes definitions) :
    ShowsFootnotes context (footnotes.map fun (identifier, leaves) =>
      (identifier, leaves.map (Leaf.under kind))) definitions := by
  rw [ShowsFootnotes, List.forall₂_map_left_iff]
  exact shown.imp fun _ _ footnote => ⟨footnote.1, footnote.2.under images decoration⟩

end

/-- Where a step succeeds, it shows what is read, and it notes the footnotes that are defined. -/
def Keeps {α : Type} (context : Context) (reading : Reading) (leaves : α → List Inline)
    (step : Conversion α) : Prop :=
  ∀ noted, step = .ok noted →
    Shows context reading.text (leaves noted.value) ∧
      ShowsFootnotes context reading.footnotes noted.definitions

namespace Keeps

variable {context inner : Context} {α β γ : Type}

theorem pure {leaves : α → List Inline} {text : List Leaf} {value : α}
    (shown : Shows context text (leaves value)) :
    Keeps context { text } leaves (Pure.pure value) := by
  intro noted success
  obtain rfl := Conversion.pure_eq_ok.mp success
  exact ⟨shown, .nil⟩

theorem fail {reading : Reading} {leaves : α → List Inline} {error : Error} :
    Keeps context reading leaves (Conversion.fail error) := by
  intro noted success
  exact absurd success Conversion.fail_ne_ok

theorem map {reading : Reading} {leaves : α → List Inline} {leaves' : β → List Inline}
    {step : Conversion α} {wrap : α → β} (kept : Keeps context reading leaves step)
    (same : ∀ value, leaves' (wrap value) = leaves value) :
    Keeps context reading leaves' (step >>= fun value => Pure.pure (wrap value)) := by
  intro noted success
  obtain ⟨earlier, later, first, last, rfl⟩ := Conversion.bind_eq_ok.mp success
  obtain rfl := Conversion.pure_eq_ok.mp last
  simpa only [same, List.append_nil] using kept earlier first

theorem append {reading reading' : Reading} {leaves : α → List Inline} {leaves' : β → List Inline}
    {leaves'' : γ → List Inline} {step : Conversion α} {next : Conversion β} {join : α → β → γ}
    (kept : Keeps context reading leaves step) (kept' : Keeps context reading' leaves' next)
    (joined : ∀ first rest, leaves'' (join first rest) = leaves first ++ leaves' rest) :
    Keeps context (reading ++ reading') leaves'' (step >>= fun first => next >>= fun rest =>
      Pure.pure (join first rest)) := by
  intro noted success
  obtain ⟨earlier, later, first, second, rfl⟩ := Conversion.join_eq_ok.mp success
  have shown := kept earlier first
  have shown' := kept' later second
  rw [joined]
  exact ⟨shown.1.append shown'.1, List.rel_append shown.2 shown'.2⟩

theorem under {kind : String} {reading : Reading} {leaves : α → List Inline} {step : Conversion α}
    (kept : Keeps inner reading leaves step) (images : inner.images = context.images)
    (decoration : inner.decoration = context.decoration.inside [kind]) :
    Keeps context (reading.under kind) leaves step := by
  intro noted success
  have shown := kept noted success
  exact ⟨shown.1.under images decoration, shown.2.under images decoration⟩

end Keeps

/-- The kinds of nodes that decorate what is in them. -/
def decorates (kind : String) : Bool :=
  ["strong", "emphasis", "delete"].contains kind

theorem Decoration.inside_plain (start : Decoration) {kind : String}
    (plain : decorates kind = false) : start.inside [kind] = start := by
  simp only [decorates, List.contains_eq_mem, List.mem_cons, List.not_mem_nil, or_false,
    decide_eq_false_iff_not, not_or] at plain
  simp [Decoration.inside, plain.1, plain.2.1, plain.2.2, eq_comm]

theorem Keeps.plain {context inner : Context} {α : Type} {kind : String} {reading : Reading}
    {leaves : α → List Inline} {step : Conversion α} (kept : Keeps inner reading leaves step)
    (images : inner.images = context.images) (decoration : inner.decoration = context.decoration)
    (plain : decorates kind = false) : Keeps context (reading.under kind) leaves step :=
  kept.under images (decoration.trans (context.decoration.inside_plain plain).symm)

theorem contentLeaves_singleton (content : Content) : contentLeaves [content] = content.leaves :=
  List.flatMap_singleton ..

theorem contentLeaves_mathParagraphs (lines : List (List Math.Run)) :
    contentLeaves (lines.map fun runs => .paragraph { children := [.math runs] })
      = lines.map .math := by
  induction lines with
  | nil => rfl
  | cons runs lines ih => exact congrArg (List.cons (.math runs)) ih

mutual

theorem convertNode_keeps (context : Context) (node : Node) :
    Keeps context node.reading contentLeaves (convertNode context node) := by
  cases node with
  | paragraph children =>
    have inside := convertNodes_keeps context children
    refine (inside.plain rfl rfl rfl).map ?_
    intro contents
    rw [contentLeaves_singleton, ← itemLeaves_toInlines]
    exact paragraph_leaves context (toInlines contents)
  | heading depth children =>
    have inside := convertNodes_keeps context children
    refine (inside.plain rfl rfl rfl).map ?_
    intro contents
    rw [contentLeaves_singleton, ← itemLeaves_toInlines]
    rfl
  | footnote children =>
    have inside := convertNodes_keeps context children
    refine (inside.plain rfl rfl rfl).map ?_
    intro contents
    rw [contentLeaves_singleton, ← itemLeaves_toInlines]
    rfl
  | link url title children =>
    have inside := convertNodes_keeps context children
    refine (inside.plain rfl rfl rfl).map ?_
    intro contents
    rw [contentLeaves_singleton, ← itemLeaves_toInlines]
    rfl
  | blockquote children => exact (convertNodes_keeps context.quoted children).plain rfl rfl rfl
  | list ordered start spread children =>
    exact (convertItems_keeps (context.listed _) children).plain rfl rfl rfl
  | emphasis children =>
    have decoration : context.emphasized.decoration = context.decoration.inside ["emphasis"] := by
      simp [Context.emphasized, Decoration.inside]
    exact (convertNodes_keeps context.emphasized children).under rfl decoration
  | strong children =>
    have decoration : context.strong.decoration = context.decoration.inside ["strong"] := by
      simp [Context.strong, Decoration.inside]
    exact (convertNodes_keeps context.strong children).under rfl decoration
  | delete children =>
    have decoration : context.deleted.decoration = context.decoration.inside ["delete"] := by
      simp [Context.deleted, Decoration.inside]
    exact (convertNodes_keeps context.deleted children).under rfl decoration
  | table align children =>
    have inside := convertRows_keeps context align (context.preset.bind TablePreset.header)
      (context.preset.bind TablePreset.body) children
    refine (inside.plain rfl rfl rfl).map ?_
    intro rows
    exact contentLeaves_singleton _
  | footnoteDefinition identifier label children =>
    intro noted success
    obtain ⟨body, _, first, rest, rfl⟩ := Conversion.bind_eq_ok.mp success
    obtain ⟨_, _, defined, last, rfl⟩ := Conversion.bind_eq_ok.mp rest
    obtain rfl := Conversion.pure_eq_ok.mp last
    obtain rfl := Except.ok.inj defined
    have plain : decorates "footnoteDefinition" = false := rfl
    have shown := (convertBody_keeps context children).plain rfl rfl plain body first
    exact ⟨.nil, List.rel_append shown.2 (.cons ⟨rfl, shown.1⟩ .nil)⟩
  | text value | inlineCode value =>
    refine .pure (.single ?_)
    simp [ShowsLeaf, Decoration.inside, Context.textRun, Content.leaves, Inline.leaves]
  | lineBreak => exact .pure (.single rfl)
  | html value | code value _ _ =>
    refine .pure (.single ?_)
    rw [contentLeaves_singleton]
    exact literalParagraph_leaves value
  | image url title alt =>
    simp only [convertNode]
    split
    · next image found => exact .pure (.single ⟨image, found, rfl⟩)
    · exact .fail
  | footnoteReference identifier label =>
    intro noted success
    simp only [convertNode] at success
    split at success
    · next id numbered =>
      obtain ⟨_, _, referred, last, rfl⟩ := Conversion.bind_eq_ok.mp success
      obtain rfl := Conversion.pure_eq_ok.mp last
      obtain rfl := Except.ok.inj referred
      exact ⟨.single ⟨id, numbered, rfl⟩, .nil⟩
    · exact absurd success Conversion.fail_ne_ok
  | math value =>
    refine .pure (.single ?_)
    exact contentLeaves_mathParagraphs (Math.lines value)
  | inlineMath value => exact .pure (.single rfl)
  | thematicBreak | yaml _ | toml _ | definition _ _ _ _ | linkReference _ _ _ _
  | imageReference _ _ _ _ => exact .pure .nil
  | root _ | listItem _ _ _ | tableRow _ | tableCell _ | unknown => exact .fail

theorem convertNodes_keeps (context : Context) (nodes : List Node) :
    Keeps context (readAll nodes) contentLeaves (convertNodes context nodes) := by
  cases nodes with
  | nil => exact .pure .nil
  | cons node nodes =>
    have first := convertNode_keeps context node
    have rest := convertNodes_keeps context nodes
    exact first.append rest fun _ _ => List.flatMap_append

theorem convertItems_keeps (context : Context) (nodes : List Node) :
    Keeps context (readAll nodes) contentLeaves (convertItems context nodes) := by
  cases nodes with
  | nil => exact .pure .nil
  | cons node nodes =>
    have rest := convertItems_keeps context nodes
    cases node with
    | listItem checked spread children =>
      have item : Keeps context (Node.listItem checked spread children).reading contentLeaves
          (convertNodes (context.item checked) children) :=
        (convertNodes_keeps (context.item checked) children).plain rfl rfl rfl
      exact item.append rest fun _ _ => List.flatMap_append
    | _ => exact (convertNode_keeps context _).append rest fun _ _ => List.flatMap_append

theorem convertRows_keeps (context : Context) (align : List (Option Markdown.ColumnAlignment))
    (first others : Option TablePart) (nodes : List Node) :
    Keeps context (readRows nodes) rowLeaves (convertRows context align first others nodes) := by
  cases nodes with
  | nil => exact .pure .nil
  | cons node nodes =>
    have rest := convertRows_keeps context align others others nodes
    cases node with
    | tableRow children =>
      have plain : decorates "tableRow" = false := rfl
      have row := (convertCells_keeps context first align children).plain rfl rfl plain
      exact row.append rest fun _ _ => rfl
    | _ => exact rest

theorem convertCells_keeps (context : Context) (part : Option TablePart)
    (align : List (Option Markdown.ColumnAlignment)) (nodes : List Node) :
    Keeps context (readCells nodes) cellLeaves (convertCells context part align nodes) := by
  cases nodes with
  | nil => exact .pure .nil
  | cons node nodes =>
    have rest := convertCells_keeps context part align.tail nodes
    cases node with
    | tableCell children =>
      have plain : decorates "tableCell" = false := rfl
      have cell := (convertNodes_keeps context children).plain rfl rfl plain
      refine cell.append rest fun contents _ => ?_
      rw [← itemLeaves_toInlines, cellLeaves_tableCell]
    | _ => exact rest

theorem convertBody_keeps (context : Context) (nodes : List Node) :
    Keeps context (readAll nodes) (fun body => body.flatMap Paragraph.leaves)
      (convertBody context nodes) := by
  cases nodes with
  | nil => exact .pure .nil
  | cons node nodes =>
    have first := convertNode_keeps context node
    apply first.append (convertBody_keeps context nodes)
    intro contents _
    rw [List.flatMap_append, footnoteBody_leaves]

end

/-- Leaves are neither lost nor doubled nor moved, and none takes the decoration of another: what is
read in nodes is what the content shows, and what is read in footnote definitions is what the
footnotes show. -/
theorem convertNodes_shows (context : Context) (nodes : List Node) (noted : Noted (List Content))
    (converted : convertNodes context nodes = .ok noted) :
    Shows context (readAll nodes).text (contentLeaves noted.value) ∧
      ShowsFootnotes context (readAll nodes).footnotes noted.definitions :=
  convertNodes_keeps context nodes noted converted

/-- A task with a table inside of a link, and a note below struck text that refers to itself. -/
def nestedNodes : List Node := [
  .list none none none [.listItem (some true) none [.paragraph [
    .strong [.text "a", .emphasis [.inlineCode "b"], .lineBreak],
    .link "u" none [.table [] [.tableRow [.tableCell [.text "c"], .tableCell [.html "d\ne"]]]]]]],
  .delete [.footnoteDefinition "1" none [.text "f", .footnoteReference "1" none], .text "g"]]

theorem convertNodes_shows_nested :
    ∃ noted, convertNodes { decoration := { emphasis := true } } nestedNodes = .ok noted ∧
      Shows { decoration := { emphasis := true } } (readAll nestedNodes).text
        (contentLeaves noted.value) ∧
      ShowsFootnotes { decoration := { emphasis := true } } (readAll nestedNodes).footnotes
        noted.definitions :=
  ⟨_, rfl, convertNodes_shows _ nestedNodes _ rfl⟩

end WordExport
