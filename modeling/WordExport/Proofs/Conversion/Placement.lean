import WordExport.Proofs.Package.Paragraphs

set_option autoImplicit false

namespace WordExport

/-- The inline items of blocks, paragraph by paragraph. -/
def paragraphInlines (blocks : List Block) : List Inline :=
  (blockParagraphs blocks).flatMap Paragraph.children

mutual

theorem Block.flatMap_children (block : Block) :
    block.paragraphs.flatMap Paragraph.children = block.inlines := by
  cases block with
  | paragraph paragraph => exact List.flatMap_singleton _ _
  | table table =>
    obtain ⟨rows, _⟩ := table
    exact rowParagraphs_flatMap rows

theorem rowParagraphs_flatMap (rows : List Row) :
    (rowParagraphs rows).flatMap Paragraph.children = rowInlines rows := by
  match rows with
  | [] => rfl
  | ⟨cells, _⟩ :: rows =>
    rw [rowParagraphs, List.flatMap_append, cellParagraphs_flatMap cells,
      rowParagraphs_flatMap rows, rowInlines]

theorem cellParagraphs_flatMap (cells : List Cell) :
    (cellParagraphs cells).flatMap Paragraph.children = cellInlines cells := by
  match cells with
  | [] => rfl
  | ⟨children, _⟩ :: cells =>
    have inside : (if children.isEmpty then [{}] else blockParagraphs children).flatMap
        Paragraph.children = blockInlines children := by
      cases children with
      | nil => rfl
      | cons block blocks => exact blockParagraphs_flatMap (block :: blocks)
    rw [cellParagraphs, List.flatMap_append, inside, cellParagraphs_flatMap cells, cellInlines]

theorem blockParagraphs_flatMap (blocks : List Block) :
    (blockParagraphs blocks).flatMap Paragraph.children = blockInlines blocks := by
  match blocks with
  | [] => rfl
  | block :: blocks =>
    rw [blockParagraphs, List.flatMap_append, block.flatMap_children,
      blockParagraphs_flatMap blocks, blockInlines]

end

theorem blockInlines_append (first second : List Block) :
    blockInlines (first ++ second) = blockInlines first ++ blockInlines second := by
  induction first with
  | nil => rfl
  | cons block blocks ih => rw [List.cons_append, blockInlines, blockInlines, ih, List.append_assoc]

theorem looseParagraph_inlines (loose : List Inline) :
    blockInlines (looseParagraph loose) = loose := by
  cases loose with
  | nil => rfl
  | cons item items => exact List.append_nil _

theorem blocksAfter_inlines (loose : List Inline) (contents : List Content) :
    blockInlines (blocksAfter loose contents) = loose ++ toInlines contents := by
  induction contents generalizing loose with
  | nil => rw [blocksAfter, looseParagraph_inlines, toInlines, List.flatMap_nil, List.append_nil]
  | cons content contents ih =>
    rw [toInlines, List.flatMap_cons, ← toInlines]
    cases content with
    | inline item => rw [blocksAfter, ih, List.append_assoc, Content.inlines]
    | paragraph paragraph =>
      rw [blocksAfter, blockInlines_append, looseParagraph_inlines, blockInlines, ih]
      rfl
    | table table =>
      obtain ⟨rows, _⟩ := table
      rw [blocksAfter, blockInlines_append, looseParagraph_inlines, blockInlines, ih]
      rfl

/-- Loose items end before content that does not go on with an inline item. -/
def EndsLoose (contents : List Content) : Prop :=
  ∀ item, contents.head? ≠ some (.inline item)

/-- Paragraphs and tables are blocks as they are. Inline items next to one another, as many as there
are, make a paragraph that has nothing but them. -/
inductive Places : List Content → List Block → Prop
  | nil : Places [] []
  | paragraph {contents : List Content} {blocks : List Block} (paragraph : Paragraph)
    (next : Places contents blocks) :
    Places (.paragraph paragraph :: contents) (.paragraph paragraph :: blocks)
  | table {contents : List Content} {blocks : List Block} (table : Table)
    (next : Places contents blocks) : Places (.table table :: contents) (.table table :: blocks)
  | loose {items : List Inline} {contents : List Content} {blocks : List Block}
    (some : items ≠ []) (all : EndsLoose contents) (next : Places contents blocks) :
    Places (items.map .inline ++ contents) (.paragraph { children := items } :: blocks)

/-- Loose items are placed before content that does not go on with one. -/
theorem Places.after {contents : List Content} {blocks : List Block}
    (places : Places contents blocks) (all : EndsLoose contents) (loose : List Inline) :
    Places (loose.map .inline ++ contents) (looseParagraph loose ++ blocks) := by
  cases loose with
  | nil => exact places
  | cons item items => exact .loose (List.cons_ne_nil _ _) all places

theorem blocksAfter_places (loose : List Inline) (contents : List Content) :
    Places (loose.map .inline ++ contents) (blocksAfter loose contents) := by
  -- the items since the last block are carried along as content in front of what is left
  induction contents generalizing loose with
  | nil =>
    have placed := Places.nil.after nofun loose
    rwa [List.append_nil (looseParagraph loose)] at placed
  | cons content contents ih =>
    cases content with
    | inline item =>
      have placed := ih (loose ++ [item])
      rwa [List.map_append, List.append_assoc] at placed
    | paragraph paragraph => exact (Places.paragraph paragraph (ih [])).after nofun loose
    | table table => exact (Places.table table (ih [])).after nofun loose

theorem blocksAfter_map (items loose : List Inline) (contents : List Content) :
    blocksAfter loose (items.map .inline ++ contents) = blocksAfter (loose ++ items) contents := by
  induction items generalizing loose with
  | nil => rw [List.map_nil, List.nil_append, List.append_nil]
  | cons item items ih =>
    rw [List.map_cons, List.cons_append, blocksAfter, ih, List.append_assoc]
    rfl

theorem blocksAfter_of_endsLoose {contents : List Content} (all : EndsLoose contents)
    (loose : List Inline) :
    blocksAfter loose contents = looseParagraph loose ++ toBlocks contents := by
  cases contents with
  | nil => exact (List.append_nil _).symm
  | cons content contents =>
    cases content with
    | inline item => exact absurd rfl (all item)
    | paragraph paragraph => rfl
    | table table => rfl

theorem Places.eq_toBlocks {contents : List Content} {blocks : List Block}
    (places : Places contents blocks) : blocks = toBlocks contents := by
  induction places with
  | nil => rfl
  | paragraph paragraph _ ih | table table _ ih =>
    rw [ih]
    rfl
  | @loose items contents blocks some all _ ih =>
    have placed : toBlocks (items.map .inline ++ contents)
        = looseParagraph items ++ toBlocks contents :=
      (blocksAfter_map items [] contents).trans (blocksAfter_of_endsLoose all items)
    rw [placed, ih]
    cases items with
    | nil => exact absurd rfl some
    | cons item items => rfl

/-- Placed among blocks, content has the items that it has inside a paragraph, and its blocks are
those of `Places` and no others. -/
theorem toBlocks_places (contents : List Content) :
    paragraphInlines (toBlocks contents) = toInlines contents ∧
      ∀ blocks, Places contents blocks ↔ blocks = toBlocks contents := by
  refine ⟨?_, fun blocks => ⟨Places.eq_toBlocks, ?_⟩⟩
  · rw [paragraphInlines, blockParagraphs_flatMap, toBlocks, blocksAfter_inlines, List.nil_append]
  · rintro rfl
    exact blocksAfter_places [] contents

example (first second third : Inline) (written : Paragraph) :
    toBlocks [.inline first, .inline second, .paragraph written, .inline third]
      = [.paragraph { children := [first, second] }, .paragraph written,
          .paragraph { children := [third] }] :=
  rfl

end WordExport
