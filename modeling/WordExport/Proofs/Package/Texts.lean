import WordExport.Proofs.Package.Names
import WordExport.Proofs.Package.WellFormed
import WordExport.Proofs.Xml.Characters

set_option autoImplicit false

namespace WordExport

open Xml (Node elementUnlessEmpty isText isText_append isText_ofList)
open Xml.Node (childTexts childTexts_append)

mutual

/-- The texts that markup quotes. -/
def Math.Run.texts : Math.Run → List String
  | .text text => [text]
  | .superscript base script => runTexts base ++ runTexts script
  | .subscript base script => runTexts base ++ runTexts script
  | .fraction numerator denominator => runTexts numerator ++ runTexts denominator
  | .squareRoot body => runTexts body
  | .root degree body => runTexts degree ++ runTexts body
  | .sum body => runTexts body

def runTexts : List Math.Run → List String
  | [] => []
  | run :: runs => run.texts ++ runTexts runs

end

mutual

def Inline.texts : Inline → List String
  | .text run => [run.text]
  | .link url children => url :: itemTexts children
  | .math runs => runTexts runs
  | _ => []

def itemTexts : List Inline → List String
  | [] => []
  | item :: items => item.texts ++ itemTexts items

end

def Paragraph.texts (paragraph : Paragraph) : List String :=
  (paragraph.properties.bind ParagraphProperties.style).toList ++ itemTexts paragraph.children

mutual

def Block.texts : Block → List String
  | .paragraph paragraph => paragraph.texts
  | .table ⟨rows, options⟩ => (options.bind TableOptions.style).toList ++ rowTexts rows

def rowTexts : List Row → List String
  | [] => []
  | ⟨cells, _⟩ :: rows => cellTexts cells ++ rowTexts rows

def cellTexts : List Cell → List String
  | [] => []
  | ⟨children, properties⟩ :: cells =>
    (properties.bind CellProperties.shading).toList ++ blockTexts children ++ cellTexts cells

def blockTexts : List Block → List String
  | [] => []
  | block :: blocks => block.texts ++ blockTexts blocks

end

def CoreProperties.texts (properties : CoreProperties) : List String :=
  [properties.title, properties.subject, properties.creator, properties.keywords,
    properties.description, properties.lastModifiedBy].reduceOption

def ParagraphStyle.texts (style : ParagraphStyle) : List String :=
  [style.id, style.name] ++ [style.basedOn, style.next, style.color, style.font].reduceOption

def StyleSheet.texts (sheet : StyleSheet) : List String :=
  sheet.defaultFont.toList ++ sheet.paragraphStyles.flatMap ParagraphStyle.texts

def NumberingDefinition.texts (definition : NumberingDefinition) : List String :=
  definition.levels.map NumberingLevel.text

/-- The references of numbering definitions are not written. -/
def Document.texts (document : Document) : List String :=
  document.properties.texts ++ (document.styles.getD {}).texts ++ document.background.toList
    ++ document.numbering.flatMap NumberingDefinition.texts
    ++ blockTexts document.sections.flatten
    ++ document.footnotes.flatMap fun (_, body) => body.flatMap Paragraph.texts

/-- A text that any package may hold, or one of the given. -/
def Known (own : List String) (text : String) : Prop :=
  isText text = true ∨ text ∈ own

def Quotes (own : List String) (nodes : List Node) : Prop :=
  ∀ text ∈ childTexts nodes, Known own text

theorem known_of_all {own texts : List String} (all : texts.all isText = true) :
    ∀ text ∈ texts, Known own text :=
  fun text mem => .inl (List.all_eq_true.mp all text mem)

theorem isText_toString (number : Nat) : isText (toString number) = true := by
  refine List.all_eq_true.mpr fun c mem => ?_
  apply Xml.isChar_of_isNameChar
  rw [Xml.isNameChar, isDigit_of_mem_toString mem]
  simp

theorem isText_relationshipId (index : Nat) : isText (relationshipId index) = true :=
  isText_append (by decide) (isText_toString (index + 1))

theorem isText_mediaName (number : Nat) (data : List UInt8) :
    isText (mediaName number data) = true := by
  have extensions : ∀ extension ∈ ["png", "jpeg", "gif", "bmp"], isText extension = true := by
    decide
  have extension := extensions _ (imageExtension_mem data)
  have stem := isText_append (show isText "image" = true by decide) (isText_toString number)
  exact isText_append (isText_append stem (by decide)) extension

namespace Quotes

variable {own : List String} {nodes nodes' : List Node}

theorem nil : Quotes own [] := List.forall_mem_nil _

theorem fixed (texts : (childTexts nodes).all isText = true) : Quotes own nodes :=
  known_of_all texts

theorem append (quotes : Quotes own nodes) (quotes' : Quotes own nodes') :
    Quotes own (nodes ++ nodes') := by
  rw [Quotes, childTexts_append]
  exact List.forall_mem_append.mpr ⟨quotes, quotes'⟩

theorem cons {node : Node} (quotes : Quotes own [node]) (quotes' : Quotes own nodes) :
    Quotes own (node :: nodes) :=
  quotes.append quotes'

theorem text {content : String} (known : Known own content) : Quotes own [.text content] :=
  List.forall_mem_singleton.mpr known

theorem leaf {name : String} {attributes : List (String × String)}
    (values : ∀ value ∈ attributes.map Prod.snd, Known own value) :
    Quotes own [.leaf name attributes] :=
  List.forall_mem_append.mpr ⟨values, List.forall_mem_nil _⟩

theorem value {name text : String} (known : Known own text) : Quotes own [valueLeaf name text] :=
  .leaf (List.forall_mem_singleton.mpr known)

theorem number {name : String} (value : Nat) : Quotes own [valueLeaf name (toString value)] :=
  .value (.inl (isText_toString value))

theorem element {name : String} {attributes : List (String × String)}
    (values : ∀ value ∈ attributes.map Prod.snd, Known own value) (quotes : Quotes own nodes) :
    Quotes own [.element name attributes nodes] :=
  List.forall_mem_append.mpr
    ⟨List.forall_mem_append.mpr ⟨values, quotes⟩, List.forall_mem_nil _⟩

theorem wrapped {name : String} (quotes : Quotes own nodes) : Quotes own [.element name [] nodes] :=
  .element (List.forall_mem_nil _) quotes

theorem ite {condition : Prop} [Decidable condition] (quotes : Quotes own nodes)
    (otherwise : Quotes own nodes') : Quotes own (if condition then nodes else nodes') := by
  split
  · exact quotes
  · exact otherwise

theorem optional {α : Type} {value : Option α} {markup : α → Node}
    (quotes : ∀ present ∈ value, Quotes own [markup present]) :
    Quotes own (optionalLeaf value markup) := by
  cases value with
  | none => exact .nil
  | some present => exact quotes present rfl

theorem mapped {α : Type} {value : Option α} {markup : α → List Node}
    (quotes : ∀ present ∈ value, Quotes own (markup present)) :
    Quotes own ((value.map markup).getD []) := by
  cases value with
  | none => exact .nil
  | some present => exact quotes present rfl

theorem all (quotes : ∀ node ∈ nodes, Quotes own [node]) : Quotes own nodes := by
  induction nodes with
  | nil => exact .nil
  | cons node nodes ih =>
    obtain ⟨first, rest⟩ := List.forall_mem_cons.mp quotes
    exact first.cons (ih rest)

theorem unlessEmpty {name : String} (quotes : Quotes own nodes) :
    Quotes own (elementUnlessEmpty name nodes) :=
  .ite .nil (.wrapped quotes)

/-- Two elements around markup, in one of a third name. -/
theorem pair {name first second : String} (quotes : Quotes own nodes)
    (quotes' : Quotes own nodes') :
    Quotes own [.element name [] [.element first [] nodes, .element second [] nodes']] :=
  .wrapped ((wrapped quotes).cons (.wrapped quotes'))

end Quotes

section

variable {own : List String}

theorem mathText_quotes {text : String} (known : Known own text) : Quotes own [mathText text] := by
  have font : Quotes own [.element "w:rPr" [] [
      .leaf "w:rFonts" [("w:ascii", "Cambria Math"), ("w:hAnsi", "Cambria Math")]]] :=
    .fixed (by decide)
  exact .wrapped (font.cons (.element (known_of_all (by decide)) (.text known)))

mutual

theorem runMarkup_quotes (run : Math.Run) (known : run.texts ⊆ own) :
    Quotes own [runMarkup run] := by
  cases run with
  | text text => exact mathText_quotes (.inr (known List.mem_cons_self))
  | superscript base script =>
    obtain ⟨base', script'⟩ := List.append_subset.mp known
    exact .pair (runsMarkup_quotes base base') (runsMarkup_quotes script script')
  | subscript base script =>
    obtain ⟨base', script'⟩ := List.append_subset.mp known
    exact .pair (runsMarkup_quotes base base') (runsMarkup_quotes script script')
  | fraction numerator denominator =>
    obtain ⟨above, below⟩ := List.append_subset.mp known
    exact .pair (runsMarkup_quotes numerator above) (runsMarkup_quotes denominator below)
  | squareRoot body =>
    have hidden : Quotes own [.element "m:radPr" [] [.leaf "m:degHide" [("m:val", "1")]],
        .leaf "m:deg"] := .fixed (by decide)
    exact .wrapped (hidden.append (.wrapped (runsMarkup_quotes body known)))
  | root degree body =>
    obtain ⟨degree', body'⟩ := List.append_subset.mp known
    exact .pair (runsMarkup_quotes degree degree') (runsMarkup_quotes body body')
  | sum body =>
    have sign : Quotes own [sumProperties, .leaf "m:sub", .leaf "m:sup"] := .fixed (by decide)
    exact .wrapped (sign.append (.wrapped (runsMarkup_quotes body known)))

theorem runsMarkup_quotes (runs : List Math.Run) (known : runTexts runs ⊆ own) :
    Quotes own (runsMarkup runs) := by
  cases runs with
  | nil => exact .nil
  | cons run runs =>
    obtain ⟨first, rest⟩ := List.append_subset.mp known
    exact (runMarkup_quotes run first).cons (runsMarkup_quotes runs rest)

end

theorem textRun_quotes (format : RunFormat) {run : TextRun} (known : run.text ∈ own) :
    Quotes own [run.markup format] := by
  have flag {condition : Prop} [Decidable condition] {nodes : List Node}
      (texts : (childTexts nodes).all isText = true) :
      Quotes own (if condition then nodes else []) := .ite (.fixed texts) .nil
  have properties : Quotes own (run.properties format) :=
    (((flag (by decide)).append (flag (by decide))).append (flag (by decide))).append
      (flag (by decide))
  have breaks : Quotes own (List.replicate run.breaks (.leaf "w:br")) :=
    .all fun node mem => List.eq_of_mem_replicate mem ▸ .fixed (by decide)
  have text : Quotes own [.element "w:t" [("xml:space", "preserve")] [.text run.text]] :=
    .element (known_of_all (by decide)) (.text (.inr known))
  exact .wrapped ((properties.unlessEmpty.append breaks).append (.ite .nil text))

theorem isText_styleId (heading : Heading) : isText heading.styleId = true := by
  cases heading <;> decide

theorem isText_alignmentCode (alignment : Alignment) : isText alignment.code = true := by
  cases alignment <;> decide

theorem optionalAttribute_known (name : String) (number : Option Nat) :
    ∀ value ∈ (optionalAttribute name number).map Prod.snd, Known own value := by
  cases number with
  | none => exact List.forall_mem_nil _
  | some number => exact List.forall_mem_singleton.mpr (.inl (isText_toString number))

theorem spacingMarkup_quotes (properties : ParagraphProperties) :
    Quotes own (spacingMarkup properties) := by
  refine .ite .nil (.leaf ?_)
  rw [List.map_append]
  exact List.forall_mem_append.mpr ⟨optionalAttribute_known _ _, optionalAttribute_known _ _⟩

/-- The style of a paragraph is given from outside, that of its heading, or from its preset. -/
theorem propertyMarkup_quotes (instances : List (String × NumberingInstance))
    {style : Option String} (given : ∀ name ∈ style, isText name = true) {paragraph : Paragraph}
    (known : (paragraph.properties.bind ParagraphProperties.style).toList ⊆ own) :
    Quotes own (paragraph.propertyMarkup instances style) := by
  have styled : ∀ name ∈ style.or ((paragraph.heading.map Heading.styleId).or
      (paragraph.properties.bind ParagraphProperties.style)), Known own name := by
    intro name mem
    rcases Option.or_eq_some_iff.mp mem with outer | ⟨_, inner⟩
    · exact .inl (given name outer)
    · rcases Option.or_eq_some_iff.mp inner with heading | ⟨_, preset⟩
      · obtain ⟨level, _, rfl⟩ := Option.map_eq_some_iff.mp heading
        exact .inl (isText_styleId level)
      · exact .inr (known (Option.mem_toList.mpr preset))
  have numbered (place : Nat × Nat) : Quotes own [numberMarkup place] :=
    .wrapped ((Quotes.number place.2).cons (.number place.1))
  have indented (indent : Nat) : Quotes own [.leaf "w:ind" [("w:left", toString indent)]] :=
    .leaf (List.forall_mem_singleton.mpr (.inl (isText_toString indent)))
  have aligned (alignment : Alignment) : Quotes own [valueLeaf "w:jc" alignment.code] :=
    .value (.inl (isText_alignmentCode alignment))
  have named : Quotes own (optionalLeaf (style.or ((paragraph.heading.map Heading.styleId).or
      (paragraph.properties.bind ParagraphProperties.style))) (valueLeaf "w:pStyle")) :=
    .optional fun name mem => .value (styled name mem)
  have rule : Quotes own (if paragraph.thematicBreak then [ruleMarkup] else []) :=
    .ite (.fixed (by decide)) .nil
  have spacing : Quotes own ((paragraph.properties.map spacingMarkup).getD []) :=
    .mapped fun properties _ => spacingMarkup_quotes properties
  exact ((((named.append (.optional fun place _ => numbered place)).append rule).append
    spacing).append (.optional fun indent _ => indented indent)).append
      (.optional fun alignment _ => aligned alignment)

theorem widthLeaf_quotes (name : String) (width : Width) : Quotes own [widthLeaf name width] := by
  have code : isText width.unit.code = true := by
    cases width.unit <;> decide
  exact .leaf (List.forall_mem_cons.mpr
    ⟨.inl (isText_toString width.size), List.forall_mem_singleton.mpr (.inl code)⟩)

theorem tableProperties_quotes {options : Option TableOptions}
    (known : (options.bind TableOptions.style).toList ⊆ own) :
    Quotes own [tableProperties options] := by
  have named : Quotes own (optionalLeaf (options.bind TableOptions.style)
      (valueLeaf "w:tblStyle")) :=
    .optional fun name mem => .value (.inr (known (Option.mem_toList.mpr mem)))
  have borders : Quotes own [tableBorders] := .fixed (by decide)
  have laid (layout : TableLayout) :
      Quotes own [.leaf "w:tblLayout" [("w:type", layout.code)]] := by
    cases layout <;> exact .fixed (by decide)
  exact .wrapped ((named.append ((widthLeaf_quotes _ _).cons borders)).append
    (.optional fun layout _ => laid layout))

theorem tableGrid_quotes (rows : List Row) : Quotes own [tableGrid rows] :=
  .wrapped (.all fun _ mem => List.eq_of_mem_replicate mem ▸ .fixed (by decide))

theorem rowProperties_quotes (properties : Option RowProperties) :
    Quotes own ((properties.map RowProperties.markup).getD []) := by
  refine .mapped fun properties _ => .unlessEmpty ?_
  have whole : Quotes own (if properties.cantSplit then [.leaf "w:cantSplit"] else []) :=
    .ite (.fixed (by decide)) .nil
  have header : Quotes own (if properties.isHeader then [.leaf "w:tblHeader"] else []) :=
    .ite (.fixed (by decide)) .nil
  exact (whole.append (.optional fun height _ => .number height)).append header

theorem cellProperties_quotes {properties : Option CellProperties}
    (known : (properties.bind CellProperties.shading).toList ⊆ own) :
    Quotes own ((properties.map CellProperties.markup).getD []) := by
  refine .mapped fun present same => .unlessEmpty ?_
  have shaded (fill : String) (mem : fill ∈ present.shading) :
      Quotes own [.leaf "w:shd" [("w:val", "clear"), ("w:color", "auto"), ("w:fill", fill)]] := by
    have listed := known (Option.mem_toList.mpr (Option.bind_eq_some_iff.mpr ⟨present, same, mem⟩))
    have fixed : ∀ value ∈ ["clear", "auto"], Known own value := known_of_all (by decide)
    exact .leaf (List.forall_mem_append.mpr ⟨fixed, List.forall_mem_singleton.mpr (.inr listed)⟩)
  have aligned (alignment : VerticalAlignment) :
      Quotes own [valueLeaf "w:vAlign" alignment.code] := by
    cases alignment <;> exact .fixed (by decide)
  exact ((Quotes.optional fun width _ => widthLeaf_quotes _ width).append
    (.optional shaded)).append (.optional fun alignment _ => aligned alignment)

theorem drawingMarkup_quotes (image : Image) (number : Nat) {name relationship : String}
    (named : isText name = true) (related : isText relationship = true) :
    Quotes own [drawingMarkup image number name relationship] := by
  have digits (value : Nat) : isText value.repr = true := isText_toString value
  have picture : isText ("Picture " ++ number.repr) = true :=
    isText_append (by decide) (digits number)
  refine .fixed ?_
  simp +decide [drawingMarkup, childTexts, Node.texts, digits, picture, named, related]

mutual

theorem inlineMarkup_quotes (format : RunFormat) (item : Inline) (known : item.texts ⊆ own) :
    Yields (fun node => Quotes own [node]) (inlineMarkup format item) := by
  cases item with
  | text run => exact .pure (textRun_quotes format (known List.mem_cons_self))
  | image image =>
    intro ledger
    exact drawingMarkup_quotes image _ (isText_mediaName _ _) (isText_relationshipId _)
  | link url children =>
    intro ledger
    obtain ⟨_, below⟩ := List.cons_subset.mp known
    have inside := inlinesMarkup_quotes { format with hyperlink := true } children below
    have values : ∀ value ∈ [relationshipId ledger.relationships.length, "1"], Known own value :=
      List.forall_mem_cons.mpr ⟨.inl (isText_relationshipId _), known_of_all (by decide)⟩
    exact .element values (inside _)
  | math runs => exact .pure (.wrapped (runsMarkup_quotes runs known))
  | checkbox checked =>
    refine .pure ?_
    cases checked <;> exact .fixed (by decide)
  | footnoteReference id =>
    have style : Quotes own [.element "w:rPr" [] [runStyle "FootnoteReference"]] :=
      .fixed (by decide)
    have reference : Quotes own [.leaf "w:footnoteReference" [("w:id", toString id)]] :=
      .leaf (List.forall_mem_singleton.mpr (.inl (isText_toString id)))
    exact .pure (.wrapped (style.cons reference))

theorem inlinesMarkup_quotes (format : RunFormat) (items : List Inline)
    (known : itemTexts items ⊆ own) : Yields (Quotes own) (inlinesMarkup format items) := by
  cases items with
  | nil => exact .pure .nil
  | cons item items =>
    obtain ⟨first, rest⟩ := List.append_subset.mp known
    exact (inlineMarkup_quotes format item first).append (inlinesMarkup_quotes format items rest)
      fun _ _ => Quotes.cons

end

section

variable (instances : List (String × NumberingInstance))

theorem paragraphMarkup_quotes {style : Option String} (given : ∀ name ∈ style, isText name = true)
    {lead : List Node} (quotes : Quotes own lead) {paragraph : Paragraph}
    (known : paragraph.texts ⊆ own) :
    Yields (fun node => Quotes own [node]) (paragraph.markup instances style lead) := by
  obtain ⟨preset, items⟩ := List.append_subset.mp known
  refine (inlinesMarkup_quotes _ paragraph.children items).map fun written inside => ?_
  have properties := propertyMarkup_quotes instances given preset
  exact .wrapped ((properties.unlessEmpty.append quotes).append inside)

mutual

theorem blockMarkup_quotes (block : Block) (known : block.texts ⊆ own) :
    Yields (fun node => Quotes own [node]) (blockMarkup instances block) := by
  cases block with
  | paragraph paragraph =>
    have unstyled : ∀ name ∈ (none : Option String), isText name = true := by decide
    exact paragraphMarkup_quotes instances unstyled .nil known
  | table table =>
    obtain ⟨rows, options⟩ := table
    obtain ⟨style, below⟩ := List.append_subset.mp known
    refine (rowsMarkup_quotes rows below).map fun written inside => ?_
    exact .wrapped ((tableProperties_quotes style).cons ((tableGrid_quotes rows).cons inside))

theorem rowsMarkup_quotes (rows : List Row) (known : rowTexts rows ⊆ own) :
    Yields (Quotes own) (rowsMarkup instances rows) := by
  match rows with
  | [] => exact .pure .nil
  | ⟨cells, properties⟩ :: rows =>
    obtain ⟨first, rest⟩ := List.append_subset.mp known
    refine (cellsMarkup_quotes cells first).append (rowsMarkup_quotes rows rest)
      fun written below row following => ?_
    exact (Quotes.wrapped ((rowProperties_quotes properties).append row)).cons following

theorem cellsMarkup_quotes (cells : List Cell) (known : cellTexts cells ⊆ own) :
    Yields (Quotes own) (cellsMarkup instances cells) := by
  match cells with
  | [] => exact .pure .nil
  | ⟨children, properties⟩ :: cells =>
    obtain ⟨first, rest⟩ := List.append_subset.mp known
    obtain ⟨shading, inside⟩ := List.append_subset.mp first
    refine (blocksMarkup_quotes children inside).append (cellsMarkup_quotes cells rest)
      fun written below blocks following => ?_
    have content : Quotes own (if children.isEmpty then [.leaf "w:p"] else written) :=
      .ite (.fixed (by decide)) blocks
    exact (Quotes.wrapped ((cellProperties_quotes shading).append content)).cons following

theorem blocksMarkup_quotes (blocks : List Block) (known : blockTexts blocks ⊆ own) :
    Yields (Quotes own) (blocksMarkup instances blocks) := by
  match blocks with
  | [] => exact .pure .nil
  | block :: blocks =>
    obtain ⟨first, rest⟩ := List.append_subset.mp known
    exact (blockMarkup_quotes block first).append (blocksMarkup_quotes blocks rest)
      fun _ _ => Quotes.cons

end

theorem footnoteParagraphs_quotes {lead : List Node} (quotes : Quotes own lead)
    {paragraphs : List Paragraph} (known : paragraphs.flatMap Paragraph.texts ⊆ own) :
    Yields (Quotes own) (footnoteParagraphs instances lead paragraphs) := by
  induction paragraphs generalizing lead with
  | nil => exact .pure .nil
  | cons paragraph paragraphs ih =>
    obtain ⟨first, rest⟩ := List.append_subset.mp known
    have style : ∀ name ∈ some "FootnoteText", isText name = true := by decide
    exact (paragraphMarkup_quotes instances style quotes first).append (ih .nil rest)
      fun _ _ => Quotes.cons

theorem footnoteMarkup_quotes (id : Nat) {body : List Paragraph}
    (known : body.flatMap Paragraph.texts ⊆ own) :
    Yields (fun node => Quotes own [node]) (footnoteMarkup instances id body) := by
  have mark : Quotes own [footnoteMark] := .fixed (by decide)
  have number : ∀ value ∈ [toString id], Known own value :=
    List.forall_mem_singleton.mpr (.inl (isText_toString id))
  have written : (if body.isEmpty then [{}] else body).flatMap Paragraph.texts ⊆ own := by
    cases body with
    | nil => exact List.nil_subset own
    | cons paragraph paragraphs => exact known
  exact (footnoteParagraphs_quotes instances mark written).map fun _ => .element number

theorem footnotesMarkup_quotes {footnotes : List (Nat × List Paragraph)}
    (known : (footnotes.flatMap fun (_, body) => body.flatMap Paragraph.texts) ⊆ own) :
    Yields (Quotes own) (footnotesMarkup instances footnotes) := by
  induction footnotes with
  | nil => exact .pure .nil
  | cons footnote footnotes ih =>
    obtain ⟨first, rest⟩ := List.append_subset.mp known
    exact (footnoteMarkup_quotes instances footnote.1 first).append (ih rest) fun _ _ => Quotes.cons

end

theorem namespaces_known : ∀ value ∈ bodyNamespaces.map Prod.snd, Known own value := by
  simp only [bodyNamespaces, List.map_cons, List.map_nil, List.forall_mem_cons]
  refine ⟨?_, ?_, ?_, ?_, ?_, ?_, ?_, ?_, ?_, List.forall_mem_nil _⟩ <;>
    exact .inl (isText_ofList (by decide))

theorem bodyPart_quotes {document : Document}
    (known : blockTexts document.sections.flatten ⊆ own)
    (background : document.background.toList ⊆ own) :
    Yields (fun root => Quotes own [root]) (bodyPart document) := by
  refine (blocksMarkup_quotes _ _ known).map fun blocks quotes => ?_
  have colored (color : String) (mem : color ∈ document.background) :
      Quotes own [.leaf "w:background" [("w:color", color)]] :=
    .leaf (List.forall_mem_singleton.mpr (.inr (background (Option.mem_toList.mpr mem))))
  have page : Quotes own [pageMarkup] := .fixed (by decide)
  exact .element namespaces_known
    ((Quotes.optional colored).append (.wrapped (quotes.append page)))

theorem footnotesPart_quotes {document : Document}
    (known : (document.footnotes.flatMap fun (_, body) => body.flatMap Paragraph.texts) ⊆ own) :
    Yields (fun root => Quotes own [root]) (footnotesPart document) := by
  refine (footnotesMarkup_quotes _ known).map fun footnotes quotes => ?_
  have separators : Quotes own [separatorMarkup "separator" "-1",
      separatorMarkup "continuationSeparator" "0"] := .fixed (by decide)
  exact .element namespaces_known (separators.append quotes)

end

end WordExport
