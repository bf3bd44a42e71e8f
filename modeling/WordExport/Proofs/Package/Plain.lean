import WordExport.Proofs.Package.Uses
import WordExport.Proofs.Xml.Printing

set_option autoImplicit false

namespace WordExport

open Xml (Node Tag elementUnlessEmpty)
open Xml.Node (childTags childTags_append childMarks)

def Xml.Tag.marks : Tag → List Mark
  | ⟨name, attributes⟩ => attributes.filterMap (Mark.ofAttribute? name)

/-- Tags refer to a footnote, or mark where the number of one stands. -/
def isNoteTag : Tag → Bool
  | ⟨name, _⟩ => name == "w:footnoteReference" || name == "w:footnoteRef"

/-- A sound tag that is not about footnotes. -/
def isQuietTag (tag : Tag) : Bool :=
  tag.isSound && !isNoteTag tag

def isPlainTag (tag : Tag) : Bool :=
  isQuietTag tag && tag.marks.isEmpty

/-- A plain tag of no paragraph, no run of text and no number of a paragraph. -/
def isBareTag (tag : Tag) : Bool :=
  isPlainTag tag && !(["w:p", "w:r", "w:numPr"].contains tag.name)

/-- All tags in the markup pass a check. -/
def Checked (check : Tag → Bool) (nodes : List Node) : Prop :=
  (childTags nodes).all check = true

abbrev Plain (nodes : List Node) : Prop :=
  Checked isPlainTag nodes

abbrev Bare (nodes : List Node) : Prop :=
  Checked isBareTag nodes

namespace Checked

variable {check : Tag → Bool} {nodes nodes' : List Node}

theorem nil : Checked check [] := rfl

theorem imp {check' : Tag → Bool} (implies : ∀ tag, check tag = true → check' tag = true)
    (checked : Checked check nodes) : Checked check' nodes :=
  List.all_eq_true.mpr fun tag mem => implies tag (List.all_eq_true.mp checked tag mem)

theorem append (checked : Checked check nodes) (checked' : Checked check nodes') :
    Checked check (nodes ++ nodes') := by
  rw [Checked, childTags_append, List.all_append, checked, checked']
  rfl

theorem cons {node : Node} (checked : Checked check [node]) (checked' : Checked check nodes) :
    Checked check (node :: nodes) :=
  checked.append checked'

theorem element {name : String} {attributes : List (String × String)} {children : List Node}
    (tag : check ⟨name, attributes⟩ = true) (checked : Checked check children) :
    Checked check [.element name attributes children] := by
  have tags : childTags [.element name attributes children]
      = ⟨name, attributes⟩ :: childTags children := List.append_nil _
  rw [Checked, tags, List.all_cons, tag, checked]
  rfl

theorem pair {name first second : String}
    (tags : [name, first, second].all (fun name => check ⟨name, []⟩) = true)
    (checked : Checked check nodes) (checked' : Checked check nodes') :
    Checked check [.element name [] [.element first [] nodes, .element second [] nodes']] := by
  simp only [List.all_cons, List.all_nil, Bool.and_true, Bool.and_eq_true] at tags
  exact .element tags.1 ((element tags.2.1 checked).cons (element tags.2.2 checked'))

theorem ite {condition : Prop} [Decidable condition] (checked : Checked check nodes)
    (otherwise : Checked check nodes') : Checked check (if condition then nodes else nodes') := by
  split
  · exact checked
  · exact otherwise

theorem optional {α : Type} {value : Option α} {markup : α → Node}
    (checked : ∀ present, Checked check [markup present]) :
    Checked check (optionalLeaf value markup) := by
  cases value with
  | none => exact .nil
  | some present => exact checked present

theorem mapped {α : Type} {value : Option α} {markup : α → List Node}
    (checked : ∀ present, Checked check (markup present)) :
    Checked check ((value.map markup).getD []) := by
  cases value with
  | none => exact .nil
  | some present => exact checked present

theorem all (checked : ∀ node ∈ nodes, Checked check [node]) : Checked check nodes := by
  induction nodes with
  | nil => exact .nil
  | cons node nodes ih =>
    have below := ih fun other mem => checked other (List.mem_cons_of_mem _ mem)
    exact (checked node List.mem_cons_self).cons below

theorem replicate {node : Node} (count : Nat) (checked : Checked check [node]) :
    Checked check (List.replicate count node) :=
  .all fun _ mem => (List.eq_of_mem_replicate mem) ▸ checked

theorem unlessEmpty {name : String} (tag : check ⟨name, []⟩ = true)
    (checked : Checked check nodes) : Checked check (elementUnlessEmpty name nodes) :=
  .ite .nil (.element tag checked)

end Checked

theorem Bare.plain {nodes : List Node} (bare : Bare nodes) : Plain nodes :=
  Checked.imp (fun _ bareTag => (Bool.and_eq_true_iff.mp bareTag).1) bare

mutual

theorem marks_eq_tags (node : Node) : node.marks = node.tags.flatMap Tag.marks := by
  cases node with
  | text content => rfl
  | leaf name attributes => exact (List.append_nil _).symm
  | element name attributes children => exact congrArg _ (childMarks_eq_tags children)

theorem childMarks_eq_tags (nodes : List Node) :
    childMarks nodes = (childTags nodes).flatMap Tag.marks := by
  cases nodes with
  | nil => rfl
  | cons node nodes =>
    rw [childMarks, childTags, List.flatMap_append, marks_eq_tags node, childMarks_eq_tags nodes]

end

theorem Plain.unmarked {nodes : List Node} (plain : Plain nodes) : childMarks nodes = [] := by
  rw [childMarks_eq_tags, List.flatMap_eq_nil_iff]
  intro tag mem
  have quiet := List.all_eq_true.mp plain tag mem
  simp only [isPlainTag, Bool.and_eq_true, List.isEmpty_iff] at quiet
  exact quiet.2

mutual

theorem runMarkup_bare (run : Math.Run) : Bare [runMarkup run] := by
  cases run with
  | text text => rfl
  | superscript base script => exact .pair rfl (runsMarkup_bare base) (runsMarkup_bare script)
  | subscript base script => exact .pair rfl (runsMarkup_bare base) (runsMarkup_bare script)
  | fraction numerator denominator =>
    exact .pair rfl (runsMarkup_bare numerator) (runsMarkup_bare denominator)
  | squareRoot body =>
    have hidden : Bare [.element "m:radPr" [] [.leaf "m:degHide" [("m:val", "1")]],
        .leaf "m:deg"] := rfl
    exact .element rfl (hidden.append (.element rfl (runsMarkup_bare body)))
  | root degree body => exact .pair rfl (runsMarkup_bare degree) (runsMarkup_bare body)
  | sum body =>
    have sign : Bare [sumProperties, .leaf "m:sub", .leaf "m:sup"] := rfl
    exact .element rfl (sign.append (.element rfl (runsMarkup_bare body)))

theorem runsMarkup_bare (runs : List Math.Run) : Bare (runsMarkup runs) := by
  cases runs with
  | nil => exact .nil
  | cons run runs => exact (runMarkup_bare run).cons (runsMarkup_bare runs)

end

/-- What a run of text holds. -/
theorem textRun_bare (format : RunFormat) (run : TextRun) :
    ∃ content, run.markup format = .element "w:r" [] content ∧ Bare content := by
  have flag {condition : Prop} [Decidable condition] {nodes : List Node} (bare : Bare nodes) :
      Bare (if condition then nodes else []) := .ite bare .nil
  have style : Bare [runStyle "Hyperlink"] := rfl
  have bold : Bare [.leaf "w:b", .leaf "w:bCs"] := rfl
  have italic : Bare [.leaf "w:i", .leaf "w:iCs"] := rfl
  have strike : Bare [.leaf "w:strike"] := rfl
  have properties : Bare (run.properties format) :=
    (((flag style).append (flag bold)).append (flag italic)).append (flag strike)
  have formatted : Bare (elementUnlessEmpty "w:rPr" (run.properties format)) :=
    .unlessEmpty rfl properties
  have breaks : Bare (List.replicate run.breaks (.leaf "w:br")) := .replicate _ rfl
  have text : Bare [.element "w:t" [("xml:space", "preserve")] [.text run.text]] := rfl
  exact ⟨_, rfl, (formatted.append breaks).append (.ite .nil text)⟩

theorem textRun_plain (format : RunFormat) (run : TextRun) : Plain [run.markup format] := by
  obtain ⟨content, same, bare⟩ := textRun_bare format run
  rw [same]
  exact .element rfl bare.plain

theorem spacingMarkup_bare (properties : ParagraphProperties) :
    Bare (spacingMarkup properties) := by
  unfold spacingMarkup
  cases properties.spacingBefore <;> cases properties.spacingAfter <;> rfl

/-- Of the properties of a paragraph, only its number is more than bare markup. -/
theorem propertyMarkup_bare (instances : List (String × NumberingInstance))
    (style : Option String) (paragraph : Paragraph) :
    ∃ before after, Bare before ∧ Bare after ∧ paragraph.propertyMarkup instances style
      = before ++ optionalLeaf (paragraph.numbering.bind (Numbering.place? instances)) numberMarkup
        ++ after := by
  have named (style : String) : Bare [valueLeaf "w:pStyle" style] := rfl
  have ruled : Bare [ruleMarkup] := rfl
  have indented (indent : Nat) : Bare [.leaf "w:ind" [("w:left", toString indent)]] := rfl
  have aligned (alignment : Alignment) : Bare [valueLeaf "w:jc" alignment.code] := rfl
  have rule : Bare (if paragraph.thematicBreak then [ruleMarkup] else []) := .ite ruled .nil
  refine ⟨?first, ?second, ?before, ?after, ?same⟩
  case same =>
    simp only [Paragraph.propertyMarkup, List.append_assoc]
    rfl
  case before => exact .optional named
  case after =>
    exact rule.append ((Checked.mapped spacingMarkup_bare).append
      ((Checked.optional indented).append (.optional aligned)))

theorem propertyMarkup_plain (instances : List (String × NumberingInstance))
    (style : Option String) (paragraph : Paragraph) :
    Plain (elementUnlessEmpty "w:pPr" (paragraph.propertyMarkup instances style)) := by
  have numbered (place : Nat × Nat) : Plain [numberMarkup place] := rfl
  obtain ⟨before, after, bare, bare', same⟩ := propertyMarkup_bare instances style paragraph
  rw [same]
  exact .unlessEmpty rfl ((bare.plain.append (.optional numbered)).append bare'.plain)

theorem tableProperties_bare (options : Option TableOptions) : Bare [tableProperties options] := by
  have named (style : String) : Bare [valueLeaf "w:tblStyle" style] := rfl
  have bordered (width : Width) : Bare [widthLeaf "w:tblW" width, tableBorders] := rfl
  have laid (layout : TableLayout) : Bare [.leaf "w:tblLayout" [("w:type", layout.code)]] := rfl
  exact .element rfl (((Checked.optional named).append (bordered _)).append (.optional laid))

theorem tableGrid_bare (rows : List Row) : Bare [tableGrid rows] :=
  .element rfl (.replicate _ rfl)

theorem rowProperties_bare (properties : Option RowProperties) :
    Bare ((properties.map RowProperties.markup).getD []) := by
  refine .mapped fun properties => ?_
  have whole : Bare [.leaf "w:cantSplit"] := rfl
  have high (height : Nat) : Bare [valueLeaf "w:trHeight" (toString height)] := rfl
  have header : Bare [.leaf "w:tblHeader"] := rfl
  exact .unlessEmpty rfl
    (((Checked.ite whole .nil).append (.optional high)).append (.ite header .nil))

theorem cellProperties_bare (properties : Option CellProperties) :
    Bare ((properties.map CellProperties.markup).getD []) := by
  refine .mapped fun properties => ?_
  have wide (width : Width) : Bare [widthLeaf "w:tcW" width] := rfl
  have shaded (fill : String) : Bare [.leaf "w:shd" [("w:val", "clear"), ("w:color", "auto"),
      ("w:fill", fill)]] := rfl
  have aligned (alignment : VerticalAlignment) :
      Bare [valueLeaf "w:vAlign" alignment.code] := rfl
  exact .unlessEmpty rfl
    (((Checked.optional wide).append (.optional shaded)).append (.optional aligned))

end WordExport
