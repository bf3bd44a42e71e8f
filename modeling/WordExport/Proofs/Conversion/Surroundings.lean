import WordExport.Proofs.Conversion.Preservation

set_option autoImplicit false

namespace WordExport

open Markdown (Node)

namespace Markdown

/-- A node and the nodes around it, the outermost first. -/
structure Site where
  around : List Node
  node : Node

mutual

/-- The sites in a node, in order. Quotations, lists, items and decorations are around the sites of
their children and make no content of their own. -/
def Node.sites (around : List Node) (node : Node) : List Site :=
  match node with
  | .blockquote children | .list _ _ _ children | .listItem _ _ children | .emphasis children
  | .strong children | .delete children => sitesOf (around ++ [node]) children
  | _ => [{ around, node }]

def sitesOf (around : List Node) : List Node → List Site
  | [] => []
  | node :: nodes => node.sites around ++ sitesOf around nodes

end

/-- Whether a list is said to be ordered. -/
def Node.ordered? : Node → Option (Option Bool)
  | .list ordered _ _ _ => some ordered
  | _ => none

/-- Whether what is directly in a list or in an item of one is a task, done or not. -/
def Node.task? : Node → Option (Option Bool)
  | .list _ _ _ _ => some none
  | .listItem checked _ _ => some checked
  | _ => none

end Markdown

open Markdown (Site sitesOf)

section

variable (around : List Node)

def quotations : Nat :=
  (around.map Node.kind).count "blockquote"

/-- The lists, each with whether it is said to be ordered. -/
def listsAround : List (Option Bool) :=
  around.filterMap Node.ordered?

/-- The innermost list or item decides what is a task. -/
def taskAround : Option Bool :=
  (around.filterMap Node.task?).getLast?.join

/-- The innermost list decides the kind of numbering. -/
def numberingAround : Option Numbering :=
  (listsAround around).getLast?.map fun ordered =>
    if ordered = some true then .ordered "ordered" ((listsAround around).length - 1)
    else .bullet ((listsAround around).length - 1)

/-- The context of a site in a whole tree. -/
def contextAround (images : ImageTable) (preset : Option TablePreset) : Context where
  images
  preset
  decoration := ({} : Decoration).inside (around.map Node.kind)
  indent := quotations around
  list := (listsAround around).getLast?.map fun ordered => {
    level := (listsAround around).length - 1
    ordered := ordered.getD false
    checked := taskAround around }

end

section

variable (around : List Node) (node : Node)

theorem listsAround_append :
    listsAround (around ++ [node]) = listsAround around ++ node.ordered?.toList := by
  rw [listsAround, List.filterMap_append, listsAround]
  cases node <;> rfl

theorem taskAround_append :
    taskAround (around ++ [node]) = node.task?.getD (taskAround around) := by
  have single : [node].filterMap Node.task? = node.task?.toList := by cases node <;> rfl
  rw [taskAround, List.filterMap_append, taskAround, single]
  cases node.task? with
  | none =>
    rw [Option.toList_none, List.append_nil]
    rfl
  | some task =>
    rw [Option.toList_some, List.getLast?_concat]
    rfl

theorem decorationAround_append :
    ({} : Decoration).inside ((around ++ [node]).map Node.kind)
      = (({} : Decoration).inside (around.map Node.kind)).inside [node.kind] := by
  simp [Decoration.inside]

theorem quotations_append :
    quotations (around ++ [node]) = quotations around + [node.kind].count "blockquote" := by
  rw [quotations, List.map_append, List.count_append]
  rfl

variable (images : ImageTable) (preset : Option TablePreset)

/-- A node that is no list and no item leaves the list as it is. -/
theorem contextAround_append (unlisted : node.ordered? = none) (idle : node.task? = none) :
    contextAround (around ++ [node]) images preset
      = { contextAround around images preset with
          decoration := (contextAround around images preset).decoration.inside [node.kind]
          indent := (contextAround around images preset).indent + [node.kind].count "blockquote" } := by
  simp only [contextAround, listsAround_append, taskAround_append, decorationAround_append,
    quotations_append, unlisted, idle, Option.toList_none, List.append_nil, Option.getD_none]

theorem contextAround_blockquote (children : List Node) :
    contextAround (around ++ [.blockquote children]) images preset
      = (contextAround around images preset).quoted := by
  rw [contextAround_append _ _ images preset rfl rfl]
  simp [Context.quoted, Decoration.inside, Node.kind]

theorem contextAround_emphasis (children : List Node) :
    contextAround (around ++ [.emphasis children]) images preset
      = (contextAround around images preset).emphasized := by
  rw [contextAround_append _ _ images preset rfl rfl]
  simp [Context.emphasized, Decoration.inside, Node.kind]

theorem contextAround_strong (children : List Node) :
    contextAround (around ++ [.strong children]) images preset
      = (contextAround around images preset).strong := by
  rw [contextAround_append _ _ images preset rfl rfl]
  simp [Context.strong, Decoration.inside, Node.kind]

theorem contextAround_delete (children : List Node) :
    contextAround (around ++ [.delete children]) images preset
      = (contextAround around images preset).deleted := by
  rw [contextAround_append _ _ images preset rfl rfl]
  simp [Context.deleted, Decoration.inside, Node.kind]

/-- The level of a list is the number of lists around it. -/
theorem contextAround_listed (ordered : Bool) :
    (contextAround around images preset).listed ordered
      = { contextAround around images preset with
          list := some { level := (listsAround around).length, ordered } } := by
  simp only [Context.listed, contextAround]
  rcases List.eq_nil_or_concat (listsAround around) with empty | ⟨outer, last, whole⟩
  · rw [empty]
    rfl
  · rw [whole, List.concat_eq_append, List.getLast?_concat, List.length_append]
    rfl

theorem contextAround_list (ordered : Option Bool) (start : Option Nat) (spread : Option Bool)
    (children : List Node) :
    contextAround (around ++ [.list ordered start spread children]) images preset
      = (contextAround around images preset).listed (ordered.getD false) := by
  have plain : (({} : Decoration).inside (around.map Node.kind)).inside ["list"]
      = ({} : Decoration).inside (around.map Node.kind) := Decoration.inside_plain _ rfl
  rw [contextAround_listed]
  simp only [contextAround, listsAround_append, taskAround_append, decorationAround_append,
    quotations_append, Node.kind, plain, Node.ordered?, Node.task?]
  simp

theorem contextAround_listItem (checked : Option Bool) (spread : Option Bool) (children : List Node) :
    contextAround (around ++ [.listItem checked spread children]) images preset
      = (contextAround around images preset).item checked := by
  have plain : (({} : Decoration).inside (around.map Node.kind)).inside ["listItem"]
      = ({} : Decoration).inside (around.map Node.kind) := Decoration.inside_plain _ rfl
  simp only [Context.item, contextAround, listsAround_append, taskAround_append, decorationAround_append,
    quotations_append, Node.kind, plain, Node.ordered?, Node.task?]
  simp [Function.comp_def]

end

/-- A paragraph with the given items, placed by the nodes around it. -/
structure Paragraph.IsPlaced (paragraph : Paragraph) (around : List Node) (items : List Inline) :
    Prop where
  children : paragraph.children = (taskAround around).toList.map .checkbox ++ items
  indent : paragraph.indent
    = if quotations around = 0 then none else some (min (720 * quotations around) (UInt32.size - 1))
  numbering : paragraph.numbering = numberingAround around
  heading : paragraph.heading = none
  alignment : paragraph.alignment = none
  thematicBreak : paragraph.thematicBreak = false
  properties : paragraph.properties = none

/-- What a site makes: a paragraph makes one, placed by what is around it, and any other node makes
what it does in the same context. -/
def Makes (images : ImageTable) (preset : Option TablePreset) (site : Site)
    (contents : List Content) : Prop :=
  let context := contextAround site.around images preset
  match site.node with
  | .paragraph children =>
    ∃ inside paragraph, convertNodes context children = .ok inside ∧
      contents = [.paragraph paragraph] ∧
      paragraph.IsPlaced site.around (toInlines inside.value)
  | node => ∃ inside, convertNode context node = .ok inside ∧ contents = inside.value

/-- What sites make one after another. -/
inductive MakesAll (images : ImageTable) (preset : Option TablePreset) :
    List Site → List Content → Prop
  | nil : MakesAll images preset [] []
  | cons {site : Site} {sites : List Site} {first rest : List Content} :
    Makes images preset site first → MakesAll images preset sites rest →
      MakesAll images preset (site :: sites) (first ++ rest)

section

variable {images : ImageTable} {preset : Option TablePreset}

theorem MakesAll.append {earlier later : List Site} {first second : List Content}
    (made : MakesAll images preset earlier first) (next : MakesAll images preset later second) :
    MakesAll images preset (earlier ++ later) (first ++ second) := by
  induction made with
  | nil => exact next
  | cons site _ ih =>
    rw [List.cons_append, List.append_assoc]
    exact .cons site ih

theorem MakesAll.single {site : Site} {contents : List Content}
    (made : Makes images preset site contents) : MakesAll images preset [site] contents := by
  simpa only [List.append_nil] using MakesAll.cons made .nil

/-- A task is in a list. -/
def Housed (around : List Node) : Prop :=
  listsAround around = [] → taskAround around = none

theorem Housed.append {around : List Node} (housed : Housed around) (node : Node)
    (unlisted : node.ordered? = none) (idle : node.task? = none) : Housed (around ++ [node]) := by
  simpa only [Housed, listsAround_append, taskAround_append, unlisted, idle, Option.toList_none,
    List.append_nil, Option.getD_none] using housed

theorem contextAround_paragraph {around : List Node} (housed : Housed around)
    (items : List Inline) :
    ((contextAround around images preset).paragraph items).IsPlaced around items where
  children := by
    simp only [Context.paragraph, contextAround]
    rcases List.eq_nil_or_concat (listsAround around) with empty | ⟨outer, last, whole⟩
    · rw [housed empty, empty]
      rfl
    · rw [whole, List.concat_eq_append, List.getLast?_concat]
      cases taskAround around <;> rfl
  indent := by
    simp only [Context.paragraph, contextAround, levelIndent, Nat.mul_comm (quotations around)]
    rfl
  numbering := by
    simp only [Context.paragraph, contextAround, Context.numbering, numberingAround,
      Option.map_map, orderedReference]
    congr 1
    funext ordered
    rcases ordered with _ | _ | _ <;> rfl
  heading := rfl
  alignment := rfl
  thematicBreak := rfl
  properties := rfl

mutual

/-- What a node among the given ones makes is what its sites make. -/
theorem convertNode_makes {around : List Node} (housed : Housed around) (node : Node)
    (noted : Noted (List Content))
    (converted : convertNode (contextAround around images preset) node = .ok noted) :
    MakesAll images preset (node.sites around) noted.value := by
  cases node with
  | blockquote children =>
    rw [convertNode, ← contextAround_blockquote] at converted
    exact convertNodes_makes (housed.append _ rfl rfl) children noted converted
  | emphasis children =>
    rw [convertNode, ← contextAround_emphasis] at converted
    exact convertNodes_makes (housed.append _ rfl rfl) children noted converted
  | strong children =>
    rw [convertNode, ← contextAround_strong] at converted
    exact convertNodes_makes (housed.append _ rfl rfl) children noted converted
  | delete children =>
    rw [convertNode, ← contextAround_delete] at converted
    exact convertNodes_makes (housed.append _ rfl rfl) children noted converted
  | list ordered start spread children =>
    rw [convertNode, ← contextAround_list around images preset ordered start spread children]
      at converted
    refine convertItems_makes ?_ children noted converted
    simp [listsAround_append, Node.ordered?]
  | listItem checked spread children => exact absurd converted Conversion.fail_ne_ok
  | paragraph children =>
    obtain ⟨inside, later, first, last, rfl⟩ := Conversion.bind_eq_ok.mp converted
    obtain rfl := Conversion.pure_eq_ok.mp last
    exact .single ⟨inside, _, first, rfl, contextAround_paragraph housed _⟩
  | _ => exact .single ⟨noted, converted, rfl⟩

theorem convertNodes_makes {around : List Node} (housed : Housed around) (nodes : List Node)
    (noted : Noted (List Content))
    (converted : convertNodes (contextAround around images preset) nodes = .ok noted) :
    MakesAll images preset (sitesOf around nodes) noted.value := by
  cases nodes with
  | nil =>
    obtain rfl := Conversion.pure_eq_ok.mp converted
    exact .nil
  | cons node nodes =>
    obtain ⟨earlier, later, first, second, rfl⟩ := Conversion.join_eq_ok.mp converted
    exact (convertNode_makes housed node earlier first).append
      (convertNodes_makes housed nodes later second)

theorem convertItems_makes {around : List Node} (listed : listsAround around ≠ [])
    (nodes : List Node) (noted : Noted (List Content))
    (converted : convertItems (contextAround around images preset) nodes = .ok noted) :
    MakesAll images preset (sitesOf around nodes) noted.value := by
  cases nodes with
  | nil =>
    obtain rfl := Conversion.pure_eq_ok.mp converted
    exact .nil
  | cons node nodes =>
    cases node with
    | listItem checked spread children =>
      obtain ⟨earlier, later, first, second, rfl⟩ := Conversion.join_eq_ok.mp converted
      rw [← contextAround_listItem around images preset checked spread children] at first
      have housed : Housed (around ++ [.listItem checked spread children]) := by
        intro empty
        simp [listsAround_append, listed] at empty
      exact (convertNodes_makes housed children earlier first).append
        (convertItems_makes listed nodes later second)
    | _ =>
      obtain ⟨earlier, later, first, second, rfl⟩ := Conversion.join_eq_ok.mp converted
      exact (convertNode_makes (absurd · listed) _ earlier first).append
        (convertItems_makes listed nodes later second)

end

end

/-- A paragraph below quotations, lists, items and decorations alone makes one paragraph, where it
stands among all others. What is around it decides its place, and nothing else in the tree does. -/
theorem convertNodes_places (images : ImageTable) (preset : Option TablePreset) (nodes : List Node)
    (noted : Noted (List Content))
    (converted : convertNodes { images, preset } nodes = .ok noted) :
    MakesAll images preset (sitesOf [] nodes) noted.value :=
  convertNodes_makes (fun _ => rfl : Housed []) nodes noted converted

/-- A list in a task, the next paragraph of the task after it, and a paragraph after them all. -/
def taskNodes : List Node := [
  .blockquote [.list (some true) none none [
    .listItem (some true) none [
      .strong [.list none none none [
        .listItem none none [.blockquote [.paragraph [.text "a"]]],
        .paragraph [.text "b"]]],
      .paragraph [.text "c"]]]],
  .paragraph [.text "d"]]

def taskContents : List Content := [
  .paragraph {
    children := [.text { text := "a", bold := true }], indent := some 1440
    numbering := some (.bullet 1) },
  .paragraph {
    children := [.text { text := "b", bold := true }], indent := some 720
    numbering := some (.bullet 1) },
  .paragraph {
    children := [.checkbox true, .text { text := "c" }], indent := some 720
    numbering := some (.ordered "ordered" 0) },
  .paragraph { children := [.text { text := "d" }] }]

theorem convertNodes_places_tasks :
    convertNodes {} taskNodes = .ok { value := taskContents } ∧
      MakesAll {} none (sitesOf [] taskNodes) taskContents := by
  have converted : convertNodes {} taskNodes = .ok { value := taskContents } := by cbv
  exact ⟨converted, convertNodes_places {} none taskNodes _ converted⟩

end WordExport
