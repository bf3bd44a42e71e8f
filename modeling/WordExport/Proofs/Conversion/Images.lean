import WordExport.Proofs.Assembly
import WordExport.Proofs.Conversion.Visits
import WordExport.Proofs.Image.Prefetch

set_option autoImplicit false

namespace WordExport

open Markdown (Node Tree Visit visitAll visitItems visitRows visitCells)

namespace Markdown

mutual

theorem Node.visits_sublist (node : Node) :
    (node.visits.map Visit.node).Sublist node.walk := by
  cases node with
  | root children | paragraph children | heading depth children | blockquote children
  | listItem checked spread children | tableCell children
  | footnoteDefinition identifier label children | emphasis children | strong children
  | delete children | link url title children | footnote children =>
    exact (visitAll_sublist children).cons_cons _
  | list ordered start spread children => exact (visitItems_sublist children).cons_cons _
  | table align children => exact (visitRows_sublist children).cons_cons _
  | tableRow children => exact (visitCells_sublist children).cons_cons _
  | linkReference identifier label kind children => exact (List.nil_sublist _).cons_cons _
  | _ => exact List.Sublist.refl _

theorem visitAll_sublist (nodes : List Node) :
    ((visitAll nodes).map Visit.node).Sublist (Node.walkAll nodes) := by
  cases nodes with
  | nil => exact .slnil
  | cons node nodes =>
    rw [visitAll, List.map_append]
    exact node.visits_sublist.append (visitAll_sublist nodes)

theorem visitItems_sublist (nodes : List Node) :
    ((visitItems nodes).map Visit.node).Sublist (Node.walkAll nodes) := by
  cases nodes with
  | nil => exact .slnil
  | cons node nodes =>
    have rest := visitItems_sublist nodes
    cases node with
    | listItem checked spread children =>
      rw [visitItems, List.map_append]
      exact ((visitAll_sublist children).cons_cons _).append rest
    | _ =>
      rw [visitItems, List.map_append]
      · exact (Node.visits_sublist _).append rest
      · nofun

theorem visitRows_sublist (nodes : List Node) :
    ((visitRows nodes).map Visit.node).Sublist (Node.walkAll nodes) := by
  cases nodes with
  | nil => exact .slnil
  | cons node nodes =>
    have rest := visitRows_sublist nodes
    cases node with
    | tableRow children =>
      rw [visitRows, List.map_append]
      exact ((visitCells_sublist children).cons_cons _).append rest
    | _ => exact rest.trans (List.sublist_append_right _ _)

theorem visitCells_sublist (nodes : List Node) :
    ((visitCells nodes).map Visit.node).Sublist (Node.walkAll nodes) := by
  cases nodes with
  | nil => exact .slnil
  | cons node nodes =>
    have rest := visitCells_sublist nodes
    cases node with
    | tableCell children =>
      rw [visitCells, List.map_append]
      exact ((visitAll_sublist children).cons_cons _).append rest
    | _ => exact rest.trans (List.sublist_append_right _ _)

end

theorem Tree.mem_walk_of_visit {tree : Tree} {visit : Visit} (mem : visit ∈ visitAll tree.children) :
    visit.node ∈ tree.walk :=
  (visitAll_sublist tree.children).mem (List.mem_map_of_mem mem)

end Markdown

/-- Two tables have the same image, or none, for every image visited. -/
def AgreeOn (images images' : ImageTable) (visits : List Visit) : Prop :=
  ∀ visit ∈ visits, ∀ url, visit.node.imageUrl? = some url → images.find? url = images'.find? url

theorem agreeOn_cons {images images' : ImageTable} {visit : Visit} {visits : List Visit}
    (agree : AgreeOn images images' (visit :: visits)) : AgreeOn images images' visits :=
  (List.forall_mem_cons.mp agree).2

theorem agreeOn_append {images images' : ImageTable} {visits visits' : List Visit} :
    AgreeOn images images' (visits ++ visits')
      ↔ AgreeOn images images' visits ∧ AgreeOn images images' visits' :=
  List.forall_mem_append

section

variable {images : ImageTable}

mutual

theorem convertNode_images (context : Context) (node : Node)
    (agree : AgreeOn context.images images node.visits) :
    convertNode context node = convertNode { context with images } node := by
  cases node with
  | paragraph children =>
    simp only [convertNode]
    rw [convertNodes_images context children (agreeOn_cons agree)]
    rfl
  | heading depth children | link url title children | footnote children =>
    simp only [convertNode]
    rw [convertNodes_images context children (agreeOn_cons agree)]
  | blockquote children => exact convertNodes_images context.quoted children (agreeOn_cons agree)
  | emphasis children => exact convertNodes_images context.emphasized children (agreeOn_cons agree)
  | strong children => exact convertNodes_images context.strong children (agreeOn_cons agree)
  | delete children => exact convertNodes_images context.deleted children (agreeOn_cons agree)
  | list ordered start spread children =>
    exact convertItems_images (context.listed (ordered.getD false)) children (agreeOn_cons agree)
  | table align children =>
    simp only [convertNode]
    rw [convertRows_images context align _ _ children (agreeOn_cons agree)]
  | footnoteDefinition identifier label children =>
    simp only [convertNode]
    rw [convertBody_images context children (agreeOn_cons agree)]
  | image url title alt =>
    have same : context.images.find? url = images.find? url :=
      agree _ List.mem_cons_self url rfl
    simp only [convertNode, same]
  | _ => rfl

theorem convertNodes_images (context : Context) (nodes : List Node)
    (agree : AgreeOn context.images images (visitAll nodes)) :
    convertNodes context nodes = convertNodes { context with images } nodes := by
  cases nodes with
  | nil => rfl
  | cons node nodes =>
    obtain ⟨first, rest⟩ := agreeOn_append.mp agree
    simp only [convertNodes]
    rw [convertNode_images context node first, convertNodes_images context nodes rest]

theorem convertItems_images (context : Context) (nodes : List Node)
    (agree : AgreeOn context.images images (visitItems nodes)) :
    convertItems context nodes = convertItems { context with images } nodes := by
  cases nodes with
  | nil => rfl
  | cons node nodes =>
    cases node with
    | listItem checked spread children =>
      obtain ⟨item, rest⟩ := agreeOn_append.mp agree
      simp only [convertItems]
      rw [convertNodes_images (context.item checked) children (agreeOn_cons item),
        convertItems_images context nodes rest]
      rfl
    | _ =>
      obtain ⟨first, rest⟩ := agreeOn_append.mp agree
      simp only [convertItems]
      rw [convertNode_images context _ first, convertItems_images context nodes rest]

theorem convertRows_images (context : Context) (align : List (Option Markdown.ColumnAlignment))
    (first others : Option TablePart) (nodes : List Node)
    (agree : AgreeOn context.images images (visitRows nodes)) :
    convertRows context align first others nodes
      = convertRows { context with images } align first others nodes := by
  cases nodes with
  | nil => rfl
  | cons node nodes =>
    cases node with
    | tableRow children =>
      obtain ⟨row, rest⟩ := agreeOn_append.mp agree
      simp only [convertRows]
      rw [convertCells_images context first align children (agreeOn_cons row),
        convertRows_images context align others others nodes rest]
    | _ => exact convertRows_images context align others others nodes agree

theorem convertCells_images (context : Context) (part : Option TablePart)
    (align : List (Option Markdown.ColumnAlignment)) (nodes : List Node)
    (agree : AgreeOn context.images images (visitCells nodes)) :
    convertCells context part align nodes
      = convertCells { context with images } part align nodes := by
  cases nodes with
  | nil => rfl
  | cons node nodes =>
    cases node with
    | tableCell children =>
      obtain ⟨cell, rest⟩ := agreeOn_append.mp agree
      simp only [convertCells]
      rw [convertNodes_images context children (agreeOn_cons cell),
        convertCells_images context part align.tail nodes rest]
    | _ => exact convertCells_images context part align.tail nodes agree

theorem convertBody_images (context : Context) (nodes : List Node)
    (agree : AgreeOn context.images images (visitAll nodes)) :
    convertBody context nodes = convertBody { context with images } nodes := by
  cases nodes with
  | nil => rfl
  | cons node nodes =>
    obtain ⟨first, rest⟩ := agreeOn_append.mp agree
    simp only [convertBody]
    rw [convertNode_images context node first, convertBody_images context nodes rest]

end

end

theorem Markdown.Visit.missing_of_fault {images : ImageTable} {visit : Visit} {fault : ImageFault}
    (faulty : visit.fault? images = some (.resolution fault)) :
    ∃ url, visit.node.imageUrl? = some url ∧ images.find? url = none := by
  unfold Visit.fault? at faulty
  split at faulty
  case h_6 url title alt placed =>
    cases found : images.find? url with
    | none => exact ⟨url, rfl, found⟩
    | some image => rw [found] at faulty; cases faulty
  case h_7 identifier label placed =>
    cases numbered : footnoteId identifier with
    | ok id => rw [numbered] at faulty; cases faulty
    | error fault => rw [numbered] at faulty; cases faulty
  all_goals cases faulty

/-- A conversion whose images are all there misses none. -/
theorem convertNodes_resolved {context : Context} {nodes : List Node}
    (covers : context.images.Covers ((Node.walkAll nodes).filterMap Node.imageUrl?))
    (fault : ImageFault) : convertNodes context nodes ≠ .error (.resolution fault) := by
  intro failed
  have follows := convertNodes_follows context nodes
  rw [failed] at follows
  obtain ⟨visit, visited, faulty⟩ := List.exists_of_findSome?_eq_some follows
  obtain ⟨url, image, missing⟩ := Visit.missing_of_fault faulty
  have walked : visit.node ∈ Node.walkAll nodes :=
    (Markdown.visitAll_sublist nodes).mem (List.mem_map_of_mem visited)
  have present := covers url (List.mem_filterMap.mpr ⟨visit.node, walked, image⟩)
  rw [missing] at present
  contradiction

theorem buildDocument_agree {tree : Tree} (options : Options) {images images' : ImageTable}
    (agree : ∀ url ∈ tree.imageUrls, images.find? url = images'.find? url) :
    buildDocument tree options images = buildDocument tree options images' := by
  have visited : AgreeOn images images' (visitAll tree.children) := by
    intro visit mem url image
    have walked : visit.node ∈ tree.walk := Tree.mem_walk_of_visit mem
    exact agree url (List.mem_filterMap.mpr ⟨visit.node, walked, image⟩)
  unfold buildDocument
  rw [convertNodes_images { images, preset := options.tablePreset } tree.children visited]

theorem buildDocument_resolved {tree : Tree} (options : Options) {images : ImageTable}
    (covers : images.Covers tree.imageUrls) (fault : ImageFault) :
    buildDocument tree options images ≠ .error (.resolution fault) := by
  intro failed
  rcases buildDocument_eq_error failed with unconverted | ⟨other, conversion⟩
  · exact convertNodes_resolved covers fault unconverted
  · cases conversion

/-- Two tables with the same images for the addresses of a tree give the same outcome. A table with
an image for each of them leaves none unresolved, and fetching makes such a table or fails. -/
theorem buildDocument_images (tree : Tree) (options : Options) :
    (∀ images images' : ImageTable,
      (∀ url ∈ tree.imageUrls, images.find? url = images'.find? url) →
        buildDocument tree options images = buildDocument tree options images') ∧
    (∀ images : ImageTable, (∀ url ∈ tree.imageUrls, (images.find? url).isSome) →
      ∀ url, buildDocument tree options images ≠ .error (.resolution (.notResolved url))) ∧
    (∀ (σ : Type) (resolver : Option (Resolver σ)) (finishing : List Nat) (state : σ)
      (images : ImageTable), (prefetch tree resolver finishing state).1 = .ok images →
        (∀ url ∈ tree.imageUrls, (images.find? url).isSome) ∧
        ∀ url, buildDocument tree options images ≠ .error (.resolution (.notResolved url))) := by
  refine ⟨?_, ?_, ?_⟩
  · intro images images' agree
    exact buildDocument_agree options agree
  · intro images covers url
    exact buildDocument_resolved options covers (.notResolved url)
  · intro σ resolver finishing state images fetched
    have covers := prefetch_covers fetched
    exact ⟨covers, fun url => buildDocument_resolved options covers (.notResolved url)⟩

/-- Images in a link, in the cell of a table and in a footnote. -/
def illustratedTree : Tree where
  children := [
    .list none none none [.listItem none none [.paragraph [.link "a" none [.image "u" none none]]]],
    .table [] [.tableRow [.tableCell [.strong [.image "v" none none, .image "u" none none]]]],
    .footnoteDefinition "1" none [.paragraph [.image "w" none none]]]

/-- Answers with as many bytes as there were requests before. -/
def countingResolver : Resolver Nat := fun _ requests =>
  (.ok ⟨List.replicate requests 0, 1, 1⟩, requests + 1)

theorem buildDocument_images_illustrated :
    ∃ images, (prefetch illustratedTree (some countingResolver) [3, 1] 0).1 = .ok images ∧
      buildDocument illustratedTree {} images
        = buildDocument illustratedTree {} (images.insert "x" ⟨[], 2, 2⟩) ∧
      ∀ url, buildDocument illustratedTree {} images ≠ .error (.resolution (.notResolved url)) := by
  refine ⟨_, rfl, ?_, ?_⟩
  · apply (buildDocument_images illustratedTree {}).1
    decide
  · exact ((buildDocument_images illustratedTree {}).2.2 Nat (some countingResolver) [3, 1] 0 _
      rfl).2

end WordExport
