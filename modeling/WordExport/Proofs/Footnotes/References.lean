import WordExport.Proofs.Conversion.Preservation
import WordExport.Proofs.Conversion.Visits

set_option autoImplicit false

namespace WordExport

open Markdown (Leaf Node Reading Visit visitAll visitItems visitRows visitCells readAll readRows
  readCells)

namespace Markdown

/-- The leaves of a text and of the footnotes defined in it. -/
def Reading.leaves (reading : Reading) : List Leaf :=
  reading.text ++ reading.footnotes.flatMap Prod.snd

/-- Every leaf is among the nodes visited. -/
def Reading.Within (reading : Reading) (visits : List Visit) : Prop :=
  ∀ leaf ∈ reading.leaves, leaf.node ∈ visits.map Visit.node

namespace Reading.Within

variable {reading reading' : Reading} {visits visits' : List Visit}

theorem nil : Within {} visits :=
  List.forall_mem_nil _

theorem single (node : Node) (placed : Bool) : Within { text := [{ node }] } [⟨node, placed⟩] :=
  List.forall_mem_singleton.mpr List.mem_cons_self

theorem append (within : reading.Within visits) (within' : reading'.Within visits') :
    (reading ++ reading').Within (visits ++ visits') := by
  intro leaf mem
  rw [List.map_append, List.mem_append]
  have parts : leaf ∈ reading.leaves ∨ leaf ∈ reading'.leaves := by
    change leaf ∈ (reading.text ++ reading'.text)
      ++ (reading.footnotes ++ reading'.footnotes).flatMap Prod.snd at mem
    simp only [List.flatMap_append, List.mem_append] at mem
    simp only [leaves, List.mem_append]
    tauto
  exact parts.imp (within leaf) (within' leaf)

theorem under (within : reading.Within visits) (kind : String) (visit : Visit) :
    (reading.under kind).Within (visit :: visits) := by
  intro leaf mem
  have leaves : (reading.under kind).leaves = reading.leaves.map (Leaf.under kind) := by
    simp [leaves, Reading.under, List.flatMap_map, List.map_flatMap]
  rw [leaves] at mem
  obtain ⟨original, read, rfl⟩ := List.mem_map.mp mem
  exact List.mem_cons_of_mem _ (within original read)

theorem define (within : reading.Within visits) (identifier : String) :
    (reading.define identifier).Within visits := by
  intro leaf mem
  apply within
  simp only [leaves, Reading.define, List.flatMap_append, List.flatMap_cons, List.flatMap_nil,
    List.append_nil, List.nil_append, List.mem_append] at mem ⊢
  exact mem.symm

end Reading.Within

mutual

theorem Node.reading_within (node : Node) : node.reading.Within node.visits := by
  cases node with
  | text value | inlineCode value | lineBreak | html value | code value lang info
  | image url title alt | footnoteReference identifier label | math value | inlineMath value =>
    exact .single _ _
  | paragraph children | heading depth children | blockquote children | emphasis children
  | strong children | delete children | link url title children | footnote children
  | listItem checked spread children => exact (readAll_within children).under _ _
  | list ordered start spread children => exact (readItems_within children).under _ _
  | table align children => exact (readRows_within children).under _ _
  | footnoteDefinition identifier label children =>
    exact ((readAll_within children).under _ _).define identifier
  | _ => exact .nil

theorem readAll_within (nodes : List Node) : (readAll nodes).Within (visitAll nodes) := by
  cases nodes with
  | nil => exact .nil
  | cons node nodes => exact node.reading_within.append (readAll_within nodes)

theorem readItems_within (nodes : List Node) : (readAll nodes).Within (visitItems nodes) := by
  cases nodes with
  | nil => exact .nil
  | cons node nodes =>
    have rest := readItems_within nodes
    cases node with
    | listItem checked spread children =>
      exact ((readAll_within children).under "listItem" _).append rest
    | _ => exact (Node.reading_within _).append rest

theorem readRows_within (nodes : List Node) : (readRows nodes).Within (visitRows nodes) := by
  cases nodes with
  | nil => exact .nil
  | cons node nodes =>
    have rest := readRows_within nodes
    cases node with
    | tableRow children => exact ((readCells_within children).under "tableRow" _).append rest
    | _ => exact rest

theorem readCells_within (nodes : List Node) : (readCells nodes).Within (visitCells nodes) := by
  cases nodes with
  | nil => exact .nil
  | cons node nodes =>
    have rest := readCells_within nodes
    cases node with
    | tableCell children => exact ((readAll_within children).under "tableCell" _).append rest
    | _ => exact rest

end

end Markdown

theorem Shows.exists_leaf {context : Context} {leaves : List Leaf} {items : List Inline}
    (shown : Shows context leaves items) {item : Inline} (mem : item ∈ items) :
    ∃ leaf ∈ leaves, ∃ own, ShowsLeaf context leaf own ∧ item ∈ own := by
  induction shown with
  | nil => contradiction
  | cons leaf _ ih =>
    rcases List.mem_append.mp mem with first | later
    · exact ⟨_, List.mem_cons_self, _, leaf, first⟩
    · obtain ⟨other, listed, own, shown, present⟩ := ih later
      exact ⟨other, List.mem_cons_of_mem _ listed, own, shown, present⟩

/-- Nothing but a reference is shown as one. -/
theorem ShowsLeaf.reference {context : Context} {leaf : Leaf} {items : List Inline} {id : Nat}
    (shown : ShowsLeaf context leaf items) (mem : .footnoteReference id ∈ items) :
    ∃ identifier label, leaf.node = .footnoteReference identifier label
      ∧ footnoteId identifier = .ok id := by
  obtain ⟨around, node⟩ := leaf
  cases node with
  | footnoteReference identifier label =>
    obtain ⟨other, numbered, rfl⟩ := shown
    obtain rfl : id = other := by simpa using mem
    exact ⟨identifier, label, rfl, numbered⟩
  | image url title alt =>
    obtain ⟨image, _, rfl⟩ := shown
    simp at mem
  | html value | code value lang info =>
    obtain ⟨first, below, _, _, rfl⟩ := shown
    simp at mem
  | text value | inlineCode value | lineBreak | inlineMath value | math value =>
    obtain rfl : items = _ := shown
    simp at mem
  | _ => exact False.elim shown

/-- A footnote that is shown has been read. -/
theorem ShowsFootnotes.exists_read {context : Context} {footnotes : List (String × List Leaf)}
    {definitions : List (String × List Paragraph)}
    (shown : ShowsFootnotes context footnotes definitions) {definition : String × List Paragraph}
    (mem : definition ∈ definitions) :
    ∃ footnote ∈ footnotes, definition.1 = footnote.1
      ∧ Shows context footnote.2 (definition.2.flatMap Paragraph.leaves) :=
  exists_of_forall₂ shown mem

/-- Where a conversion succeeds, each reference that is shown has been noted. -/
theorem exists_reference {context : Context} {nodes : List Node} {noted : Noted (List Content)}
    (converted : convertNodes context nodes = .ok noted) {leaves : List Leaf} {items : List Inline}
    (read : ∀ leaf ∈ leaves, leaf ∈ (readAll nodes).leaves) (shown : Shows context leaves items)
    {id : Nat} (mem : .footnoteReference id ∈ items) : id ∈ noted.references.map Prod.fst := by
  obtain ⟨leaf, listed, own, shownLeaf, present⟩ := shown.exists_leaf mem
  obtain ⟨identifier, label, reference, numbered⟩ := shownLeaf.reference present
  have within := Markdown.readAll_within nodes leaf (read leaf listed)
  obtain ⟨visit, visited, same⟩ := List.mem_map.mp within
  obtain ⟨node, placed⟩ := visit
  obtain rfl : node = .footnoteReference identifier label := same.trans reference
  have follows := convertNodes_follows context nodes
  rw [converted] at follows
  have found : Visit.reference? ⟨.footnoteReference identifier label, placed⟩
      = some (id, identifier) := by simp only [Visit.reference?, numbered]
  have entered : (id, identifier) ∈ noted.references := by
    rw [follows.2.1]
    exact List.mem_filterMap.mpr ⟨_, visited, found⟩
  exact List.mem_map_of_mem entered

/-- The references in the text have been noted. -/
theorem text_references {context : Context} {nodes : List Node} {noted : Noted (List Content)}
    (converted : convertNodes context nodes = .ok noted) {id : Nat}
    (mem : .footnoteReference id ∈ contentLeaves noted.value) :
    id ∈ noted.references.map Prod.fst := by
  have shown := (convertNodes_keeps context nodes noted converted).1
  exact exists_reference converted (fun leaf => List.mem_append_left _) shown mem

/-- So have those in footnotes, in whichever order the footnotes are defined. -/
theorem body_references {context : Context} {nodes : List Node} {noted : Noted (List Content)}
    (converted : convertNodes context nodes = .ok noted) {definition : String × List Paragraph}
    (defined : definition ∈ noted.definitions) {id : Nat}
    (mem : .footnoteReference id ∈ definition.2.flatMap Paragraph.leaves) :
    id ∈ noted.references.map Prod.fst := by
  have footnotes := (convertNodes_keeps context nodes noted converted).2
  obtain ⟨footnote, listed, _, shown⟩ := footnotes.exists_read defined
  refine exists_reference converted (fun leaf read => ?_) shown mem
  exact List.mem_append_right _ (List.mem_flatMap_of_mem listed read)

end WordExport
