import WordExport.Proofs.Conversion.Siblings
import WordExport.Proofs.Footnotes.Identity
import WordExport.Proofs.Footnotes.Outcome

set_option autoImplicit false

namespace WordExport

open Markdown (Node Tree)

/-- Both conversions fail, or both have the same value and note the same footnotes in some order. -/
def Rearranges {α : Type} : Conversion α → Conversion α → Prop
  | .ok noted, .ok noted' => noted.value = noted'.value ∧
    noted.definitions.Perm noted'.definitions ∧ noted.references.Perm noted'.references
  | .error _, .error _ => True
  | _, _ => False

namespace Rearranges

variable {α : Type} {first second third : Conversion α}

theorem symm (rearranges : Rearranges first second) : Rearranges second first := by
  rcases first with error | noted <;> rcases second with error' | noted'
  · trivial
  · exact rearranges
  · exact rearranges
  · obtain ⟨value, definitions, references⟩ := rearranges
    exact ⟨value.symm, definitions.symm, references.symm⟩

theorem trans (rearranges : Rearranges first second) (rearranges' : Rearranges second third) :
    Rearranges first third := by
  rcases first with error | noted <;> rcases second with error' | noted' <;>
    rcases third with error'' | noted''
  · trivial
  · exact rearranges'
  · trivial
  · exact rearranges
  · exact rearranges
  · exact rearranges.elim
  · exact rearranges'
  · obtain ⟨value, definitions, references⟩ := rearranges
    obtain ⟨value', definitions', references'⟩ := rearranges'
    exact ⟨value.trans value', definitions.trans definitions', references.trans references'⟩

end Rearranges

/-- A step without content may come earlier. -/
theorem inTurn_swap {silent : Conversion (List Content)}
    (empty : ∀ noted, silent = .ok noted → noted.value = [])
    (first rest : Conversion (List Content)) :
    Rearranges (inTurn first (inTurn silent rest)) (inTurn silent (inTurn first rest)) := by
  rcases first with error | earlier <;> rcases silent with error' | noted <;>
    rcases rest with error'' | later <;> try trivial
  -- where a step fails both orders fail, so that only the case of three values is left
  have value : earlier.value ++ (noted.value ++ later.value)
      = noted.value ++ (earlier.value ++ later.value) := by
    rw [empty noted rfl, List.nil_append, List.nil_append]
  rw [inTurn_ok noted later, inTurn_ok earlier later, inTurn_ok, inTurn_ok]
  exact ⟨value, List.perm_append_comm_assoc .., List.perm_append_comm_assoc ..⟩

section

variable (context : Context) (identifier : String) (label : Option String) (children : List Node)

theorem convertNode_definition_value (noted : Noted (List Content))
    (converted : convertNode context (.footnoteDefinition identifier label children) = .ok noted) :
    noted.value = [] := by
  simp only [convertNode, Conversion.bind_eq_ok, Conversion.pure_eq_ok] at converted
  obtain ⟨_, _, _, ⟨_, _, _, rfl, rfl⟩, rfl⟩ := converted
  rfl

/-- A definition may be converted before all other nodes. -/
theorem convertNodes_definition (before after : List Node) :
    Rearranges
      (convertNodes context (before ++ .footnoteDefinition identifier label children :: after))
      (inTurn (convertNode context (.footnoteDefinition identifier label children))
        (convertNodes context (before ++ after))) := by
  have here : convertNodes context (.footnoteDefinition identifier label children :: after)
      = inTurn (convertNode context (.footnoteDefinition identifier label children))
        (convertNodes context after) := rfl
  rw [convertNodes_append, convertNodes_append, here]
  exact inTurn_swap (convertNode_definition_value context identifier label children) _ _

end

/-- Footnotes are accepted where all are numbered and every reference has the number of one. -/
theorem footnotesOf_eq_ok_iff {definitions : List (String × List Paragraph)}
    {references : List (Nat × String)} {footnotes : List (Nat × List Paragraph)} :
    footnotesOf definitions references = .ok footnotes ↔
      numberFootnotes [] (lastByKey definitions) = .ok footnotes ∧
        ∀ reference ∈ references, reference.1 ∈ footnotes.map Prod.fst := by
  rcases numbered : numberFootnotes [] (lastByKey definitions) with fault | table
  · rw [footnotesOf, numbered]
    constructor
    · intro found
      cases found
    · rintro ⟨found, _⟩
      cases found
  · have whole := footnotesOf_of_numbered numbered references
    constructor
    · intro found
      refine ⟨?_, (footnotesOf_eq_ok found).2⟩
      rw [whole] at found
      rcases dangling : (firstByKey references).find? _ with _ | reference
      · rw [dangling] at found
        exact found
      · rw [dangling] at found
        cases found
    · rintro ⟨accepted, resolved⟩
      obtain rfl := Except.ok.inj accepted
      have known : ((firstByKey references).find? fun candidate =>
          !table.any fun entry => entry.1 == candidate.1) = none := by
        rw [List.find?_eq_none]
        intro candidate stored
        have mem := resolved candidate (mem_of_mem_firstByKey stored)
        simpa [List.any_eq_true] using mem
      rw [whole, known]
      rfl

theorem footnotesOf_perm {definitions definitions' : List (String × List Paragraph)}
    {references references' : List (Nat × String)} (defined : definitions.Perm definitions')
    (distinct : (definitions.map Prod.fst).Nodup) (referred : references.Perm references')
    (footnotes : List (Nat × List Paragraph)) :
    footnotesOf definitions references = .ok footnotes ↔
      footnotesOf definitions' references' = .ok footnotes := by
  simp only [footnotesOf_eq_ok_iff, lastByKey_perm defined distinct, referred.mem_iff]

/-- A document is built from what a conversion makes and from the footnotes that it notes, in
whichever order they are met. -/
theorem buildDocument_rearranges {tree tree' : Tree} {options : Options} {images : ImageTable}
    (rearranges : Rearranges
      (convertNodes { images, preset := options.tablePreset } tree.children)
      (convertNodes { images, preset := options.tablePreset } tree'.children))
    (distinct : (definedIdentifiers tree).Nodup) (document : Document) :
    buildDocument tree options images = .ok document ↔
      buildDocument tree' options images = .ok document := by
  have follows := convertNodes_follows { images, preset := options.tablePreset } tree.children
  unfold buildDocument
  generalize convertNodes { images, preset := options.tablePreset } tree.children = conversion
    at rearranges follows ⊢
  generalize convertNodes { images, preset := options.tablePreset } tree'.children = conversion'
    at rearranges ⊢
  rcases conversion with error | noted <;> rcases conversion' with error' | noted'
  · constructor <;> (intro built; cases built)
  · exact rearranges.elim
  · exact rearranges.elim
  · obtain ⟨value, definitions, references⟩ := rearranges
    have apart : (noted.definitions.map Prod.fst).Nodup := follows.2.2.nodup_iff.mpr distinct
    have same := footnotesOf_perm definitions apart references
    simp only [bind, Except.bind, value]
    generalize footnotesOf noted.definitions noted.references = found at same ⊢
    generalize footnotesOf noted'.definitions noted'.references = found' at same ⊢
    rcases found with fault | footnotes <;> rcases found' with fault' | footnotes'
    · constructor <;> (intro built; cases built)
    · cases (same footnotes').mpr rfl
    · cases (same footnotes).mp rfl
    · cases (same footnotes).mp rfl
      rfl

/-- A footnote that is defined among the children of the root may be defined anywhere among them:
where no two definitions have one identifier, the document is the same, or there is none. -/
theorem buildDocument_anywhere {before after before' after' : List Node} (identifier : String)
    (label : Option String) (children : List Node) (others : before ++ after = before' ++ after')
    (distinct : (definedIdentifiers
      ⟨before ++ .footnoteDefinition identifier label children :: after⟩).Nodup)
    (options : Options) (images : ImageTable) (document : Document) :
    buildDocument ⟨before ++ .footnoteDefinition identifier label children :: after⟩ options images
        = .ok document ↔
      buildDocument ⟨before' ++ .footnoteDefinition identifier label children :: after'⟩ options
        images = .ok document := by
  have first := convertNodes_definition { images, preset := options.tablePreset } identifier label
    children before after
  have second := convertNodes_definition { images, preset := options.tablePreset } identifier label
    children before' after'
  rw [← others] at second
  exact buildDocument_rearranges (first.trans second.symm) distinct document

/-- A footnote that refers to another one, which is defined inside it. -/
def nestingNote : Node :=
  .footnoteDefinition "2" none
    [.paragraph [.footnoteReference "1" none], .footnoteDefinition "1" none [.text "c"]]

def nestingDocument : Document where
  numbering := [orderedNumbering]
  sections := [[.paragraph { children :=
    [.text { text := "a" }, .text { text := "b" }, .footnoteReference 2] }]]
  footnotes := [(1, [{ children := [.text { text := "c" }] }]),
    (2, [{ children := [.footnoteReference 1] }])]

/-- The note stands between two texts of one paragraph, or behind them all. -/
theorem buildDocument_anywhere_nesting :
    (definedIdentifiers
      ⟨[.text "a"] ++ nestingNote :: [.text "b", .footnoteReference "2" none]⟩).Nodup ∧
      buildDocument ⟨[.text "a"] ++ nestingNote :: [.text "b", .footnoteReference "2" none]⟩ {} {}
        = .ok nestingDocument ∧
      buildDocument ⟨[.text "a", .text "b", .footnoteReference "2" none] ++ nestingNote :: []⟩ {} {}
        = .ok nestingDocument := by
  have distinct : (definedIdentifiers
      ⟨[.text "a"] ++ nestingNote :: [.text "b", .footnoteReference "2" none]⟩).Nodup := by
    decide
  have built : buildDocument
      ⟨[.text "a"] ++ nestingNote :: [.text "b", .footnoteReference "2" none]⟩ {} {}
      = .ok nestingDocument := rfl
  have moved := @buildDocument_anywhere [.text "a"] [.text "b", .footnoteReference "2" none]
    [.text "a", .text "b", .footnoteReference "2" none] [] "2" none _ rfl distinct {} {}
  exact ⟨distinct, built, (moved nestingDocument).mp built⟩

end WordExport
