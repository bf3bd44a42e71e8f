import Mathlib.Data.List.Pairwise
import WordExport.Proofs.Assembly
import WordExport.Proofs.Footnotes.Numbering
import WordExport.Proofs.Footnotes.References

set_option autoImplicit false

namespace WordExport

open Markdown (Node Tree Visit visitAll readAll)

/-- The identifiers of all footnotes that are defined where a conversion comes to. -/
def definedIdentifiers (tree : Tree) : List String :=
  (visitAll tree.children).filterMap Visit.definition?

/-- A reference is visited only where it has a number, and its number is noted. -/
theorem noted_reference {context : Context} {nodes : List Node} {noted : Noted (List Content)}
    (converted : convertNodes context nodes = .ok noted) {identifier : String}
    {label : Option String} {placed : Bool}
    (visited : ⟨.footnoteReference identifier label, placed⟩ ∈ visitAll nodes) :
    ∃ id, footnoteId identifier = .ok id ∧ (id, identifier) ∈ noted.references := by
  have follows := convertNodes_follows context nodes
  rw [converted] at follows
  obtain ⟨sound, references, _⟩ := follows
  have quiet := List.findSome?_eq_none_iff.mp sound _ visited
  rcases numbered : footnoteId identifier with fault | id
  · simp only [Visit.fault?, numbered] at quiet
    cases quiet
  · refine ⟨id, rfl, ?_⟩
    rw [references]
    exact List.mem_filterMap.mpr ⟨_, visited, by simp only [Visit.reference?, numbered]⟩

/-- The last footnote of each identifier that is defined goes into the table. -/
theorem exists_last {context : Context} {nodes : List Node} {noted : Noted (List Content)}
    (converted : convertNodes context nodes = .ok noted) {identifier : String}
    (defined : identifier ∈ (visitAll nodes).filterMap Visit.definition?) :
    ∃ body, (identifier, body) ∈ lastByKey noted.definitions := by
  have follows := convertNodes_follows context nodes
  rw [converted] at follows
  obtain ⟨_, _, definitions⟩ := follows
  obtain ⟨definition, listed, rfl⟩ := List.mem_map.mp (definitions.mem_iff.mpr defined)
  rw [lastByKey_eq]
  exact exists_mem_firstByKey (List.mem_reverse.mpr listed)

/-- A document is built only where no two identifiers of definitions have one number. Each reference
then shows the body of a footnote whose identifier has the number of the reference. -/
theorem footnotes_of_built {tree : Tree} {options : Options} {images : ImageTable}
    {document : Document} (built : buildDocument tree options images = .ok document) :
    (∀ identifier label placed,
      ⟨.footnoteReference identifier label, placed⟩ ∈ visitAll tree.children →
        ∃ id body, footnoteId identifier = .ok id ∧ (id, body) ∈ document.footnotes
          ∧ ∃ footnote ∈ (readAll tree.children).footnotes, footnoteId footnote.1 = .ok id
            ∧ Shows { images, preset := options.tablePreset } footnote.2
              (body.flatMap Paragraph.leaves)) ∧
    (∀ identifier ∈ definedIdentifiers tree, ∀ other ∈ definedIdentifiers tree,
      identifier ≠ other → footnoteId identifier ≠ footnoteId other) := by
  obtain ⟨noted, converted, found, _⟩ := buildDocument_eq_ok built
  obtain ⟨numbered, covered⟩ := footnotesOf_eq_ok found
  constructor
  · intro identifier label placed visited
    obtain ⟨id, numberedId, listed⟩ := noted_reference converted visited
    obtain ⟨⟨_, body⟩, stored, rfl⟩ := List.mem_map.mp (covered _ listed)
    obtain ⟨owner, defined, numberedOwner⟩ := numbered.exists_definition stored
    have shown := (convertNodes_keeps _ tree.children noted converted).2
    obtain ⟨footnote, read, rfl, leaves⟩ := shown.exists_read defined
    exact ⟨_, body, numberedId, stored, footnote, read, numberedOwner, leaves⟩
  · intro identifier defined other defined' unlike
    obtain ⟨body, last⟩ := exists_last converted defined
    obtain ⟨body', last'⟩ := exists_last converted defined'
    have entries : (identifier, body) ≠ (other, body') :=
      fun same => unlike (congrArg Prod.fst same)
    have symmetric : Std.Symm fun first second : String × List Paragraph =>
        footnoteId first.1 ≠ footnoteId second.1 := ⟨fun _ _ => Ne.symm⟩
    have apart := List.Pairwise.forall numbered.apart last last' entries
    exact apart

/-- The reference names another footnote than the one defined, of the same number. -/
def namesakeTree : Tree where
  children := [
    .paragraph [.footnoteReference "1a" none],
    .footnoteDefinition "1" none [.paragraph [.text "x"]]]

theorem footnotes_of_built_namesake :
    ∃ document, buildDocument namesakeTree {} {} = .ok document ∧
      ∃ id body, footnoteId "1a" = .ok id ∧ (id, body) ∈ document.footnotes := by
  have built : buildDocument namesakeTree {} {} = .ok _ := rfl
  have visited : ⟨.footnoteReference "1a" none, false⟩ ∈ visitAll namesakeTree.children := by
    simp [namesakeTree, visitAll, Node.visits]
  obtain ⟨id, body, numbered, stored, _⟩ := (footnotes_of_built built).1 "1a" none false visited
  exact ⟨_, built, id, body, numbered, stored⟩

/-- The reference shows that footnote, though its identifier is not the one of any definition. -/
theorem namesake_shown :
    ∃ document, buildDocument namesakeTree {} {} = .ok document ∧
      document.sections = [[.paragraph { children := [.footnoteReference 1] }]] ∧
      document.footnotes = [(1, [{ children := [.text { text := "x" }] }])] ∧
      "1a" ∉ definedIdentifiers namesakeTree ∧
      "1" ∈ definedIdentifiers namesakeTree ∧ footnoteId "1a" = footnoteId "1" :=
  ⟨_, rfl, rfl, rfl, by decide, by decide, rfl⟩

end WordExport
