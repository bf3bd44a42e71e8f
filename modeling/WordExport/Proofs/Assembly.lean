import WordExport.Assembly

set_option autoImplicit false

namespace WordExport

open Markdown (Tree)

/-- A document that is built has the content of the tree, the footnotes noted in it, and the numbering
of ordered lists. -/
theorem buildDocument_eq_ok {tree : Tree} {options : Options} {images : ImageTable}
    {document : Document} (built : buildDocument tree options images = .ok document) :
    ∃ noted, convertNodes { images, preset := options.tablePreset } tree.children = .ok noted
      ∧ footnotesOf noted.definitions noted.references = .ok document.footnotes
      ∧ document.sections = [toBlocks noted.value] ∧ document.numbering = [orderedNumbering] := by
  unfold buildDocument at built
  rcases converted : convertNodes { images, preset := options.tablePreset } tree.children
    with error | noted
  · rw [converted] at built
    cases built
  · rw [converted] at built
    rcases numbered : footnotesOf noted.definitions noted.references with fault | footnotes
    · simp only [bind, Except.bind, numbered] at built
      cases built
    · simp only [bind, Except.bind, numbered] at built
      obtain rfl := Except.ok.inj built
      exact ⟨noted, rfl, numbered, rfl, rfl⟩

/-- Where a tree is converted, its footnotes decide whether the document is built. -/
theorem buildDocument_of_converted {tree : Tree} {options : Options} {images : ImageTable}
    {noted : Noted (List Content)}
    (converted : convertNodes { images, preset := options.tablePreset } tree.children = .ok noted) :
    (∀ fault, footnotesOf noted.definitions noted.references = .error fault →
      buildDocument tree options images = .error (.conversion fault)) ∧
    (∀ footnotes, footnotesOf noted.definitions noted.references = .ok footnotes →
      ∃ document, buildDocument tree options images = .ok document
        ∧ document.footnotes = footnotes) := by
  unfold buildDocument
  rw [converted]
  constructor
  · intro fault refused
    simp only [bind, Except.bind, refused]
    rfl
  · intro footnotes found
    simp only [bind, Except.bind, found]
    exact ⟨_, rfl, rfl⟩

/-- A document is not built where its tree has a fault, or where its footnotes have one. -/
theorem buildDocument_eq_error {tree : Tree} {options : Options} {images : ImageTable}
    {error : Error} (failed : buildDocument tree options images = .error error) :
    convertNodes { images, preset := options.tablePreset } tree.children = .error error
      ∨ ∃ fault, error = .conversion fault := by
  unfold buildDocument at failed
  rcases converted : convertNodes { images, preset := options.tablePreset } tree.children
    with other | noted
  · rw [converted] at failed
    exact .inl (congrArg Except.error (Except.error.inj failed))
  · rw [converted] at failed
    rcases numbered : footnotesOf noted.definitions noted.references with fault | footnotes
    · simp only [bind, Except.bind, numbered] at failed
      exact .inr ⟨fault, (Except.error.inj failed).symm⟩
    · simp only [bind, Except.bind, numbered] at failed
      cases failed

end WordExport
