import WordExport.Proofs.Assembly
import WordExport.Proofs.Conversion.Faults
import WordExport.Proofs.Footnotes.Numbering
import WordExport.Proofs.Text.Bytes

set_option autoImplicit false

namespace WordExport

open Markdown (Node Tree Visit)
open Text (bytes)

/-- The least of its kind. -/
def Least {α : Type} (less : α → α → Prop) (kind : α → Prop) (least : α) : Prop :=
  kind least ∧ ∀ other, kind other → ¬ less other least

/-- An identifier of a definition that has no number, or the number of another identifier before
it. -/
def Refused (definitions : List (String × List Paragraph)) (identifier : String) : Prop :=
  identifier ∈ definitions.map Prod.fst ∧
    ((∀ id, footnoteId identifier ≠ .ok id) ∨
      ∃ other ∈ definitions.map Prod.fst, bytes other < bytes identifier ∧
        ∃ id, footnoteId other = .ok id ∧ footnoteId identifier = .ok id)

def LeastRefused (definitions : List (String × List Paragraph)) (identifier : String) : Prop :=
  Least (fun first second => bytes first < bytes second) (Refused definitions) identifier

/-- Footnotes are refused for the first identifier that has no free number. -/
theorem numberFootnotes_eq_error {taken : List (Nat × List Paragraph)}
    {footnotes : List (String × List Paragraph)} {fault : TreeFault}
    (failed : numberFootnotes taken footnotes = .error fault) :
    ∃ before identifier body after table, footnotes = before ++ (identifier, body) :: after
      ∧ numberFootnotes taken before = .ok table ∧ fault = .invalidFootnoteId identifier
      ∧ ∀ id, footnoteId identifier = .ok id → id ∈ table.map Prod.fst := by
  induction footnotes generalizing taken with
  | nil => cases failed
  | cons footnote footnotes ih =>
    obtain ⟨identifier, body⟩ := footnote
    rcases numberedId : footnoteId identifier with refused | id
    · rw [numberFootnotes_cons_error numberedId] at failed
      obtain rfl := Except.error.inj failed
      exact ⟨[], identifier, body, footnotes, taken, rfl, rfl, footnoteId_eq_error numberedId,
        fun id numbered => by rw [numberedId] at numbered; cases numbered⟩
    · rw [numberFootnotes_cons numberedId] at failed
      split at failed
      next used =>
        refine ⟨[], identifier, body, footnotes, taken, rfl, rfl, (Except.error.inj failed).symm,
          fun other numbered => ?_⟩
        obtain rfl := Except.ok.inj (numberedId.symm.trans numbered)
        exact used
      next free =>
        obtain ⟨before, identifier', body', after, table, rfl, numbered, told, used⟩ := ih failed
        refine ⟨(identifier, body) :: before, identifier', body', after, table, rfl, ?_, told, used⟩
        rw [numberFootnotes_cons numberedId, if_neg free]
        exact numbered

section

variable {definitions : List (String × List Paragraph)}

theorem not_refused_of_numbered {table : List (Nat × List Paragraph)}
    (numbered : Numbered [] definitions table) (identifier : String) :
    ¬ Refused definitions identifier := by
  rintro ⟨defined, unnumbered | ⟨other, defined', less, id, numberedOther, numberedId⟩⟩
  · obtain ⟨footnote, listed, rfl⟩ := List.mem_map.mp defined
    obtain ⟨id, numberedId, _⟩ := numbered.fresh footnote listed
    exact unnumbered id numberedId
  · have unlike : other ≠ identifier := by
      rintro rfl
      exact List.lt_irrefl _ less
    exact numbered.distinct defined' defined unlike (numberedOther.trans numberedId.symm)

/-- Identifiers before another one are refused because of those before them. -/
theorem Refused.before {before after : List (String × List Paragraph)}
    {footnote : String × List Paragraph} (ascending : Ascending (before ++ footnote :: after))
    {identifier : String} (refused : Refused (before ++ footnote :: after) identifier)
    (less : identifier < footnote.1) : Refused before identifier := by
  obtain ⟨defined, cause⟩ := refused
  refine ⟨(ascending.mem_before_iff defined).mpr less, ?_⟩
  rcases cause with unnumbered | ⟨other, defined', less', shared⟩
  · exact .inl unnumbered
  · have below := lt_trans ((Text.lt_iff_bytes_lt _ _).mpr less') less
    exact .inr ⟨other, (ascending.mem_before_iff defined').mpr below, less', shared⟩

theorem leastRefused_of_error (ascending : Ascending definitions) {fault : TreeFault}
    (failed : numberFootnotes [] definitions = .error fault) :
    ∃ identifier, LeastRefused definitions identifier ∧ fault = .invalidFootnoteId identifier := by
  obtain ⟨before, identifier, body, after, table, rfl, accepted, told, used⟩ :=
    numberFootnotes_eq_error failed
  have numbered := numberFootnotes_numbered .empty accepted
  refine ⟨identifier, ⟨⟨by simp, ?_⟩, fun other refused less => ?_⟩, told⟩
  · rcases numberedId : footnoteId identifier with fault | id
    · exact .inl nofun
    · obtain ⟨other, listed, numberedOther⟩ := (numbered.mem_numbers id).mp (used id numberedId)
      have defined : other ∈ (before ++ (identifier, body) :: after).map Prod.fst := by
        rw [List.map_append]
        exact List.mem_append_left _ listed
      have less := (ascending.mem_before_iff defined).mp listed
      exact .inr ⟨other, defined, Text.bytes_lt less, id, numberedOther, rfl⟩
  · have early := refused.before ascending ((Text.lt_iff_bytes_lt _ _).mpr less)
    exact not_refused_of_numbered numbered other early

end

/-- A number that is referred to, though no identifier of a definition has it. -/
def Dangling (definitions : List (String × List Paragraph)) (references : List (Nat × String))
    (id : Nat) : Prop :=
  id ∈ references.map Prod.fst ∧ ∀ identifier ∈ definitions.map Prod.fst,
    footnoteId identifier ≠ .ok id

/-- The first key in ascending order that is sought is the least one. -/
theorem least_of_find? {α : Type} {table : List (Nat × α)} (ascending : Ascending table)
    (sought : Nat → Bool) {entry : Nat × α}
    (found : (table.find? fun candidate => sought candidate.1) = some entry) :
    Least (· < ·) (fun id => id ∈ table.map Prod.fst ∧ sought id) entry.1 := by
  obtain ⟨satisfied, before, after, rfl, missed⟩ := List.find?_eq_some_iff_append.mp found
  refine ⟨⟨by simp, satisfied⟩, fun other ⟨listed, suitable⟩ less => ?_⟩
  obtain ⟨passed, early, rfl⟩ := List.mem_map.mp ((ascending.mem_before_iff listed).mpr less)
  have refused := missed passed early
  rw [suitable] at refused
  cases refused

theorem dangling_iff {definitions : List (String × List Paragraph)}
    {references : List (Nat × String)} {table : List (Nat × List Paragraph)}
    (numbered : Numbered [] definitions table) (id : Nat) :
    Dangling definitions references id
      ↔ id ∈ references.map Prod.fst ∧ (!table.any fun entry => entry.1 == id) = true := by
  have present : (table.any fun entry => entry.1 == id) = true ↔ id ∈ table.map Prod.fst := by
    simp [List.any_eq_true]
  rw [Dangling, Bool.not_eq_true', ← Bool.not_eq_true, present, numbered.mem_numbers]
  simp only [not_exists, not_and, ne_eq]

/-- With all footnotes numbered, the first number that is none of theirs decides. -/
theorem footnotesOf_of_numbered {definitions : List (String × List Paragraph)}
    {table : List (Nat × List Paragraph)}
    (accepted : numberFootnotes [] (lastByKey definitions) = .ok table)
    (references : List (Nat × String)) :
    footnotesOf definitions references
      = ((firstByKey references).find? fun candidate =>
          !table.any fun entry => entry.1 == candidate.1).elim (.ok table) fun candidate =>
            .error (.undefinedFootnote candidate.2) := by
  rw [footnotesOf, accepted]
  simp only [bind, Except.bind]
  split
  next _ id identifier found =>
    have sought : ((firstByKey references).find? fun candidate =>
        !table.any fun entry => entry.1 == candidate.1) = some (id, identifier) := found
    rw [sought]
    rfl
  next found =>
    have sought : ((firstByKey references).find? fun candidate =>
        !table.any fun entry => entry.1 == candidate.1) = none := found
    rw [sought]
    rfl

theorem footnotesOf_cases (definitions : List (String × List Paragraph))
    (references : List (Nat × String)) :
    (∃ identifier, LeastRefused (lastByKey definitions) identifier
      ∧ footnotesOf definitions references = .error (.invalidFootnoteId identifier)) ∨
    ∃ table, Numbered [] (lastByKey definitions) table ∧
      ((∃ id identifier,
          Least (· < ·) (Dangling (lastByKey definitions) (firstByKey references)) id
            ∧ (id, identifier) ∈ firstByKey references
            ∧ footnotesOf definitions references = .error (.undefinedFootnote identifier)) ∨
        (∀ id, ¬ Dangling (lastByKey definitions) (firstByKey references) id)
          ∧ footnotesOf definitions references = .ok table) := by
  have ascending : Ascending (lastByKey definitions) := by
    rw [lastByKey_eq]
    exact ascending_firstByKey definitions.reverse
  rcases outcome : numberFootnotes [] (lastByKey definitions) with fault | table
  · obtain ⟨identifier, least, rfl⟩ := leastRefused_of_error ascending outcome
    refine .inl ⟨identifier, least, ?_⟩
    rw [footnotesOf, outcome]
    rfl
  · have numbered := numberFootnotes_numbered .empty outcome
    refine .inr ⟨table, numbered, ?_⟩
    have whole := footnotesOf_of_numbered outcome references
    rcases found : (firstByKey references).find? fun candidate =>
        !table.any fun entry => entry.1 == candidate.1 with _ | ⟨id, identifier⟩
    · refine .inr ⟨fun id dangling => ?_, whole.trans (by rw [found]; rfl)⟩
      obtain ⟨referred, absent⟩ := (dangling_iff numbered id).mp dangling
      obtain ⟨candidate, listed, rfl⟩ := List.mem_map.mp referred
      exact List.find?_eq_none.mp found candidate listed absent
    · refine .inl ⟨id, identifier, ?_, List.mem_of_find?_eq_some found,
        whole.trans (by rw [found]; rfl)⟩
      have least := least_of_find? (ascending_firstByKey references)
        (fun id => !table.any fun entry => entry.1 == id) found
      have same : (fun id => id ∈ (firstByKey references).map Prod.fst
          ∧ (!table.any fun entry => entry.1 == id) = true)
          = Dangling (lastByKey definitions) (firstByKey references) :=
        funext fun id => propext (dangling_iff numbered id).symm
      rw [← same]
      exact least

def RefersTo (id : Nat) (visit : Visit) : Prop :=
  ∃ identifier label, visit.node = .footnoteReference identifier label
    ∧ footnoteId identifier = .ok id

/-- The first visit that refers to a number does so by this identifier. -/
def FirstReference (visits : List Visit) (id : Nat) (identifier : String) : Prop :=
  ∃ before label placed after,
    visits = before ++ ⟨.footnoteReference identifier label, placed⟩ :: after
      ∧ footnoteId identifier = .ok id ∧ ∀ earlier ∈ before, ¬ RefersTo id earlier

theorem Markdown.Visit.reference?_eq_some {visit : Visit} {id : Nat} {identifier : String} :
    visit.reference? = some (id, identifier) ↔
      ∃ label, visit.node = .footnoteReference identifier label
        ∧ footnoteId identifier = .ok id := by
  obtain ⟨node, placed⟩ := visit
  cases node with
  | footnoteReference other label =>
    simp only [Visit.reference?, Node.footnoteReference.injEq]
    rcases numbered : footnoteId other with fault | number
    · constructor
      · intro same
        cases same
      · rintro ⟨_, ⟨rfl, _⟩, numbered'⟩
        rw [numbered] at numbered'
        cases numbered'
    · constructor
      · intro same
        obtain ⟨rfl, rfl⟩ := Prod.mk.inj (Option.some.inj same)
        exact ⟨label, ⟨rfl, rfl⟩, numbered⟩
      · rintro ⟨_, ⟨rfl, _⟩, numbered'⟩
        rw [numbered] at numbered'
        rw [Except.ok.inj numbered']
  | _ => simp [Visit.reference?]

theorem firstReference_of_lookup {visits : List Visit} {id : Nat} {identifier : String}
    (found : (visits.filterMap Visit.reference?).lookup id = some identifier) :
    FirstReference visits id identifier := by
  induction visits with
  | nil => cases found
  | cons visit visits ih =>
    -- a visit that does not refer to the number goes before the one found
    have later (quiet : ¬ RefersTo id visit)
        (rest : (visits.filterMap Visit.reference?).lookup id = some identifier) :
        FirstReference (visit :: visits) id identifier := by
      obtain ⟨before, label, placed, after, rfl, numbered, silent⟩ := ih rest
      exact ⟨visit :: before, label, placed, after, rfl, numbered,
        List.forall_mem_cons.mpr ⟨quiet, silent⟩⟩
    rcases reference : visit.reference? with _ | ⟨number, name⟩
    · rw [List.filterMap_cons_none reference] at found
      refine later ?_ found
      rintro ⟨name, label, node, numbered⟩
      rw [Visit.reference?_eq_some.mpr ⟨label, node, numbered⟩] at reference
      cases reference
    · rw [List.filterMap_cons_some reference, List.lookup_cons] at found
      by_cases same : id = number
      · obtain rfl := same
        rw [beq_self_eq_true] at found
        obtain rfl := Option.some.inj found
        obtain ⟨label, node, numbered⟩ := Visit.reference?_eq_some.mp reference
        obtain ⟨_, placed⟩ := visit
        obtain rfl := node
        exact ⟨[], label, placed, visits, rfl, numbered, List.forall_mem_nil _⟩
      · rw [beq_false_of_ne same] at found
        refine later ?_ found
        rintro ⟨name', label, node, numbered⟩
        rw [Visit.reference?_eq_some.mpr ⟨label, node, numbered⟩] at reference
        exact same (Prod.mk.inj (Option.some.inj reference)).1

/-- Where a tree is converted, its definitions and references decide what becomes of its footnotes:
an identifier is refused, a reference dangles, or every identifier has its body in the document. -/
theorem buildDocument_footnotes {tree : Tree} {options : Options} {images : ImageTable}
    {noted : Noted (List Content)}
    (converted : convertNodes { images, preset := options.tablePreset } tree.children = .ok noted) :
    ((∃ identifier, Refused (lastByKey noted.definitions) identifier) →
      ∃ identifier, LeastRefused (lastByKey noted.definitions) identifier ∧
        buildDocument tree options images = .error (.conversion (.invalidFootnoteId identifier))) ∧
    ((∀ identifier, ¬ Refused (lastByKey noted.definitions) identifier) →
      (∃ id, Dangling (lastByKey noted.definitions) (firstByKey noted.references) id) →
        ∃ id identifier visits,
          Least (· < ·) (Dangling (lastByKey noted.definitions) (firstByKey noted.references)) id ∧
          Markdown.PreOrder (tree.children.map ({ node := · })) visits ∧
          FirstReference visits id identifier ∧
          buildDocument tree options images
            = .error (.conversion (.undefinedFootnote identifier))) ∧
    ((∀ identifier, ¬ Refused (lastByKey noted.definitions) identifier) →
      (∀ id, ¬ Dangling (lastByKey noted.definitions) (firstByKey noted.references) id) →
        ∃ document, buildDocument tree options images = .ok document ∧
          Ascending document.footnotes ∧
          ∀ id body, (id, body) ∈ document.footnotes ↔
            ∃ identifier, (identifier, body) ∈ lastByKey noted.definitions
              ∧ footnoteId identifier = .ok id) := by
  obtain ⟨refusing, building⟩ := buildDocument_of_converted converted
  rcases footnotesOf_cases noted.definitions noted.references with
    ⟨identifier, least, outcome⟩ | ⟨table, numbered, unresolved⟩
  · refine ⟨fun _ => ⟨identifier, least, refusing _ outcome⟩, fun sound => ?_, fun sound => ?_⟩
    · exact absurd least.1 (sound identifier)
    · exact absurd least.1 (sound identifier)
  · have sound := not_refused_of_numbered numbered
    refine ⟨fun ⟨identifier, refused⟩ => absurd refused (sound identifier), fun _ => ?_, fun _ => ?_⟩
    · rintro ⟨id, dangling⟩
      rcases unresolved with ⟨id, identifier, least, stored, outcome⟩ | ⟨resolved, _⟩
      · have follows := convertNodes_follows { images, preset := options.tablePreset } tree.children
        rw [converted] at follows
        rw [follows.2.1, mem_firstByKey] at stored
        exact ⟨id, identifier, _, least, Markdown.visitAll_preOrder tree.children,
          firstReference_of_lookup stored, refusing _ outcome⟩
      · exact absurd dangling (resolved id)
    · intro resolved
      rcases unresolved with ⟨id, _, least, _⟩ | ⟨_, outcome⟩
      · exact absurd least.1 (resolved id)
      · obtain ⟨document, built, rfl⟩ := building table outcome
        refine ⟨document, built, numbered.ascending, fun id body => ?_⟩
        rw [numbered.stored]
        simp

/-- Two identifiers are refused, one of them for its number. -/
def refusedTree : Tree where
  children := [
    .footnoteDefinition "x" none [], .footnoteDefinition "1" none [],
    .footnoteDefinition "01 b" none []]

/-- Two numbers are referred to without a footnote, the smaller one in a footnote first. -/
def danglingTree : Tree where
  children := [
    .paragraph [.footnoteReference "3" none],
    .footnoteDefinition "1" none [.paragraph [.footnoteReference "2 a" none]],
    .paragraph [.footnoteReference "2" none]]

/-- The second definition of a footnote counts. -/
def redefinedTree : Tree where
  children := [
    .footnoteDefinition "1" none [.paragraph [.text "a"]],
    .paragraph [.footnoteReference "1 b" none],
    .footnoteDefinition "1" none [.paragraph [.text "c"]]]

theorem buildDocument_footnotes_decided :
    (∃ noted, convertNodes {} refusedTree.children = .ok noted ∧
      ∃ identifier, LeastRefused (lastByKey noted.definitions) identifier ∧
        buildDocument refusedTree {} {}
          = .error (.conversion (.invalidFootnoteId identifier))) ∧
    (∃ noted, convertNodes {} danglingTree.children = .ok noted ∧
      ∃ id identifier visits,
        Least (· < ·) (Dangling (lastByKey noted.definitions) (firstByKey noted.references)) id ∧
        Markdown.PreOrder (danglingTree.children.map ({ node := · })) visits ∧
        FirstReference visits id identifier ∧
        buildDocument danglingTree {} {}
          = .error (.conversion (.undefinedFootnote identifier))) ∧
    (∃ noted document, convertNodes {} redefinedTree.children = .ok noted ∧
      buildDocument redefinedTree {} {} = .ok document ∧ Ascending document.footnotes ∧
      ∀ id body, (id, body) ∈ document.footnotes ↔
        ∃ identifier, (identifier, body) ∈ lastByKey noted.definitions
          ∧ footnoteId identifier = .ok id) := by
  refine ⟨?_, ?_, ?_⟩
  · have converted : convertNodes {} refusedTree.children
        = .ok { value := [], definitions := [("x", []), ("1", []), ("01 b", [])] } := rfl
    have refused : ∀ id, footnoteId "x" ≠ .ok id := nofun
    exact ⟨_, converted, (buildDocument_footnotes converted).1 ⟨"x", by decide, .inl refused⟩⟩
  · have converted : convertNodes {} danglingTree.children = .ok {
        value := [
          .paragraph { children := [.footnoteReference 3] },
          .paragraph { children := [.footnoteReference 2] }]
        definitions := [("1", [{ children := [.footnoteReference 2] }])]
        references := [(3, "3"), (2, "2 a"), (2, "2")] } := rfl
    have numbered : Numbered [] [("1", [{ children := [.footnoteReference 2] }])]
        [(1, [{ children := [.footnoteReference 2] }])] := numberFootnotes_numbered .empty rfl
    exact ⟨_, converted, (buildDocument_footnotes converted).2.1 (not_refused_of_numbered numbered)
      ⟨3, (dangling_iff numbered 3).mpr (by decide)⟩⟩
  · have converted : convertNodes {} redefinedTree.children = .ok {
        value := [.paragraph { children := [.footnoteReference 1] }]
        definitions := [
          ("1", [{ children := [.text { text := "a" }] }]),
          ("1", [{ children := [.text { text := "c" }] }])]
        references := [(1, "1 b")] } := rfl
    have numbered : Numbered [] [("1", [{ children := [.text { text := "c" }] }])]
        [(1, [{ children := [.text { text := "c" }] }])] := numberFootnotes_numbered .empty rfl
    have resolved (id : Nat) : ¬ Dangling [("1", [{ children := [.text { text := "c" }] }])]
        [(1, "1 b")] id := by
      intro dangling
      obtain ⟨referred, absent⟩ := (dangling_iff numbered id).mp dangling
      obtain rfl : id = 1 := by simpa using referred
      cases absent
    have decided := @buildDocument_footnotes redefinedTree {} {} _ converted
    obtain ⟨document, built⟩ := decided.2.2 (not_refused_of_numbered numbered) resolved
    exact ⟨_, document, converted, built⟩

end WordExport
