import Mathlib.Data.List.Pairwise
import WordExport.Assembly
import WordExport.Proofs.Footnotes.Ascending

set_option autoImplicit false

namespace WordExport

theorem footnoteId_pos {identifier : String} {id : Nat} (numbered : footnoteId identifier = .ok id) :
    1 ≤ id := by
  simp only [footnoteId] at numbered
  split at numbered
  next bounds =>
    obtain rfl := Except.ok.inj numbered
    exact bounds.1
  next => cases numbered

/-- Footnotes are put under the numbers of their identifiers, no two of them under one number. -/
structure Numbered (taken : List (Nat × List Paragraph)) (footnotes : List (String × List Paragraph))
    (table : List (Nat × List Paragraph)) : Prop where
  ascending : Ascending table
  stored : ∀ entry, entry ∈ table ↔ entry ∈ taken
    ∨ ∃ identifier, (identifier, entry.2) ∈ footnotes ∧ footnoteId identifier = .ok entry.1
  fresh : ∀ footnote ∈ footnotes, ∃ id, footnoteId footnote.1 = .ok id ∧ id ∉ taken.map Prod.fst
  apart : footnotes.Pairwise fun first second => footnoteId first.1 ≠ footnoteId second.1

section

variable {taken table : List (Nat × List Paragraph)} {footnotes : List (String × List Paragraph)}

theorem Numbered.distinct (numbered : Numbered taken footnotes table) {identifier other : String}
    (listed : identifier ∈ footnotes.map Prod.fst) (listed' : other ∈ footnotes.map Prod.fst)
    (unlike : identifier ≠ other) : footnoteId identifier ≠ footnoteId other := by
  obtain ⟨footnote, mem, rfl⟩ := List.mem_map.mp listed
  obtain ⟨footnote', mem', rfl⟩ := List.mem_map.mp listed'
  have entries : footnote ≠ footnote' := fun same => unlike (congrArg Prod.fst same)
  have symmetric : Std.Symm fun first second : String × List Paragraph =>
      footnoteId first.1 ≠ footnoteId second.1 := ⟨fun _ _ => Ne.symm⟩
  exact List.Pairwise.forall numbered.apart mem mem' entries

/-- The numbers in a table are those of the identifiers. -/
theorem Numbered.mem_numbers (numbered : Numbered [] footnotes table) (id : Nat) :
    id ∈ table.map Prod.fst
      ↔ ∃ identifier ∈ footnotes.map Prod.fst, footnoteId identifier = .ok id := by
  constructor
  · intro mem
    obtain ⟨entry, stored, rfl⟩ := List.mem_map.mp mem
    obtain impossible | ⟨identifier, listed, numberedId⟩ := (numbered.stored entry).mp stored
    · contradiction
    · exact ⟨identifier, List.mem_map_of_mem listed, numberedId⟩
  · rintro ⟨identifier, listed, numberedId⟩
    obtain ⟨⟨_, body⟩, mem, rfl⟩ := List.mem_map.mp listed
    have stored := (numbered.stored (id, body)).mpr (.inr ⟨_, mem, numberedId⟩)
    exact List.mem_map_of_mem stored

end

/-- A footnote in the table has the body of a definition. -/
theorem Numbered.exists_definition {table : List (Nat × List Paragraph)}
    {definitions : List (String × List Paragraph)}
    (numbered : Numbered [] (lastByKey definitions) table) {entry : Nat × List Paragraph}
    (stored : entry ∈ table) :
    ∃ identifier, (identifier, entry.2) ∈ definitions ∧ footnoteId identifier = .ok entry.1 := by
  obtain impossible | ⟨identifier, last, numberedId⟩ := (numbered.stored entry).mp stored
  · contradiction
  · rw [lastByKey_eq] at last
    exact ⟨identifier, List.mem_reverse.mp (mem_of_mem_firstByKey last), numberedId⟩

/-- A footnote is put into the table where its number is free. -/
theorem numberFootnotes_cons {identifier : String} {id : Nat}
    (numberedId : footnoteId identifier = .ok id) (taken : List (Nat × List Paragraph))
    (body : List Paragraph) (footnotes : List (String × List Paragraph)) :
    numberFootnotes taken ((identifier, body) :: footnotes)
      = if id ∈ taken.map Prod.fst then .error (.invalidFootnoteId identifier)
        else numberFootnotes (insertAscending id body taken) footnotes := by
  have used : (taken.any fun entry => entry.1 == id) = true ↔ id ∈ taken.map Prod.fst := by
    simp [List.any_eq_true]
  rw [numberFootnotes, numberedId]
  by_cases mem : id ∈ taken.map Prod.fst
  · rw [if_pos mem]
    exact if_pos (used.mpr mem)
  · rw [if_neg mem]
    exact if_neg (mt used.mp mem)

/-- An identifier without a number is refused. -/
theorem numberFootnotes_cons_error {identifier : String} {fault : TreeFault}
    (refused : footnoteId identifier = .error fault) (taken : List (Nat × List Paragraph))
    (body : List Paragraph) (footnotes : List (String × List Paragraph)) :
    numberFootnotes taken ((identifier, body) :: footnotes) = .error fault := by
  rw [numberFootnotes, refused]
  rfl

/-- A footnote with a free number goes before others that have numbers of their own. -/
theorem Numbered.cons {taken table : List (Nat × List Paragraph)} {identifier : String} {id : Nat}
    {body : List Paragraph} {footnotes : List (String × List Paragraph)}
    (ascending : Ascending taken) (numberedId : footnoteId identifier = .ok id)
    (free : id ∉ taken.map Prod.fst)
    (numbered : Numbered (insertAscending id body taken) footnotes table) :
    Numbered taken ((identifier, body) :: footnotes) table := by
  have inserted := mem_insertAscending ascending id body
  -- no later number is the one just taken, and none was taken before
  have beyond : ∀ footnote ∈ footnotes, ∃ other, footnoteId footnote.1 = .ok other
      ∧ other ≠ id ∧ other ∉ taken.map Prod.fst := by
    intro footnote mem
    obtain ⟨other, numberedOther, unused⟩ := numbered.fresh footnote mem
    refine ⟨other, numberedOther, ?_, ?_⟩
    · intro same
      exact unused (List.mem_map.mpr ⟨(id, body), (inserted _).mpr (.inl rfl), same.symm⟩)
    · intro used
      obtain ⟨entry, stored, same⟩ := List.mem_map.mp used
      have unlike : entry.1 ≠ id := fun equal => free (equal ▸ List.mem_map_of_mem stored)
      exact unused (List.mem_map.mpr ⟨entry, (inserted _).mpr (.inr ⟨stored, unlike⟩), same⟩)
  refine ⟨numbered.ascending, ?_, ?_, ?_⟩
  · intro entry
    rw [numbered.stored, inserted]
    constructor
    · rintro ((rfl | ⟨old, _⟩) | ⟨other, listed, numberedOther⟩)
      · exact .inr ⟨identifier, List.mem_cons_self, numberedId⟩
      · exact .inl old
      · exact .inr ⟨other, List.mem_cons_of_mem _ listed, numberedOther⟩
    · rintro (old | ⟨other, listed, numberedOther⟩)
      · have unlike : entry.1 ≠ id := fun same => free (same ▸ List.mem_map_of_mem old)
        exact .inl (.inr ⟨old, unlike⟩)
      · rcases List.mem_cons.mp listed with same | listed
        · obtain ⟨rfl, sameBody⟩ := Prod.mk.inj same
          have sameId : entry.1 = id := Except.ok.inj (numberedOther.symm.trans numberedId)
          exact .inl (.inl (Prod.ext sameId sameBody))
        · exact .inr ⟨other, listed, numberedOther⟩
  · refine List.forall_mem_cons.mpr ⟨⟨id, numberedId, free⟩, fun footnote mem => ?_⟩
    obtain ⟨other, numberedOther, _, unused⟩ := beyond footnote mem
    exact ⟨other, numberedOther, unused⟩
  · refine List.pairwise_cons.mpr ⟨fun footnote mem same => ?_, numbered.apart⟩
    obtain ⟨other, numberedOther, unlike, _⟩ := beyond footnote mem
    have sameId := numberedOther.symm.trans (same.symm.trans numberedId)
    exact unlike (Except.ok.inj sameId)

theorem numberFootnotes_numbered {taken table : List (Nat × List Paragraph)}
    {footnotes : List (String × List Paragraph)} (ascending : Ascending taken)
    (numbered : numberFootnotes taken footnotes = .ok table) : Numbered taken footnotes table := by
  induction footnotes generalizing taken with
  | nil =>
    obtain rfl := Except.ok.inj numbered
    exact ⟨ascending, fun entry => by simp, List.forall_mem_nil _, .nil⟩
  | cons footnote footnotes ih =>
    obtain ⟨identifier, body⟩ := footnote
    rcases numberedId : footnoteId identifier with fault | id
    · rw [numberFootnotes_cons_error numberedId] at numbered
      cases numbered
    · rw [numberFootnotes_cons numberedId] at numbered
      split at numbered
      next => cases numbered
      next free =>
        exact .cons ascending numberedId free
          (ih (ascending_insertAscending ascending id body) numbered)

/-- The footnotes of a document are those defined last under their identifiers, and every reference
has the number of one of them. -/
theorem footnotesOf_eq_ok {definitions : List (String × List Paragraph)}
    {references : List (Nat × String)} {footnotes : List (Nat × List Paragraph)}
    (found : footnotesOf definitions references = .ok footnotes) :
    Numbered [] (lastByKey definitions) footnotes
      ∧ ∀ reference ∈ references, reference.1 ∈ footnotes.map Prod.fst := by
  unfold footnotesOf at found
  rcases numbered : numberFootnotes [] (lastByKey definitions) with fault | table
  · rw [numbered] at found
    cases found
  · rw [numbered] at found
    simp only [bind, Except.bind] at found
    split at found
    next => cases found
    next covered =>
      obtain rfl := Except.ok.inj found
      refine ⟨numberFootnotes_numbered .nil numbered, fun reference mem => ?_⟩
      obtain ⟨first, stored⟩ := exists_mem_firstByKey mem
      have known := List.find?_eq_none.mp covered (reference.1, first) stored
      simp only [Bool.not_eq_true, Bool.not_eq_false', List.any_eq_true, beq_iff_eq] at known
      obtain ⟨entry, listed, same⟩ := known
      exact same ▸ List.mem_map_of_mem listed

end WordExport
