import Mathlib.Data.List.Nodup
import WordExport.Ascending

set_option autoImplicit false

namespace WordExport

variable {κ α : Type} [LT κ]

/-- Every key of a table is below all keys after it. -/
def Ascending (table : List (κ × α)) : Prop :=
  (table.map Prod.fst).Pairwise (· < ·)

theorem Ascending.empty : Ascending ([] : List (κ × α)) :=
  List.Pairwise.nil

variable [LE κ] [Std.LawfulOrderLT κ]

theorem Ascending.nodup {table : List (κ × α)} (ascending : Ascending table) :
    (table.map Prod.fst).Nodup :=
  ascending.imp fun below => Std.ne_of_lt below

/-- The keys before an entry are those below its own. -/
theorem Ascending.mem_before_iff {before after : List (κ × α)} {entry : κ × α}
    (ascending : Ascending (before ++ entry :: after)) {key : κ}
    (mem : key ∈ (before ++ entry :: after).map Prod.fst) :
    key ∈ before.map Prod.fst ↔ key < entry.1 := by
  rw [Ascending, List.map_append, List.map_cons, List.pairwise_append] at ascending
  obtain ⟨_, rest, across⟩ := ascending
  rw [List.map_append, List.map_cons, List.mem_append, List.mem_cons] at mem
  constructor
  · intro early
    exact across key early entry.1 List.mem_cons_self
  · intro less
    rcases mem with early | rfl | late
    · exact early
    · exact absurd less Std.lt_irrefl
    · exact absurd less (Std.not_gt_of_lt ((List.pairwise_cons.mp rest).1 key late))

/-- The order of the keys leaves one place for each entry. -/
theorem Ascending.eq_of_mem_iff {table table' : List (κ × α)} (ascending : Ascending table)
    (ascending' : Ascending table') (same : ∀ entry, entry ∈ table ↔ entry ∈ table') :
    table = table' := by
  have perm : table.Perm table' :=
    (List.perm_ext_iff_of_nodup ascending.nodup.of_map ascending'.nodup.of_map).mpr same
  refine perm.eq_of_pairwise ?_ (List.pairwise_map.mp ascending) (List.pairwise_map.mp ascending')
  intro first second _ _ less greater
  exact absurd less (Std.not_gt_of_lt greater)

variable [DecidableLT κ] [Std.IsLinearOrder κ]

theorem mem_insertAscending {table : List (κ × α)} (ascending : Ascending table) (key : κ)
    (value : α) (entry : κ × α) :
    entry ∈ insertAscending key value table
      ↔ entry = (key, value) ∨ entry ∈ table ∧ entry.1 ≠ key := by
  induction table with
  | nil => simp [insertAscending]
  | cons first above ih =>
    obtain ⟨other, kept⟩ := first
    obtain ⟨smallest, rest⟩ := List.pairwise_cons.mp ascending
    have later : entry ∈ above → other < entry.1 :=
      fun mem => smallest entry.1 (List.mem_map_of_mem mem)
    have inside := ih rest
    rw [insertAscending]
    split
    · -- the new key is the smallest one
      grind
    · split <;> grind

theorem ascending_insertAscending {table : List (κ × α)} (ascending : Ascending table) (key : κ)
    (value : α) : Ascending (insertAscending key value table) := by
  induction table with
  | nil => exact List.pairwise_singleton _ _
  | cons first above ih =>
    obtain ⟨other, kept⟩ := first
    obtain ⟨smallest, rest⟩ := List.pairwise_cons.mp ascending
    rw [insertAscending]
    split
    next below =>
      refine List.pairwise_cons.mpr ⟨fun next mem => ?_, ascending⟩
      rcases List.mem_cons.mp mem with same | later
      · exact same ▸ below
      · exact Std.lt_trans below (smallest next later)
    next =>
      split
      next above =>
        refine List.pairwise_cons.mpr ⟨fun next mem => ?_, ih rest⟩
        obtain ⟨entry, stored, rfl⟩ := List.mem_map.mp mem
        rcases (mem_insertAscending rest key value entry).mp stored with same | old
        · exact same ▸ above
        · exact smallest entry.1 (List.mem_map_of_mem old.1)
      next notBelow notAbove =>
        have same : key = other := Std.Trichotomous.trichotomous key other notBelow notAbove
        exact same ▸ ascending

theorem ascending_firstByKey (entries : List (κ × α)) : Ascending (firstByKey entries) := by
  induction entries with
  | nil => exact List.Pairwise.nil
  | cons entry entries ih => exact ascending_insertAscending ih entry.1 entry.2

theorem mem_firstByKey [BEq κ] [LawfulBEq κ] (entries : List (κ × α)) (key : κ) (value : α) :
    (key, value) ∈ firstByKey entries ↔ entries.lookup key = some value := by
  induction entries with
  | nil => simp [firstByKey]
  | cons entry entries ih =>
    obtain ⟨other, kept⟩ := entry
    have stored := mem_insertAscending (ascending_firstByKey entries) other kept (key, value)
    change (key, value) ∈ insertAscending other kept (firstByKey entries) ↔ _
    rw [stored, ih, List.lookup_cons]
    by_cases same : key = other
    · simp [same, eq_comm]
    · simp [same, beq_false_of_ne same]

/-- A key that is entered has a value. -/
theorem exists_mem_firstByKey [BEq κ] [LawfulBEq κ] {entries : List (κ × α)} {key : κ} {value : α}
    (mem : (key, value) ∈ entries) : ∃ first, (key, first) ∈ firstByKey entries := by
  have found : (entries.lookup key).isSome := by
    rw [List.lookup_isSome_iff]
    exact ⟨(key, value), mem, beq_self_eq_true key⟩
  obtain ⟨first, lookup⟩ := Option.isSome_iff_exists.mp found
  exact ⟨first, (mem_firstByKey entries key first).mpr lookup⟩

theorem mem_of_mem_firstByKey [BEq κ] [LawfulBEq κ] {entries : List (κ × α)} {key : κ} {value : α}
    (stored : (key, value) ∈ firstByKey entries) : (key, value) ∈ entries := by
  have lookup := (mem_firstByKey entries key value).mp stored
  obtain ⟨before, after, split, _⟩ := List.lookup_eq_some_iff.mp lookup
  rw [split]
  exact List.mem_append_right before List.mem_cons_self

/-- The last entry under a key is the first one of the entries backwards. -/
theorem lastByKey_eq {κ : Type} [LT κ] [DecidableLT κ] (entries : List (κ × α)) :
    lastByKey entries = firstByKey entries.reverse := by
  rw [firstByKey, List.foldr_reverse]
  rfl

/-- Where no key comes twice, every entry counts. -/
theorem mem_firstByKey_of_nodup {entries : List (κ × α)}
    (distinct : (entries.map Prod.fst).Nodup) (entry : κ × α) :
    entry ∈ firstByKey entries ↔ entry ∈ entries := by
  induction entries with
  | nil => rfl
  | cons first entries ih =>
    obtain ⟨fresh, distinct⟩ := List.nodup_cons.mp distinct
    have stored := mem_insertAscending (ascending_firstByKey entries) first.1 first.2 entry
    change entry ∈ insertAscending first.1 first.2 (firstByKey entries) ↔ _
    rw [stored, ih distinct, List.mem_cons]
    apply or_congr_right
    rw [and_iff_left_iff_imp]
    intro mem same
    exact fresh (same ▸ List.mem_map_of_mem mem)

theorem firstByKey_perm {entries entries' : List (κ × α)} (perm : entries.Perm entries')
    (distinct : (entries.map Prod.fst).Nodup) : firstByKey entries = firstByKey entries' := by
  have distinct' : (entries'.map Prod.fst).Nodup := (perm.map Prod.fst).nodup_iff.mp distinct
  apply (ascending_firstByKey entries).eq_of_mem_iff (ascending_firstByKey entries')
  intro entry
  rw [mem_firstByKey_of_nodup distinct, mem_firstByKey_of_nodup distinct', perm.mem_iff]

theorem lastByKey_perm {entries entries' : List (κ × α)} (perm : entries.Perm entries')
    (distinct : (entries.map Prod.fst).Nodup) : lastByKey entries = lastByKey entries' := by
  have backwards := List.reverse_perm entries
  rw [lastByKey_eq, lastByKey_eq]
  exact firstByKey_perm (backwards.trans (perm.trans (List.reverse_perm entries').symm))
    ((backwards.map Prod.fst).nodup_iff.mpr distinct)

/-- A table with the entries of two others, of which the first counts where both have a key. -/
structure IsUnion {κ α : Type} [LT κ] [BEq κ] (first second table : List (κ × α)) : Prop where
  ascending : Ascending table
  lookup : ∀ key, table.lookup key = (first.lookup key).or (second.lookup key)

section

variable [BEq κ] [LawfulBEq κ]

theorem lookup_insertAscending (key : κ) (value : α) (table : List (κ × α)) (sought : κ) :
    (insertAscending key value table).lookup sought = ((key, value) :: table).lookup sought := by
  induction table with
  | nil => rfl
  | cons first above ih =>
    obtain ⟨other, kept⟩ := first
    rw [insertAscending]
    split
    · rfl
    next notBelow =>
      split
      next above =>
        -- an entry before the new one has another key, so that it is found as ever
        have unlike : other ≠ key := Std.ne_of_lt above
        rw [List.lookup_cons, ih]
        simp only [List.lookup_cons]
        grind
      next notAbove =>
        obtain rfl := Std.Trichotomous.trichotomous key other notBelow notAbove
        simp only [List.lookup_cons]
        grind

theorem lookup_firstByKey (entries : List (κ × α)) (key : κ) :
    (firstByKey entries).lookup key = entries.lookup key := by
  induction entries with
  | nil => rfl
  | cons entry entries ih =>
    have entered := lookup_insertAscending entry.1 entry.2 (firstByKey entries) key
    rw [List.lookup_cons, ih, ← List.lookup_cons] at entered
    exact entered

theorem Ascending.mem_iff_lookup {table : List (κ × α)} (ascending : Ascending table) (key : κ)
    (value : α) : (key, value) ∈ table ↔ table.lookup key = some value := by
  rw [← mem_firstByKey_of_nodup ascending.nodup, mem_firstByKey]

/-- A table is told by what is found in it. -/
theorem Ascending.eq_of_lookup_eq {table table' : List (κ × α)} (ascending : Ascending table)
    (ascending' : Ascending table') (same : ∀ key, table.lookup key = table'.lookup key) :
    table = table' := by
  apply ascending.eq_of_mem_iff ascending'
  rintro ⟨key, value⟩
  rw [ascending.mem_iff_lookup, ascending'.mem_iff_lookup, same key]

end

/-- Stores a value under its key, unless there is one already. -/
def enterAscending {κ α : Type} [LT κ] [DecidableLT κ] [BEq κ] (key : κ) (value : α)
    (table : List (κ × α)) : List (κ × α) :=
  match table.lookup key with
  | some _ => table
  | none => insertAscending key value table

/-- Stores entries in order, each in place of an earlier one under its key. -/
def insertAll {κ α : Type} [LT κ] [DecidableLT κ] (table entries : List (κ × α)) :
    List (κ × α) :=
  entries.foldl (fun table (key, value) => insertAscending key value table) table

/-- Stores entries in order, each unless there is one under its key already. -/
def enterAll {κ α : Type} [LT κ] [DecidableLT κ] [BEq κ] (table entries : List (κ × α)) :
    List (κ × α) :=
  entries.foldl (fun table (key, value) => enterAscending key value table) table

theorem ascending_insertAll {table : List (κ × α)} (ascending : Ascending table)
    (entries : List (κ × α)) : Ascending (insertAll table entries) := by
  induction entries generalizing table with
  | nil => exact ascending
  | cons entry entries ih => exact ih (ascending_insertAscending ascending entry.1 entry.2)

section

variable [BEq κ]

theorem ascending_enterAscending {table : List (κ × α)} (ascending : Ascending table) (key : κ)
    (value : α) : Ascending (enterAscending key value table) := by
  unfold enterAscending
  split
  · exact ascending
  · exact ascending_insertAscending ascending key value

theorem ascending_enterAll {table : List (κ × α)} (ascending : Ascending table)
    (entries : List (κ × α)) : Ascending (enterAll table entries) := by
  induction entries generalizing table with
  | nil => exact ascending
  | cons entry entries ih => exact ih (ascending_enterAscending ascending entry.1 entry.2)

variable [LawfulBEq κ]

theorem lookup_enterAscending (key : κ) (value : α) (table : List (κ × α)) (sought : κ) :
    (enterAscending key value table).lookup sought
      = (table.lookup sought).or ([(key, value)].lookup sought) := by
  unfold enterAscending
  by_cases same : sought = key
  · subst same
    split
    next found => rw [found, Option.some_or]
    next absent =>
      rw [lookup_insertAscending, absent, Option.none_or, List.lookup_cons_self,
        List.lookup_cons_self]
  · have unlike : [(key, value)].lookup sought = none := by
      simp only [List.lookup_cons, beq_false_of_ne same, List.lookup_nil]
    rw [unlike, Option.or_none]
    split
    · rfl
    · rw [lookup_insertAscending, List.lookup_cons, beq_false_of_ne same]

/-- Of the entries the last one under a key counts, and they count before those stored earlier. -/
theorem insertAll_isUnion {table : List (κ × α)} (ascending : Ascending table)
    (entries : List (κ × α)) : IsUnion (lastByKey entries) table (insertAll table entries) := by
  refine ⟨ascending_insertAll ascending entries, fun key => ?_⟩
  rw [lastByKey_eq, lookup_firstByKey]
  induction entries generalizing table with
  | nil => rfl
  | cons entry entries ih =>
    have stored := ih (ascending_insertAscending ascending entry.1 entry.2)
    rw [lookup_insertAscending] at stored
    rw [List.reverse_cons, List.lookup_append, Option.or_assoc, ← List.lookup_append]
    exact stored

/-- Of the entries the first one under a key counts, after those stored earlier. -/
theorem enterAll_isUnion {table : List (κ × α)} (ascending : Ascending table)
    (entries : List (κ × α)) : IsUnion table (firstByKey entries) (enterAll table entries) := by
  refine ⟨ascending_enterAll ascending entries, fun key => ?_⟩
  rw [lookup_firstByKey]
  induction entries generalizing table with
  | nil => exact Option.or_none.symm
  | cons entry entries ih =>
    have entered := ih (ascending_enterAscending ascending entry.1 entry.2)
    rw [lookup_enterAscending, Option.or_assoc, ← List.lookup_append] at entered
    exact entered

theorem enterAll_nil (entries : List (κ × α)) : enterAll [] entries = firstByKey entries := by
  have union := enterAll_isUnion .empty entries
  exact union.ascending.eq_of_lookup_eq (ascending_firstByKey entries) union.lookup

end

end WordExport
