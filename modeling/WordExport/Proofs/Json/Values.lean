import WordExport.Json.Value

set_option autoImplicit false

namespace WordExport.Json

open Text

namespace Value

mutual

/-- Whether all strings are texts and all numbers pass a check. -/
def passes (check : Number → Bool) : Value → Bool
  | null | bool _ => true
  | number n => check n
  | string points => (textOf? points).isSome
  | array items => allPass check items
  | object members => membersPass check members

def allPass (check : Number → Bool) : List Value → Bool
  | [] => true
  | item :: items => item.passes check && allPass check items

def membersPass (check : Number → Bool) : List (List Nat × Value) → Bool
  | [] => true
  | (key, value) :: members =>
    (textOf? key).isSome && value.passes check && membersPass check members

end

/-- Sound values hold texts and finite numbers. -/
abbrev isSound : Value → Bool :=
  passes Number.isFinite

mutual

/-- The most arrays and objects open at once. -/
def depth : Value → Nat
  | array items => depthOfAll items + 1
  | object members => depthOfMembers members + 1
  | _ => 0

def depthOfAll : List Value → Nat
  | [] => 0
  | item :: items => max item.depth (depthOfAll items)

def depthOfMembers : List (List Nat × Value) → Nat
  | [] => 0
  | (_, value) :: members => max value.depth (depthOfMembers members)

end

theorem depth_le_of_mem {member : List Nat × Value} {members : List (List Nat × Value)}
    (mem : member ∈ members) : member.2.depth ≤ depthOfMembers members := by
  induction members with
  | nil => contradiction
  | cons first members ih =>
    rcases List.mem_cons.mp mem with rfl | later
    · exact Nat.le_max_left _ _
    · exact Nat.le_trans (ih later) (Nat.le_max_right _ _)

mutual

theorem isReadable_iff {depth : Nat} {value : Value} :
    value.isReadable depth = true ↔ value.isSound = true ∧ value.depth ≤ depth := by
  cases value with
  | null | bool b | number n | string points =>
    simp only [isReadable, passes, Value.depth, Nat.zero_le, and_true]
  | array items =>
    simp only [isReadable, passes, Value.depth, Bool.and_eq_true, bne_iff_ne]
    rw [areReadable_iff, and_left_comm]
    exact and_congr_right fun _ => by omega
  | object members =>
    simp only [isReadable, passes, Value.depth, Bool.and_eq_true, bne_iff_ne]
    rw [membersReadable_iff, and_left_comm]
    exact and_congr_right fun _ => by omega

theorem areReadable_iff {depth : Nat} {items : List Value} :
    areReadable depth items = true
      ↔ allPass Number.isFinite items = true ∧ depthOfAll items ≤ depth := by
  cases items with
  | nil => simp [areReadable, allPass, depthOfAll]
  | cons item items =>
    simp only [areReadable, allPass, depthOfAll, Bool.and_eq_true, Nat.max_le]
    rw [isReadable_iff, areReadable_iff]
    exact and_and_and_comm

theorem membersReadable_iff {depth : Nat} {members : List (List Nat × Value)} :
    membersReadable depth members = true
      ↔ membersPass Number.isFinite members = true ∧ depthOfMembers members ≤ depth := by
  match members with
  | [] => simp [membersReadable, membersPass, depthOfMembers]
  | (key, value) :: members =>
    simp only [membersReadable, membersPass, depthOfMembers, Bool.and_eq_true, Nat.max_le]
    rw [isReadable_iff, membersReadable_iff, ← and_assoc (a := (textOf? key).isSome = true)]
    exact and_and_and_comm

end

theorem allPass_iff {check : Number → Bool} {items : List Value} :
    allPass check items = true ↔ ∀ item ∈ items, item.passes check = true := by
  induction items with
  | nil => simp [allPass]
  | cons item items ih => rw [allPass, Bool.and_eq_true, ih, List.forall_mem_cons]

theorem membersPass_iff {check : Number → Bool} {members : List (List Nat × Value)} :
    membersPass check members = true
      ↔ ∀ member ∈ members, (textOf? member.1).isSome ∧ member.2.passes check = true := by
  induction members with
  | nil => simp [membersPass]
  | cons member members ih =>
    rw [membersPass, Bool.and_eq_true, Bool.and_eq_true, ih, List.forall_mem_cons]

end Value

end WordExport.Json
