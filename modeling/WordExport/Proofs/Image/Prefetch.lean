import WordExport.Image.Prefetch

set_option autoImplicit false

namespace WordExport

open Markdown (Tree)

theorem getElem?_placed (outcomes : List Outcome) (places : List Nat) (slots : List (Option Outcome))
    (place : Nat) (inside : place < slots.length) :
    (places.foldl (fun slots place => slots.set place outcomes[place]?) slots)[place]?
      = if place ∈ places then some outcomes[place]? else slots[place]? := by
  induction places generalizing slots with
  | nil => simp
  | cons next places ih =>
    have inside' : place < (slots.set next outcomes[next]?).length := by
      rw [List.length_set]
      exact inside
    rw [List.foldl_cons, ih _ inside', List.getElem?_set]
    by_cases later : place ∈ places
    · simp [later]
    · by_cases same : next = place
      · simp [later, same, inside]
      · simp [later, same, Ne.symm same]

theorem length_placed (outcomes : List Outcome) (places : List Nat)
    (slots : List (Option Outcome)) :
    (places.foldl (fun slots place => slots.set place outcomes[place]?) slots).length
      = slots.length := by
  induction places generalizing slots with
  | nil => rfl
  | cons next places ih => rw [List.foldl_cons, ih, List.length_set]

/-- Whatever the order of finishing, every outcome comes to its own place. -/
theorem arrivals_eq (outcomes : List Outcome) (finishing : List Nat) :
    arrivals outcomes finishing = outcomes := by
  have filled : (finishing ++ List.range outcomes.length).foldl
      (fun slots place => slots.set place outcomes[place]?)
      (List.replicate outcomes.length none) = outcomes.map some := by
    apply List.ext_getElem?
    intro place
    by_cases inside : place < outcomes.length
    · have given : place ∈ finishing ++ List.range outcomes.length :=
        List.mem_append_right finishing (List.mem_range.mpr inside)
      rw [getElem?_placed _ _ _ _ (by rwa [List.length_replicate]), if_pos given, List.getElem?_map,
        List.getElem?_eq_getElem inside, Option.map_some]
    · have outside : outcomes.length ≤ place := Nat.le_of_not_lt inside
      rw [List.getElem?_eq_none, List.getElem?_eq_none]
      · rwa [List.length_map]
      · rwa [length_placed, List.length_replicate]
  rw [arrivals, filled, List.filterMap_map]
  exact List.filterMap_some

theorem length_requestAll {σ : Type} (resolver : Resolver σ) (urls : List String) (state : σ) :
    (requestAll resolver urls state).1.length = urls.length := by
  induction urls generalizing state with
  | nil => rfl
  | cons url urls ih => exact congrArg (· + 1) (ih (resolver url state).2)

/-- The table has an image for every address. -/
def ImageTable.Covers (images : ImageTable) (urls : List String) : Prop :=
  ∀ url ∈ urls, (images.find? url).isSome

theorem find?_addAll {table images : ImageTable} {outcomes : List (String × Outcome)}
    (added : table.addAll outcomes = .ok images) {url : String}
    (listed : (table.find? url).isSome ∨ url ∈ outcomes.map Prod.fst) :
    (images.find? url).isSome := by
  induction outcomes generalizing table with
  | nil =>
    obtain rfl := Except.ok.inj added
    simpa using listed
  | cons first rest ih =>
    obtain ⟨address, outcome⟩ := first
    cases outcome with
    | error error => contradiction
    | ok image =>
      apply ih added
      rw [ImageTable.find?_insert]
      by_cases same : url = address
      · exact .inl (by simp [same])
      · simpa [same] using listed

/-- The outcomes are taken in the order of the tree, whatever the order of finishing. -/
theorem prefetch_some {σ : Type} (tree : Tree) (resolver : Resolver σ) (finishing : List Nat)
    (state : σ) :
    prefetch tree (some resolver) finishing state
      = (ImageTable.addAll {} (tree.imageUrls.zip (requestAll resolver tree.imageUrls state).1),
          (requestAll resolver tree.imageUrls state).2) := by
  rcases listed : tree.imageUrls with _ | ⟨url, urls⟩
  · simp only [prefetch, listed]
    rfl
  · simp only [prefetch, listed]
    change (ImageTable.addAll {} ((url :: urls).zip
      (arrivals (requestAll resolver (url :: urls) state).1 finishing)), _) = _
    rw [arrivals_eq]
    rfl

theorem prefetch_covers {σ : Type} {tree : Tree} {resolver : Option (Resolver σ)}
    {finishing : List Nat} {state : σ} {images : ImageTable}
    (fetched : (prefetch tree resolver finishing state).1 = .ok images) :
    images.Covers tree.imageUrls := by
  intro url mem
  cases resolver with
  | none =>
    obtain ⟨first, rest, listed⟩ := List.exists_cons_of_ne_nil (List.ne_nil_of_mem mem)
    simp only [prefetch, listed] at fetched
    contradiction
  | some resolver =>
    rw [prefetch_some] at fetched
    have outcomes := length_requestAll resolver tree.imageUrls state
    apply find?_addAll fetched
    rw [List.map_fst_zip (Nat.le_of_eq outcomes.symm)]
    exact .inr mem

end WordExport
