import WordExport.Proofs.Image.Prefetch

set_option autoImplicit false

namespace WordExport

open Markdown (Tree)

/-- A resolver that also notes the requests made of it, each with its outcome. -/
def Resolver.noted {σ : Type} (resolver : Resolver σ) : Resolver (σ × List (String × Outcome)) :=
  fun url (state, requests) =>
    let (outcome, after) := resolver url state
    (outcome, after, requests ++ [(url, outcome)])

theorem requestAll_cons {σ : Type} (resolver : Resolver σ) (url : String) (urls : List String)
    (state : σ) :
    requestAll resolver (url :: urls) state
      = ((resolver url state).1 :: (requestAll resolver urls (resolver url state).2).1,
          (requestAll resolver urls (resolver url state).2).2) := rfl

/-- One request is made for each address, in order, whatever the others come to. -/
theorem requestAll_noted {σ : Type} (resolver : Resolver σ) (urls : List String) (state : σ)
    (requests : List (String × Outcome)) :
    requestAll resolver.noted urls (state, requests)
      = ((requestAll resolver urls state).1, (requestAll resolver urls state).2,
          requests ++ urls.zip (requestAll resolver urls state).1) := by
  induction urls generalizing state requests with
  | nil =>
    rw [List.zip_nil_left, List.append_nil]
    rfl
  | cons url urls ih =>
    have first : resolver.noted url (state, requests)
        = ((resolver url state).1, (resolver url state).2,
            requests ++ [(url, (resolver url state).1)]) := rfl
    rw [requestAll_cons, requestAll_cons, first, ih]
    simp only [List.zip_cons_cons, List.append_assoc, List.singleton_append]

/-- What requests come to: images for exactly the addresses asked for, the last one of each, or else
the first failure. -/
def Settles (requests : List (String × Outcome)) : Except ImageFault ImageTable → Prop
  | .ok images =>
    (∀ request ∈ requests, ∃ image, request.2 = .ok image)
      ∧ (∀ url, (images.find? url).isSome ↔ url ∈ requests.map Prod.fst)
      ∧ ∀ before url image after, requests = before ++ (url, .ok image) :: after →
        url ∉ after.map Prod.fst → images.find? url = some image
  | .error fault =>
    ∃ before url error after, requests = before ++ (url, .error error) :: after
      ∧ (∀ request ∈ before, ∃ image, request.2 = .ok image)
      ∧ fault = .fetchFailed url error.message

section

variable {table images : ImageTable} {requests : List (String × Outcome)}

theorem failed_of_addAll {fault : ImageFault} (failed : table.addAll requests = .error fault) :
    Settles requests (.error fault) := by
  induction requests generalizing table with
  | nil => contradiction
  | cons first rest ih =>
    obtain ⟨address, outcome⟩ := first
    cases outcome with
    | error error =>
      obtain rfl := Except.error.inj failed
      exact ⟨[], address, error, rest, rfl, List.forall_mem_nil _, rfl⟩
    | ok stored =>
      obtain ⟨before, url, error, after, rfl, succeeded, told⟩ := ih failed
      exact ⟨(address, .ok stored) :: before, url, error, after, rfl,
        List.forall_mem_cons.mpr ⟨⟨stored, rfl⟩, succeeded⟩, told⟩

theorem succeeded_of_addAll (added : table.addAll requests = .ok images) :
    ∀ request ∈ requests, ∃ image, request.2 = .ok image := by
  induction requests generalizing table with
  | nil => exact List.forall_mem_nil _
  | cons first rest ih =>
    obtain ⟨address, outcome⟩ := first
    cases outcome with
    | error error => contradiction
    | ok stored => exact List.forall_mem_cons.mpr ⟨⟨stored, rfl⟩, ih added⟩

/-- An image is that of the last request for its address, or it was in the table before. -/
theorem find?_addAll_eq_some (added : table.addAll requests = .ok images) (url : String)
    (image : Image) :
    images.find? url = some image ↔
      (∃ before after, requests = before ++ (url, .ok image) :: after ∧ url ∉ after.map Prod.fst)
        ∨ url ∉ requests.map Prod.fst ∧ table.find? url = some image := by
  induction requests generalizing table with
  | nil =>
    obtain rfl := Except.ok.inj added
    simp
  | cons first rest ih =>
    obtain ⟨address, outcome⟩ := first
    cases outcome with
    | error error => contradiction
    | ok stored =>
      rw [ih added, ImageTable.find?_insert]
      constructor
      · rintro (⟨before, after, rfl, last⟩ | ⟨absent, kept⟩)
        · exact .inl ⟨(address, .ok stored) :: before, after, rfl, last⟩
        · by_cases same : url = address
          · rw [if_pos same] at kept
            obtain rfl := same
            obtain rfl := Option.some.inj kept
            exact .inl ⟨[], rest, rfl, absent⟩
          · rw [if_neg same] at kept
            rw [List.map_cons, List.mem_cons, not_or]
            exact .inr ⟨⟨same, absent⟩, kept⟩
      · rintro (⟨before, after, split, last⟩ | ⟨absent, kept⟩)
        · rcases List.cons_eq_append_iff.mp split with ⟨rfl, whole⟩ | ⟨earlier, rfl, later⟩
          · obtain ⟨same, rfl⟩ := List.cons.inj whole
            obtain ⟨rfl, sameOutcome⟩ := Prod.mk.inj same
            obtain rfl := Except.ok.inj sameOutcome
            exact .inr ⟨last, if_pos rfl⟩
          · exact .inl ⟨earlier, after, later, last⟩
        · rw [List.map_cons, List.mem_cons, not_or] at absent
          exact .inr ⟨absent.2, (if_neg absent.1).trans kept⟩

end

theorem settles_addAll (requests : List (String × Outcome)) :
    Settles requests (ImageTable.addAll {} requests) := by
  rcases outcome : ImageTable.addAll {} requests with fault | images
  · exact failed_of_addAll outcome
  · have unset (url : String) : ImageTable.find? {} url = none := rfl
    refine ⟨succeeded_of_addAll outcome, fun url => ⟨fun found => ?_, fun requested => ?_⟩, ?_⟩
    · obtain ⟨image, found⟩ := Option.isSome_iff_exists.mp found
      rcases (find?_addAll_eq_some outcome url image).mp found with
        ⟨before, after, rfl, _⟩ | ⟨_, stored⟩
      · simp
      · rw [unset] at stored
        contradiction
    · exact find?_addAll outcome (.inr requested)
    · intro before url image after split last
      exact (find?_addAll_eq_some outcome url image).mpr (.inl ⟨before, after, split, last⟩)

/-- Every image of a tree is asked for once, in the order of the tree, and the order in which the
requests finish makes no difference to what they come to. A tree without images makes no request
and needs no resolver. -/
theorem prefetch_settles {σ : Type} (tree : Tree) (state : σ) :
    (∀ resolver : Resolver σ, ∃ requests outcome after,
      requests.map Prod.fst = tree.imageUrls ∧ Settles requests outcome ∧
      ∀ finishing, prefetch tree (some resolver) finishing state = (outcome, after) ∧
        prefetch tree (some resolver.noted) finishing (state, []) = (outcome, after, requests)) ∧
    (tree.imageUrls = [] → ∀ (resolver : Option (Resolver σ)) (finishing : List Nat),
      prefetch tree resolver finishing state = (.ok {}, state)) ∧
    (tree.imageUrls ≠ [] → ∀ finishing : List Nat,
      prefetch tree (none : Option (Resolver σ)) finishing state
        = (.error .missingResolver, state)) := by
  refine ⟨fun resolver => ?_, fun bare resolver finishing => ?_, fun illustrated finishing => ?_⟩
  · have places := length_requestAll resolver tree.imageUrls state
    refine ⟨tree.imageUrls.zip (requestAll resolver tree.imageUrls state).1, _,
      (requestAll resolver tree.imageUrls state).2, List.map_fst_zip (Nat.le_of_eq places.symm),
      settles_addAll _, fun finishing => ⟨prefetch_some tree resolver finishing state, ?_⟩⟩
    rw [prefetch_some, requestAll_noted, List.nil_append]
  · simp only [prefetch, bare]
    rfl
  · obtain ⟨url, urls, listed⟩ := List.exists_cons_of_ne_nil illustrated
    simp only [prefetch, listed]
    rfl

/-- An image that occurs twice, the second time where nothing is converted. -/
def repeatedTree : Tree where
  children := [
    .paragraph [.image "a" none none, .link "u" none [.image "b" none none]],
    .linkReference "r" none none [.image "a" none none],
    .footnoteDefinition "1" none [.image "c" none none]]

/-- Fails from the third request on, with the number of the request. -/
def failingResolver : Resolver Nat := fun url requests =>
  (if requests < 2 then .ok ⟨[], requests, 1⟩ else .error (.io (url ++ toString requests)),
    requests + 1)

theorem prefetch_settles_repeated :
    (∃ requests outcome after,
      requests.map Prod.fst = ["a", "b", "a", "c"] ∧ Settles requests outcome ∧
      ∀ finishing, prefetch repeatedTree (some failingResolver) finishing 0 = (outcome, after) ∧
        prefetch repeatedTree (some failingResolver.noted) finishing (0, [])
          = (outcome, after, requests)) ∧
    prefetch ⟨[.thematicBreak]⟩ (some failingResolver) [1] 0 = (.ok {}, 0) ∧
    prefetch repeatedTree (none : Option (Resolver Nat)) [2, 0] 0
      = (.error .missingResolver, 0) :=
  ⟨(prefetch_settles repeatedTree 0).1 failingResolver,
    (prefetch_settles ⟨[.thematicBreak]⟩ 0).2.1 rfl (some failingResolver) [1],
    (prefetch_settles repeatedTree 0).2.2 (by decide) [2, 0]⟩

/-- The second request finishes first, and it is the failure of the first one that is told. -/
example : prefetch ⟨[.image "a" none none, .image "b" none none]⟩
    (some fun url made => (.error (.io url), made + 1)) [1, 0] 0
      = (.error (.fetchFailed "a" "IO error: a"), 2) := rfl

end WordExport
