import WordExport.Proofs.Package.Uses

set_option autoImplicit false

namespace WordExport

/-- The file of the image of a number. -/
def mediaName (number : Nat) (data : List UInt8) : String :=
  "image" ++ toString number ++ "." ++ imageExtension data

/-- The relationships of uses, after so many images. -/
def relationshipsFrom (images : Nat) : List Use → List Relationship
  | [] => []
  | .link url :: uses => ⟨.hyperlink, url⟩ :: relationshipsFrom images uses
  | .image image :: uses =>
    ⟨.image, "media/" ++ mediaName (images + 1) image.data⟩ :: relationshipsFrom (images + 1) uses

def mediaFrom (images : Nat) : List Image → List Media
  | [] => []
  | image :: more =>
    ⟨mediaName (images + 1) image.data, image.data⟩ :: mediaFrom (images + 1) more

/-- The marks of uses, after so many relationships and images. -/
def marksFrom (relationships images : Nat) : List Use → List Mark
  | [] => []
  | .link _ :: uses =>
    .relationship "r:id" (relationshipId relationships) :: marksFrom (relationships + 1) images uses
  | .image _ :: uses =>
    .drawing (toString (images + 1)) :: .relationship "r:embed" (relationshipId relationships)
      :: marksFrom (relationships + 1) (images + 1) uses

theorem relationshipsFrom_append (images : Nat) (first second : List Use) :
    relationshipsFrom images (first ++ second)
      = relationshipsFrom images first
        ++ relationshipsFrom (images + (imagesOf first).length) second := by
  induction first generalizing images with
  | nil => rfl
  | cons use uses ih =>
    cases use with
    | link url => exact congrArg (List.cons _) (ih images)
    | image image =>
      have later := ih (images + 1)
      rw [Nat.add_right_comm] at later
      exact congrArg (List.cons _) later

theorem mediaFrom_append (images : Nat) (first second : List Image) :
    mediaFrom images (first ++ second)
      = mediaFrom images first ++ mediaFrom (images + first.length) second := by
  induction first generalizing images with
  | nil => rfl
  | cons image more ih =>
    have later := ih (images + 1)
    rw [Nat.add_right_comm] at later
    exact congrArg (List.cons _) later

theorem marksFrom_append (relationships images : Nat) (first second : List Use) :
    marksFrom relationships images (first ++ second)
      = marksFrom relationships images first
        ++ marksFrom (relationships + first.length) (images + (imagesOf first).length) second := by
  induction first generalizing relationships images with
  | nil => rfl
  | cons use uses ih =>
    cases use with
    | link url =>
      have later := ih (relationships + 1) images
      rw [Nat.add_right_comm relationships] at later
      exact congrArg (List.cons _) later
    | image image =>
      have later := ih (relationships + 1) (images + 1)
      rw [Nat.add_right_comm relationships, Nat.add_right_comm images] at later
      exact congrArg (fun marks => _ :: _ :: marks) later

theorem length_relationshipsFrom (images : Nat) (uses : List Use) :
    (relationshipsFrom images uses).length = uses.length := by
  induction uses generalizing images with
  | nil => rfl
  | cons use uses ih => cases use <;> simp only [relationshipsFrom, List.length_cons, ih]

theorem length_mediaFrom (images : Nat) (shown : List Image) :
    (mediaFrom images shown).length = shown.length := by
  induction shown generalizing images with
  | nil => rfl
  | cons image shown ih => simp only [mediaFrom, List.length_cons, ih]

theorem imagesOf_append (first second : List Use) :
    imagesOf (first ++ second) = imagesOf first ++ imagesOf second :=
  List.filterMap_append

def Ledger.after (ledger : Ledger) (uses : List Use) : Ledger where
  relationships := ledger.relationships ++ relationshipsFrom ledger.media.length uses
  media := ledger.media ++ mediaFrom ledger.media.length (imagesOf uses)

def Ledger.marks (ledger : Ledger) (uses : List Use) : List Mark :=
  marksFrom ledger.relationships.length ledger.media.length uses

theorem Ledger.after_nil (ledger : Ledger) : ledger.after [] = ledger := by
  obtain ⟨relationships, media⟩ := ledger
  simp [Ledger.after, relationshipsFrom, mediaFrom, imagesOf]

theorem Ledger.after_append (ledger : Ledger) (first second : List Use) :
    ledger.after (first ++ second) = (ledger.after first).after second := by
  simp [Ledger.after, relationshipsFrom_append, imagesOf_append, mediaFrom_append,
    length_mediaFrom]

theorem Ledger.marks_append (ledger : Ledger) (first second : List Use) :
    ledger.marks (first ++ second) = ledger.marks first ++ (ledger.after first).marks second := by
  simp [Ledger.marks, Ledger.after, marksFrom_append, length_relationshipsFrom, length_mediaFrom]

/-- Writing adds the uses to the ledger, and its marks name them. -/
def Records {α : Type} (uses : List Use) (marks : α → List Mark) (write : Writing α) : Prop :=
  ∀ ledger, (write ledger).2 = ledger.after uses ∧ marks (write ledger).1 = ledger.marks uses

namespace Records

variable {α β γ : Type}

theorem pure {marks : α → List Mark} {value : α} (plain : marks value = []) :
    Records [] marks (Pure.pure value) :=
  fun ledger => ⟨ledger.after_nil.symm, plain⟩

theorem map {uses : List Use} {marks : α → List Mark} {marks' : β → List Mark}
    {write : Writing α} {wrap : α → β} (recorded : Records uses marks write)
    (same : ∀ value, marks' (wrap value) = marks value) :
    Records uses marks' (write >>= fun value => Pure.pure (wrap value)) :=
  fun ledger => ⟨(recorded ledger).1, (same _).trans (recorded ledger).2⟩

theorem append {first second : List Use} {marks : α → List Mark} {marks' : β → List Mark}
    {marks'' : γ → List Mark} {write : Writing α} {next : Writing β} {join : α → β → γ}
    (recorded : Records first marks write) (recorded' : Records second marks' next)
    (joined : ∀ value rest, marks'' (join value rest) = marks value ++ marks' rest) :
    Records (first ++ second) marks'' (write >>= fun value => next >>= fun rest =>
      Pure.pure (join value rest)) := by
  intro ledger
  have written := recorded ledger
  have following := recorded' (write ledger).2
  rw [Ledger.after_append, Ledger.marks_append, ← written.1]
  refine ⟨following.1, (joined _ _).trans ?_⟩
  rw [written.2, following.2]

end Records

end WordExport
