import WordExport.Proofs.Package.Names

set_option autoImplicit false

namespace WordExport

open Xml (Node)

theorem mentions_marksFrom (relationships images : Nat) (uses : List Use) :
    (marksFrom relationships images uses).filterMap Mark.relationship?
      = (uses.zipIdx relationships).map fun (use, index) =>
        (use.attributeName, relationshipId index) := by
  induction uses generalizing relationships images with
  | nil => rfl
  | cons use uses ih =>
    cases use with
    | link url => exact congrArg (List.cons _) (ih (relationships + 1) images)
    | image image => exact congrArg (List.cons _) (ih (relationships + 1) (images + 1))

theorem drawings_marksFrom (relationships images : Nat) (uses : List Use) :
    (marksFrom relationships images uses).filterMap Mark.drawing?
      = (List.range' (images + 1) (imagesOf uses).length).map toString := by
  induction uses generalizing relationships images with
  | nil => rfl
  | cons use uses ih =>
    cases use with
    | link url => exact ih (relationships + 1) images
    | image image => exact congrArg (List.cons _) (ih (relationships + 1) (images + 1))

def Media.part (media : Media) : Part :=
  ⟨"word/media/" ++ media.name, .media media.data⟩

theorem parts_mediaFrom (images : Nat) (shown : List Image) :
    (mediaFrom images shown).map Media.part
      = (shown.zipIdx (images + 1)).map fun (image, number) =>
        ⟨"word/media/image" ++ toString number ++ "." ++ imageExtension image.data,
          .media image.data⟩ := by
  induction shown generalizing images with
  | nil => rfl
  | cons image shown ih =>
    have name : "word/media/" ++ mediaName (images + 1) image.data
        = "word/media/image" ++ toString (images + 1) ++ "." ++ imageExtension image.data := by
      rw [mediaName, ← String.append_assoc, ← String.append_assoc, ← String.append_assoc]
      rfl
    rw [mediaFrom, List.map_cons, ih, Media.part, name]
    rfl

theorem mem_mediaFrom {images : Nat} {shown : List Image} {media : Media}
    (mem : media ∈ mediaFrom images shown) :
    ∃ number, images < number ∧ media.name = mediaName number media.data := by
  induction shown generalizing images with
  | nil => contradiction
  | cons image shown ih =>
    rcases List.mem_cons.mp mem with same | later
    · exact ⟨images + 1, Nat.lt_succ_self images, by rw [same]⟩
    · obtain ⟨number, above, name⟩ := ih later
      exact ⟨number, Nat.lt_of_succ_lt above, name⟩

theorem names_mediaFrom (images : Nat) (shown : List Image) :
    ((mediaFrom images shown).map Media.name).Nodup := by
  induction shown generalizing images with
  | nil => exact List.nodup_nil
  | cons image shown ih =>
    refine List.nodup_cons.mpr ⟨fun mem => ?_, ih (images + 1)⟩
    obtain ⟨media, later, same⟩ := List.mem_map.mp mem
    obtain ⟨number, above, name⟩ := mem_mediaFrom later
    have := mediaName_injective (name.symm.trans same)
    omega

theorem related_of_mem_mediaFrom {images : Nat} {uses : List Use} {media : Media}
    (mem : media ∈ mediaFrom images (imagesOf uses)) :
    ⟨.image, "media/" ++ media.name⟩ ∈ relationshipsFrom images uses := by
  induction uses generalizing images with
  | nil => contradiction
  | cons use uses ih =>
    cases use with
    | link url => exact List.mem_cons_of_mem _ (ih mem)
    | image image =>
      rcases List.mem_cons.mp mem with same | later
      · rw [same]
        exact List.mem_cons_self
      · exact List.mem_cons_of_mem _ (ih later)

def Relationship.entry (index : Nat) (relationship : Relationship) : Entry where
  id := relationshipId index
  type := relationship.kind.uri
  target := Xml.visible relationship.target
  external := relationship.kind.isExternal

def entriesFrom (index : Nat) (relationships : List Relationship) : List Entry :=
  (relationships.zipIdx index).map fun (relationship, place) => relationship.entry place

theorem ofNode_markup (index : Nat) (relationship : Relationship) :
    Entry.ofNode? (relationship.markup index) = some (relationship.entry index) := by
  obtain ⟨kind, target⟩ := relationship
  cases kind <;> rfl

theorem entries_relationshipsPart (relationships : List Relationship) :
    (relationshipsPart relationships).children.filterMap Entry.ofNode?
      = entriesFrom 0 relationships := by
  rw [relationshipsPart, Node.children, List.mapIdx_eq_zipIdx_map, List.filterMap_map, entriesFrom,
    ← List.filterMap_eq_map]
  exact congrArg (List.filterMap · _) (funext fun entry => ofNode_markup entry.2 entry.1)

theorem ids_entriesFrom (index : Nat) (relationships : List Relationship) :
    (entriesFrom index relationships).map Entry.id
      = (List.range' index relationships.length).map relationshipId := by
  rw [entriesFrom, List.map_map, ← List.zipIdx_map_snd, List.map_map]
  rfl

theorem entriesFrom_append (index : Nat) (first second : List Relationship) :
    entriesFrom index (first ++ second)
      = entriesFrom index first ++ entriesFrom (index + first.length) second := by
  rw [entriesFrom, List.zipIdx_append, List.map_append]
  rfl

theorem exists_entry_of_mem {index : Nat} {relationships : List Relationship}
    {relationship : Relationship} (mem : relationship ∈ relationships) :
    ∃ place, relationship.entry place ∈ entriesFrom index relationships := by
  rw [← List.zipIdx_map_fst index relationships] at mem
  obtain ⟨⟨_, place⟩, placed, rfl⟩ := List.mem_map.mp mem
  exact ⟨place, List.mem_map_of_mem placed⟩

theorem relationshipIds_nodup (index count : Nat) :
    ((List.range' index count).map relationshipId).Nodup :=
  List.Nodup.map relationshipId_injective List.nodup_range'

theorem serves_relationshipsFrom {parts : List Part} {images : Nat} (index : Nat) {uses : List Use}
    (stored : ∀ media ∈ mediaFrom images (imagesOf uses), media.part ∈ parts) :
    List.Forall₂ (Entry.Serves parts) (entriesFrom index (relationshipsFrom images uses)) uses := by
  induction uses generalizing index images with
  | nil => exact .nil
  | cons use uses ih =>
    cases use with
    | link url => exact .cons ⟨rfl, rfl, rfl⟩ (ih (index + 1) stored)
    | image image =>
      have target : Xml.visible ("media/" ++ mediaName (images + 1) image.data)
          = "media/" ++ mediaName (images + 1) image.data := by
        rw [visible_append, visible_mediaName]
        rfl
      refine .cons ⟨rfl, rfl, _, target, stored _ List.mem_cons_self⟩ (ih (index + 1) ?_)
      exact fun media mem => stored media (List.mem_cons_of_mem _ mem)

theorem served_from {parts : List Part} {images index : Nat} {uses : List Use}
    (stored : ∀ media ∈ mediaFrom images (imagesOf uses), media.part ∈ parts) :
    Served parts uses ((marksFrom index images uses).filterMap Mark.relationship?)
      (entriesFrom index (relationshipsFrom images uses)) := by
  have ids : ((marksFrom index images uses).filterMap Mark.relationship?).map Prod.snd
      = (List.range' index uses.length).map relationshipId := by
    rw [mentions_marksFrom, List.map_map, ← List.zipIdx_map_snd, List.map_map]
    rfl
  refine ⟨?_, ?_, ?_, serves_relationshipsFrom index stored⟩
  · rw [ids]
    exact relationshipIds_nodup index uses.length
  · rw [ids, ids_entriesFrom, length_relationshipsFrom]
  · rw [mentions_marksFrom, List.map_map]
    conv => rhs; rw [← List.zipIdx_map_fst index uses, List.map_map]
    rfl

theorem Entry.Serves.internal {parts : List Part} {entry : Entry} {use : Use}
    (serves : entry.Serves parts use) : entry.Internal parts "word/" := by
  cases use with
  | link url => exact .inl serves.2.1
  | image image =>
    obtain ⟨_, _, name, target, stored⟩ := serves
    refine .inr (List.mem_map.mpr ⟨_, stored, ?_⟩)
    rw [target, ← String.append_assoc]
    rfl

theorem Served.internal {parts : List Part} {uses : List Use} {mentions : List (String × String)}
    {entries : List Entry} (served : Served parts uses mentions entries) :
    ∀ entry ∈ entries, entry.Internal parts "word/" := by
  have targets := served.targets
  clear served
  induction targets with
  | nil => intro entry mem; contradiction
  | cons serves _ ih =>
    intro entry mem
    rcases List.mem_cons.mp mem with same | later
    · exact same ▸ serves.internal
    · exact ih entry later

end WordExport
