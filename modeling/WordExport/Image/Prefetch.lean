import WordExport.Error
import WordExport.Image
import WordExport.Markdown.Node

set_option autoImplicit false

namespace WordExport

open Markdown (Tree)

/-- What a request for an image comes to. -/
abbrev Outcome : Type := Except Error Image

/-- A source of images, with a state of its own that a request may change. -/
abbrev Resolver (σ : Type) : Type := String → StateM σ Outcome

/-- Makes one request for each address, in order, whatever the others come to. -/
def requestAll {σ : Type} (resolver : Resolver σ) : List String → StateM σ (List Outcome)
  | [] => return []
  | url :: urls => do
    let first ← resolver url
    let rest ← requestAll resolver urls
    return first :: rest

/-- Puts the outcomes into their places as the requests finish, given the places in the order of
finishing. Those not given finish last. -/
def arrivals (outcomes : List Outcome) (finishing : List Nat) : List Outcome :=
  let places := finishing ++ List.range outcomes.length
  let slots := places.foldl (fun slots place => slots.set place outcomes[place]?)
    (List.replicate outcomes.length none)
  slots.filterMap id

/-- Adds the images in order; the last one of an address counts, and so does the first failure. -/
def ImageTable.addAll (table : ImageTable) :
    List (String × Outcome) → Except ImageFault ImageTable
  | [] => .ok table
  | (url, .ok image) :: rest => (table.insert url image).addAll rest
  | (url, .error error) :: _ => .error (.fetchFailed url error.message)

/-- The images of a tree. A tree without images asks for no resolver. -/
def prefetch {σ : Type} (tree : Tree) (resolver : Option (Resolver σ)) (finishing : List Nat) :
    StateM σ (Except ImageFault ImageTable) :=
  match tree.imageUrls, resolver with
  | [], _ => return .ok {}
  | _, none => return .error .missingResolver
  | urls, some resolver => do
    let outcomes ← requestAll resolver urls
    return ImageTable.addAll {} (urls.zip (arrivals outcomes finishing))

end WordExport
