import WordExport.Assembly
import WordExport.Image.Prefetch
import WordExport.Package

set_option autoImplicit false

namespace WordExport

open Markdown (Tree)

/-- The package of a tree, the images of which are in the table. -/
def renderTree (tree : Tree) (options : Options) (images : ImageTable) : Except Error Package := do
  let document ← buildDocument tree options images
  return document.pack options.output

/-- The package of a tree whose images are fetched first. -/
def exportTree {σ : Type} (tree : Tree) (options : Options) (resolver : Option (Resolver σ))
    (finishing : List Nat) : StateM σ (Except Error Package) := do
  match ← prefetch tree resolver finishing with
  | .error fault => return .error (.resolution fault)
  | .ok images => return renderTree tree options images

end WordExport
