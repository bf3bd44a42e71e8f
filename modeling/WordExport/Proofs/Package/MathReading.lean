import WordExport.Proofs.Package.Texts
import WordExport.Proofs.Xml.ReadBack

set_option autoImplicit false

namespace WordExport

open Math (Run)
open Xml (Item Node Tag)
open Xml.Node (childChars childItems childItems_append childTags)

mutual

/-- What is left of a run in markup. -/
def Math.Run.visible : Run → Run
  | .text text => .text (Xml.visible text)
  | .superscript base script => .superscript (visibleRuns base) (visibleRuns script)
  | .subscript base script => .subscript (visibleRuns base) (visibleRuns script)
  | .fraction numerator denominator =>
    .fraction (visibleRuns numerator) (visibleRuns denominator)
  | .squareRoot body => .squareRoot (visibleRuns body)
  | .root degree body => .root (visibleRuns degree) (visibleRuns body)
  | .sum body => .sum (visibleRuns body)

def visibleRuns : List Run → List Run
  | [] => []
  | run :: runs => run.visible :: visibleRuns runs

end

/-- Markup drops no character of the texts. -/
def KeepsTexts (texts : List String) : Prop :=
  ∀ text ∈ texts, ∀ c ∈ text.toList, Xml.isDropped c = false

mutual

theorem Math.Run.visible_eq (run : Run) (kept : KeepsTexts run.texts) : run.visible = run := by
  cases run with
  | text text => rw [Run.visible, visible_of_kept (kept text List.mem_cons_self)]
  | superscript base script | subscript base script | fraction base script | root base script =>
    obtain ⟨first, second⟩ := List.forall_mem_append.mp kept
    rw [Run.visible, visibleRuns_eq base first, visibleRuns_eq script second]
  | squareRoot body | sum body => rw [Run.visible, visibleRuns_eq body kept]

theorem visibleRuns_eq (runs : List Run) (kept : KeepsTexts (runTexts runs)) :
    visibleRuns runs = runs := by
  cases runs with
  | nil => rfl
  | cons run runs =>
    obtain ⟨first, rest⟩ := List.forall_mem_append.mp kept
    rw [visibleRuns, run.visible_eq first, visibleRuns_eq runs rest]

end

/-- What a part of a run holds, as text and as runs. -/
structure MathPart where
  text : List Char
  runs : List Run

/-- The run of an element of the given name and parts. A radical with three parts hides its
degree. -/
def Math.Run.ofParts? (name : String) (parts : List MathPart) : Option Run :=
  match name, parts with
  | "m:r", [_, content] => some (.text (String.ofList content.text))
  | "m:sSup", [base, script] => some (.superscript base.runs script.runs)
  | "m:sSub", [base, script] => some (.subscript base.runs script.runs)
  | "m:f", [numerator, denominator] => some (.fraction numerator.runs denominator.runs)
  | "m:rad", [degree, body] => some (.root degree.runs body.runs)
  | "m:rad", [_, _, body] => some (.squareRoot body.runs)
  | "m:nary", [_, _, _, body] => some (.sum body.runs)
  | _, _ => none

/-- The characters among items. -/
def textOf : List Item → List Char
  | [] => []
  | .char c :: items => c :: textOf items
  | .element _ _ :: items => textOf items

mutual

def Xml.Item.run? : Item → Option Run
  | .char _ => none
  | .element tag children => Run.ofParts? tag.name (partsIn children)

def partsIn : List Item → List MathPart
  | [] => []
  | .char _ :: items => partsIn items
  | .element _ children :: items => ⟨textOf children, runsIn children⟩ :: partsIn items

/-- The runs among items. -/
def runsIn : List Item → List Run
  | [] => []
  | item :: items => item.run?.toList ++ runsIn items

end

theorem runsIn_append (first second : List Item) :
    runsIn (first ++ second) = runsIn first ++ runsIn second := by
  induction first with
  | nil => rfl
  | cons item items ih => rw [List.cons_append, runsIn, runsIn, ih, List.append_assoc]

theorem textOf_chars (text : List Char) : textOf (text.map .char) = text := by
  induction text with
  | nil => rfl
  | cons c text ih => rw [List.map_cons, textOf, ih]

/-- An element with two parts that hold runs. -/
theorem runsIn_pair {name first second : String} {runs runs' : List Node} :
    runsIn (Node.element name [] [.element first [] runs, .element second [] runs']).items
      = (Run.ofParts? name [⟨textOf (childItems runs), runsIn (childItems runs)⟩,
          ⟨textOf (childItems runs'), runsIn (childItems runs')⟩]).toList :=
  List.append_nil _

mutual

theorem runsIn_items (run : Run) : runsIn (runMarkup run).items = [run.visible] := by
  cases run with
  | text text =>
    have content : textOf (childItems [.text text]) = (Xml.visible text).toList := by
      rw [childItems, childItems, List.append_nil, Node.items, textOf_chars]
    have read : runsIn (mathText text).items
        = [.text (String.ofList (textOf (childItems [.text text])))] := rfl
    rw [runMarkup, read, content, String.ofList_toList]
    rfl
  | superscript base script | subscript base script | fraction base script | root base script =>
    rw [runMarkup, runsIn_pair, runsIn_childItems base, runsIn_childItems script]
    rfl
  | squareRoot body =>
    -- of the three parts the first two are fixed and hold no run
    have read : runsIn (runMarkup (.squareRoot body)).items
        = [.squareRoot (runsIn (childItems (runsMarkup body)))] := rfl
    rw [read, runsIn_childItems body]
    rfl
  | sum body =>
    have read : runsIn (runMarkup (.sum body)).items
        = [.sum (runsIn (childItems (runsMarkup body)))] := rfl
    rw [read, runsIn_childItems body]
    rfl

theorem runsIn_childItems (runs : List Run) :
    runsIn (childItems (runsMarkup runs)) = visibleRuns runs := by
  cases runs with
  | nil => rfl
  | cons run runs =>
    rw [runsMarkup, childItems, runsIn_append, runsIn_items run, runsIn_childItems runs]
    rfl

end

/-- The runs that a reader finds in the text of markup. -/
def runsOf? (text : List Char) : Option (List Run) :=
  (Xml.items? [] [] text).map runsIn

theorem runsOf?_childChars (runs : List Run) :
    runsOf? (childChars (runsMarkup runs)) = some (visibleRuns runs) := by
  have sound := (runsMarkup_bare runs).plain.bears.sound
  have read := Xml.items?_childChars (runsMarkup runs) sound [] [] []
  rw [List.append_nil, List.append_nil, Xml.items?_nil, List.reverse_reverse] at read
  rw [runsOf?, read, Option.map_some, runsIn_childItems]

/-- Markup tells runs apart, in whichever way they are nested and grouped. -/
theorem mathMarkup_eq_iff {first second : List Run} (kept : KeepsTexts (runTexts first))
    (kept' : KeepsTexts (runTexts second)) :
    childChars (runsMarkup first) = childChars (runsMarkup second) ↔ first = second := by
  constructor
  · intro same
    have read := congrArg runsOf? same
    rw [runsOf?_childChars, runsOf?_childChars, visibleRuns_eq first kept,
      visibleRuns_eq second kept'] at read
    exact Option.some.inj read
  · intro same
    rw [same]

/-- A radical without a degree is not written as one with an empty degree. -/
theorem mathMarkup_eq_iff_radicals :
    KeepsTexts (runTexts [.squareRoot [.text "a<b"]]) ∧
      KeepsTexts (runTexts [.root [] [.text "a<b"]]) ∧
      childChars (runsMarkup [.squareRoot [.text "a<b"]])
        ≠ childChars (runsMarkup [.root [] [.text "a<b"]]) := by
  have kept : KeepsTexts (runTexts [.squareRoot [.text "a<b"]]) := by
    intro text mem c isIn
    obtain rfl := List.mem_singleton.mp mem
    have whole : "a<b".toList.all (fun c => !Xml.isDropped c) = true := by decide
    simpa using List.all_eq_true.mp whole c isIn
  have kept' : KeepsTexts (runTexts [.root [] [.text "a<b"]]) := kept
  refine ⟨kept, kept', fun same => ?_⟩
  have runs := (mathMarkup_eq_iff kept kept').mp same
  cases runs

end WordExport
