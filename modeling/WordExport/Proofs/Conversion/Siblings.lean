import WordExport.Proofs.Conversion.InPlace
import WordExport.Proofs.Conversion.Success

set_option autoImplicit false

namespace WordExport

open Markdown (Node)

/-- One conversion after another, their content put together. -/
def inTurn (first second : Conversion (List Content)) : Conversion (List Content) := do
  let contents ← first
  let others ← second
  return contents ++ others

theorem inTurn_assoc (first second third : Conversion (List Content)) :
    inTurn (inTurn first second) third = inTurn first (inTurn second third) := by
  simp only [inTurn, bind_assoc, pure_bind, List.append_assoc]

theorem pure_inTurn (second : Conversion (List Content)) : inTurn (pure []) second = second := by
  simp only [inTurn, pure_bind, List.nil_append, bind_pure]

theorem inTurn_ok (earlier later : Noted (List Content)) :
    inTurn (.ok earlier) (.ok later) = .ok ⟨earlier.value ++ later.value,
      earlier.definitions ++ later.definitions, earlier.references ++ later.references⟩ :=
  Conversion.join_eq_ok.mpr ⟨earlier, later, rfl, rfl, rfl⟩

theorem convertNodes_append (context : Context) (nodes following : List Node) :
    convertNodes context (nodes ++ following)
      = inTurn (convertNodes context nodes) (convertNodes context following) := by
  induction nodes with
  | nil => exact (pure_inTurn _).symm
  | cons node nodes ih =>
    have step (nodes : List Node) : convertNodes context (node :: nodes)
        = inTurn (convertNode context node) (convertNodes context nodes) := rfl
    rw [List.cons_append, step, step, ih, inTurn_assoc]

/-- What comes of nodes and others behind them, from what comes of either alone. The first error
counts. Where both define the footnote of an identifier, the later definition stands, and where both
refer to a number, the earlier reference. -/
def Joins (first second whole : Except Error (List Content × FootnoteTables)) : Prop :=
  match first, second with
  | .error error, _ => whole = .error error
  | .ok _, .error error => whole = .error error
  | .ok (contents, tables), .ok (others, later) =>
    ∃ joined : FootnoteTables, whole = .ok (contents ++ others, joined) ∧
      IsUnion later.bodies tables.bodies joined.bodies ∧
      IsUnion tables.references later.references joined.references

namespace Joins

/-- A conversion takes nothing from what is written and met before it. -/
theorem of_behind {write : List Content → Converting (List Content)}
    {step : Conversion (List Content)} (same : ∀ written, write written = step.behind written)
    (written : List Content) (tables : FootnoteTables) :
    Joins (.ok (written, tables)) ((write []).run ∅) ((write written).run tables) := by
  rw [same, same, Conversion.behind_nil, Conversion.resume_run]
  rcases step with error | noted
  · rfl
  · exact ⟨tables.add noted.definitions noted.references, rfl,
      insertAll_isUnion tables.bodies_ascending noted.definitions,
      enterAll_isUnion tables.references_ascending noted.references⟩

/-- What goes on from wherever a conversion stops is joined to it. -/
theorem of_bind {first : Converting (List Content)}
    {next : List Content → Converting (List Content)}
    {alone : Except Error (List Content × FootnoteTables)}
    (later : ∀ written tables, Joins (.ok (written, tables)) alone ((next written).run tables)) :
    Joins (first.run ∅) alone ((first >>= next).run ∅) := by
  rw [StateT.run_bind]
  rcases first.run ∅ with error | ⟨written, tables⟩
  · rfl
  · exact later written tables

end Joins

section

variable (context : Context) (written : List Content) (following : List Node)

theorem writeNodes_append (nodes : List Node) :
    writeNodes context written (nodes ++ following)
      = writeNodes context written nodes >>= fun grown => writeNodes context grown following := by
  induction nodes generalizing written with
  | nil => simp only [List.nil_append, writeNodes, pure_bind]
  | cons node nodes ih => simp only [List.cons_append, writeNodes, ih, bind_assoc]

theorem writeItems_append (nodes : List Node) :
    writeItems context written (nodes ++ following)
      = writeItems context written nodes >>= fun grown => writeItems context grown following := by
  induction nodes generalizing written with
  | nil => simp only [List.nil_append, writeItems, pure_bind]
  | cons node nodes ih => cases node <;> simp only [List.cons_append, writeItems, ih, bind_assoc]

end

/-- Siblings become what they become alone, in a row of nodes as among the children of a list, and
whatever is written and met before them. -/
theorem converted_append (context : Context) (nodes following : List Node) :
    Joins (converted context nodes) (converted context following)
        (converted context (nodes ++ following)) ∧
      (∀ ordered start spread,
        Joins (converted context [.list ordered start spread nodes])
          (converted context [.list ordered start spread following])
          (converted context [.list ordered start spread (nodes ++ following)])) ∧
      (∀ written tables,
        Joins (.ok (written, tables)) (converted context following)
          ((writeNodes context written following).run tables)) ∧
      converted context nodes = Except.map Noted.tabled (convertNodes context nodes) := by
  have frame := Joins.of_behind fun written => writeNodes_eq context written following
  refine ⟨?_, ?_, frame, converted_eq context nodes⟩
  · unfold converted
    rw [writeNodes_append]
    exact Joins.of_bind frame
  · intro ordered start spread
    have alone (nodes : List Node) : converted context [.list ordered start spread nodes]
        = (writeItems (context.listed (ordered.getD false)) [] nodes).run ∅ := by
      simp only [converted, writeNodes, writeNode, bind_pure]
    rw [alone, alone, alone, writeItems_append]
    exact Joins.of_bind (Joins.of_behind fun written => writeItems_eq _ written following)

/-- Of two definitions the later one stands, and of two references the earlier one. -/
example :
    (converted {} [.footnoteDefinition "1" none [.thematicBreak], .footnoteReference "1a" none,
        .strong [.footnoteReference "1b" none], .footnoteDefinition "1" none []]).map
      (fun outcome => (outcome.2.bodies.map fun (identifier, body) => (identifier, body.length),
        outcome.2.references))
      = .ok ([("1", 0)], [(1, "1a")]) := rfl

end WordExport
