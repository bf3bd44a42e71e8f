import WordExport.Proofs.Math.Scripts

set_option autoImplicit false

namespace WordExport.Math

/-- Line breaks cut tokens into one row more than there are of them. -/
theorem length_rows (tokens : List Token) :
    (tokens.splitOnP Token.isLineBreak).length = tokens.countP Token.isLineBreak + 1 := by
  induction tokens with
  | nil => rfl
  | cons token tokens ih =>
    rw [List.splitOnP_cons_eq_if_modifyHead, List.countP_cons]
    cases token.isLineBreak with
    | true =>
      rw [if_pos rfl, if_pos rfl, List.length_cons, ih]
    | false =>
      rw [if_neg Bool.false_ne_true, if_neg Bool.false_ne_true, List.length_modifyHead, ih,
        Nat.add_zero]

/-- A group is set as its content is, and so is a row of a line. -/
theorem typesetGroup_group (row : List Token) : typesetGroup [.group row] = typesetGroup row :=
  congrArg List.reverse (List.append_nil _)

theorem linesFrom_cut {lineBreak : Token} (breaks : lineBreak.isLineBreak = true)
    (before after : List Token) :
    linesFrom [] (before ++ lineBreak :: after) = linesFrom [] before ++ linesFrom [] after := by
  simp only [linesFrom_eq_map, List.splitOnP_append_cons before after breaks, List.map_append]

/-- A token that adds nothing to a line on which there is no run yet. -/
def Token.IsIdle (token : Token) : Prop :=
  token.inks = false ∧ token.isLineBreak = false

/-- Script markers need a run to stand on. -/
theorem Token.isIdle_of_isMarker {token : Token} (marks : token.isMarker = true) :
    token.IsIdle := by
  cases token with
  | command name arguments =>
    simp only [Token.isMarker, isMarkerName, Bool.or_eq_true, beq_iff_eq] at marks
    rcases marks with rfl | rfl <;> exact ⟨rfl, rfl⟩
  | _ => cases marks

theorem typesetAll_idle {opening : List Token} (idle : ∀ token ∈ opening, token.IsIdle) :
    typesetAll [] opening = [] := by
  induction opening with
  | nil => rfl
  | cons token opening ih =>
    have first := idle token List.mem_cons_self
    rw [typesetAll, (token.typeset_eq_nil_iff []).mpr ⟨rfl, first.1⟩]
    exact ih fun token isIn => idle token (List.mem_cons_of_mem _ isIn)

theorem linesFrom_idle {opening : List Token} (idle : ∀ token ∈ opening, token.IsIdle)
    (after : List Token) : linesFrom [] (opening ++ after) = linesFrom [] after := by
  rw [linesFrom_append [] opening after fun token isIn => (idle token isIn).2, typesetAll_idle idle]

/-- Lines are set row by row, as groups of the rows are. Behind a line break everything begins anew:
script markers, and all else that needs a run to stand on, find none on the lines before. -/
theorem lines_rows (source : String) :
    lines source = ((tokenize source).splitOnP Token.isLineBreak).map typesetGroup ∧
      (∀ row, typesetGroup [.group row] = typesetGroup row) ∧
      (lines source).length = (tokenize source).countP Token.isLineBreak + 1 ∧
      (∀ token : Token, token.isMarker = true → token.IsIdle) ∧
      ∀ before lineBreak opening after,
        tokenize source = before ++ lineBreak :: (opening ++ after) →
        lineBreak.isLineBreak = true → (∀ token ∈ opening, token.IsIdle) →
        lines source = linesFrom [] before ++ linesFrom [] after := by
  have rows : lines source = ((tokenize source).splitOnP Token.isLineBreak).map typesetGroup :=
    linesFrom_eq_map (tokenize source)
  refine ⟨rows, typesetGroup_group, ?_, fun _ => Token.isIdle_of_isMarker, ?_⟩
  · rw [rows, List.length_map, length_rows]
  · intro before lineBreak opening after cut breaks idle
    rw [lines, cut, linesFrom_cut breaks, linesFrom_idle idle]

/-- A square behind a line break has no base, though the line before ends in a letter. -/
theorem lines_rows_baseless :
    tokenize "a\\\\^2b" = [.char 'a'] ++ .command "\\" []
        :: ([.command "^" [⟨.bare, [.char '2']⟩]] ++ [.char 'b']) ∧
      (Token.command "\\" []).isLineBreak = true ∧
      (∀ token ∈ [Token.command "^" [⟨.bare, [.char '2']⟩]], token.IsIdle) ∧
      lines "a\\\\^2b" = [[.text "a"], [.text "b"]] := by
  have scanned : scan [] [] "a\\\\^2b".toList
      = [.char 'a', .command "\\" [], .command "^" [], .char '2', .char 'b'] :=
    (scan_token rfl).trans ((scan_token rfl).trans ((scan_token rfl).trans ((scan_token rfl).trans
      ((scan_token rfl).trans scan_end))))
  have cut : tokenize "a\\\\^2b" = [.char 'a'] ++ .command "\\" []
      :: ([.command "^" [⟨.bare, [.char '2']⟩]] ++ [.char 'b']) := by
    rw [tokenize, scanned]
    rfl
  have breaks : (Token.command "\\" []).isLineBreak = true := rfl
  have idle : ∀ token ∈ [Token.command "^" [⟨.bare, [.char '2']⟩]], token.IsIdle :=
    List.forall_mem_singleton.mpr ⟨rfl, rfl⟩
  exact ⟨cut, breaks, idle, (lines_rows "a\\\\^2b").2.2.2.2 _ _ _ _ cut breaks idle⟩

end WordExport.Math
