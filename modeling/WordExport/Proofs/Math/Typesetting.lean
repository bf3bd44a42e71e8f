import WordExport.Math.Lines
import WordExport.Proofs.Math.Attaching

set_option autoImplicit false

namespace WordExport.Math

theorem typesetAll_append (runs : List Run) (tokens following : List Token) :
    typesetAll runs (tokens ++ following) = typesetAll (typesetAll runs tokens) following := by
  induction tokens generalizing runs with
  | nil => rfl
  | cons token tokens ih => exact ih (token.typeset runs)

theorem linesFrom_append (runs : List Run) (tokens following : List Token)
    (unbroken : ∀ token ∈ tokens, token.isLineBreak = false) :
    linesFrom runs (tokens ++ following) = linesFrom (typesetAll runs tokens) following := by
  induction tokens generalizing runs with
  | nil => rfl
  | cons token tokens ih =>
    have onLine := unbroken token List.mem_cons_self
    rw [List.cons_append, linesFrom, onLine, if_neg Bool.false_ne_true, typesetAll]
    exact ih (token.typeset runs) fun token isIn => unbroken token (List.mem_cons_of_mem _ isIn)

/-- The lines are the rows between line breaks, the first one behind the given runs. -/
theorem linesFrom_splitOnP (runs : List Run) (tokens : List Token) :
    ∃ first rows, tokens.splitOnP Token.isLineBreak = first :: rows ∧
      linesFrom runs tokens = (typesetAll runs first).reverse :: rows.map typesetGroup := by
  induction tokens generalizing runs with
  | nil => exact ⟨[], [], List.splitOnP_nil, rfl⟩
  | cons token tokens ih =>
    rw [List.splitOnP_cons_eq_if_modifyHead, linesFrom]
    cases token.isLineBreak with
    | true =>
      obtain ⟨first, rows, split, lines⟩ := ih []
      refine ⟨[], first :: rows, congrArg _ split, ?_⟩
      rw [if_pos rfl, lines]
      rfl
    | false =>
      obtain ⟨first, rows, split, lines⟩ := ih (token.typeset runs)
      refine ⟨token :: first, rows, ?_, lines⟩
      rw [if_neg Bool.false_ne_true, split]
      rfl

theorem linesFrom_eq_map (tokens : List Token) :
    linesFrom [] tokens = (tokens.splitOnP Token.isLineBreak).map typesetGroup := by
  obtain ⟨first, rows, split, lines⟩ := linesFrom_splitOnP [] tokens
  rw [split, lines]
  rfl

mutual

theorem Run.unbroken (run : Run) : ∀ token ∈ run.attached, token.isLineBreak = false := by
  cases run with
  | text text => simp [Run.attached, Token.isLineBreak]
  | superscript base script =>
    simpa [Run.attached, Token.isLineBreak, or_imp, forall_and] using unbroken_all base
  | subscript base script =>
    simpa [Run.attached, Token.isLineBreak, or_imp, forall_and] using unbroken_all base
  | fraction | squareRoot | root | sum => simp [Run.attached, Token.isLineBreak]

theorem unbroken_all (runs : List Run) :
    ∀ token ∈ attachedAll runs, token.isLineBreak = false := by
  cases runs with
  | nil => exact fun _ isIn => absurd isIn List.not_mem_nil
  | cons run runs =>
    intro token isIn
    rcases List.mem_append.mp isIn with isFirst | isLater
    · exact run.unbroken token isFirst
    · exact unbroken_all runs token isLater

end

theorem symbol?_structural :
    ∀ name ∈ ["^", "_", "frac", "sqrt", "sum"], symbol? name = none := by
  decide

section

variable (runs earlier : List Run) (base : Run)

theorem applyCommand_superscript (argument : RunArgument) :
    applyCommand (base :: earlier) "^" [argument] = .superscript [base] argument.runs :: earlier := by
  rw [applyCommand, symbol?_structural "^" (by decide)]
  rfl

theorem applyCommand_subscript (argument : RunArgument) :
    applyCommand (base :: earlier) "_" [argument] = .subscript [base] argument.runs :: earlier := by
  rw [applyCommand, symbol?_structural "_" (by decide)]
  rfl

theorem applyCommand_frac (numerator denominator : List Run) :
    applyCommand runs "frac" [⟨.braces, numerator⟩, ⟨.braces, denominator⟩]
      = .fraction numerator denominator :: runs := by
  rw [applyCommand, symbol?_structural "frac" (by decide)]
  rfl

theorem applyCommand_sqrt (body : List Run) :
    applyCommand runs "sqrt" [⟨.braces, body⟩] = .squareRoot body :: runs := by
  rw [applyCommand, symbol?_structural "sqrt" (by decide)]
  rfl

theorem applyCommand_sqrt_degree (degree body : List Run) :
    applyCommand runs "sqrt" [⟨.brackets, degree⟩, ⟨.braces, body⟩] = .root degree body :: runs := by
  rw [applyCommand, symbol?_structural "sqrt" (by decide)]
  rfl

theorem applyCommand_sum : applyCommand runs "sum" [] = .sum [] :: runs := by
  rw [applyCommand, symbol?_structural "sum" (by decide)]
  rfl

end

/-- The content of an argument is typeset on its own. -/
theorem typesetArguments_cons {content : List Token} {runs : List Run}
    (typeset : typesetAll [] content = runs.reverse) (delimiter : Delimiter)
    (arguments : List Argument) :
    typesetArguments (⟨delimiter, content⟩ :: arguments)
      = ⟨delimiter, runs⟩ :: typesetArguments arguments := by
  rw [typesetArguments, typeset, List.reverse_reverse]

mutual

theorem Run.typesetAll_attached (run : Run) (normal : run.Normal) (before : List Run) :
    typesetAll before run.attached = run :: before := by
  cases run with
  | text text =>
    obtain ⟨c, -, rfl⟩ := normal
    rw [Run.attached, String.toList_singleton]
    rfl
  | superscript base script =>
    obtain ⟨single, baseNormal, scriptNormal⟩ := normal
    have based := typesetAll_attachedAll base baseNormal before
    obtain ⟨run, rfl⟩ := List.length_eq_one_iff.mp single
    rw [Run.attached, typesetAll_append, based, typesetAll, Token.typeset,
      typesetArguments_cons (typesetAll_content script scriptNormal)]
    exact applyCommand_superscript before run _
  | subscript base script =>
    obtain ⟨single, baseNormal, scriptNormal⟩ := normal
    have based := typesetAll_attachedAll base baseNormal before
    obtain ⟨run, rfl⟩ := List.length_eq_one_iff.mp single
    rw [Run.attached, typesetAll_append, based, typesetAll, Token.typeset,
      typesetArguments_cons (typesetAll_content script scriptNormal)]
    exact applyCommand_subscript before run _
  | fraction numerator denominator =>
    rw [Run.attached, typesetAll, Token.typeset,
      typesetArguments_cons (typesetAll_content numerator normal.1),
      typesetArguments_cons (typesetAll_content denominator normal.2)]
    exact applyCommand_frac before numerator denominator
  | squareRoot body =>
    rw [Run.attached, typesetAll, Token.typeset,
      typesetArguments_cons (typesetAll_content body normal)]
    exact applyCommand_sqrt before body
  | root degree body =>
    rw [Run.attached, typesetAll, Token.typeset,
      typesetArguments_cons (typesetAll_content degree normal.1),
      typesetArguments_cons (typesetAll_content body normal.2)]
    exact applyCommand_sqrt_degree before degree body
  | sum body =>
    obtain rfl := normal
    exact applyCommand_sum before

theorem typesetAll_attachedAll (runs : List Run) (normal : AllNormal runs) (before : List Run) :
    typesetAll before (attachedAll runs) = runs.reverse ++ before := by
  cases runs with
  | nil => rfl
  | cons run runs =>
    rw [attachedAll, typesetAll_append, run.typesetAll_attached normal.1,
      typesetAll_attachedAll runs normal.2, List.reverse_cons, List.append_assoc]
    rfl

theorem typesetAll_content (runs : List Run) (normal : AllNormal runs) :
    typesetAll [] (attachedAll runs) = runs.reverse := by
  rw [typesetAll_attachedAll runs normal, List.append_nil]

end

/-- The spelling of lines after a first one. -/
def spellBelow (below : List (List Run)) : List Char :=
  below.flatMap fun line => '\\' :: '\\' :: spellAll line

theorem toList_spelling (line : List Run) (below : List (List Run)) :
    (spelling (line :: below)).toList = spellAll line ++ spellBelow below := by
  rw [spelling, String.toList_intercalate, List.map_map]
  induction below generalizing line with
  | nil => simp [spellBelow]
  | cons next below ih =>
    rw [List.map_cons, List.map_cons, List.intercalate_cons_cons, ← List.map_cons, ih next]
    simp [spellBelow]

theorem spellBelow_startsInk (below : List (List Run)) : StartsInk (spellBelow below) := by
  cases below with
  | nil =>
    intro _ head
    contradiction
  | cons line below => exact .cons rfl _

theorem scan_spellBelow (below : List (List Run)) (normal : ∀ line ∈ below, AllNormal line)
    (before : List Token) :
    scan [] before (spellBelow below)
      = before.reverse ++ below.flatMap fun line => .command "\\" [] :: tokensAll line := by
  induction below generalizing before with
  | nil => exact scan_end.trans (List.append_nil _).symm
  | cons line below ih =>
    have read := (scans_all line (normal line List.mem_cons_self)).scan [] (.command "\\" [] :: before)
      (spellBelow below) (spellBelow_startsInk below)
    have broken : piece (spellBelow (line :: below))
        = .token (.command "\\" []) (spellAll line ++ spellBelow below) := rfl
    rw [scan_token broken, read, ih fun line isIn => normal line (List.mem_cons_of_mem _ isIn)]
    simp

theorem attachArguments_lines (below : List (List Run)) (normal : ∀ line ∈ below, AllNormal line) :
    Attaches (below.flatMap fun line => .command "\\" [] :: tokensAll line)
      (below.flatMap fun line => .command "\\" [] :: attachedAll line) := by
  induction below with
  | nil => exact .nil
  | cons line below ih =>
    have name : Attaches [.command "\\" []] [.command "\\" []] := by
      refine Attaches.nil.command ?_
      have noSlots : signature "\\" = [] := by decide
      rw [noSlots]
      exact fun _ => rfl
    exact (name.append (attaches_all line (normal line List.mem_cons_self))).append
      (ih fun line isIn => normal line (List.mem_cons_of_mem _ isIn))

theorem linesFrom_below (runs : List Run) (below : List (List Run))
    (normal : ∀ line ∈ below, AllNormal line) :
    linesFrom runs (below.flatMap fun line => .command "\\" [] :: attachedAll line)
      = runs.reverse :: below := by
  induction below generalizing runs with
  | nil => rfl
  | cons line below ih =>
    have typeset := typesetAll_content line (normal line List.mem_cons_self)
    rw [List.flatMap_cons, List.cons_append, linesFrom]
    change runs.reverse :: linesFrom [] (attachedAll line ++ _) = _
    rw [linesFrom_append [] _ _ (unbroken_all line), typeset,
      ih line.reverse fun line isIn => normal line (List.mem_cons_of_mem _ isIn),
      List.reverse_reverse]

/-- Normal lines are read back from their spelling. -/
theorem lines_spelling (written : List (List Run)) (nonempty : written ≠ [])
    (normal : ∀ line ∈ written, AllNormal line) : lines (spelling written) = written := by
  obtain ⟨line, below, rfl⟩ := List.exists_cons_of_ne_nil nonempty
  have first := normal line List.mem_cons_self
  have others := fun line isIn => normal line (List.mem_cons_of_mem _ isIn)
  have scanned : scan [] [] (spelling (line :: below)).toList
      = tokensAll line ++ below.flatMap fun line => .command "\\" [] :: tokensAll line := by
    rw [toList_spelling, (scans_all line first).scan [] [] _ (spellBelow_startsInk below),
      scan_spellBelow below others]
    simp
  have attached := ((attaches_all line first).append (attachArguments_lines below others)).alone
  rw [lines, tokenize, scanned, attached, linesFrom_append [] _ _ (unbroken_all line),
    typesetAll_content line first, linesFrom_below _ below others, List.reverse_reverse]

/-- A script on a sum, a radical in the degree of a radical, and a line without runs. -/
def nestedLines : List (List Run) := [
  [.superscript [.sum []] [.text "a", .subscript [.text "b"] []],
    .root [.root [.text "n"] [.sum []]] [.fraction [.text "x"] [.squareRoot [.text "y"]]]],
  []]

theorem lines_spelling_nested :
    nestedLines ≠ [] ∧ (∀ line ∈ nestedLines, AllNormal line) ∧
      spelling nestedLines
        = "\\sum ^\x7ba\x62_\x7b\x7d\x7d\\sqrt[\\sqrt[n]\x7b\\sum \x7d]" ++
          "\x7b\\frac\x7bx\x7d\x7b\\sqrt\x7by\x7d\x7d\x7d\\\\" ∧
      lines (spelling nestedLines) = nestedLines := by
  have normal : ∀ line ∈ nestedLines, AllNormal line := by
    have char (c : Char) (plain : isPlain c = true) : (Run.text (String.singleton c)).Normal :=
      ⟨c, plain, rfl⟩
    have script : AllNormal [.text "a", .subscript [.text "b"] []] :=
      ⟨char 'a' rfl, ⟨rfl, ⟨char 'b' rfl, trivial⟩, trivial⟩, trivial⟩
    have degree : AllNormal [.root [.text "n"] [.sum []]] :=
      ⟨⟨⟨char 'n' rfl, trivial⟩, rfl, trivial⟩, trivial⟩
    have body : AllNormal [.fraction [.text "x"] [.squareRoot [.text "y"]]] :=
      ⟨⟨⟨char 'x' rfl, trivial⟩, ⟨char 'y' rfl, trivial⟩, trivial⟩, trivial⟩
    intro line isLine
    simp only [nestedLines, List.mem_cons, List.not_mem_nil, or_false] at isLine
    rcases isLine with rfl | rfl
    · exact ⟨⟨rfl, ⟨rfl, trivial⟩, script⟩, ⟨degree, body⟩, trivial⟩
    · trivial
  have nonempty : nestedLines ≠ [] := List.cons_ne_nil _ _
  exact ⟨nonempty, normal, by decide, lines_spelling nestedLines nonempty normal⟩

end WordExport.Math
