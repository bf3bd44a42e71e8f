import WordExport.Proofs.Math.Accounting
import WordExport.Proofs.Math.Saturation

set_option autoImplicit false

namespace WordExport.Math

open Text

/-- The same sequences are open, with some tokens more before the outermost of them. -/
inductive Behind (earlier : List Token) :
    List Frame → List Token → List Frame → List Token → Prop
  | outermost (before : List Token) : Behind earlier [] before [] (before ++ earlier)
  | nested {frames frames' : List Frame} {outer outer' : List Token} (opener : Opener)
    (before : List Token) (behind : Behind earlier frames outer frames' outer') :
    Behind earlier (⟨opener, outer⟩ :: frames) before (⟨opener, outer'⟩ :: frames') before

section

variable {earlier before before' : List Token} {frames frames' : List Frame}

theorem Behind.push (behind : Behind earlier frames before frames' before') (token : Token) :
    Behind earlier frames (token :: before) frames' (token :: before') := by
  cases behind with
  | outermost => exact .outermost _
  | nested opener _ behind => exact .nested opener _ behind

/-- Tokens before the outermost sequence stay in front of all that is read later. -/
theorem scan_behind (behind : Behind earlier frames before frames' before') (cs : List Char) :
    scan frames' before' cs = earlier.reverse ++ scan frames before cs := by
  induction frames, before, cs using scan.induct generalizing frames' before' with
  | case1 frames before cs token rest found ih =>
    rw [scan_token found, scan_token found]
    exact ih (behind.push token)
  | case2 frames before cs opener rest found ih =>
    rw [scan_opener found, scan_opener found]
    exact ih (.nested opener [] behind)
  | case3 frames before cs shift content rest found _ ih =>
    rw [scan_shift found, scan_shift found]
    exact ih (behind.push _)
  | case4 before cs found frame outer ih =>
    simp only [List.unattach_reverse, List.unattach_attach] at ih
    cases behind with
    | nested opener _ behind =>
      rw [scan_boundary found, scan_boundary found]
      exact ih (behind.push _)
  | case5 before cs found token rest stray ih =>
    cases behind with
    | outermost =>
      rw [scan_stray found stray, scan_stray found stray]
      exact ih (.outermost (token :: before))
  | case6 before cs found absent =>
    cases cs with
    | nil =>
      cases behind with
      | outermost => rw [scan_end, scan_end, List.reverse_append]
    | cons c rest =>
      simp only [strayCloser?] at absent
      split at absent <;> cases absent

end

theorem Shift.attachInside_token (shift : Shift) (tokens : List Token) :
    (shift.token (attachArguments tokens)).attachInside = shift.token (attachArguments tokens) := by
  cases shift with
  | inline => rw [Shift.token, Token.attachInside, attachArguments_attachArguments]
  | display => rw [Shift.token, Token.attachInside, attachArguments_attachArguments]

/-- A shift at the head of a source is a token of its own, and neither takes part in what the rest is
read as. -/
theorem tokenize_shift {source : String} {shift : Shift} {content rest : List Char}
    (found : piece source.toList = .shift shift content rest) :
    tokenize source
      = shift.token (tokenize (String.ofList content)) :: tokenize (String.ofList rest) := by
  have read := scan_behind (@Behind.outermost [shift.token (attachArguments (scan [] [] content))] [])
    rest
  rw [List.nil_append, List.reverse_singleton, List.singleton_append] at read
  rw [tokenize, scan_shift found, read, attachArguments, Shift.attachInside_token, tokenize,
    tokenize, String.toList_ofList, String.toList_ofList]
  cases shift <;> rfl

theorem tokenize_empty : tokenize "" = [] := by
  rw [tokenize, String.toList_empty, scan_end]
  rfl

/-- Nothing but the empty source is read as no token at all. -/
theorem eq_nil_of_tokenize {cs : List Char} (none : tokenize (String.ofList cs) = []) : cs = [] := by
  have started : Pending cs [] [] [] := .outermost (.nil _)
  have written : WrittenAll [] (attachArguments (scan [] [] cs)) cs :=
    attachArguments_written _ (scan_written started)
  rw [tokenize, String.toList_ofList] at none
  rw [none] at written
  cases written
  rfl

theorem splitAtFirst_of_not_mem {mark : Char} {content : List Char} (absent : mark ∉ content)
    (rest : List Char) : splitAtFirst [mark] (content ++ mark :: rest) = some (content, rest) := by
  have first : ¬ [mark] <:+: content := fun inside => absent (inside.subset List.mem_cons_self)
  exact splitAtFirst_append List.not_mem_nil first rest

theorem shiftPiece?_cut {shift : Shift} {opening closing cs content rest : List Char}
    (cut : splitAtFirst closing cs = some (content, rest)) :
    shiftPiece? shift opening closing (opening ++ cs) = some (.shift shift content rest) := by
  have opened : opening.isPrefixOf? (opening ++ cs) = some cs :=
    List.isPrefixOf?_eq_some_iff_append_eq.mpr rfl
  simp only [shiftPiece?, opened, cut, bind, Option.bind, pure]

/-- Between dollars, with no dollar inside. Two dollars at the end are a shift with nothing in it. -/
theorem piece_dollars {content rest : List Char} (absent : '$' ∉ content)
    (apart : content = [] → rest = []) :
    piece ('$' :: (content ++ '$' :: rest)) = .shift .inline content rest := by
  have inline : shiftPiece? .inline [] ['$'] (content ++ '$' :: rest)
      = some (.shift .inline content rest) := shiftPiece?_cut (splitAtFirst_of_not_mem absent rest)
  cases content with
  | nil =>
    rw [apart rfl]
    rfl
  | cons c content =>
    have other : c ≠ '$' := fun same => absent (same ▸ List.mem_cons_self)
    have single : shiftPiece? .display ['$'] ['$', '$'] (c :: content ++ '$' :: rest) = none := by
      simp [shiftPiece?, isPrefixOf?_cons, other.symm]
    change dollarPiece _ = _
    rw [dollarPiece, single, inline]
    rfl

theorem piece_parentheses {content : List Char} (absent : ¬ ['\\', ')'] <:+: content) :
    piece ('\\' :: '(' :: (content ++ ['\\', ')'])) = .shift .inline content [] := by
  have cut : splitAtFirst ['\\', ')'] (content ++ ['\\', ')']) = some (content, []) :=
    splitAtFirst_append (by decide) absent []
  have inline : shiftPiece? .inline ['('] ['\\', ')'] ('(' :: (content ++ ['\\', ')']))
      = some (.shift .inline content []) := shiftPiece?_cut cut
  change backslashPiece _ = _
  rw [backslashPiece, inline]
  rfl

/-- A dollar with another one behind it starts a shift. An inline one ends at the first dollar. -/
theorem exists_shift_of_dollar {cs : List Char} (closed : '$' ∈ cs) :
    ∃ shift content rest, piece ('$' :: cs) = .shift shift content rest ∧
      (shift = .inline → '$' ∉ content ∧ cs = content ++ '$' :: rest) := by
  have alternatives : piece ('$' :: cs) = ((shiftPiece? .display ['$'] ['$', '$'] cs).or
      (shiftPiece? .inline [] ['$'] cs)).getD (.token (.char '$') cs) := rfl
  rw [alternatives]
  cases display : shiftPiece? .display ['$'] ['$', '$'] cs with
  | some found =>
    simp only [shiftPiece?, bind, Option.bind_eq_some_iff, pure, Option.some.injEq] at display
    obtain ⟨_, _, ⟨content, rest⟩, _, rfl⟩ := display
    refine ⟨.display, content, rest, rfl, fun same => ?_⟩
    cases same
  | none =>
    cases cut : splitAtFirst ['$'] cs with
    | none => exact absurd closed (not_mem_of_splitAtFirst_eq_none cut)
    | some parts =>
      obtain ⟨content, rest⟩ := parts
      have inline : shiftPiece? .inline [] ['$'] cs = some (.shift .inline content rest) :=
        shiftPiece?_cut cut
      have whole := eq_append_of_splitAtFirst cut
      rw [List.append_assoc] at whole
      rw [inline]
      exact ⟨.inline, content, rest, rfl, fun _ => ⟨not_mem_of_splitAtFirst cut, whole⟩⟩

theorem tokenize_dollars_of_not_mem {inside rest : String} (absent : '$' ∉ inside.toList)
    (apart : inside = "" → rest = "") :
    tokenize ("$" ++ inside ++ "$" ++ rest) = .inlineMath (tokenize inside) :: tokenize rest := by
  have written : ("$" ++ inside ++ "$" ++ rest).toList
      = '$' :: (inside.toList ++ '$' :: rest.toList) := by
    simp
  have nothing : inside.toList = [] → rest.toList = [] := fun none =>
    congrArg String.toList (apart (String.toList_inj.mp none))
  rw [tokenize_shift (written ▸ piece_dollars absent nothing), String.ofList_toList,
    String.ofList_toList]
  rfl

theorem tokenize_parentheses {content : String} (absent : ¬ "\\)".toList <:+: content.toList) :
    tokenize ("\\(" ++ content ++ "\\)") = [.inlineMath (tokenize content)] := by
  have written : ("\\(" ++ content ++ "\\)").toList
      = '\\' :: '(' :: (content.toList ++ ['\\', ')']) := by
    simp
  rw [tokenize_shift (written ▸ piece_parentheses absent), String.ofList_toList, String.ofList_nil,
    tokenize_empty]
  rfl

/-- Between two dollars, a text is read as it is alone exactly where there is no dollar in it: the
shift ends at the first dollar, and what comes then is read as if it came by itself. Between
parentheses with backslashes any text but the closing mark is read as it is alone. -/
theorem tokenize_dollars (content : String) :
    (tokenize ("$" ++ content ++ "$") = [.inlineMath (tokenize content)] ↔
      '$' ∉ content.toList) ∧
    (∀ inside rest : String, '$' ∉ inside.toList → inside ≠ "" → content = inside ++ "$" ++ rest →
      tokenize ("$" ++ content ++ "$") = .inlineMath (tokenize inside) :: tokenize (rest ++ "$")) ∧
    (¬ "\\)".toList <:+: content.toList →
      tokenize ("\\(" ++ content ++ "\\)") = [.inlineMath (tokenize content)]) := by
  refine ⟨⟨fun alone => ?_, fun absent => ?_⟩, ?_, tokenize_parentheses⟩
  · have closed : '$' ∈ content.toList ++ ['$'] := List.mem_append_right _ List.mem_cons_self
    obtain ⟨shift, inside, rest, found, first⟩ := exists_shift_of_dollar closed
    have written : ("$" ++ content ++ "$").toList = '$' :: (content.toList ++ ['$']) := by
      simp
    rw [tokenize_shift (written ▸ found)] at alone
    obtain ⟨head, tail⟩ := List.cons.inj alone
    cases shift with
    | display => cases head
    | inline =>
      -- no token comes behind the shift, so that the dollar it ends at is the last one
      obtain ⟨absent, whole⟩ := first rfl
      rw [eq_nil_of_tokenize tail] at whole
      rwa [List.append_cancel_right whole]
  · have read := tokenize_dollars_of_not_mem absent fun _ => rfl
    rwa [String.append_empty, tokenize_empty] at read
  · rintro inside rest absent some rfl
    have read := @tokenize_dollars_of_not_mem inside (rest ++ "$") absent fun none =>
      absurd none some
    simpa only [String.append_assoc] using read

theorem tokenize_dollars_escaped :
    ('$' ∉ "a\\".toList ∧ "a\\" ≠ "" ∧ "a\\$b" = "a\\" ++ "$" ++ "b") ∧
      tokenize ("$" ++ "a\\$b" ++ "$") = .inlineMath (tokenize "a\\") :: tokenize ("b" ++ "$") ∧
      ¬ "\\)".toList <:+: "a\\$b".toList ∧
      tokenize ("\\(" ++ "a\\$b" ++ "\\)") = [.inlineMath (tokenize "a\\$b")] := by
  obtain ⟨_, cut, parentheses⟩ := tokenize_dollars "a\\$b"
  have open' : ¬ "\\)".toList <:+: "a\\$b".toList := by decide
  exact ⟨by decide, cut "a\\" "b" (by decide) (by decide) (by decide), open', parentheses open'⟩

/-- Whether each dollar stands behind a backslash of its own, and no backslash at the end is without
its character. A backslash takes one character. -/
def escapesDollars : List Char → Bool
  | '\\' :: _ :: rest => escapesDollars rest
  | ['\\'] => false
  | c :: rest => c != '$' && escapesDollars rest
  | [] => true

/-- An escaped dollar between two letters ends the shift behind the first of them. -/
theorem escapedDollar_ends :
    escapesDollars "a\\$b".toList = true ∧
      tokenize "a\\$b" = [.char 'a', .command "$" [], .char 'b'] ∧
      tokenize ("$" ++ "a\\$b" ++ "$")
        = [.inlineMath [.char 'a', .char '\\'], .char 'b', .char '$'] ∧
      tokenize ("$" ++ "a\\$b" ++ "$") ≠ [.inlineMath (tokenize "a\\$b")] := by
  have alone : scan [] [] "a\\$b".toList = [.char 'a', .command "$" [], .char 'b'] :=
    (scan_token rfl).trans ((scan_token rfl).trans ((scan_token rfl).trans scan_end))
  have inside : scan [] [] "a\\".toList = [.char 'a', .char '\\'] :=
    (scan_token rfl).trans ((scan_token rfl).trans scan_end)
  have shift : scan [] [] ("$" ++ "a\\$b" ++ "$").toList
      = [.inlineMath (attachArguments (scan [] [] "a\\".toList)), .char 'b', .char '$'] :=
    (scan_shift rfl).trans ((scan_token rfl).trans ((scan_token rfl).trans scan_end))
  have read : tokenize ("$" ++ "a\\$b" ++ "$")
      = [.inlineMath [.char 'a', .char '\\'], .char 'b', .char '$'] := by
    rw [tokenize, shift, inside]
    rfl
  refine ⟨by decide, ?_, read, ?_⟩
  · rw [tokenize, alone]
    rfl
  · rw [read]
    intro same
    cases (List.cons.inj same).2

end WordExport.Math
