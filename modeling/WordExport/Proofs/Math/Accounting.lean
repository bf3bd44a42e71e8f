import Mathlib.Data.List.TakeWhile
import WordExport.Proofs.Math.Scan
import WordExport.Proofs.Math.Slots
import WordExport.Proofs.Math.Written
import WordExport.Proofs.Text.Split

set_option autoImplicit false

namespace WordExport.Math

open Text

def Opener.mark : Opener → List Char
  | group => ['{']
  | environment name => environmentBegin name

/-- What a piece takes from the head of a source. -/
def Piece.Takes (cs : List Char) (piece : Piece) : Prop :=
  match piece with
  | .token read rest => ∃ text, cs = text ++ rest ∧ Written rest read text
  | .opener opened rest => cs = opened.mark ++ rest
  | .shift kind content rest =>
    ∃ opening closing, cs = opening ++ content ++ closing ++ rest ∧ ShiftMarks kind opening closing
  | .boundary => True

theorem commentPiece_takes (rest : List Char) : (commentPiece rest).Takes ('%' :: rest) := by
  have comment (after : List Char)
      (cut : rest.dropWhile (fun c => c != '\n' && c != '\r') = after) :
      Piece.Takes ('%' :: rest) (.token
        (.comment (String.ofList (rest.takeWhile fun c => c != '\n' && c != '\r'))) after) := by
    refine ⟨_, ?_, .comment after _⟩
    rw [String.toList_ofList, List.cons_append, ← cut, List.takeWhile_append_dropWhile]
  simp only [commentPiece]
  split
  · next cut => exact comment _ cut
  · exact ⟨['%'], rfl, .char rest '%'⟩
  · exact comment _ rfl

theorem blankPiece_takes {c : Char} (rest : List Char) (blank : isBlank c = true) :
    (blankPiece (c :: rest)).Takes (c :: rest) := by
  have taken : ∀ d ∈ (c :: rest).takeWhile isBlank, isBlank d = true := fun _ =>
    List.mem_takeWhile_imp
  have present : (c :: rest).takeWhile isBlank ≠ [] := by simp [blank]
  refine ⟨(c :: rest).takeWhile isBlank, List.takeWhile_append_dropWhile.symm, ?_⟩
  split
  · next many => exact .parbreak taken many
  · next few => exact .whitespace present taken (Nat.lt_of_not_le few)

theorem environmentPiece?_takes {cs : List Char} {piece : Piece}
    (found : environmentPiece? cs = some piece) : piece.Takes ('\\' :: cs) := by
  simp only [environmentPiece?, bind, Option.bind_eq_some_iff] at found
  obtain ⟨afterBegin, head, found⟩ := found
  have begun := List.append_eq_of_isPrefixOf?_eq_some head
  split at found
  · next rest closed =>
    have named : afterBegin = afterBegin.takeWhile isNameChar ++ '}' :: rest := by
      rw [← closed, List.takeWhile_append_dropWhile]
    have opened : '\\' :: cs
        = environmentBegin (String.ofList (afterBegin.takeWhile isNameChar)) ++ rest := by
      simpa [environmentBegin, ← begun] using named
    split at found
    · cases found
    · split at found
      · cases cut : splitAtFirst (Opener.environmentEnd
          (String.ofList (afterBegin.takeWhile isNameChar))) rest with
        | none =>
          simp only [cut, Option.getD_none, Option.some.injEq] at found
          subst found
          refine ⟨_, ?_, .verbatim (.inr ⟨rfl, rfl⟩)⟩
          simp [opened]
        | some parts =>
          simp only [cut, Option.getD_some, Option.some.injEq] at found
          subst found
          refine ⟨_, ?_, .verbatim (.inl rfl)⟩
          simp [opened, eq_append_of_splitAtFirst cut]
      · cases found
        exact opened
  · cases found

theorem verbPiece?_takes {cs : List Char} {piece : Piece}
    (found : verbPiece? cs = some piece) : piece.Takes ('\\' :: cs) := by
  simp only [verbPiece?, bind, Option.bind_eq_some_iff] at found
  obtain ⟨afterName, head, found⟩ := found
  have begun := List.append_eq_of_isPrefixOf?_eq_some head
  obtain ⟨star, starred, opened⟩ : ∃ star, (star = [] ∨ star = ['*']) ∧
      afterName = star ++ (['*'].isPrefixOf? afterName).getD afterName := by
    cases found : ['*'].isPrefixOf? afterName with
    | none => exact ⟨[], .inl rfl, rfl⟩
    | some rest => exact ⟨['*'], .inr rfl, (List.append_eq_of_isPrefixOf?_eq_some found).symm⟩
  split at found
  · next mark rest marked =>
    rw [marked] at opened
    split at found
    · cases found
    · next visible =>
      cases cut : splitAtFirst [mark] rest with
      | none =>
        simp only [cut, Option.getD_none, Option.some.injEq] at found
        subst found
        refine ⟨_, ?_, .verb starred (Bool.eq_false_iff.mpr visible) ?_ (.inr ⟨rfl, rfl⟩)⟩
        · simp [← begun, opened]
        · simpa using not_mem_of_splitAtFirst_eq_none cut
      | some parts =>
        simp only [cut, Option.getD_some, Option.some.injEq] at found
        subst found
        refine ⟨_, ?_, .verb starred (Bool.eq_false_iff.mpr visible) ?_ (.inl rfl)⟩
        · simp [← begun, opened, eq_append_of_splitAtFirst cut]
        · simpa using not_mem_of_splitAtFirst cut
  · cases found

theorem shiftPiece?_takes (before : List Char) {shift : Shift} {opening closing cs : List Char}
    {piece : Piece} (marks : ShiftMarks shift (before ++ opening) closing)
    (found : shiftPiece? shift opening closing cs = some piece) :
    piece.Takes (before ++ cs) := by
  simp only [shiftPiece?, bind, Option.bind_eq_some_iff] at found
  obtain ⟨inside, head, ⟨content, rest⟩, cut, found⟩ := found
  cases found
  refine ⟨before ++ opening, closing, ?_, marks⟩
  rw [← List.append_eq_of_isPrefixOf?_eq_some head, eq_append_of_splitAtFirst cut]
  simp only [List.append_assoc]

theorem written_name (rest : List Char) (name : String) :
    Written rest (.command name []) ('\\' :: name.toList) := by
  have marked : CommandMark name ('\\' :: name.toList) := .inl rfl
  simpa only [List.append_nil] using Written.command marked (.nil rest)

theorem written_script (rest : List Char) {name : String} (script : name = "^" ∨ name = "_") :
    Written rest (.command name []) name.toList := by
  have marked : CommandMark name name.toList := .inr ⟨script, rfl⟩
  simpa only [List.append_nil] using Written.command marked (.nil rest)

theorem controlPiece_takes (cs : List Char) : (controlPiece cs).Takes ('\\' :: cs) := by
  simp only [controlPiece]
  split
  · exact ⟨['\\'], rfl, .char [] '\\'⟩
  · next c rest _ =>
    refine ⟨_, ?_, written_name rest (String.singleton c)⟩
    rw [String.toList_singleton]
    rfl
  · refine ⟨_, ?_, written_name _ _⟩
    rw [String.toList_ofList, List.cons_append, List.takeWhile_append_dropWhile]

theorem backslashPiece_takes (cs : List Char) : (backslashPiece cs).Takes ('\\' :: cs) := by
  simp only [backslashPiece]
  split
  · trivial
  · cases found : (environmentPiece? cs).or ((verbPiece? cs).or
        ((shiftPiece? .display ['['] ['\\', ']'] cs).or
          (shiftPiece? .inline ['('] ['\\', ')'] cs))) with
    | none => exact controlPiece_takes cs
    | some piece =>
      simp only [Option.or_eq_some_iff] at found
      rcases found with found | ⟨-, found | ⟨-, found | ⟨-, found⟩⟩⟩
      · exact environmentPiece?_takes found
      · exact verbPiece?_takes found
      · exact shiftPiece?_takes ['\\'] .brackets found
      · exact shiftPiece?_takes ['\\'] .parentheses found

theorem dollarPiece_takes (cs : List Char) : (dollarPiece cs).Takes ('$' :: cs) := by
  rw [dollarPiece]
  cases found : (shiftPiece? .display ['$'] ['$', '$'] cs).or (shiftPiece? .inline [] ['$'] cs) with
  | none => exact ⟨['$'], rfl, .char cs '$'⟩
  | some piece =>
    simp only [Option.or_eq_some_iff] at found
    rcases found with found | ⟨-, found⟩
    · exact shiftPiece?_takes ['$'] .dollars found
    · exact shiftPiece?_takes ['$'] .dollar found

theorem piece_takes (cs : List Char) : (piece cs).Takes cs := by
  unfold piece
  split
  · trivial
  · trivial
  · exact commentPiece_takes _
  · rfl
  · exact backslashPiece_takes _
  · exact dollarPiece_takes _
  · exact ⟨['^'], rfl, written_script _ (.inl rfl)⟩
  · exact ⟨['_'], rfl, written_script _ (.inr rfl)⟩
  · next c rest _ _ _ _ _ _ _ =>
    split
    · next blank => exact blankPiece_takes rest blank
    · exact ⟨[c], rfl, .char rest c⟩

theorem WrittenAll.append {rest first later : List Char} {tokens following : List Token}
    (written : WrittenAll (later ++ rest) tokens first) (next : WrittenAll rest following later) :
    WrittenAll rest (tokens ++ following) (first ++ later) := by
  induction tokens generalizing first with
  | nil =>
    cases written
    exact next
  | cons token tokens ih =>
    cases written with
    | cons head tail =>
      rw [List.append_assoc]
      exact .cons (by simpa only [List.append_assoc] using head) (ih tail)

theorem WrittenAll.single {rest text : List Char} {token : Token} (written : Written rest token text) :
    WrittenAll rest [token] text := by
  have first : Written ([] ++ rest) token text := written
  simpa only [List.append_nil] using WrittenAll.cons first (.nil rest)

theorem WrittenAll.split {rest text : List Char} {tokens following : List Token}
    (written : WrittenAll rest (tokens ++ following) text) :
    ∃ first later, text = first ++ later ∧ WrittenAll (later ++ rest) tokens first ∧
      WrittenAll rest following later := by
  induction tokens generalizing text with
  | nil => exact ⟨[], text, rfl, .nil _, written⟩
  | cons token tokens ih =>
    cases written with
    | cons head tail =>
      obtain ⟨first, later, rfl, tokens, following⟩ := ih tail
      refine ⟨_ ++ first, later, (List.append_assoc ..).symm, .cons ?_ tokens, following⟩
      simpa only [List.append_assoc] using head

theorem Written.char_eq {rest text : List Char} {c : Char} (written : Written rest (.char c) text) :
    text = [c] := by
  cases written
  rfl

/-- The text of tokens in brackets, and of those behind them. -/
theorem WrittenAll.bracketed {rest text : List Char} {inside after : List Token}
    (written : WrittenAll rest (.char '[' :: inside ++ .char ']' :: after) text) :
    ∃ content later, text = ['['] ++ content ++ [']'] ++ later ∧
      WrittenAll ([']'] ++ (later ++ rest)) inside content ∧ WrittenAll rest after later := by
  cases written with
  | cons opening inner =>
    obtain ⟨content, _, rfl, inner, outer⟩ := inner.split
    cases outer with
    | cons bracket following =>
      rw [bracket.char_eq] at inner
      rw [opening.char_eq, bracket.char_eq]
      exact ⟨content, _, by simp only [List.append_assoc],
        by simpa only [List.append_assoc] using inner, following⟩

/-- A slot takes the text of its argument off the text of the tokens. -/
theorem Slot.take_written {slot : Slot} {tokens remaining : List Token} {argument : Argument}
    {rest text : List Char} (found : slot.take tokens = some (argument, remaining))
    (written : WrittenAll rest tokens text) :
    ∃ first later, text = first ++ later ∧ WrittenArgument (later ++ rest) argument first ∧
      WrittenAll rest remaining later := by
  rw [← List.takeWhile_append_dropWhile (p := Token.isTrivia) (l := tokens)] at written
  obtain ⟨gap, significant, rfl, skipped, written⟩ := written.split
  have trivia : ∀ token ∈ tokens.takeWhile Token.isTrivia, token.isTrivia = true :=
    fun _ => List.mem_takeWhile_imp
  have takes := Slot.take_takes found
  generalize tokens.dropWhile Token.isTrivia = behind at takes written
  -- An argument is written after the blanks and comments that were skipped.
  have argue (opening closing : List Char) {content later : List Char} {delimiter : Delimiter}
      {inside : List Token} (cut : significant = opening ++ content ++ closing ++ later)
      (encloses : Encloses delimiter opening closing)
      (inner : WrittenAll (closing ++ (later ++ rest)) inside content)
      (following : WrittenAll rest remaining later) :
      ∃ first later, gap ++ significant = first ++ later ∧
        WrittenArgument (later ++ rest) ⟨delimiter, inside⟩ first ∧
        WrittenAll rest remaining later := by
    subst cut
    refine ⟨_, later, (List.append_assoc ..).symm, .mk ?_ trivia encloses inner, following⟩
    simpa only [List.append_assoc] using skipped
  cases takes with
  | group body =>
    cases written with
    | cons group following =>
      cases group with
      | group encloses inside => exact argue _ _ rfl encloses inside following
  | bare token =>
    cases written with
    | cons bare following =>
      exact argue [] [] (by rw [List.nil_append, List.append_nil]) .bare (.single bare) following
  | brackets inside =>
    obtain ⟨content, later, cut, inner, following⟩ := written.bracketed
    exact argue _ _ cut .brackets inner following

theorem takeArguments_written (slots : List Slot) {tokens : List Token} {rest text : List Char}
    (written : WrittenAll rest tokens text) :
    ∃ first later, text = first ++ later ∧
      WrittenArguments (later ++ rest) (takeArguments slots tokens).1 first ∧
      WrittenAll rest (takeArguments slots tokens).2 later := by
  induction slots generalizing tokens text with
  | nil => exact ⟨[], text, rfl, .nil _, written⟩
  | cons slot slots ih =>
    rw [takeArguments]
    split
    · next argument remaining found =>
      obtain ⟨first, _, rfl, head, written⟩ := Slot.take_written found written
      obtain ⟨second, later, rfl, arguments, remains⟩ := ih written
      refine ⟨first ++ second, later, (List.append_assoc ..).symm, .cons ?_ arguments, remains⟩
      simpa only [List.append_assoc] using head
    · exact ih written

theorem attachTo_written {token : Token} {tokens : List Token} {rest first later : List Char}
    (head : Written (later ++ rest) token first) (written : WrittenAll rest tokens later) :
    WrittenAll rest (attachTo tokens token) (first ++ later) := by
  unfold attachTo
  split
  · next name =>
    cases head with
    | command marked none =>
      cases none
      obtain ⟨taken, remaining, rfl, arguments, remains⟩ :=
        takeArguments_written (signature name) written
      rw [List.append_nil, ← List.append_assoc]
      exact .cons (.command marked arguments) remains
  · exact .cons head written

mutual

theorem Token.attachInside_written (token : Token) {rest text : List Char}
    (written : Written rest token text) : Written rest token.attachInside text := by
  cases token with
  | group body =>
    cases written with
    | group encloses inside => exact .group encloses (attachArguments_written body inside)
  | environment name body =>
    cases written with
    | environment closes inside => exact .environment closes (attachArguments_written body inside)
  | mathEnvironment name body =>
    cases written with
    | mathEnvironment closes inside =>
      exact .mathEnvironment closes (attachArguments_written body inside)
  | inlineMath body =>
    cases written with
    | inlineMath rest marks inside => exact .inlineMath rest marks (attachArguments_written body inside)
  | displayMath body =>
    cases written with
    | displayMath rest marks inside =>
      exact .displayMath rest marks (attachArguments_written body inside)
  | _ => exact written

theorem attachArguments_written (tokens : List Token) {rest text : List Char}
    (written : WrittenAll rest tokens text) : WrittenAll rest (attachArguments tokens) text := by
  cases tokens with
  | nil => exact written
  | cons token tokens =>
    cases written with
    | cons head tail =>
      exact attachTo_written (token.attachInside_written head) (attachArguments_written tokens tail)

end

def Opener.closer : Opener → List Char
  | group => ['}']
  | environment name => environmentEnd name

theorem Opener.token_written {opener : Opener} {body : List Token} {closing text rest : List Char}
    (closes : closing = [] ∨ closing = opener.closer)
    (written : WrittenAll (closing ++ rest) body text) :
    Written rest (opener.token body) (opener.mark ++ text ++ closing) := by
  cases opener with
  | group =>
    rcases closes with rfl | rfl
    · exact .group .openBrace written
    · exact .group .braces written
  | environment name =>
    simp only [Opener.token]
    split
    · exact .mathEnvironment closes written
    · exact .environment closes written

theorem Opener.dropCloser_takes (opener : Opener) (cs : List Char) :
    ∃ closing, cs = closing ++ opener.dropCloser cs ∧ (closing = [] ∨ closing = opener.closer) := by
  have dropped : opener.dropCloser cs = (opener.closer.isPrefixOf? cs).getD cs := by
    cases opener <;> rfl
  rw [dropped]
  cases found : opener.closer.isPrefixOf? cs with
  | none => exact ⟨[], rfl, .inl rfl⟩
  | some rest => exact ⟨_, (List.append_eq_of_isPrefixOf?_eq_some found).symm, .inr rfl⟩

/-- The text read so far: that of the tokens in all open sequences and of what opened them. -/
inductive Pending : List Char → List Frame → List Token → List Char → Prop
  | outermost {rest text : List Char} {before : List Token}
    (written : WrittenAll rest before.reverse text) : Pending rest [] before text
  | nested {rest outer inner : List Char} {frame : Frame} {frames : List Frame}
    {before : List Token}
    (pending : Pending (frame.opener.mark ++ inner ++ rest) frames frame.before outer)
    (written : WrittenAll rest before.reverse inner) :
    Pending rest (frame :: frames) before (outer ++ frame.opener.mark ++ inner)

namespace Pending

variable {rest piece text : List Char} {frames : List Frame} {before : List Token}

theorem push {token : Token} (pending : Pending (piece ++ rest) frames before text)
    (head : Written rest token piece) : Pending rest frames (token :: before) (text ++ piece) := by
  have extend {text : List Char} (written : WrittenAll (piece ++ rest) before.reverse text) :
      WrittenAll rest (token :: before).reverse (text ++ piece) := by
    rw [List.reverse_cons]
    exact written.append (.single head)
  cases pending with
  | outermost written => exact .outermost (extend written)
  | nested pending written =>
    rw [List.append_assoc]
    exact .nested (by simpa only [List.append_assoc] using pending) (extend written)

theorem opened {opener : Opener} (pending : Pending (opener.mark ++ rest) frames before text) :
    Pending rest (⟨opener, before⟩ :: frames) [] (text ++ opener.mark) := by
  have outer : Pending (opener.mark ++ [] ++ rest) frames before text := by
    rw [List.append_nil]
    exact pending
  have nested : Pending rest (⟨opener, before⟩ :: frames) [] (text ++ opener.mark ++ []) :=
    .nested outer (.nil rest)
  rwa [List.append_nil] at nested

theorem closed {frame : Frame} (pending : Pending (piece ++ rest) (frame :: frames) before text)
    (closes : piece = [] ∨ piece = frame.opener.closer) :
    Pending rest frames (frame.opener.token before.reverse :: frame.before) (text ++ piece) := by
  cases pending with
  | @nested _ outer inner _ _ _ pending written =>
    have token := frame.opener.token_written closes written
    have pushed := Pending.push (by simpa only [List.append_assoc] using pending) token
    simpa only [List.append_assoc] using pushed

end Pending

theorem strayCloser?_takes {cs rest : List Char} {token : Token}
    (found : strayCloser? cs = some (token, rest)) : Piece.Takes cs (.token token rest) := by
  cases cs with
  | nil => cases found
  | cons c tail =>
    simp only [strayCloser?] at found
    split at found
    · next after head =>
      cases found
      exact ⟨_, (List.append_eq_of_isPrefixOf?_eq_some head).symm, written_name rest "end"⟩
    · cases found
      exact ⟨[c], rfl, .char rest c⟩

/-- A scan accounts for what was read before it and for all of what is left. -/
theorem scan_written {frames : List Frame} {before : List Token} {cs text : List Char}
    (pending : Pending cs frames before text) :
    WrittenAll [] (scan frames before cs) (text ++ cs) := by
  induction frames, before, cs using scan.induct generalizing text with
  | case1 frames before cs token rest found ih =>
    have takes := piece_takes cs
    rw [found] at takes
    obtain ⟨piece, rfl, head⟩ := takes
    rw [scan_token found, ← List.append_assoc]
    exact ih (pending.push head)
  | case2 frames before cs opener rest found ih =>
    have takes := piece_takes cs
    rw [found] at takes
    subst takes
    rw [scan_opener found, ← List.append_assoc]
    exact ih pending.opened
  | case3 frames before cs shift content rest found ih ih' =>
    have takes := piece_takes cs
    rw [found] at takes
    obtain ⟨opening, closing, rfl, marks⟩ := takes
    have inside := attachArguments_written _ (ih (.outermost (.nil content)))
    have token : Written rest (shift.token (attachArguments (scan [] [] content)))
        (opening ++ content ++ closing) := by
      cases shift with
      | inline => exact .inlineMath rest marks inside
      | display => exact .displayMath rest marks inside
    rw [scan_shift found, ← List.append_assoc]
    exact ih' (pending.push token)
  | case4 before cs found frame outer ih =>
    obtain ⟨closing, cut, closes⟩ := frame.opener.dropCloser_takes cs
    rw [scan_boundary found]
    rw [cut] at pending
    simp only [List.unattach_reverse, List.unattach_attach] at ih
    have whole := ih (pending.closed closes)
    rwa [List.append_assoc, ← cut] at whole
  | case5 before cs found token rest stray ih =>
    obtain ⟨piece, rfl, head⟩ := strayCloser?_takes stray
    rw [scan_stray found stray, ← List.append_assoc]
    exact ih (pending.push head)
  | case6 before cs found absent =>
    cases cs with
    | nil =>
      rw [scan_end, List.append_nil]
      cases pending with
      | outermost written => exact written
    | cons c rest =>
      simp only [strayCloser?] at absent
      split at absent <;> cases absent

/-- The tokens of a source are written, one after another, as the whole source. -/
theorem tokenize_written (source : String) : WrittenAll [] (tokenize source) source.toList := by
  have started : Pending source.toList [] [] [] := .outermost (.nil _)
  exact attachArguments_written _ (scan_written started)

end WordExport.Math
