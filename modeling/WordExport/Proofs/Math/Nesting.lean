import WordExport.Proofs.Math.Attaching
import WordExport.Proofs.Math.Written
import WordExport.Proofs.Text.Split

set_option autoImplicit false

namespace WordExport.Math

open Text

/-- Characters that are a token each, whatever stands around them. -/
def isOrdinary (c : Char) : Bool :=
  !("\\\x7b\x7d$%^_ \t\r\n".toList.contains c)

/-- The names of environments whose content is read. -/
structure IsEnvironmentName (name : String) : Prop where
  nonempty : name ≠ ""
  chars : ∀ c ∈ name.toList, isNameChar c = true
  read : name ∉ verbatimNames

mutual

/-- Trees of groups and environments over ordinary characters and verbatim texts. -/
def Token.WellNested : Token → Prop
  | .char c => isOrdinary c = true
  | .group body => AllWellNested body
  | .environment name body => IsEnvironmentName name ∧ name ∉ mathNames ∧ AllWellNested body
  | .mathEnvironment name body => IsEnvironmentName name ∧ name ∈ mathNames ∧ AllWellNested body
  | .verbatim name content =>
    name ∈ verbatimNames ∧ ¬ Opener.environmentEnd name <:+: content.toList
  | _ => False

def AllWellNested : List Token → Prop
  | [] => True
  | token :: tokens => token.WellNested ∧ AllWellNested tokens

end

mutual

/-- The source of a tree. -/
def Token.source : Token → List Char
  | .char c => [c]
  | .group body => braced (sourceAll body)
  | .environment name body | .mathEnvironment name body =>
    environmentBegin name ++ sourceAll body ++ Opener.environmentEnd name
  | .verbatim name content =>
    environmentBegin name ++ content.toList ++ Opener.environmentEnd name
  | _ => []

def sourceAll : List Token → List Char
  | [] => []
  | token :: tokens => token.source ++ sourceAll tokens

end

theorem piece_ordinary {c : Char} (ordinary : isOrdinary c = true) (rest : List Char) :
    piece (c :: rest) = .token (.char c) rest ∧ isBlank c = false := by
  have special : c ≠ '\\' ∧ c ≠ '{' ∧ c ≠ '}' ∧ c ≠ '$' ∧ c ≠ '%' ∧ c ≠ '^' ∧ c ≠ '_' ∧
      c ≠ ' ' ∧ c ≠ '\t' ∧ c ≠ '\r' ∧ c ≠ '\n' := by
    simpa [isOrdinary] using ordinary
  have ink : isBlank c = false := by simp [isBlank, special]
  refine ⟨?_, ink⟩
  unfold piece
  split <;> simp_all

section

variable {name : String} (rest : List Char)

theorem environmentPiece?_begin (nonempty : name ≠ "")
    (chars : ∀ c ∈ name.toList, isNameChar c = true) :
    environmentPiece? ("begin\x7b".toList ++ (name.toList ++ '}' :: rest))
      = if verbatimNames.contains name then
          let (content, after) := (splitAtFirst (Opener.environmentEnd name) rest).getD (rest, [])
          some (.token (.verbatim name (String.ofList content)) after)
        else some (.opener (.environment name) rest) := by
  have begun : "begin\x7b".toList.isPrefixOf? ("begin\x7b".toList ++ (name.toList ++ '}' :: rest))
      = some (name.toList ++ '}' :: rest) :=
    List.isPrefixOf?_eq_some_iff_append_eq.mpr rfl
  have taken : (name.toList ++ '}' :: rest).takeWhile isNameChar = name.toList := by
    rw [List.takeWhile_append_of_pos chars, List.takeWhile_cons_of_neg (by decide), List.append_nil]
  have left : (name.toList ++ '}' :: rest).dropWhile isNameChar = '}' :: rest := by
    rw [List.dropWhile_append_of_pos chars, List.dropWhile_cons_of_neg (by decide)]
  have present : name.isEmpty = false :=
    Bool.eq_false_iff.mpr fun empty => nonempty (String.isEmpty_iff.mp empty)
  simp only [environmentPiece?, begun, Option.bind_eq_bind, Option.bind_some, taken, left,
    String.ofList_toList, present]
  rfl

/-- What an environment makes of the source behind its name is the piece at its start. -/
theorem piece_environmentBegin {found : Piece}
    (isFound : environmentPiece? ("begin\x7b".toList ++ (name.toList ++ '}' :: rest)) = some found) :
    piece (environmentBegin name ++ rest) = found := by
  have start : environmentBegin name ++ rest
      = '\\' :: ("begin\x7b".toList ++ (name.toList ++ '}' :: rest)) := by
    simp only [environmentBegin, List.append_assoc, List.cons_append, List.nil_append]
  have notEnd : "end\x7b".toList.isPrefixOf ("begin\x7b".toList ++ (name.toList ++ '}' :: rest))
      = false := rfl
  rw [start]
  change backslashPiece _ = found
  rw [backslashPiece, notEnd, isFound]
  rfl

theorem piece_environment (named : IsEnvironmentName name) :
    piece (environmentBegin name ++ rest) = .opener (.environment name) rest := by
  apply piece_environmentBegin
  rw [environmentPiece?_begin rest named.nonempty named.chars, if_neg]
  simpa using named.read

theorem verbatimNames_named :
    ∀ name ∈ verbatimNames, name ≠ "" ∧ ∀ c ∈ name.toList, isNameChar c = true := by
  simp only [← List.all_eq_true]
  decide

theorem backslash_not_mem (chars : ∀ c ∈ name.toList, isNameChar c = true) :
    '\\' ∉ "end\x7b".toList ++ name.toList ++ ['}'] := by
  intro isIn
  rcases List.mem_append.mp isIn with isIn | isIn
  · rcases List.mem_append.mp isIn with isIn | isIn
    · revert isIn; decide
    · exact absurd (chars _ isIn) (by decide)
  · revert isIn; decide

theorem piece_verbatim (verbatim : name ∈ verbatimNames) {content : List Char}
    (absent : ¬ Opener.environmentEnd name <:+: content) :
    piece (environmentBegin name ++ (content ++ (Opener.environmentEnd name ++ rest)))
      = .token (.verbatim name (String.ofList content)) rest := by
  obtain ⟨nonempty, chars⟩ := verbatimNames_named name verbatim
  have cut : splitAtFirst (Opener.environmentEnd name)
      (content ++ (Opener.environmentEnd name ++ rest)) = some (content, rest) :=
    splitAtFirst_append (backslash_not_mem chars) absent rest
  apply piece_environmentBegin
  rw [environmentPiece?_begin _ nonempty chars, if_pos (by simpa using verbatim), cut]
  rfl

end

theorem dropCloser_environmentEnd (name : String) (rest : List Char) :
    (Opener.environment name).dropCloser (Opener.environmentEnd name ++ rest) = rest := by
  have closed : (Opener.environmentEnd name).isPrefixOf? (Opener.environmentEnd name ++ rest)
      = some rest := List.isPrefixOf?_eq_some_iff_append_eq.mpr rfl
  simp only [Opener.dropCloser, closed, Option.getD_some]

namespace Scans

theorem environment {name : String} (named : IsEnvironmentName name) {cs : List Char}
    {tokens : List Token} (inside : Scans cs tokens) :
    Scans (environmentBegin name ++ cs ++ Opener.environmentEnd name)
      [(Opener.environment name).token tokens] := by
  constructor
  · intro rest _
    exact .cons rfl _
  · intro frames before rest _
    have ended : StartsInk (Opener.environmentEnd name ++ rest) := .cons rfl _
    rw [List.append_assoc, List.append_assoc, scan_opener (piece_environment _ named),
      inside.scan _ _ _ ended, scan_boundary rfl, dropCloser_environmentEnd, List.append_nil,
      List.reverse_reverse]
    rfl

theorem verbatim {name content : String} (isVerbatim : name ∈ verbatimNames)
    (absent : ¬ Opener.environmentEnd name <:+: content.toList) :
    Scans (environmentBegin name ++ content.toList ++ Opener.environmentEnd name)
      [.verbatim name content] := by
  constructor
  · intro rest _
    exact .cons rfl _
  · intro frames before rest _
    rw [List.append_assoc, List.append_assoc, scan_token (piece_verbatim rest isVerbatim absent),
      String.ofList_toList]
    rfl

end Scans

mutual

theorem Token.scans_source (token : Token) (nested : token.WellNested) :
    Scans token.source [token] := by
  cases token with
  | char c => exact .char (piece_ordinary nested []).2 fun rest => (piece_ordinary nested rest).1
  | group body => exact (scans_sourceAll body nested).braced
  | environment name body =>
    obtain ⟨named, other, inside⟩ := nested
    have read := Scans.environment named (scans_sourceAll body inside)
    rwa [Opener.token, if_neg (by simpa using other)] at read
  | mathEnvironment name body =>
    obtain ⟨named, math, inside⟩ := nested
    have read := Scans.environment named (scans_sourceAll body inside)
    rwa [Opener.token, if_pos (by simpa using math)] at read
  | verbatim name content => exact .verbatim nested.1 nested.2
  | _ => exact nested.elim

theorem scans_sourceAll (tokens : List Token) (nested : AllWellNested tokens) :
    Scans (sourceAll tokens) tokens := by
  cases tokens with
  | nil => exact .nil
  | cons token tokens =>
    exact (token.scans_source nested.1).append (scans_sourceAll tokens nested.2)

end

mutual

/-- Trees hold no command, and so attach no arguments. -/
theorem Token.attaches_self (token : Token) (nested : token.WellNested) :
    Attaches [token] [token] := by
  cases token with
  | char c => exact .char c
  | group body => exact (attaches_self_all body nested).group
  | environment name body =>
    intro rest
    change .environment name (attachArguments body) :: attachArguments rest = _
    rw [(attaches_self_all body nested.2.2).alone]
    rfl
  | mathEnvironment name body =>
    intro rest
    change .mathEnvironment name (attachArguments body) :: attachArguments rest = _
    rw [(attaches_self_all body nested.2.2).alone]
    rfl
  | verbatim name content => exact fun _ => rfl
  | _ => exact nested.elim

theorem attaches_self_all (tokens : List Token) (nested : AllWellNested tokens) :
    Attaches tokens tokens := by
  cases tokens with
  | nil => exact .nil
  | cons token tokens =>
    exact (token.attaches_self nested.1).append (attaches_self_all tokens nested.2)

end

theorem scan_intercalate (rows : List (List Token)) (nested : ∀ row ∈ rows, AllWellNested row)
    (before : List Token) :
    scan [] before (['}'].intercalate (rows.map sourceAll))
      = before.reverse ++ [.char '}'].intercalate rows := by
  induction rows generalizing before with
  | nil => exact scan_end.trans (List.append_nil _).symm
  | cons row rows ih =>
    have read := scans_sourceAll row (nested row List.mem_cons_self)
    have others := fun row isIn => nested row (List.mem_cons_of_mem _ isIn)
    cases rows with
    | nil =>
      have alone := read.scan [] before [] nofun
      rw [List.append_nil] at alone
      simp only [List.map_cons, List.map_nil, List.intercalate_singleton]
      rw [alone, scan_end, List.reverse_append, List.reverse_reverse]
    | cons next rows =>
      have stray (cs : List Char) (tokens : List Token) :
          scan [] tokens ('}' :: cs) = scan [] (.char '}' :: tokens) cs := scan_stray rfl rfl
      have brace (cs : List Char) : StartsInk ('}' :: cs) := .cons rfl cs
      rw [List.map_cons, List.map_cons, List.intercalate_cons_cons, List.intercalate_cons_cons,
        ← List.map_cons, List.append_assoc, List.singleton_append, read.scan [] before _ (brace _),
        stray, ih others]
      simp

theorem attaches_intercalate (rows : List (List Token)) (nested : ∀ row ∈ rows, AllWellNested row) :
    Attaches ([.char '}'].intercalate rows) ([.char '}'].intercalate rows) := by
  induction rows with
  | nil => exact .nil
  | cons row rows ih =>
    have first := attaches_self_all row (nested row List.mem_cons_self)
    have others := fun row isIn => nested row (List.mem_cons_of_mem _ isIn)
    cases rows with
    | nil => simpa only [List.intercalate_singleton] using first
    | cons next rows =>
      rw [List.intercalate_cons_cons]
      exact (first.append (.char '}')).append (ih others)

/-- Trees are read back from their source, and each closing brace between two sources is a
character between the trees. -/
theorem tokenize_sources (rows : List (List Token)) (nested : ∀ row ∈ rows, AllWellNested row) :
    tokenize (String.ofList (['}'].intercalate (rows.map sourceAll)))
      = [.char '}'].intercalate rows := by
  rw [tokenize, String.toList_ofList, scan_intercalate rows nested, List.reverse_nil,
    List.nil_append, (attaches_intercalate rows nested).alone]

/-- An environment inside one of its own name, a verbatim text that holds closing marks of other
sequences, and a row without trees. -/
def nestedRows : List (List Token) := [
  [.environment "a" [.environment "a" [.char 'x', .group []], .mathEnvironment "cases" [.char ']']]],
  [],
  [.group [.verbatim "verbatim*" "\x7d \\end\x7bverbatim\x7d", .char '*']]]

theorem tokenize_sources_nestedRows :
    (∀ row ∈ nestedRows, AllWellNested row) ∧
      String.ofList (['}'].intercalate (nestedRows.map sourceAll))
        = "\\begin\x7ba\x7d\\begin\x7ba\x7dx\x7b\x7d\\end\x7ba\x7d" ++
          "\\begin\x7bcases\x7d]\\end\x7bcases\x7d\\end\x7ba\x7d" ++ "\x7d\x7d" ++
          "\x7b\\begin\x7bverbatim*\x7d\x7d \\end\x7bverbatim\x7d\\end\x7bverbatim*\x7d*\x7d" ∧
      tokenize (String.ofList (['}'].intercalate (nestedRows.map sourceAll)))
        = [.char '}'].intercalate nestedRows := by
  have letter : IsEnvironmentName "a" := ⟨by decide, List.all_eq_true.mp rfl, by decide⟩
  have mathName : IsEnvironmentName "cases" := ⟨by decide, List.all_eq_true.mp rfl, by decide⟩
  have inner : (Token.environment "a" [.char 'x', .group []]).WellNested :=
    ⟨letter, by decide, rfl, trivial, trivial⟩
  have math : (Token.mathEnvironment "cases" [.char ']']).WellNested :=
    ⟨mathName, by decide, rfl, trivial⟩
  have starred : '*' ∈ Opener.environmentEnd "verbatim*" := by decide
  have verbatim : (Token.verbatim "verbatim*" "\x7d \\end\x7bverbatim\x7d").WellNested :=
    ⟨by decide, fun inside => absurd (inside.subset starred) (by decide)⟩
  have nested : ∀ row ∈ nestedRows, AllWellNested row := by
    intro row isRow
    simp only [nestedRows, List.mem_cons, List.not_mem_nil, or_false] at isRow
    rcases isRow with rfl | rfl | rfl
    · exact ⟨⟨letter, by decide, inner, math, trivial⟩, trivial⟩
    · trivial
    · exact ⟨⟨verbatim, rfl, trivial⟩, trivial⟩
  exact ⟨nested, by decide, tokenize_sources nestedRows nested⟩

end WordExport.Math
