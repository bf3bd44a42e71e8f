import WordExport.Proofs.Math.Accounting
import WordExport.Proofs.Math.Typesetting

set_option autoImplicit false

namespace WordExport.Math

mutual

/-- The number of scripts in a run, at any depth. -/
def Run.scripts : Run → Nat
  | .text _ => 0
  | .superscript base script | .subscript base script => 1 + scriptsIn base + scriptsIn script
  | .fraction numerator denominator => scriptsIn numerator + scriptsIn denominator
  | .squareRoot body | .sum body => scriptsIn body
  | .root degree body => scriptsIn degree + scriptsIn body

def scriptsIn : List Run → Nat
  | [] => 0
  | run :: runs => run.scripts + scriptsIn runs

end

theorem scriptsIn_append (runs following : List Run) :
    scriptsIn (runs ++ following) = scriptsIn runs + scriptsIn following := by
  induction runs with
  | nil => exact (Nat.zero_add _).symm
  | cons run runs ih => rw [List.cons_append, scriptsIn, scriptsIn, ih, Nat.add_assoc]

theorem scriptsIn_reverse (runs : List Run) : scriptsIn runs.reverse = scriptsIn runs := by
  induction runs with
  | nil => rfl
  | cons run runs ih =>
    rw [List.reverse_cons, scriptsIn_append, ih, scriptsIn, scriptsIn, scriptsIn, Nat.add_zero,
      Nat.add_comm]

def scriptsInArguments : List RunArgument → Nat
  | [] => 0
  | ⟨_, runs⟩ :: arguments => scriptsIn runs + scriptsInArguments arguments

/-- The characters that mark a script. -/
def isScriptMark (c : Char) : Bool :=
  c == '^' || c == '_'

/-- Whether each marker stands behind a backslash of its own. A backslash takes one character. -/
def escapesMarkers : List Char → Bool
  | '\\' :: _ :: rest => escapesMarkers rest
  | c :: rest => !isScriptMark c && escapesMarkers rest
  | [] => true

def isMarkerName (name : String) : Bool :=
  name == "^" || name == "_"

def Token.isMarker : Token → Bool
  | .command name _ => isMarkerName name
  | _ => false

mutual

/-- The number of markers in a token, at any depth. -/
def Token.markers : Token → Nat
  | .command name arguments => (isMarkerName name).toNat + markersInArguments arguments
  | .group body | .inlineMath body | .displayMath body | .environment _ body
  | .mathEnvironment _ body => markersIn body
  | _ => 0

def markersIn : List Token → Nat
  | [] => 0
  | token :: tokens => token.markers + markersIn tokens

def markersInArguments : List Argument → Nat
  | [] => 0
  | ⟨_, content⟩ :: arguments => markersIn content + markersInArguments arguments

end

/-- Whether a command sets its arguments, by what these stand between. -/
def setsArguments (name : String) (delimiters : List Delimiter) : Bool :=
  if ["frac", "tfrac", "dfrac"].contains name then delimiters == [.braces, .braces]
  else name == "sqrt" && (delimiters == [.braces] || delimiters == [.brackets, .braces])

theorem symbol?_names :
    ∀ name ∈ ["^", "_", "\\", "newline", "frac", "tfrac", "dfrac", "sqrt"],
      symbol? name = none := by
  decide

theorem scripts_fraction (name : String) (arguments : List RunArgument) :
    (match arguments with
      | [⟨.braces, numerator⟩, ⟨.braces, denominator⟩] => Run.fraction numerator denominator
      | _ => .text name).scripts
      = if arguments.map RunArgument.delimiter == [.braces, .braces]
        then scriptsInArguments arguments else 0 := by
  match arguments with
  | [] => rfl
  | [⟨first, _⟩] => cases first <;> rfl
  | [⟨first, _⟩, ⟨second, _⟩] | ⟨first, _⟩ :: ⟨second, _⟩ :: _ :: _ =>
    cases first <;> cases second <;> rfl

theorem scripts_radical (name : String) (arguments : List RunArgument) :
    (match arguments with
      | [⟨.braces, body⟩] => Run.squareRoot body
      | [⟨.brackets, degree⟩, ⟨.braces, body⟩] => .root degree body
      | _ => .text name).scripts
      = if arguments.map RunArgument.delimiter == [.braces]
          || arguments.map RunArgument.delimiter == [.brackets, .braces]
        then scriptsInArguments arguments else 0 := by
  match arguments with
  | [] => rfl
  | [⟨first, _⟩] => cases first <;> rfl
  | [⟨first, _⟩, ⟨second, _⟩] | ⟨first, _⟩ :: ⟨second, _⟩ :: _ :: _ =>
    cases first <;> cases second <;> rfl

theorem scripts_ofCommand (name : String) (arguments : List RunArgument) :
    (Run.ofCommand name arguments).scripts
      = if setsArguments name (arguments.map RunArgument.delimiter) then scriptsInArguments arguments
        else 0 := by
  unfold Run.ofCommand setsArguments
  split
  · next sum =>
    rw [beq_iff_eq.mp sum]
    rfl
  · split
    · exact scripts_fraction name arguments
    · cases name == "sqrt" with
      | true => exact scripts_radical name arguments
      | false => rfl

section

variable {name : String} (arguments : List RunArgument) (runs : List Run)

theorem symbol?_of_isMarkerName (marks : isMarkerName name = true) : symbol? name = none := by
  simp only [isMarkerName, Bool.or_eq_true, beq_iff_eq] at marks
  rcases marks with rfl | rfl
  · exact symbol?_names "^" (by decide)
  · exact symbol?_names "_" (by decide)

theorem applyCommand_marker (marks : isMarkerName name = true) :
    applyCommand runs name arguments = applyScript .superscript arguments runs ∨
      applyCommand runs name arguments = applyScript .subscript arguments runs := by
  rw [applyCommand, symbol?_of_isMarkerName marks]
  simp only [isMarkerName, Bool.or_eq_true, beq_iff_eq] at marks
  rcases marks with rfl | rfl
  · exact .inl rfl
  · exact .inr rfl

/-- A marker makes one script, of the run before it and of its argument. -/
theorem scriptsIn_marker (marks : isMarkerName name = true) (base : Run) (earlier : List Run) :
    scriptsIn (applyCommand (base :: earlier) name arguments)
      = 1 + scriptsIn ((arguments.head?.map RunArgument.runs).getD [])
        + scriptsIn (base :: earlier) := by
  rcases applyCommand_marker arguments (base :: earlier) marks with set | set <;>
    rw [set, applyScript, scriptsIn, Run.scripts, scriptsIn, scriptsIn, scriptsIn] <;> omega

theorem applyCommand_marker_nil (marks : isMarkerName name = true) :
    applyCommand [] name arguments = [] := by
  rcases applyCommand_marker arguments [] marks with set | set <;> exact set

theorem symbol?_of_setsArguments {delimiters : List Delimiter}
    (sets : setsArguments name delimiters = true) : symbol? name = none := by
  simp only [setsArguments] at sets
  split at sets
  · next fraction =>
    apply symbol?_names
    simp only [List.contains_eq_mem, decide_eq_true_eq] at fraction
    simp only [List.mem_cons] at fraction ⊢
    tauto
  · rw [Bool.and_eq_true] at sets
    rw [beq_iff_eq.mp sets.1]
    exact symbol?_names "sqrt" (by decide)

theorem setsArguments_of_isMarkerName (marks : isMarkerName name = true)
    (delimiters : List Delimiter) : setsArguments name delimiters = false := by
  simp only [isMarkerName, Bool.or_eq_true, beq_iff_eq] at marks
  rcases marks with rfl | rfl <;> rfl

/-- Whether a command writes a run whatever stands before it. -/
def inksAlone (name : String) : Bool :=
  !isMarkerName name && !(name == "\\" || name == "newline")

/-- What a command that is no marker adds: a run, whose scripts are those of the arguments that the
command sets, or nothing where it breaks the line. -/
theorem applyCommand_other (other : isMarkerName name = false) :
    (inksAlone name = true ∧ ∃ run, applyCommand runs name arguments = run :: runs ∧
      run.scripts = if setsArguments name (arguments.map RunArgument.delimiter)
        then scriptsInArguments arguments else 0) ∨
    (inksAlone name = false ∧ applyCommand runs name arguments = runs ∧
      setsArguments name (arguments.map RunArgument.delimiter) = false) := by
  have unmarked : (name == "^") = false ∧ (name == "_") = false := by
    simpa only [isMarkerName, Bool.or_eq_false_iff] using other
  unfold inksAlone applyCommand
  rw [other, unmarked.1, unmarked.2]
  cases breaks : name == "\\" || name == "newline" with
  | true =>
    refine .inr ⟨rfl, ?_⟩
    rw [Bool.or_eq_true, beq_iff_eq, beq_iff_eq] at breaks
    rcases breaks with rfl | rfl
    · rw [symbol?_names "\\" (by decide)]
      exact ⟨rfl, rfl⟩
    · rw [symbol?_names "newline" (by decide)]
      exact ⟨rfl, rfl⟩
  | false =>
    refine .inl ⟨rfl, ?_⟩
    cases symbol : symbol? name with
    | some c =>
      refine ⟨_, rfl, ?_⟩
      cases sets : setsArguments name (arguments.map RunArgument.delimiter) with
      | true => cases symbol.symm.trans (symbol?_of_setsArguments sets)
      | false => rfl
    | none => exact ⟨_, rfl, scripts_ofCommand name arguments⟩

theorem applyCommand_eq_nil_iff :
    applyCommand runs name arguments = [] ↔ runs = [] ∧ inksAlone name = false := by
  cases marks : isMarkerName name with
  | true =>
    have alone : inksAlone name = false := by rw [inksAlone, marks]; rfl
    cases runs with
    | nil => simp [applyCommand_marker_nil arguments marks, alone]
    | cons base earlier =>
      rcases applyCommand_marker arguments (base :: earlier) marks with set | set <;>
        simp [set, applyScript]
  | false =>
    rcases applyCommand_other arguments runs marks with
      ⟨inks, run, added, -⟩ | ⟨breaks, kept, -⟩
    · simp [added, inks]
    · simp [kept, breaks]

end

theorem typesetArguments_delimiters (arguments : List Argument) :
    (typesetArguments arguments).map RunArgument.delimiter = arguments.map Argument.delimiter := by
  induction arguments with
  | nil => rfl
  | cons argument arguments ih =>
    obtain ⟨delimiter, content⟩ := argument
    rw [typesetArguments, List.map_cons, ih]
    rfl

theorem scriptsIn_head_le (arguments : List RunArgument) :
    scriptsIn ((arguments.head?.map RunArgument.runs).getD []) ≤ scriptsInArguments arguments := by
  cases arguments with
  | nil => exact Nat.le_refl 0
  | cons argument arguments => exact Nat.le_add_right _ _

mutual

theorem Token.scripts_typeset_le (token : Token) (runs : List Run) :
    scriptsIn (token.typeset runs) ≤ scriptsIn runs + token.markers := by
  cases token with
  | char c =>
    rw [Token.typeset, scriptsIn, Run.scripts]
    omega
  | command name arguments =>
    have set := scripts_typesetArguments_le arguments
    rw [Token.typeset, Token.markers]
    cases marks : isMarkerName name with
    | true =>
      have first := scriptsIn_head_le (typesetArguments arguments)
      cases runs with
      | nil =>
        rw [applyCommand_marker_nil _ marks]
        exact Nat.zero_le _
      | cons base earlier =>
        rw [scriptsIn_marker _ marks, Bool.toNat_true]
        omega
    | false =>
      rcases applyCommand_other (typesetArguments arguments) runs marks with
        ⟨-, run, added, scripts⟩ | ⟨-, kept, -⟩
      · rw [added, scriptsIn, scripts]
        split <;> omega
      · rw [kept]
        exact Nat.le_add_right _ _
  | group body =>
    have inside := scripts_typesetAll_le body []
    rw [Token.typeset, scriptsIn_append, Token.markers]
    rw [scriptsIn] at inside
    omega
  | _ => exact Nat.le_add_right _ _

theorem scripts_typesetAll_le (tokens : List Token) (runs : List Run) :
    scriptsIn (typesetAll runs tokens) ≤ scriptsIn runs + markersIn tokens := by
  cases tokens with
  | nil => exact Nat.le_add_right _ _
  | cons token tokens =>
    have first := token.scripts_typeset_le runs
    have later := scripts_typesetAll_le tokens (token.typeset runs)
    rw [typesetAll, markersIn]
    omega

theorem scripts_typesetArguments_le (arguments : List Argument) :
    scriptsInArguments (typesetArguments arguments) ≤ markersInArguments arguments := by
  match arguments with
  | [] => exact Nat.le_refl 0
  | ⟨delimiter, content⟩ :: arguments =>
    have first := scripts_typesetAll_le content []
    have later := scripts_typesetArguments_le arguments
    rw [scriptsIn] at first
    rw [typesetArguments, scriptsInArguments, scriptsIn_reverse, markersInArguments]
    omega

end

theorem scripts_linesFrom_le (tokens : List Token) (runs : List Run) :
    scriptsIn (linesFrom runs tokens).flatten ≤ scriptsIn runs + markersIn tokens := by
  induction tokens generalizing runs with
  | nil => simp [linesFrom, scriptsIn_reverse]
  | cons token tokens ih =>
    rw [linesFrom, markersIn]
    split
    · have later := ih []
      rw [scriptsIn] at later
      rw [List.flatten_cons, scriptsIn_append, scriptsIn_reverse]
      omega
    · have first := token.scripts_typeset_le runs
      have later := ih (token.typeset runs)
      omega

theorem CommandMark.le {name : String} {mark : List Char} (marked : CommandMark name mark) :
    (isMarkerName name).toNat ≤ mark.countP isScriptMark := by
  cases marks : isMarkerName name with
  | false => exact Nat.zero_le _
  | true =>
    simp only [isMarkerName, Bool.or_eq_true, beq_iff_eq] at marks
    rcases marks with rfl | rfl <;> rcases marked with rfl | ⟨-, rfl⟩ <;> decide

mutual

theorem Token.markers_le (token : Token) {rest text : List Char}
    (written : Written rest token text) :
    token.markers ≤ text.countP isScriptMark := by
  cases token with
  | command name arguments =>
    cases written with
    | command marked following =>
      have mark := marked.le
      have later := markersInArguments_le arguments following
      rw [Token.markers, List.countP_append]
      omega
  | group body | inlineMath body | displayMath body | environment name body
    | mathEnvironment name body =>
    cases written
    have inner := markersIn_le body ‹WrittenAll _ body _›
    simp only [Token.markers, List.countP_append]
    omega
  | _ => exact Nat.zero_le _

theorem markersIn_le (tokens : List Token) {rest text : List Char}
    (written : WrittenAll rest tokens text) :
    markersIn tokens ≤ text.countP isScriptMark := by
  cases tokens with
  | nil => exact Nat.zero_le _
  | cons token tokens =>
    cases written with
    | cons head tail =>
      have first := token.markers_le head
      have later := markersIn_le tokens tail
      rw [markersIn, List.countP_append]
      omega

theorem markersInArguments_le (arguments : List Argument) {rest text : List Char}
    (written : WrittenArguments rest arguments text) :
    markersInArguments arguments ≤ text.countP isScriptMark := by
  match arguments with
  | [] => exact Nat.zero_le _
  | ⟨delimiter, content⟩ :: arguments =>
    cases written with
    | cons head tail =>
      cases head with
      | mk skipped trivial encloses inside =>
        have first := markersIn_le content inside
        have later := markersInArguments_le arguments tail
        simp only [markersInArguments, List.countP_append]
        omega

end

mutual

/-- Whether a token writes a run whatever stands before it. -/
def Token.inks : Token → Bool
  | .char _ => true
  | .command name _ => inksAlone name
  | .group body => inksAny body
  | _ => false

def inksAny : List Token → Bool
  | [] => false
  | token :: tokens => token.inks || inksAny tokens

end

/-- A row of tokens sets a script: of a marker behind a token that writes a run, or inside one of
its tokens. -/
inductive SetsScript : List Token → Prop
  | marker {base marker : Token} {tokens : List Token} (inks : base.inks = true)
    (isIn : marker ∈ tokens) (marks : marker.isMarker = true) : SetsScript (base :: tokens)
  | group {body tokens : List Token} (inside : SetsScript body) : SetsScript (.group body :: tokens)
  | argument {name : String} {arguments : List Argument} {argument : Argument} {tokens : List Token}
    (sets : setsArguments name (arguments.map Argument.delimiter) = true)
    (isArgument : argument ∈ arguments) (inside : SetsScript argument.content) :
    SetsScript (.command name arguments :: tokens)
  | later {tokens : List Token} (token : Token) (follows : SetsScript tokens) :
    SetsScript (token :: tokens)

theorem setsScript_nil : ¬ SetsScript [] := by
  intro sets
  cases sets

theorem setsScript_cons {token : Token} {tokens : List Token} :
    SetsScript (token :: tokens) ↔
      SetsScript [token] ∨ (token.inks = true ∧ ∃ marker ∈ tokens, marker.isMarker = true) ∨
        SetsScript tokens := by
  constructor
  · intro sets
    cases sets with
    | marker inks isIn marks => exact .inr (.inl ⟨inks, _, isIn, marks⟩)
    | group inside => exact .inl (.group inside)
    | argument sets isArgument inside => exact .inl (.argument sets isArgument inside)
    | later _ follows => exact .inr (.inr follows)
  · rintro (single | ⟨inks, marker, isIn, marks⟩ | follows)
    · cases single with
      | marker _ isIn => cases isIn
      | group inside => exact .group inside
      | argument sets isArgument inside => exact .argument sets isArgument inside
      | later _ follows => exact absurd follows setsScript_nil
    · exact .marker inks isIn marks
    · exact .later token follows

theorem setsScript_group {body : List Token} : SetsScript [.group body] ↔ SetsScript body := by
  constructor
  · intro sets
    cases sets with
    | marker _ isIn => cases isIn
    | group inside => exact inside
    | later _ follows => exact absurd follows setsScript_nil
  · exact .group

theorem setsScript_command {name : String} {arguments : List Argument} :
    SetsScript [.command name arguments] ↔
      setsArguments name (arguments.map Argument.delimiter) = true ∧
        ∃ argument ∈ arguments, SetsScript argument.content := by
  constructor
  · intro sets
    cases sets with
    | marker _ isIn => cases isIn
    | argument sets isArgument inside => exact ⟨sets, _, isArgument, inside⟩
    | later _ follows => exact absurd follows setsScript_nil
  · rintro ⟨sets, argument, isArgument, inside⟩
    exact .argument sets isArgument inside

theorem not_setsScript_single {token : Token} (noGroup : ∀ body, token ≠ .group body)
    (noCommand : ∀ name arguments, token ≠ .command name arguments) : ¬ SetsScript [token] := by
  intro sets
  cases sets with
  | marker _ isIn => cases isIn
  | group inside => exact noGroup _ rfl
  | argument => exact noCommand _ _ rfl
  | later _ follows => exact setsScript_nil follows

mutual

theorem Token.typeset_eq_nil_iff (token : Token) (runs : List Run) :
    token.typeset runs = [] ↔ runs = [] ∧ token.inks = false := by
  cases token with
  | char c => simp [Token.typeset, Token.inks]
  | command name arguments => exact applyCommand_eq_nil_iff _ runs
  | group body =>
    have inside := typesetAll_eq_nil_iff body []
    simp only [Token.typeset, List.append_eq_nil_iff, inside, Token.inks, true_and, and_comm]
  | _ => simp [Token.typeset, Token.inks]

theorem typesetAll_eq_nil_iff (tokens : List Token) (runs : List Run) :
    typesetAll runs tokens = [] ↔ runs = [] ∧ inksAny tokens = false := by
  cases tokens with
  | nil => simp [typesetAll, inksAny]
  | cons token tokens =>
    rw [typesetAll, typesetAll_eq_nil_iff tokens, token.typeset_eq_nil_iff, inksAny,
      Bool.or_eq_false_iff, and_assoc]

end

mutual

theorem Token.scripts_typeset_pos (token : Token) (runs : List Run) :
    0 < scriptsIn (token.typeset runs) ↔
      0 < scriptsIn runs ∨ (runs ≠ [] ∧ token.isMarker = true) ∨ SetsScript [token] := by
  cases token with
  | char c =>
    have single : ¬ SetsScript [.char c] := not_setsScript_single nofun nofun
    simp [Token.typeset, scriptsIn, Run.scripts, Token.isMarker, single]
  | command name arguments =>
    have set := scripts_typesetArguments_pos arguments
    rw [Token.typeset, setsScript_command, Token.isMarker, ← set, ← typesetArguments_delimiters]
    cases marks : isMarkerName name with
    | true =>
      have unset := setsArguments_of_isMarkerName marks
      cases runs with
      | nil => simp [applyCommand_marker_nil _ marks, unset, scriptsIn]
      | cons base earlier =>
        rw [scriptsIn_marker _ marks, Nat.add_assoc]
        exact iff_of_true (Nat.add_pos_left Nat.one_pos _) (.inr (.inl ⟨List.cons_ne_nil _ _, rfl⟩))
    | false =>
      rcases applyCommand_other (typesetArguments arguments) runs marks with
        ⟨-, run, added, scripts⟩ | ⟨-, kept, unset⟩
      · rw [added, scriptsIn, scripts, Nat.add_pos_iff_pos_or_pos, or_comm]
        split <;> simp_all
      · simp [kept, unset]
  | group body =>
    have inside := scripts_typesetAll_pos body []
    simp only [scriptsIn, Nat.lt_irrefl, ne_eq, not_true_eq_false, false_and, false_or] at inside
    rw [Token.typeset, scriptsIn_append, setsScript_group, Nat.add_pos_iff_pos_or_pos, inside,
      or_comm]
    simp [Token.isMarker]
  | _ =>
    simp only [Token.typeset, Token.isMarker, Bool.false_eq_true, and_false, false_or,
      iff_self_or]
    exact fun sets => absurd sets (not_setsScript_single nofun nofun)

theorem scripts_typesetAll_pos (tokens : List Token) (runs : List Run) :
    0 < scriptsIn (typesetAll runs tokens) ↔
      0 < scriptsIn runs ∨ (runs ≠ [] ∧ ∃ marker ∈ tokens, marker.isMarker = true) ∨
        SetsScript tokens := by
  cases tokens with
  | nil => simp [typesetAll, setsScript_nil]
  | cons token tokens =>
    rw [typesetAll, scripts_typesetAll_pos tokens, token.scripts_typeset_pos, Ne, Ne,
      token.typeset_eq_nil_iff, @setsScript_cons token tokens, List.exists_mem_cons_iff]
    cases token.inks <;> grind

theorem scripts_typesetArguments_pos (arguments : List Argument) :
    0 < scriptsInArguments (typesetArguments arguments) ↔
      ∃ argument ∈ arguments, SetsScript argument.content := by
  match arguments with
  | [] => simp [typesetArguments, scriptsInArguments]
  | ⟨delimiter, content⟩ :: arguments =>
    have first := scripts_typesetAll_pos content []
    have later := scripts_typesetArguments_pos arguments
    simp only [scriptsIn, Nat.lt_irrefl, ne_eq, not_true_eq_false, false_and, false_or] at first
    rw [typesetArguments, scriptsInArguments, scriptsIn_reverse, Nat.add_pos_iff_pos_or_pos,
      first, later, List.exists_mem_cons_iff]
    rfl

end

/-- A row of a line or a group has a script exactly where one of its markers has a base. -/
theorem scripts_typesetGroup_pos (row : List Token) :
    0 < scriptsIn (typesetGroup row) ↔ SetsScript row := by
  have set := scripts_typesetAll_pos row []
  simp only [scriptsIn, Nat.lt_irrefl, ne_eq, not_true_eq_false, false_and, false_or] at set
  rw [typesetGroup, scriptsIn_reverse, set]

/-- The scripts of a source are no more than the script marks in it, and a line has a script exactly
where a marker of its tokens has a base. A backslash before a mark makes no difference: what is read
from there on is the same without it. -/
theorem lines_scripts (source : String) :
    scriptsIn (lines source).flatten ≤ source.toList.countP isScriptMark ∧
      ((∃ line ∈ lines source, 0 < scriptsIn line) ↔
        ∃ row ∈ (tokenize source).splitOnP Token.isLineBreak, SetsScript row) ∧
      ∀ frames before rest,
        scan frames before ('\\' :: '^' :: rest) = scan frames before ('^' :: rest) ∧
        scan frames before ('\\' :: '_' :: rest) = scan frames before ('_' :: rest) := by
  refine ⟨?_, ?_, ?_⟩
  · have started : Pending source.toList [] [] [] := .outermost (.nil _)
    have written : WrittenAll [] (tokenize source) source.toList :=
      attachArguments_written _ (scan_written started)
    have set := scripts_linesFrom_le (tokenize source) []
    rw [scriptsIn, Nat.zero_add] at set
    exact set.trans (markersIn_le _ written)
  · rw [lines, linesFrom_eq_map]
    simp only [List.mem_map, exists_exists_and_eq_and, scripts_typesetGroup_pos]
  · intro frames before rest
    constructor
    · exact (scan_token rfl).trans (scan_token rfl).symm
    · exact (scan_token rfl).trans (scan_token rfl).symm

/-- An escaped underscore between two letters makes one a script of the other. -/
theorem escapedMarker_lowers :
    escapesMarkers "a\\_b".toList = true ∧
      lines "a\\_b" = [[.subscript [.text "a"] [.text "b"]]] ∧
      ¬ ∀ line ∈ lines "a\\_b", scriptsIn line = 0 := by
  have scanned : scan [] [] "a\\_b".toList = [.char 'a', .command "_" [], .char 'b'] :=
    (scan_token rfl).trans ((scan_token rfl).trans ((scan_token rfl).trans scan_end))
  have set : lines "a\\_b" = [[.subscript [.text "a"] [.text "b"]]] := by
    rw [lines, tokenize, scanned]
    rfl
  refine ⟨by decide, set, ?_⟩
  rw [set]
  decide

end WordExport.Math
