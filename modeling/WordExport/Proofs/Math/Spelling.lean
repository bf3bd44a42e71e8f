import WordExport.Math.Run
import WordExport.Proofs.Math.Scan

set_option autoImplicit false

namespace WordExport.Math

open Text

/-- Characters that math-mode source spells as they are. -/
def isPlain (c : Char) : Bool :=
  !("\\\x7b\x7d[]$%^_ \t\r\n".toList.contains c)

mutual

/-- Runs that a spelling determines: texts of one plain character, scripts on a base of one run,
sums without a body. -/
def Run.Normal : Run → Prop
  | .text text => ∃ c, isPlain c = true ∧ text = String.singleton c
  | .superscript base script | .subscript base script =>
    base.length = 1 ∧ AllNormal base ∧ AllNormal script
  | .fraction numerator denominator => AllNormal numerator ∧ AllNormal denominator
  | .squareRoot body => AllNormal body
  | .root degree body => AllNormal degree ∧ AllNormal body
  | .sum body => body = []

def AllNormal : List Run → Prop
  | [] => True
  | run :: runs => run.Normal ∧ AllNormal runs

end

def control (name : String) : List Char :=
  '\\' :: name.toList

def braced (cs : List Char) : List Char :=
  '{' :: cs ++ ['}']

mutual

def Run.spell : Run → List Char
  | .text text => text.toList
  | .superscript base script => spellAll base ++ '^' :: braced (spellAll script)
  | .subscript base script => spellAll base ++ '_' :: braced (spellAll script)
  | .fraction numerator denominator =>
    control "frac" ++ braced (spellAll numerator) ++ braced (spellAll denominator)
  | .squareRoot body => control "sqrt" ++ braced (spellAll body)
  | .root degree body => control "sqrt" ++ '[' :: spellAll degree ++ ']' :: braced (spellAll body)
  | .sum _ => control "sum" ++ [' ']

def spellAll : List Run → List Char
  | [] => []
  | run :: runs => run.spell ++ spellAll runs

end

/-- Lines are spelled with `\\` between them. -/
def spelling (written : List (List Run)) : String :=
  "\\\\".intercalate (written.map fun line => String.ofList (spellAll line))

mutual

/-- The tokens of a spelling, before commands have their arguments. -/
def Run.tokens : Run → List Token
  | .text text => text.toList.map .char
  | .superscript base script => tokensAll base ++ [.command "^" [], .group (tokensAll script)]
  | .subscript base script => tokensAll base ++ [.command "_" [], .group (tokensAll script)]
  | .fraction numerator denominator =>
    [.command "frac" [], .group (tokensAll numerator), .group (tokensAll denominator)]
  | .squareRoot body => [.command "sqrt" [], .group (tokensAll body)]
  | .root degree body =>
    .command "sqrt" [] :: .char '[' :: tokensAll degree ++ [.char ']', .group (tokensAll body)]
  | .sum _ => [.command "sum" [], .whitespace]

def tokensAll : List Run → List Token
  | [] => []
  | run :: runs => run.tokens ++ tokensAll runs

end

mutual

/-- The tokens of a spelling, after commands have their arguments. -/
def Run.attached : Run → List Token
  | .text text => text.toList.map .char
  | .superscript base script =>
    attachedAll base ++ [.command "^" [⟨.braces, attachedAll script⟩]]
  | .subscript base script =>
    attachedAll base ++ [.command "_" [⟨.braces, attachedAll script⟩]]
  | .fraction numerator denominator =>
    [.command "frac" [⟨.braces, attachedAll numerator⟩, ⟨.braces, attachedAll denominator⟩]]
  | .squareRoot body => [.command "sqrt" [⟨.braces, attachedAll body⟩]]
  | .root degree body =>
    [.command "sqrt" [⟨.brackets, attachedAll degree⟩, ⟨.braces, attachedAll body⟩]]
  | .sum _ => [.command "sum" [], .whitespace]

def attachedAll : List Run → List Token
  | [] => []
  | run :: runs => run.attached ++ attachedAll runs

end

theorem not_special {c : Char} (plain : isPlain c = true) :
    c ≠ '\\' ∧ c ≠ '{' ∧ c ≠ '}' ∧ c ≠ '[' ∧ c ≠ ']' ∧ c ≠ '$' ∧ c ≠ '%' ∧ c ≠ '^' ∧ c ≠ '_' ∧
      c ≠ ' ' ∧ c ≠ '\t' ∧ c ≠ '\r' ∧ c ≠ '\n' := by
  simpa [isPlain] using plain

theorem piece_plain {c : Char} (plain : isPlain c = true) (rest : List Char) :
    piece (c :: rest) = .token (.char c) rest := by
  have special := not_special plain
  unfold piece
  split <;> simp_all [isBlank]

/-- A text that does not start with a blank, and so does not lengthen a run of blanks before it. -/
def StartsInk (cs : List Char) : Prop :=
  ∀ c, cs.head? = some c → isBlank c = false

theorem StartsInk.cons {c : Char} (ink : isBlank c = false) (cs : List Char) :
    StartsInk (c :: cs) := by
  intro d head
  cases head
  exact ink

theorem piece_blank {rest : List Char} (ink : StartsInk rest) :
    piece (' ' :: rest) = .token .whitespace rest := by
  have stops : rest.takeWhile isBlank = [] ∧ rest.dropWhile isBlank = rest := by
    cases rest with
    | nil => exact ⟨rfl, rfl⟩
    | cons c rest => simp [ink c rfl]
  change blankPiece (' ' :: rest) = _
  simp only [blankPiece, List.takeWhile_cons, List.dropWhile_cons]
  simp [isBlank, stops.1, stops.2]

/-- A text read as the given tokens in every place, unless a blank follows. -/
structure Scans (cs : List Char) (tokens : List Token) : Prop where
  startsInk : ∀ rest, StartsInk rest → StartsInk (cs ++ rest)
  scan : ∀ frames before rest, StartsInk rest →
    Math.scan frames before (cs ++ rest) = Math.scan frames (tokens.reverse ++ before) rest

namespace Scans

theorem nil : Scans [] [] :=
  ⟨fun _ ink => ink, fun _ _ _ _ => rfl⟩

theorem append {first second : List Char} {tokens following : List Token}
    (read : Scans first tokens) (next : Scans second following) :
    Scans (first ++ second) (tokens ++ following) := by
  constructor
  · intro rest ink
    rw [List.append_assoc]
    exact read.startsInk _ (next.startsInk rest ink)
  · intro frames before rest ink
    rw [List.append_assoc, read.scan frames before _ (next.startsInk rest ink),
      next.scan frames _ rest ink, List.reverse_append, List.append_assoc]

theorem char {c : Char} (ink : isBlank c = false)
    (read : ∀ rest, piece (c :: rest) = .token (.char c) rest) : Scans [c] [.char c] :=
  ⟨fun rest _ => .cons ink rest, fun _ _ rest _ => scan_token (read rest)⟩

theorem braced {cs : List Char} {tokens : List Token} (inside : Scans cs tokens) :
    Scans (braced cs) [.group tokens] := by
  constructor
  · intro rest _
    exact .cons rfl _
  · intro frames before rest _
    have opened : piece (Math.braced cs ++ rest) = .opener .group (cs ++ '}' :: rest) := by
      simp only [Math.braced, List.cons_append, List.append_assoc, List.nil_append]
      rfl
    have closed : piece ('}' :: rest) = .boundary := rfl
    rw [scan_opener opened, inside.scan _ _ _ (.cons rfl rest), scan_boundary closed,
      List.append_nil, List.reverse_reverse]
    rfl

/-- A command and the group after it. -/
theorem command (word : List Char) {cs : List Char} {name : String} {tokens : List Token}
    (startsInk : ∀ rest, StartsInk (word ++ rest))
    (read : ∀ rest, piece (word ++ '{' :: rest) = .token (.command name []) ('{' :: rest))
    (inside : Scans cs tokens) :
    Scans (word ++ Math.braced cs) [.command name [], .group tokens] := by
  constructor
  · intro rest _
    rw [List.append_assoc]
    exact startsInk _
  · intro frames before rest ink
    rw [List.append_assoc]
    exact (scan_token (read _)).trans (inside.braced.scan frames _ rest ink)

end Scans

mutual

theorem Run.scans (run : Run) (normal : run.Normal) : Scans run.spell run.tokens := by
  cases run with
  | text text =>
    obtain ⟨c, plain, rfl⟩ := normal
    have special := not_special plain
    rw [Run.spell, Run.tokens, String.toList_singleton]
    exact .char (by simp [isBlank, special]) (piece_plain plain)
  | superscript base script =>
    have shifted : Scans ('^' :: braced (spellAll script))
        [.command "^" [], .group (tokensAll script)] :=
      (scans_all script normal.2.2).command ['^'] (fun _ => .cons rfl _) fun _ => rfl
    exact (scans_all base normal.2.1).append shifted
  | subscript base script =>
    have shifted : Scans ('_' :: braced (spellAll script))
        [.command "_" [], .group (tokensAll script)] :=
      (scans_all script normal.2.2).command ['_'] (fun _ => .cons rfl _) fun _ => rfl
    exact (scans_all base normal.2.1).append shifted
  | fraction numerator denominator =>
    have above : Scans (control "frac" ++ braced (spellAll numerator))
        [.command "frac" [], .group (tokensAll numerator)] :=
      (scans_all numerator normal.1).command (control "frac") (fun _ => .cons rfl _) fun _ => rfl
    have below := (scans_all denominator normal.2).braced
    exact above.append below
  | squareRoot body =>
    exact (scans_all body normal).command (control "sqrt") (fun _ => .cons rfl _) fun _ => rfl
  | root degree body =>
    have opened : Scans (control "sqrt" ++ ['[']) [.command "sqrt" [], .char '['] := by
      refine ⟨fun _ _ => .cons rfl _, fun frames before rest _ => ?_⟩
      have word : piece (control "sqrt" ++ '[' :: rest)
          = .token (.command "sqrt" []) ('[' :: rest) := rfl
      rw [List.append_assoc]
      exact (scan_token word).trans (scan_token rfl)
    have closed : Scans [']'] [.char ']'] := .char rfl fun _ => rfl
    have read := ((opened.append (scans_all degree normal.1)).append closed).append
      (scans_all body normal.2).braced
    simpa only [Run.spell, Run.tokens, List.append_assoc, List.cons_append, List.nil_append]
      using read
  | sum body =>
    refine ⟨fun _ _ => .cons rfl _, fun frames before rest ink => ?_⟩
    have word : piece (control "sum" ++ ' ' :: rest)
        = .token (.command "sum" []) (' ' :: rest) := rfl
    rw [Run.spell, List.append_assoc]
    exact (scan_token word).trans (scan_token (piece_blank ink))

theorem scans_all (runs : List Run) (normal : AllNormal runs) :
    Scans (spellAll runs) (tokensAll runs) := by
  cases runs with
  | nil => exact .nil
  | cons run runs =>
    have first := run.scans normal.1
    have rest := scans_all runs normal.2
    exact first.append rest

end

end WordExport.Math
