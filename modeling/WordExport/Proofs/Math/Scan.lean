import WordExport.Math.Tokenize

set_option autoImplicit false

namespace WordExport.Math

variable {frames : List Frame} {before : List Token} {cs rest : List Char}

theorem scan_token {token : Token} (found : piece cs = .token token rest) :
    scan frames before cs = scan frames (token :: before) rest := by
  conv => lhs; rw [scan.eq_def]
  split <;> simp_all

theorem scan_opener {opener : Opener} (found : piece cs = .opener opener rest) :
    scan frames before cs = scan (⟨opener, before⟩ :: frames) [] rest := by
  conv => lhs; rw [scan.eq_def]
  split <;> simp_all

theorem scan_shift {shift : Shift} {content : List Char}
    (found : piece cs = .shift shift content rest) :
    scan frames before cs
      = scan frames (shift.token (attachArguments (scan [] [] content)) :: before) rest := by
  conv => lhs; rw [scan.eq_def]
  split <;> simp_all

/-- A boundary ends the innermost sequence. -/
theorem scan_boundary {frame : Frame} (found : piece cs = .boundary) :
    scan (frame :: frames) before cs
      = scan frames (frame.opener.token before.reverse :: frame.before)
        (frame.opener.dropCloser cs) := by
  conv => lhs; rw [scan.eq_def]
  split <;> simp_all

/-- A boundary outside of every sequence is read as a token. -/
theorem scan_stray {token : Token} (found : piece cs = .boundary)
    (stray : strayCloser? cs = some (token, rest)) :
    scan [] before cs = scan [] (token :: before) rest := by
  conv => lhs; rw [scan.eq_def]
  split
  · simp_all
  · simp_all
  · simp_all
  · dsimp only
    split <;> simp_all

theorem scan_end : scan [] before [] = before.reverse := by
  rw [scan.eq_def]
  simp [piece, strayCloser?]

end WordExport.Math
