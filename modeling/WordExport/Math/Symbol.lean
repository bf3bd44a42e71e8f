set_option autoImplicit false

namespace WordExport.Math

/-- The character each symbol command is written as. Such a command takes no arguments. -/
def symbols : List (String × Char) := [
  ("#", '#'), ("$", '$'), ("%", '%'), ("&", '&'), ("\x7b", '{'), ("\x7d", '}'),
  ("textasciitilde", '~'), ("textasciicircum", '^'), ("textbackslash", '∖'), ("textbar", '|'),
  ("textless", '<'), ("textgreater", '>'), ("neq", '≠'), ("ne", '≠'), ("sim", '∼'),
  ("simeq", '≃'), ("approx", '≈'), ("fallingdotseq", '≒'), ("risingdotseq", '≓'), ("equiv", '≡'),
  ("geq", '≥'), ("ge", '≥'), ("geqq", '≧'), ("leq", '≤'), ("le", '≤'), ("leqq", '≦'),
  ("gg", '≫'), ("ll", '≪'), ("propto", '∝'), ("times", '×'), ("div", '÷'), ("pm", '±'),
  ("mp", '∓'), ("oplus", '⊕'), ("ominus", '⊖'), ("otimes", '⊗'), ("oslash", '⊘'), ("circ", '∘'),
  ("cdot", '⋅'), ("bullet", '∙'), ("ltimes", '⋉'), ("rtimes", '⋊'), ("in", '∈'), ("ni", '∋'),
  ("notin", '∉'), ("subset", '⊂'), ("supset", '⊃'), ("subseteq", '⊆'), ("supseteq", '⊇'),
  ("nsubseteq", '⊈'), ("nsupseteq", '⊉'), ("subsetneq", '⊊'), ("supsetneq", '⊋'), ("cap", '∩'),
  ("cup", '∪'), ("emptyset", '∅'), ("to", '→'), ("rightarrow", '→'), ("leftarrow", '←'),
  ("gets", '←'), ("leftrightarrow", '↔'), ("Rightarrow", '⇒'), ("Leftarrow", '⇐'),
  ("Leftrightarrow", '⇔'), ("iff", '⇔'), ("mapsto", '↦'), ("uparrow", '↑'), ("downarrow", '↓'),
  ("infty", '∞'), ("partial", '∂'), ("nabla", '∇'), ("forall", '∀'), ("exists", '∃'),
  ("neg", '¬'), ("lnot", '¬'), ("aleph", 'ℵ'), ("hbar", 'ℏ'), ("wp", '℘'), ("Re", 'ℜ'),
  ("Im", 'ℑ'), ("ldots", '…'), ("dots", '…'), ("cdots", '⋯'), ("int", '∫'), ("alpha", 'α'),
  ("beta", 'β'), ("gamma", 'γ'), ("delta", 'δ'), ("epsilon", 'ϵ'), ("zeta", 'ζ'), ("eta", 'η'),
  ("theta", 'θ'), ("iota", 'ι'), ("kappa", 'κ'), ("lambda", 'λ'), ("mu", 'μ'), ("nu", 'ν'),
  ("xi", 'ξ'), ("pi", 'π'), ("rho", 'ρ'), ("sigma", 'σ'), ("tau", 'τ'), ("upsilon", 'υ'),
  ("phi", 'ϕ'), ("chi", 'χ'), ("psi", 'ψ'), ("omega", 'ω'), ("varepsilon", 'ε'),
  ("vartheta", 'ϑ'), ("varrho", 'ϱ'), ("varsigma", 'ς'), ("varphi", 'φ'), ("Gamma", 'Γ'),
  ("Delta", 'Δ'), ("Theta", 'Θ'), ("Lambda", 'Λ'), ("Xi", 'Ξ'), ("Pi", 'Π'), ("Sigma", 'Σ'),
  ("Upsilon", 'Υ'), ("Phi", 'Φ'), ("Psi", 'Ψ'), ("Omega", 'Ω')]

def symbol? (name : String) : Option Char :=
  symbols.lookup name

end WordExport.Math
