set_option autoImplicit false

namespace WordExport.Math

/-- A structured run. A sum has a body but no limits. -/
inductive Run where
  | text (text : String)
  | superscript (base script : List Run)
  | subscript (base script : List Run)
  | fraction (numerator denominator : List Run)
  | squareRoot (body : List Run)
  | root (degree body : List Run)
  | sum (body : List Run)

end WordExport.Math
