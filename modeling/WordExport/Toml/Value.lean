set_option autoImplicit false

namespace WordExport.Toml

/-- A TOML value. Of floats and of dates only that they are such is kept. -/
inductive Value where
  | string (s : String)
  | integer (n : Int)
  | float
  | boolean (b : Bool)
  | dateTime
  | array (items : List Value)
  | table (entries : List (String × Value))

end WordExport.Toml
