/-!
# Values of settings files

A settings file is a table of named values. Numbers with a fraction, dates and times are kept as
they are written, for no setting is one.
-/

namespace TestImpact

/-- A value of a settings file. -/
inductive Toml
  | string (text : String)
  | integer (n : Int)
  | float (text : String)
  | boolean (b : Bool)
  /-- A date, a time of day, or both. -/
  | time (text : String)
  | array (items : List Toml)
  | table (fields : List (String × Toml))
  deriving Repr

end TestImpact
