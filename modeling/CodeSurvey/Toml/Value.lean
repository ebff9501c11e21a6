/-!
# TOML values

The values of a TOML document. Configuration never asks for decimals or dates, so a valid one
leaves no more than its kind.
-/

namespace CodeSurvey.Toml

/-- A value. The keys of a table are distinct. -/
inductive Value where
  | text (content : String)
  | integer (n : Int)
  | decimal
  | boolean (b : Bool)
  | moment
  | array (items : List Value)
  | table (entries : List (String × Value))

namespace Value

instance : Inhabited Value := ⟨.table []⟩

/-- A table's value for a key. -/
def find (key : String) : Value → Option Value
  | .table entries => entries.lookup key
  | _              => none

end Value

end CodeSurvey.Toml
