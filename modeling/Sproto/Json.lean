/-! # Dynamic values

Settings, command arguments and the data that a client attaches to a diagnostic are JSON values whose
form the client chooses.  A number is an integer, or it is written with a fraction or an exponent and
then known by its value. -/
namespace Sproto

/-- A JSON value; a record keeps its keys in order. -/
inductive Json where
  | null
  | bool (b : Bool)
  | int (n : Int)
  | frac (q : Rat)
  | str (s : String)
  | arr (items : List Json)
  | obj (entries : List (String × Json))
  deriving Repr, Inhabited

namespace Json

/-- Whether a value counts as present: everything but null, false, zero and what is empty. -/
def isTruthy : Json → Bool
  | null => false
  | bool b => b
  | int n => n != 0
  | frac q => q != 0
  | str s => s != ""
  | arr items => !items.isEmpty
  | obj entries => !entries.isEmpty

/-- The value under a key of a record's entries. -/
def lookup? (key : String) (entries : List (String × Json)) : Option Json := List.lookup key entries

end Json
end Sproto
