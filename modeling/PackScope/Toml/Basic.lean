import PackScope.Number.Binary64
import PackScope.Toml.Datetime

/-!
TOML data: what a document says once the places and the spelling of its parts are forgotten.
-/

namespace PackScope.Toml

/-- A TOML value without parts. -/
inductive Scalar where
  | string (s : String)
  | integer (n : Int64)
  | float (x : Binary64)
  | boolean (b : Bool)
  | datetime (d : Datetime)
  deriving DecidableEq, Repr, Inhabited

/-- **A TOML value.** The entries of a table stand in ascending key order. -/
inductive Data where
  | scalar (s : Scalar)
  | array (items : List Data)
  | table (entries : List (String × Data))
  deriving Repr, Inhabited

/-- Whether a character may stand in a bare key. -/
def isBareChar (c : Char) : Bool := c.isAlphanum || c = '-' || c = '_'

/-- Whether a key needs no quotes. -/
def isBareKey (key : List Char) : Bool := !key.isEmpty && key.all isBareChar

end PackScope.Toml
