import PackScope.Text.Quoted

/-!
Why a text cannot be read. It may be no text of its format at all, or well formed and not of the
shape that is asked for; the second kind says what stands where something else was expected.
-/

namespace PackScope

/-- What was found where something else was expected. -/
inductive Found where
  | null
  | boolean (b : Bool)
  | integer (n : Int)
  | float (digits : String)
  | string (s : String)
  | sequence
  | map
  deriving DecidableEq, Repr, Inhabited

/-- What was found, as it is named in messages. -/
def Found.text : Found → String
  | null => "null"
  | boolean b => s!"boolean `{b}`"
  | integer n => s!"integer `{n}`"
  | float digits => "floating point `" ++ digits ++ "`"
  | string s => "string " ++ Text.quoted s
  | sequence => "sequence"
  | map => "map"

/-- **Why well-formed data are not of the shape that is asked for.** -/
inductive Mismatch where
  /-- Something of another kind stands in the place. -/
  | kind (found : Found) (expected : String)
  /-- A field that has no default is not there. -/
  | missingField (name : String)
  /-- A sequence that stands for a record ends before a field that has no default. -/
  | tooShort (length : Nat) (record : String) (fields : Nat)
  deriving DecidableEq, Repr, Inhabited

/-- The message for a mismatch. -/
def Mismatch.message : Mismatch → String
  | kind found expected => "invalid type: " ++ found.text ++ ", expected " ++ expected
  | missingField name => "missing field `" ++ name ++ "`"
  | tooShort length record fields =>
    s!"invalid length {length}, expected struct {record} with {fields} elements"

/-- **Why a text cannot be read.** -/
inductive ReadError where
  | malformed
  | mismatch (m : Mismatch)
  deriving DecidableEq, Repr, Inhabited

end PackScope
