import PackScope.Json.Basic
import PackScope.KeyMap
import PackScope.Number.Signed64
import PackScope.Value

/-!
Values as JSON and back. An unknown value and a number without digits have no JSON form; what is
reported for a value that contains one is the way to the first of them and the cause.
-/

namespace PackScope

/-! ### Failures -/

/-- Why a part of a value has no JSON form. -/
inductive ConversionCause where
  | unknown
  | nonFinite (x : Binary64)
  deriving DecidableEq, Repr, Inhabited

/-- A step from a list to one of its items or from a map to one of its values. -/
inductive PathStep where
  | index (n : Nat)
  | key (k : String)
  deriving DecidableEq, Repr, Inhabited

/-- **A failed conversion**: the steps from the whole value to the part at fault, outermost first,
and what is wrong with that part. -/
structure ConversionError where
  path : List PathStep
  cause : ConversionCause
  deriving DecidableEq, Repr, Inhabited

/-- What is wrong with a part of a value. -/
def ConversionCause.message : ConversionCause → String
  | unknown => "value is not known"
  | nonFinite x => "number " ++ x.nameOfNonFinite.getD "" ++ " has no generic representation"

/-- A step as `[index]` or `.key`. -/
def PathStep.text : PathStep → String
  | index n => s!"[{n}]"
  | key k => "." ++ k

namespace ConversionError

/-- The steps to the part at fault, one after the other. -/
def pathText (e : ConversionError) : String := String.join (e.path.map PathStep.text)

/-- The cause, and where it was found unless it is the whole value. -/
def message (e : ConversionError) : String :=
  if e.path.isEmpty then e.cause.message else "at " ++ e.pathText ++ ": " ++ e.cause.message

/-- The same failure seen from one step further out. -/
def within (step : PathStep) (e : ConversionError) : ConversionError := ⟨step :: e.path, e.cause⟩

end ConversionError

namespace Value

/-! ### Conversion -/

mutual

/-- The JSON form of a value, or the first failure in it. -/
def toJson : Value → Except ConversionError Json
  | null => .ok .null
  | unknown => .error ⟨[], .unknown⟩
  | bool b => .ok (.bool b)
  | integer n => .ok (.integer n.toInt)
  | float x => if x.isFinite then .ok (.float x) else .error ⟨[], .nonFinite x⟩
  | string s => .ok (.string s)
  | list items => (itemsToJson 0 items).map .array
  | map entries => (entriesToJson entries).map .object

/-- The JSON forms of the items of a list, the first of which has a given index. -/
def itemsToJson (index : Nat) : List Value → Except ConversionError (List Json)
  | [] => .ok []
  | item :: rest => do
    let json ← item.toJson.mapError (.within (.index index))
    return json :: (← itemsToJson (index + 1) rest)

/-- The JSON forms of the entries of a map. -/
def entriesToJson : List (String × Value) → Except ConversionError (List (String × Json))
  | [] => .ok []
  | (key, value) :: rest => do
    let json ← value.toJson.mapError (.within (.key key))
    return (key, json) :: (← entriesToJson rest)

end

/-- The value of a whole number: an integer if it fits into 64 bits with a sign, else the nearest
double-precision number. -/
def ofInt (n : Int) : Value :=
  match signed64? n with
  | some n => integer n
  | none => float (.ofQuotient (n < 0) n.natAbs 1)

mutual

/-- The value of JSON data. -/
def ofJson : Json → Value
  | .null => null
  | .bool b => bool b
  | .integer n => ofInt n
  | .float x => float x
  | .string s => string s
  | .array items => list (itemsOfJson items)
  | .object entries => map (Entries.ofList (entriesOfJson entries))

/-- The values of the items of an array. -/
def itemsOfJson : List Json → List Value
  | [] => []
  | item :: rest => ofJson item :: itemsOfJson rest

/-- The values of the entries of an object. -/
def entriesOfJson : List (String × Json) → List (String × Value)
  | [] => []
  | (key, json) :: rest => (key, ofJson json) :: entriesOfJson rest

end

end Value

end PackScope
