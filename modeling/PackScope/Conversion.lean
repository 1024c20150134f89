import PackScope.Diagnostic
import PackScope.Value.Json
import PackScope.VariableSet

/-!
The variables of a pack as JSON. A variable without a JSON form is left out and reported, and
changes nothing for the others.
-/

namespace PackScope

/-- The report of a variable that has no JSON form, by the key it stands under. -/
def conversionFailure (key : VariableId) (v : Variable) (e : ConversionError) : Diagnostic where
  severity := .error
  summary := "Failed to convert variable value"
  detail := "variable '" ++ key.text ++ "': " ++ e.message
  subject := some v.range

namespace PackVariables

/-- **The JSON forms of the variables that have one**, in key order. -/
def values (vars : PackVariables) : List (String × Json) :=
  vars.entries.filterMap fun e =>
    match e.2.value.toJson with
    | .ok json => some (e.1.text, json)
    | .error _ => none

/-- **The reports of the variables that have no JSON form**, in key order. -/
def failures (vars : PackVariables) : Diagnostics :=
  vars.entries.filterMap fun e =>
    match e.2.value.toJson with
    | .ok _ => none
    | .error error => some (conversionFailure e.1 e.2 error)

end PackVariables

/-- The variables of a pack in JSON, and the reports of those that have no JSON form. -/
def VariableSet.converted (set : VariableSet) (pack : PackId) :
    List (String × Json) × Diagnostics :=
  ((set.ofPack pack).values, (set.ofPack pack).failures)

end PackScope
