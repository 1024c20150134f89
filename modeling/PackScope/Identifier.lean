/-!
The names of packs and of variables. Every text is a valid name; the two kinds are kept apart by
their types, and each is ordered as its text is, by code points.
-/

namespace PackScope

/-- Names the variables of one pack, such as `app` or `app.db`. -/
structure PackId where
  text : String
  deriving DecidableEq, Repr, Inhabited

namespace PackId

instance : Ord PackId := ⟨compareOn PackId.text⟩

instance : Std.TransOrd PackId := inferInstanceAs (Std.TransCmp (compareOn PackId.text))

instance : Std.LawfulEqOrd PackId where
  eq_of_compare {a b} h := by
    have ht : a.text = b.text := Std.LawfulEqOrd.eq_of_compare h
    cases a; cases b; cases ht; rfl

/-- The name of a child below this one. -/
def join (parent : PackId) (child : String) : PackId := ⟨parent.text ++ "." ++ child⟩

end PackId

/-- Names a variable within its pack. -/
structure VariableId where
  text : String
  deriving DecidableEq, Repr, Inhabited

namespace VariableId

instance : Ord VariableId := ⟨compareOn VariableId.text⟩

instance : Std.TransOrd VariableId := inferInstanceAs (Std.TransCmp (compareOn VariableId.text))

instance : Std.LawfulEqOrd VariableId where
  eq_of_compare {a b} h := by
    have ht : a.text = b.text := Std.LawfulEqOrd.eq_of_compare h
    cases a; cases b; cases ht; rfl

end VariableId

end PackScope
