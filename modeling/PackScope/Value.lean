import PackScope.Number.Binary64

/-!
The values of variables, and the kinds that a declaration may ask for. A value is richer than the
file formats: it may be unknown, and its numbers may be infinite or no number at all.
-/

namespace PackScope

/-- **The value of a variable.** The entries of a map stand in ascending key order. -/
inductive Value where
  | null
  | unknown
  | bool (b : Bool)
  | integer (n : Int64)
  | float (x : Binary64)
  | string (s : String)
  | list (items : List Value)
  | map (entries : List (String × Value))
  deriving Repr, Inhabited

namespace Value

/-- Whether a value is the null value itself. -/
def isNull : Value → Bool
  | null => true
  | _ => false

mutual

/-- Whether a value is known, with all that it contains. -/
def isKnown : Value → Bool
  | unknown => false
  | list items => allKnown items
  | map entries => allEntriesKnown entries
  | _ => true

/-- Whether all items of a list are known. -/
def allKnown : List Value → Bool
  | [] => true
  | item :: rest => item.isKnown && allKnown rest

/-- Whether all values of a map are known. -/
def allEntriesKnown : List (String × Value) → Bool
  | [] => true
  | (_, value) :: rest => value.isKnown && allEntriesKnown rest

end

/-! ### Equality -/

mutual

/-- Whether two values are the same, part by part. -/
def beq : Value → Value → Bool
  | null, null | unknown, unknown => true
  | bool b, bool c => b = c
  | integer m, integer n => m = n
  | float x, float y => x = y
  | string s, string t => s = t
  | list items, list others => beqItems items others
  | map entries, map others => beqEntries entries others
  | _, _ => false

/-- Whether two lists have the same items. -/
def beqItems : List Value → List Value → Bool
  | [], [] => true
  | v :: rest, w :: others => v.beq w && beqItems rest others
  | _, _ => false

/-- Whether two maps have the same entries. -/
def beqEntries : List (String × Value) → List (String × Value) → Bool
  | [], [] => true
  | (key, v) :: rest, (other, w) :: others => key = other && v.beq w && beqEntries rest others
  | _, _ => false

end

mutual

theorem beq_iff : ∀ v w : Value, v.beq w = true ↔ v = w
  | list items, w => by cases w <;> simp [beq, beqItems_iff items]
  | map entries, w => by cases w <;> simp [beq, beqEntries_iff entries]
  | null, w | unknown, w | bool _, w | integer _, w | float _, w | string _, w => by
    cases w <;> simp [beq]

theorem beqItems_iff : ∀ vs ws : List Value, beqItems vs ws = true ↔ vs = ws
  | [], ws => by cases ws <;> simp [beqItems]
  | v :: rest, ws => by cases ws <;> simp [beqItems, beq_iff v, beqItems_iff rest]

theorem beqEntries_iff : ∀ vs ws : List (String × Value), beqEntries vs ws = true ↔ vs = ws
  | [], ws => by cases ws <;> simp [beqEntries]
  | (key, v) :: rest, ws => by
    cases ws <;> simp [beqEntries, beq_iff v, beqEntries_iff rest, Prod.ext_iff]

end

/-- Values are compared by a recursion over their parts, which the kernel can run. -/
instance : DecidableEq Value := fun v w => decidable_of_iff (v.beq w) (beq_iff v w)

end Value

/-- The kind of value that a variable is declared to hold. -/
inductive Kind where
  | any
  | bool
  | number
  | string
  | list (item : Kind)
  | map (value : Kind)
  deriving DecidableEq, Repr, Inhabited

/-- A kind as it is written in a declaration. -/
def Kind.text : Kind → String
  | any => "any"
  | bool => "bool"
  | number => "number"
  | string => "string"
  | list item => "list(" ++ item.text ++ ")"
  | map value => "map(" ++ value.text ++ ")"

end PackScope
