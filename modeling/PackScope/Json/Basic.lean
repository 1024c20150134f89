import PackScope.Number.Binary64

/-!
JSON values. An object keeps its entries in the order in which they are written.
-/

namespace PackScope

/-- **A JSON value.** A number is a whole number of any size or a double-precision number. -/
inductive Json where
  | null
  | bool (b : Bool)
  | integer (n : Int)
  | float (x : Binary64)
  | string (s : String)
  | array (items : List Json)
  | object (entries : List (String × Json))
  deriving Repr, Inhabited

namespace Json

mutual

/-- Whether two JSON values are the same, part by part and in the same order. -/
def beq : Json → Json → Bool
  | null, null => true
  | bool b, bool c => b = c
  | integer m, integer n => m = n
  | float x, float y => x = y
  | string s, string t => s = t
  | array items, array others => beqItems items others
  | object entries, object others => beqEntries entries others
  | _, _ => false

/-- Whether two arrays have the same items. -/
def beqItems : List Json → List Json → Bool
  | [], [] => true
  | j :: rest, k :: others => j.beq k && beqItems rest others
  | _, _ => false

/-- Whether two objects have the same entries. -/
def beqEntries : List (String × Json) → List (String × Json) → Bool
  | [], [] => true
  | (key, j) :: rest, (other, k) :: others => key = other && j.beq k && beqEntries rest others
  | _, _ => false

end

mutual

theorem beq_iff : ∀ j k : Json, j.beq k = true ↔ j = k
  | array items, k => by cases k <;> simp [beq, beqItems_iff items]
  | object entries, k => by cases k <;> simp [beq, beqEntries_iff entries]
  | null, k | bool _, k | integer _, k | float _, k | string _, k => by cases k <;> simp [beq]

theorem beqItems_iff : ∀ js ks : List Json, beqItems js ks = true ↔ js = ks
  | [], ks => by cases ks <;> simp [beqItems]
  | j :: rest, ks => by cases ks <;> simp [beqItems, beq_iff j, beqItems_iff rest]

theorem beqEntries_iff : ∀ js ks : List (String × Json), beqEntries js ks = true ↔ js = ks
  | [], ks => by cases ks <;> simp [beqEntries]
  | (key, j) :: rest, ks => by
    cases ks <;> simp [beqEntries, beq_iff j, beqEntries_iff rest, Prod.ext_iff]

end

/-- JSON values are compared by a recursion over their parts, which the kernel can run. -/
instance : DecidableEq Json := fun j k => decidable_of_iff (j.beq k) (beq_iff j k)

end Json

end PackScope
