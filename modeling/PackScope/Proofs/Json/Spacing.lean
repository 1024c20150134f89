import Mathlib.Tactic.Lemma
import PackScope.Json.Printer
import PackScope.Json.Reader

/-!
The two layouts of JSON text as one. Both put the same marks and parts in the same places, and fill
the places between them with blanks of their own.
-/

namespace PackScope.Json

/-- **The blanks of a layout**: those in front of the items at a level of nesting, and those behind
a colon. -/
structure Spacing where
  gap : Nat → List Char
  colon : List Char
  gap_blank : ∀ level, ∀ c ∈ gap level, isBlank c = true
  colon_blank : ∀ c ∈ colon, isBlank c = true

/-- No blanks at all. -/
def Spacing.tight : Spacing where
  gap _ := []
  colon := []
  gap_blank _ _ h := absurd h List.not_mem_nil
  colon_blank _ h := absurd h List.not_mem_nil

/-- A line for each item. -/
def Spacing.lines : Spacing where
  gap := newLine
  colon := [' ']
  gap_blank level c h := by
    rcases List.mem_cons.1 h with rfl | h
    · rfl
    · rw [List.eq_of_mem_replicate h]
      rfl
  colon_blank c h := by
    rw [List.mem_singleton.1 h]
    rfl

variable (s : Spacing)

mutual

/-- **The text of a value** with given blanks, at a level of nesting. -/
def spaced (level : Nat) : Json → List Char
  | null => "null".toList
  | bool true => "true".toList
  | bool false => "false".toList
  | integer n => integerText n
  | float x => numberText x
  | string s => quoted s
  | array [] => ['[', ']']
  | array (item :: rest) =>
    '[' :: (s.gap (level + 1) ++ (item.spaced (level + 1) ++ spacedItems level rest))
  | object [] => ['\x7b', '\x7d']
  | object ((key, value) :: rest) =>
    '\x7b' :: (s.gap (level + 1) ++ (quoted key ++ ':' :: (s.colon ++
      (value.spaced (level + 1) ++ spacedEntries level rest))))

/-- The items of an array after the first one, and the closing bracket. -/
def spacedItems (level : Nat) : List Json → List Char
  | [] => s.gap level ++ [']']
  | item :: rest =>
    ',' :: (s.gap (level + 1) ++ (item.spaced (level + 1) ++ spacedItems level rest))

/-- The entries of an object after the first one, and the closing brace. -/
def spacedEntries (level : Nat) : List (String × Json) → List Char
  | [] => s.gap level ++ ['\x7d']
  | (key, value) :: rest =>
    ',' :: (s.gap (level + 1) ++ (quoted key ++ ':' :: (s.colon ++
      (value.spaced (level + 1) ++ spacedEntries level rest))))

end

mutual

lemma compact_eq (level : Nat) : (j : Json) → j.compact = j.spaced .tight level
  | null => rfl
  | bool true => rfl
  | bool false => rfl
  | integer _ => rfl
  | float _ => rfl
  | string _ => rfl
  | array [] => rfl
  | array (item :: rest) => by
    change '[' :: (item.compact ++ compactItems rest) = _
    rw [compact_eq (level + 1) item, compactItems_eq level rest]
    rfl
  | object [] => rfl
  | object ((key, value) :: rest) => by
    change '\x7b' :: (quoted key ++ ':' :: (value.compact ++ compactEntries rest)) = _
    rw [compact_eq (level + 1) value, compactEntries_eq level rest]
    rfl

lemma compactItems_eq (level : Nat) : (js : List Json) →
    compactItems js = spacedItems .tight level js
  | [] => rfl
  | item :: rest => by
    change ',' :: (item.compact ++ compactItems rest) = _
    rw [compact_eq (level + 1) item, compactItems_eq level rest]
    rfl

lemma compactEntries_eq (level : Nat) : (es : List (String × Json)) →
    compactEntries es = spacedEntries .tight level es
  | [] => rfl
  | (key, value) :: rest => by
    change ',' :: (quoted key ++ ':' :: (value.compact ++ compactEntries rest)) = _
    rw [compact_eq (level + 1) value, compactEntries_eq level rest]
    rfl

end

mutual

lemma prettyAt_eq (level : Nat) : (j : Json) → j.prettyAt level = j.spaced .lines level
  | null => rfl
  | bool true => rfl
  | bool false => rfl
  | integer _ => rfl
  | float _ => rfl
  | string _ => rfl
  | array [] => rfl
  | array (item :: rest) => by
    change '[' :: (newLine (level + 1) ++ (item.prettyAt (level + 1) ++
      prettyItems level rest)) = _
    rw [prettyAt_eq (level + 1) item, prettyItems_eq level rest]
    rfl
  | object [] => rfl
  | object ((key, value) :: rest) => by
    change '\x7b' :: (newLine (level + 1) ++ (quoted key ++ ':' :: ' ' ::
      (value.prettyAt (level + 1) ++ prettyEntries level rest))) = _
    rw [prettyAt_eq (level + 1) value, prettyEntries_eq level rest]
    rfl

lemma prettyItems_eq (level : Nat) : (js : List Json) →
    prettyItems level js = spacedItems .lines level js
  | [] => rfl
  | item :: rest => by
    change ',' :: (newLine (level + 1) ++ (item.prettyAt (level + 1) ++
      prettyItems level rest)) = _
    rw [prettyAt_eq (level + 1) item, prettyItems_eq level rest]
    rfl

lemma prettyEntries_eq (level : Nat) : (es : List (String × Json)) →
    prettyEntries level es = spacedEntries .lines level es
  | [] => rfl
  | (key, value) :: rest => by
    change ',' :: (newLine (level + 1) ++ (quoted key ++ ':' :: ' ' ::
      (value.prettyAt (level + 1) ++ prettyEntries level rest))) = _
    rw [prettyAt_eq (level + 1) value, prettyEntries_eq level rest]
    rfl

end

end PackScope.Json
