import PackScope.KeyMap
import PackScope.Variable

/-!
Sets of variables. A variable set groups variables by the pack that they belong to; a legacy set is
the same grouping under plain texts. A variable may stand under a key that is not its name.
-/

namespace PackScope

/-- The variables of one pack. -/
abbrev PackVariables := KeyMap VariableId Variable

/-- **The variables of several packs**; a pack may have none. -/
abbrev VariableSet := KeyMap PackId PackVariables

/-- **The variables of several packs in the older layout**, under plain texts. -/
abbrev LegacySet := KeyMap String (KeyMap String Variable)

namespace VariableSet

/-- The variables of a pack, none for a pack that is not in the set. -/
def ofPack (set : VariableSet) (pack : PackId) : PackVariables :=
  (set.get? pack).getD .empty

/-- The variable that a pack holds under a key. -/
def lookup? (set : VariableSet) (pack : PackId) (key : VariableId) : Option Variable :=
  (set.get? pack).bind (·.get? key)

/-- Makes sure that a pack is in the set. -/
def touch (set : VariableSet) (pack : PackId) : VariableSet := set.insert pack (set.ofPack pack)

/-- Puts a variable under a key of a pack, in place of one that stood there. -/
def put (set : VariableSet) (pack : PackId) (key : VariableId) (v : Variable) : VariableSet :=
  set.insert pack ((set.ofPack pack).insert key v)

/-- **A set layered over another**, variable by variable: where both hold a variable the upper
one's counts. -/
def overlay (base upper : VariableSet) : VariableSet :=
  upper.entries.foldl (fun set e => set.insert e.1 ((set.ofPack e.1).insertAll e.2.entries)) base

end VariableSet

namespace LegacySet

/-- The variables of a pack, none for a pack that is not in the set. -/
def ofPack (set : LegacySet) (pack : String) : KeyMap String Variable :=
  (set.get? pack).getD .empty

/-- Makes sure that a pack is in the set. -/
def touch (set : LegacySet) (pack : String) : LegacySet := set.insert pack (set.ofPack pack)

/-- Puts a variable under a key of a pack, in place of one that stood there. -/
def put (set : LegacySet) (pack key : String) (v : Variable) : LegacySet :=
  set.insert pack ((set.ofPack pack).insert key v)

/-- **The same variables under typed names.** -/
def rekey (set : LegacySet) : VariableSet :=
  (set.map fun vars => vars.mapKeys VariableId.mk fun _ _ h => h).mapKeys PackId.mk fun _ _ h => h

end LegacySet

end PackScope
