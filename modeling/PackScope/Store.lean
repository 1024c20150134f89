import PackScope.Conversion

/-!
Loaded variables. A store takes one set of variables, in either layout, and is only read after that;
both layouts are read through one view.
-/

namespace PackScope

/-- The layout in which a set of variables is loaded. -/
inductive Layout where
  | legacy
  | unified
  deriving DecidableEq, Repr, Inhabited

/-- The word for a layout. -/
def Layout.text : Layout → String
  | legacy => "legacy"
  | unified => "unified"

/-- **The variables that were loaded**, if any were. -/
inductive Store where
  | unloaded
  | legacy (set : LegacySet)
  | unified (set : VariableSet)

/-- The refusal of a second load; it names the layout of the first one. -/
structure AlreadyLoaded where
  layout : Layout
  deriving DecidableEq, Repr, Inhabited

/-- The message for a refused load. -/
def AlreadyLoaded.message (e : AlreadyLoaded) : String :=
  "variables already loaded (" ++ e.layout.text ++ ")"

namespace Store

instance : Inhabited Store := ⟨unloaded⟩

/-- The layout of the loaded set. -/
def layout? : Store → Option Layout
  | unloaded => none
  | legacy _ => some .legacy
  | unified _ => some .unified

/-- Whether a set was loaded. -/
def isLoaded : Store → Bool
  | unloaded => false
  | _ => true

/-- Whether a set was loaded in the older layout. -/
def isLegacy (store : Store) : Bool := store.layout? = some .legacy

/-- Whether a set was loaded under typed names. -/
def isUnified (store : Store) : Bool := store.layout? = some .unified

/-! ### Loading -/

/-- Puts a loaded store in place of one that holds nothing. -/
def load (store loaded : Store) : Except AlreadyLoaded Store :=
  match store.layout? with
  | some layout => .error ⟨layout⟩
  | none => .ok loaded

/-- Loads a set in the older layout. -/
def loadLegacy (store : Store) (set : LegacySet) : Except AlreadyLoaded Store :=
  store.load (legacy set)

/-- Loads a set of variables. -/
def loadUnified (store : Store) (set : VariableSet) : Except AlreadyLoaded Store :=
  store.load (unified set)

/-! ### Reading -/

/-- **The loaded variables**, under typed names in either layout. -/
def contents : Store → VariableSet
  | unloaded => .empty
  | legacy set => set.rekey
  | unified set => set

/-- The loaded set, if it is in the older layout. -/
def legacySet? : Store → Option LegacySet
  | legacy set => some set
  | _ => none

/-- The variable that a pack holds under a key. -/
def lookup? (store : Store) (pack key : String) : Option Variable :=
  match store with
  | unloaded => none
  | legacy set => (set.get? pack).bind (·.get? key)
  | unified set => set.lookup? ⟨pack⟩ ⟨key⟩

/-- The names of the loaded packs, in ascending order. -/
def packIds (store : Store) : List PackId := store.contents.keys

/-! ### Renderings -/

/-- The characters of the dump of a store. -/
def dumpChars (store : Store) : List Char :=
  store.contents.entries.flatMap fun pack =>
    pack.2.entries.flatMap fun e => e.2.blockChars pack.1

/-- **The override file that restates every variable**, in the order of packs and keys. -/
def dump (store : Store) : String := .ofList store.dumpChars

/-- **The flat map of all packs**, from the name of a pack to its variables in JSON. -/
def flat (store : Store) : Json :=
  .object (store.contents.entries.map fun pack => (pack.1.text, .object pack.2.values))

/-- The reports of all variables that are missing in the flat map. -/
def flatFailures (store : Store) : Diagnostics :=
  store.contents.entries.flatMap fun pack => pack.2.failures

end Store

end PackScope
