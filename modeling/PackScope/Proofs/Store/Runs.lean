import Mathlib.Logic.Function.Basic
import PackScope.Proofs.LegacyFile.Declarations
import PackScope.Proofs.OverrideFile.Origin
import PackScope.Proofs.VariableSet.Layers
import PackScope.Proofs.VariableSet.Rekey
import PackScope.Store

/-!
Runs of a program that fills its sets and stores from files only. However it reads, layers, renames
and loads them, every variable stands under its own name and is as one file declares it.
-/

namespace PackScope

/-- **The sets and the stores of a program**, each under a name of its own. -/
structure Session where
  sets : String → VariableSet
  legacySets : String → LegacySet
  stores : String → Store

namespace Session

/-- One step of a program: what it reads or renames goes into a set that it names, in place of what
was there. -/
inductive Step where
  | readOverrides (result filename text : String)
  | readLegacy (result filename text : String)
  | overlay (base upper : String)
  | rekey (result set : String)
  | loadLegacy (store set : String)
  | loadUnified (store set : String)

/-- The session with nothing in it. -/
def start : Session := ⟨fun _ => .empty, fun _ => .empty, fun _ => .unloaded⟩

/-- Puts the result of a load in place of a store, which stays as it is if the load is refused. -/
def putStore (s : Session) (name : String) (loaded : Except AlreadyLoaded Store) : Session :=
  match loaded with
  | .ok store => { s with stores := Function.update s.stores name store }
  | .error _ => s

/-- **What a step does.** A text that is refused changes nothing, and neither does a second load. -/
def step (s : Session) : Step → Session
  | .readOverrides result filename text =>
    match OverrideFile.read filename text with
    | .ok set => { s with sets := Function.update s.sets result set }
    | .error _ => s
  | .readLegacy result filename text =>
    match LegacyFile.read filename text with
    | .ok set => { s with legacySets := Function.update s.legacySets result set }
    | .error _ => s
  | .overlay base upper =>
    { s with sets := Function.update s.sets base ((s.sets base).overlay (s.sets upper)) }
  | .rekey result set =>
    { s with sets := Function.update s.sets result (s.legacySets set).rekey }
  | .loadLegacy store set => s.putStore store ((s.stores store).loadLegacy (s.legacySets set))
  | .loadUnified store set => s.putStore store ((s.stores store).loadUnified (s.sets set))

/-- The session after some steps. -/
def run (steps : List Step) : Session := steps.foldl step start

/-! ### What holds of all variables -/

/-- **Whether a rule holds of all variables of a session**, at the addresses where they stand in
sets, in legacy sets, and in what the stores hold. -/
structure All (P : PackId → VariableId → Variable → Prop) (s : Session) : Prop where
  sets : ∀ name pack key v, (s.sets name).lookup? pack key = some v → P pack key v
  legacySets : ∀ name pack key v,
    ((s.legacySets name).get? pack).bind (·.get? key) = some v → P ⟨pack⟩ ⟨key⟩ v
  stores : ∀ name pack key v, (s.stores name).contents.lookup? pack key = some v → P pack key v

variable {P : PackId → VariableId → Variable → Prop} {s : Session}

lemma All.putSet (h : s.All P) (name : String) {set : VariableSet}
    (hset : ∀ pack key v, set.lookup? pack key = some v → P pack key v) :
    All P { s with sets := Function.update s.sets name set } where
  sets := (Function.forall_update_iff s.sets fun _ set =>
    ∀ pack key v, set.lookup? pack key = some v → P pack key v).2 ⟨hset, fun other _ => h.sets other⟩
  legacySets := h.legacySets
  stores := h.stores

lemma All.putLegacySet (h : s.All P) (name : String) {set : LegacySet}
    (hset : ∀ pack key v, (set.get? pack).bind (·.get? key) = some v → P ⟨pack⟩ ⟨key⟩ v) :
    All P { s with legacySets := Function.update s.legacySets name set } where
  sets := h.sets
  legacySets := (Function.forall_update_iff s.legacySets fun _ set =>
    ∀ pack key v, (set.get? pack).bind (·.get? key) = some v → P ⟨pack⟩ ⟨key⟩ v).2
      ⟨hset, fun other _ => h.legacySets other⟩
  stores := h.stores

/-- A load takes effect only where nothing was loaded. -/
lemma All.putStore (h : s.All P) (name : String) {loaded : Store}
    (hloaded : ∀ pack key v, loaded.contents.lookup? pack key = some v → P pack key v) :
    All P (s.putStore name ((s.stores name).load loaded)) := by
  unfold Store.load
  split
  · exact h
  · exact ⟨h.sets, h.legacySets, (Function.forall_update_iff s.stores fun _ store =>
      ∀ pack key v, store.contents.lookup? pack key = some v → P pack key v).2
        ⟨hloaded, fun other _ => h.stores other⟩⟩

/-- What holds of the variables of a legacy set holds of them under typed names. -/
lemma All.rekey (h : s.All P) (name : String) (pack : PackId) (key : VariableId) (v : Variable)
    (hv : (s.legacySets name).rekey.lookup? pack key = some v) : P pack key v :=
  h.legacySets name pack.text key.text v
    ((LegacySet.lookup?_rekey _ pack.text key.text).symm.trans hv)

/-- **A step keeps a rule** that holds of the variables of every file that it reads. -/
lemma All.step {st : Step} (h : s.All P)
    (hoverrides : ∀ result filename text set, st = .readOverrides result filename text →
      OverrideFile.read filename text = .ok set →
        ∀ pack key v, set.lookup? pack key = some v → P pack key v)
    (hlegacy : ∀ result filename text set, st = .readLegacy result filename text →
      LegacyFile.read filename text = .ok set →
        ∀ pack key v, (set.get? pack).bind (·.get? key) = some v → P ⟨pack⟩ ⟨key⟩ v) :
    (s.step st).All P := by
  cases st with
  | readOverrides result filename text =>
    rw [Session.step]
    split
    next set hset => exact h.putSet result (hoverrides result filename text set rfl hset)
    next => exact h
  | readLegacy result filename text =>
    rw [Session.step]
    split
    next set hset => exact h.putLegacySet result (hlegacy result filename text set rfl hset)
    next => exact h
  | overlay base upper =>
    refine h.putSet base fun pack key v hv => ?_
    rw [VariableSet.lookup?_overlay, Option.or_eq_some_iff] at hv
    rcases hv with hv | ⟨-, hv⟩
    · exact h.sets upper pack key v hv
    · exact h.sets base pack key v hv
  | rekey result set => exact h.putSet result (h.rekey set)
  | loadLegacy store set => exact h.putStore store (h.rekey set)
  | loadUnified store set => exact h.putStore store (h.sets set)

/-! ### Variables of files -/

/-- An old file that is renamed, with a newer one layered over it. -/
example : ((run [.readLegacy "old" "a.json" "\x7b\"a\": \x7b\"b\": 1, \"c\": 3\x7d\x7d",
      .rekey "all" "old", .readOverrides "new" "b.toml" "a.b = 2\n", .overlay "all" "new",
      .loadUnified "store" "all", .loadLegacy "store" "old"]).stores "store").contents =
    .put (.put .empty ⟨"a"⟩ ⟨"b"⟩
        { name := ⟨"b"⟩, value := .integer 2,
          range := ⟨"b.toml", ⟨1, 7, 6⟩, ⟨1, 8, 7⟩⟩ }) ⟨"a"⟩ ⟨"c"⟩
      { name := ⟨"c"⟩, value := .integer 3, range := ⟨"a.json", ⟨1, 1, 0⟩, ⟨1, 1, 0⟩⟩ } := by
  decide +kernel

end Session

end PackScope
