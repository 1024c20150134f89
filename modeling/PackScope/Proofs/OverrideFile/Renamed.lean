import Mathlib.Data.List.Perm.Subperm
import PackScope.Proofs.OverrideFile.Redump
import PackScope.Proofs.OverrideFile.RoundTrip
import PackScope.Proofs.Toml.Repeats

/-!
Dumps of variables that do not stand under their names. A dump restates every variable under its
name, so it is read as the set that was dumped exactly if the names are other keys for the same
values: no two variables of a pack share a name, and each has the value that stands under its name.
-/

namespace PackScope

open Toml (Data Sheet)

/-! ### Simple sets -/

/-- Whether a value is a truth value, a whole number or a text. -/
def Value.isSimple : Value → Bool
  | .bool _ | .integer _ | .string _ => true
  | _ => false

/-- **Whether a set has bare names and simple values only**, and no descriptions. The names of its
variables need not be the keys under which they stand. -/
structure VariableSet.IsSimple (set : VariableSet) : Prop where
  pack_bare : ∀ p ∈ set.entries, Toml.isBareKey p.1.text.toList = true
  key_bare : ∀ p ∈ set.entries, ∀ e ∈ p.2.entries, Toml.isBareKey e.1.text.toList = true
  name_bare : ∀ p ∈ set.entries, ∀ e ∈ p.2.entries, Toml.isBareKey e.2.name.text.toList = true
  description_eq : ∀ p ∈ set.entries, ∀ e ∈ p.2.entries, e.2.description = none
  simple : ∀ p ∈ set.entries, ∀ e ∈ p.2.entries, e.2.value.isSimple = true

section Simple

lemma isPlainName_of_isBareKey {name : String} (h : Toml.isBareKey name.toList = true) :
    IsPlainName name := by
  have hbare := Toml.isBareChar_of_mem h
  refine ⟨fun c hc => Toml.isTextChar_of_isBareChar (hbare c hc), fun hquotes => ?_⟩
  exact absurd (hbare _ hquotes.1) (by decide)

/-- Simple values have a TOML form without parts. -/
lemma Value.of_isSimple {v : Value} (h : v.isSimple = true) :
    v.isWritable = true ∧ v.Ordered ∧ v.depth = 0 ∧ v.startsReserved = false := by
  cases v with
  | bool b => exact ⟨rfl, trivial, rfl, rfl⟩
  | integer n => exact ⟨rfl, trivial, rfl, rfl⟩
  | string s => exact ⟨rfl, trivial, rfl, rfl⟩
  | _ => cases h

variable {set : VariableSet} {filename : String}

lemma VariableSet.IsSimple.readable (h : set.IsSimple) :
    ∀ p ∈ set.entries, ∀ e ∈ p.2.entries, Variable.Readable e.2 p.1 := by
  intro p hp e he
  have hpack := isPlainName_of_isBareKey (h.pack_bare p hp)
  have hname := isPlainName_of_isBareKey (h.name_bare p hp e he)
  obtain ⟨-, hordered, hdepth, -⟩ := Value.of_isSimple (h.simple p hp e he)
  refine ⟨hpack.1, hname.1, fun s hs => ?_, fun _ => hpack.onOneLine, fun _ => hname.onOneLine,
    fun _ => hordered, fun _ => hdepth.le.trans (Nat.zero_le _)⟩
  rw [h.description_eq p hp e he] at hs
  cases hs

lemma mem_namedSheet {x : String × List (String × Data)} : x ∈ set.namedSheet ↔
    ∃ p ∈ set.entries, x = (p.1.text, p.2.named) ∧ p.2.named ≠ [] := by
  rw [VariableSet.namedSheet, List.mem_filter, List.mem_map]
  constructor
  · rintro ⟨⟨p, hp, rfl⟩, hne⟩
    exact ⟨p, hp, rfl, by simpa using hne⟩
  · rintro ⟨p, hp, rfl, hne⟩
    exact ⟨⟨p, hp, rfl⟩, by simpa using hne⟩

lemma mem_named {vars : PackVariables} {y : String × Data} : y ∈ vars.named ↔
    ∃ e ∈ vars.entries, e.2.value.toToml? = some y.2 ∧ e.2.name.text = y.1 := by
  rw [PackVariables.named, List.mem_filterMap]
  refine exists_congr fun e => and_congr_right fun _ => ?_
  rw [Option.map_eq_some_iff]
  constructor
  · rintro ⟨d, hd, rfl⟩
    exact ⟨hd, rfl⟩
  · rintro ⟨hd, hname⟩
    exact ⟨y.2, hd, Prod.ext hname rfl⟩

/-! ### What a dump is read as -/

lemma lookup?_eq_some_iff {pack : PackId} {key : VariableId} {v : Variable} :
    set.lookup? pack key = some v ↔ ∃ p ∈ set.entries, p.1 = pack ∧ (key, v) ∈ p.2.entries := by
  constructor
  · intro h
    obtain ⟨vars, hvars, hv⟩ := VariableSet.mem_of_lookup? h
    exact ⟨(pack, vars), hvars, rfl, hv⟩
  · rintro ⟨p, hp, rfl, hv⟩
    exact VariableSet.lookup?_of_mem hp hv

lemma eq_of_mem_entries {p q : PackId × PackVariables} (hp : p ∈ set.entries)
    (hq : q ∈ set.entries) (h : p.1 = q.1) : p = q := by
  refine Prod.ext h (Option.some.inj ?_)
  rw [← set.ascending.get?_eq_some_iff.2 hp, h]
  exact set.ascending.get?_eq_some_iff.2 hq

/-- The variables of tables are their entries. -/
lemma lookup?_variables {sheet : Sheet} (h : sheet.Proper) {pack : PackId} {key : VariableId}
    {w : Variable} : sheet.variables.lookup? pack key = some w ↔
      ∃ x ∈ sheet, x.1 = pack.text ∧ ∃ y ∈ x.2, restatedEntry y = (key, w) := by
  have hsheet : (sheet.map fun x => ((⟨x.1⟩ : PackId),
      (KeyMap.ofList (x.2.map restatedEntry) : PackVariables))).Pairwise
        fun a b => a.1 ≠ b.1 := by
    rw [List.pairwise_map]
    exact h.tables.imp fun hne heq => hne (PackId.mk.inj heq)
  have hentries {x : String × List (String × Data)} (hx : x ∈ sheet) :
      (x.2.map restatedEntry).Pairwise fun a b => a.1 ≠ b.1 := by
    rw [List.pairwise_map]
    exact (h.keys x hx).imp fun hne heq => hne (VariableId.mk.inj heq)
  rw [lookup?_eq_some_iff]
  constructor
  · rintro ⟨p, hp, rfl, hw⟩
    obtain ⟨x, hx, rfl⟩ := List.mem_map.1 ((KeyMap.mem_ofList_iff hsheet).1 hp)
    obtain ⟨y, hy, hyw⟩ := List.mem_map.1 ((KeyMap.mem_ofList_iff (hentries hx)).1 hw)
    exact ⟨x, hx, rfl, y, hy, hyw⟩
  · rintro ⟨x, hx, hpack, y, hy, hyw⟩
    refine ⟨_, (KeyMap.mem_ofList_iff hsheet).2 (List.mem_map_of_mem hx),
      congrArg PackId.mk hpack, ?_⟩
    exact (KeyMap.mem_ofList_iff (hentries hx)).2 (hyw ▸ List.mem_map_of_mem hy)

/-- A variable stands in the set of a dump exactly if one with this name and value was dumped. -/
lemma lookup?_namedSheet (hproper : set.namedSheet.Proper) {pack : PackId} {name : VariableId}
    {w : Variable} : set.namedSheet.variables.lookup? pack name = some w ↔
      ∃ key v, set.lookup? pack key = some v ∧ v.value.isWritable = true ∧ v.name = name ∧
        w = { name := name, value := v.value } := by
  rw [lookup?_variables hproper]
  constructor
  · rintro ⟨x, hx, hpack, y, hy, hyw⟩
    obtain ⟨p, hp, rfl, -⟩ := mem_namedSheet.1 hx
    obtain ⟨e, he, hd, hname⟩ := mem_named.1 hy
    obtain ⟨hkey, rfl⟩ := Prod.mk.inj hyw
    have hlookup : set.lookup? pack e.1 = some e.2 :=
      lookup?_eq_some_iff.2 ⟨p, hp, congrArg PackId.mk hpack, he⟩
    refine ⟨e.1, e.2, hlookup, by rw [Value.isWritable, hd]; rfl, ?_, ?_⟩
    · rw [← hkey, ← hname]
    · rw [hkey, Value.ofToml_toToml? hd]
  · rintro ⟨key, v, hv, hwritable, rfl, rfl⟩
    obtain ⟨p, hp, rfl, he⟩ := lookup?_eq_some_iff.1 hv
    obtain ⟨d, hd⟩ := Option.isSome_iff_exists.1 hwritable
    have hy : (v.name.text, d) ∈ p.2.named := mem_named.2 ⟨_, he, hd, rfl⟩
    refine ⟨_, mem_namedSheet.2 ⟨p, hp, rfl, List.ne_nil_of_mem hy⟩, rfl, _, hy, ?_⟩
    rw [restatedEntry, Value.ofToml_toToml? hd]

/-- No pack has two tables in a dump, and none an empty one. -/
lemma proper_of_keys (h : ∀ x ∈ set.namedSheet, x.2.Pairwise fun a b => a.1 ≠ b.1) :
    set.namedSheet.Proper := by
  have hpacks : (set.entries.map fun p => (p.1.text, p.2.named)).Pairwise
      fun a b => a.1 ≠ b.1 := by
    rw [List.pairwise_map]
    exact set.ascending.keys_ne.imp fun hne heq => hne (congrArg PackId.mk heq)
  refine ⟨hpacks.filter _, h, fun x hx => ?_⟩
  obtain ⟨p, -, rfl, hne⟩ := mem_namedSheet.1 hx
  exact hne

/-- No table of the dump of a simple set has a key twice exactly if no two variables of a pack share
a name. -/
lemma VariableSet.IsSimple.proper_iff (h : set.IsSimple) : set.namedSheet.Proper ↔
    ∀ pack key key' v v', set.lookup? pack key = some v → set.lookup? pack key' = some v' →
      v.name = v'.name → key = key' := by
  constructor
  · intro hproper pack key key' v v' hv hv' hname
    obtain ⟨p, hp, hpack, he⟩ := lookup?_eq_some_iff.1 hv
    obtain ⟨q, hq, hpack', he'⟩ := lookup?_eq_some_iff.1 hv'
    obtain rfl := eq_of_mem_entries hp hq (hpack.trans hpack'.symm)
    obtain ⟨d, hd⟩ := Option.isSome_iff_exists.1 (Value.of_isSimple (h.simple p hp _ he)).1
    obtain ⟨d', hd'⟩ := Option.isSome_iff_exists.1 (Value.of_isSimple (h.simple p hp _ he')).1
    have hmem : (v.name.text, d) ∈ p.2.named := mem_named.2 ⟨_, he, hd, rfl⟩
    have hkeys := hproper.keys _ (mem_namedSheet.2 ⟨p, hp, rfl, List.ne_nil_of_mem hmem⟩)
    by_contra hkey
    rw [PackVariables.named, List.pairwise_filterMap] at hkeys
    have hsymm : Std.Symm fun a b : VariableId × Variable =>
        ∀ y ∈ a.2.value.toToml?.map fun d => (a.2.name.text, d),
          ∀ z ∈ b.2.value.toToml?.map fun d => (b.2.name.text, d), y.1 ≠ z.1 :=
      ⟨fun _ _ h y hy z hz => (h z hz y hy).symm⟩
    have hdistinct := hkeys.forall he he' fun heq => hkey (congrArg Prod.fst heq)
    refine hdistinct (v.name.text, d) ?_ (v'.name.text, d') ?_ (congrArg VariableId.text hname)
    · rw [hd]
      rfl
    · rw [hd']
      rfl
  · intro hnames
    refine proper_of_keys fun x hx => ?_
    obtain ⟨p, hp, rfl, -⟩ := mem_namedSheet.1 hx
    rw [PackVariables.named, List.pairwise_filterMap]
    refine p.2.ascending.keys_ne.imp_of_mem fun {a b} ha hb hne y hy z hz heq => hne ?_
    obtain ⟨d, -, rfl⟩ := Option.map_eq_some_iff.1 hy
    obtain ⟨d', -, rfl⟩ := Option.map_eq_some_iff.1 hz
    exact hnames p.1 a.1 b.1 a.2 b.2 (VariableSet.lookup?_of_mem hp ha)
      (VariableSet.lookup?_of_mem hp hb) (congrArg VariableId.mk heq)

/-- **A dump of a simple set whose names are no key twice is read as the set of its tables.** -/
lemma VariableSet.IsSimple.exists_read (h : set.IsSimple) (hproper : set.namedSheet.Proper)
    (filename : String) : ∃ result,
      OverrideFile.read filename (Store.unified set).dump = .ok result ∧
        result.forgetRanges = set.namedSheet.variables := by
  refine (exists_read_of_settings (readsLines_dumpChars h.readable) (not_marked set) hproper
    (writable_namedSheet h.readable) filename).2 fun x hx y hy => ?_
  obtain ⟨p, hp, rfl, -⟩ := mem_namedSheet.1 hx
  obtain ⟨e, he, hd, -⟩ := mem_named.1 hy
  rw [Data.startsReserved, Value.ofToml_toToml? hd]
  exact (Value.of_isSimple (h.simple p hp e he)).2.2.2

/-- A dump of a simple set is read only if no name is a key twice. -/
lemma VariableSet.IsSimple.proper_of_read (h : set.IsSimple) {result : VariableSet}
    (hread : OverrideFile.read filename (Store.unified set).dump = .ok result) :
    set.namedSheet.Proper := by
  obtain ⟨root, hroot, -⟩ := OverrideFile.read_eq_ok.1 hread
  have hpairwise := (readsLines_dumpChars h.readable).pairwise_of_read? (not_marked set) hroot
  rw [Sheet.settings, List.pairwise_flatMap] at hpairwise
  refine proper_of_keys fun x hx => ?_
  have hsettings := hpairwise.1 x hx
  rw [Toml.settingsOf, List.pairwise_map] at hsettings
  exact hsettings.imp fun hne heq => hne (Prod.ext rfl heq)

/-- The values that are read from a dump are those of the variables with the names. -/
lemma VariableSet.IsSimple.values_of_read (h : set.IsSimple) (hproper : set.namedSheet.Proper)
    {result : VariableSet} (hforget : result.forgetRanges = set.namedSheet.variables)
    {pack : PackId} {name : VariableId} {x : Value} :
    (result.lookup? pack name).map Variable.value = some x ↔
      ∃ key v, set.lookup? pack key = some v ∧ v.name = name ∧ v.value = x := by
  have hlookup : (result.lookup? pack name).map Variable.value =
      (set.namedSheet.variables.lookup? pack name).map Variable.value := by
    rw [← hforget, VariableSet.lookup?_forgetRanges, Option.map_map]
    rfl
  rw [hlookup, Option.map_eq_some_iff]
  constructor
  · rintro ⟨w, hw, rfl⟩
    obtain ⟨key, v, hv, -, hname, rfl⟩ := (lookup?_namedSheet hproper).1 hw
    exact ⟨key, v, hv, hname, rfl⟩
  · rintro ⟨key, v, hv, rfl, rfl⟩
    obtain ⟨p, hp, rfl, he⟩ := lookup?_eq_some_iff.1 hv
    have hwritable := (Value.of_isSimple (h.simple p hp _ he)).1
    exact ⟨_, (lookup?_namedSheet hproper).2 ⟨key, v, hv, hwritable, rfl, rfl⟩, rfl⟩

/-- If no two variables of a pack share a name and all names are keys, all keys are names. -/
lemma exists_name_eq (hnames : ∀ pack key key' v v', set.lookup? pack key = some v →
      set.lookup? pack key' = some v' → v.name = v'.name → key = key')
    (hkeys : ∀ pack key v, set.lookup? pack key = some v →
      (set.lookup? pack v.name).map Variable.value = some v.value)
    {pack : PackId} {key : VariableId} {w : Variable} (hw : set.lookup? pack key = some w) :
    ∃ key' v, set.lookup? pack key' = some v ∧ v.name = key := by
  obtain ⟨p, hp, rfl, hmem⟩ := lookup?_eq_some_iff.1 hw
  have hlookup {e : VariableId × Variable} (he : e ∈ p.2.entries) := VariableSet.lookup?_of_mem hp he
  have hnodup : (p.2.entries.map fun e => e.2.name).Nodup := by
    refine List.pairwise_map.2 (p.2.ascending.keys_ne.imp_of_mem fun {a b} ha hb hne hname => hne ?_)
    exact hnames p.1 a.1 b.1 a.2 b.2 (hlookup ha) (hlookup hb) hname
  have hsub : (p.2.entries.map fun e => e.2.name) ⊆ p.2.entries.map Prod.fst := by
    intro name hname
    obtain ⟨e, he, rfl⟩ := List.mem_map.1 hname
    obtain ⟨v, hv, -⟩ := Option.map_eq_some_iff.1 (hkeys p.1 e.1 e.2 (hlookup he))
    obtain ⟨q, hq, hqp, hvq⟩ := lookup?_eq_some_iff.1 hv
    obtain rfl := eq_of_mem_entries hq hp hqp
    exact List.mem_map_of_mem hvq
  -- As many names as keys, all of them different: they are the same.
  have hperm := (List.subperm_of_subset hnodup hsub).perm_of_length_le (by simp)
  obtain ⟨e, he, hname⟩ := List.mem_map.1 (hperm.mem_iff.2 (List.mem_map_of_mem hmem))
  exact ⟨e.1, e.2, hlookup he, hname⟩

/-- **The dump of a simple set keeps the addresses of its variables when it is read**, with their
values and no others, exactly if no two variables of a pack share a name and each has the value that
stands under its name. -/
theorem VariableSet.IsSimple.dump_keeps_addresses_iff (h : set.IsSimple) (filename : String) :
    (∃ result, OverrideFile.read filename (Store.unified set).dump = .ok result ∧
      ∀ pack key, (result.lookup? pack key).map Variable.value =
        (set.lookup? pack key).map Variable.value) ↔
      (∀ pack key key' v v', set.lookup? pack key = some v → set.lookup? pack key' = some v' →
        v.name = v'.name → key = key') ∧
        ∀ pack key v, set.lookup? pack key = some v →
          (set.lookup? pack v.name).map Variable.value = some v.value := by
  constructor
  · rintro ⟨result, hresult, hvalues⟩
    have hproper := h.proper_of_read hresult
    refine ⟨h.proper_iff.1 hproper, fun pack key v hv => ?_⟩
    obtain ⟨result', hresult', hforget⟩ := h.exists_read hproper filename
    obtain rfl : result = result' := Except.ok.inj (hresult.symm.trans hresult')
    rw [← hvalues, h.values_of_read hproper hforget]
    exact ⟨key, v, hv, rfl, rfl⟩
  · rintro ⟨hnames, hvalues⟩
    have hproper := h.proper_iff.2 hnames
    obtain ⟨result, hresult, hforget⟩ := h.exists_read hproper filename
    refine ⟨result, hresult, fun pack key => Option.ext fun x => ?_⟩
    rw [h.values_of_read hproper hforget]
    constructor
    · rintro ⟨key', v, hv, rfl, rfl⟩
      exact hvalues pack key' v hv
    · intro hx
      obtain ⟨w, hw, rfl⟩ := Option.map_eq_some_iff.1 hx
      obtain ⟨key', v, hv, rfl⟩ := exists_name_eq hnames hvalues hw
      have hvalue := hvalues pack key' v hv
      rw [hw] at hvalue
      exact ⟨key', v, hv, rfl, (Option.some.inj hvalue).symm⟩

/-- Two variables of one value that stand under each other's names. -/
def swappedNames : VariableSet :=
  VariableSet.put (.put .empty ⟨"app"⟩ ⟨"host"⟩ { name := ⟨"name"⟩, value := .string "web" })
    ⟨"app"⟩ ⟨"name"⟩ { name := ⟨"host"⟩, value := .string "web" }

lemma lookup?_swappedNames {pack : PackId} {key : VariableId} {v : Variable}
    (hv : swappedNames.lookup? pack key = some v) : pack = ⟨"app"⟩ ∧
      (key = ⟨"host"⟩ ∧ v = { name := ⟨"name"⟩, value := .string "web" } ∨
        key = ⟨"name"⟩ ∧ v = { name := ⟨"host"⟩, value := .string "web" }) := by
  obtain ⟨p, hp, rfl, hmem⟩ := lookup?_eq_some_iff.1 hv
  obtain rfl := List.mem_singleton.1 hp
  rcases List.mem_cons.1 hmem with heq | hmem
  · exact ⟨rfl, .inl (Prod.mk.inj heq)⟩
  · exact ⟨rfl, .inr (Prod.mk.inj (List.mem_singleton.1 hmem))⟩

theorem dump_keeps_addresses_swappedNames :
    swappedNames.IsSimple ∧ ∃ result,
      OverrideFile.read "a.toml" (Store.unified swappedNames).dump = .ok result ∧
        ∀ pack key, (result.lookup? pack key).map Variable.value =
          (swappedNames.lookup? pack key).map Variable.value := by
  have hsimple : swappedNames.IsSimple := ⟨by decide, by decide, by decide, by decide, by decide⟩
  refine ⟨hsimple, (hsimple.dump_keeps_addresses_iff "a.toml").2 ⟨?_, ?_⟩⟩
  · intro pack key key' v v' hv hv' hname
    obtain ⟨-, ⟨rfl, rfl⟩ | ⟨rfl, rfl⟩⟩ := lookup?_swappedNames hv <;>
      obtain ⟨-, ⟨rfl, rfl⟩ | ⟨rfl, rfl⟩⟩ := lookup?_swappedNames hv'
    all_goals first | rfl | exact absurd hname (by decide)
  · intro pack key v hv
    obtain ⟨rfl, ⟨rfl, rfl⟩ | ⟨rfl, rfl⟩⟩ := lookup?_swappedNames hv
    · rfl
    · rfl

/-- A variable that stands under another key than its name. -/
def otherKey : VariableSet :=
  VariableSet.put .empty ⟨"a"⟩ ⟨"k"⟩ { name := ⟨"n"⟩, value := .integer 1 }

/-- Two variables with one name. -/
def sharedName : VariableSet :=
  VariableSet.put otherKey ⟨"a"⟩ ⟨"l"⟩ { name := ⟨"n"⟩, value := .integer 2 }

/-- What the dump of the first set is read as. -/
lemma read_otherKey : OverrideFile.read "a.toml" (Store.unified otherKey).dump =
    .ok (VariableSet.put .empty ⟨"a"⟩ ⟨"n"⟩
      { name := ⟨"n"⟩, value := .integer 1, range := ⟨"a.toml", ⟨2, 7, 23⟩, ⟨2, 8, 24⟩⟩ }) := by
  decide +kernel

/-- **The dump forgets the keys of variables** that are not their names, and cannot be read if two
variables share a name. -/
theorem dump_forgets_keys :
    (otherKey.IsSimple ∧ ∃ result,
      OverrideFile.read "a.toml" (Store.unified otherKey).dump = .ok result ∧
        otherKey.lookup? ⟨"a"⟩ ⟨"k"⟩ ≠ none ∧ result.lookup? ⟨"a"⟩ ⟨"k"⟩ = none) ∧
      sharedName.IsSimple ∧
        (OverrideFile.read "a.toml" (Store.unified sharedName).dump).isOk = false := by
  have hother : otherKey.IsSimple := ⟨by decide, by decide, by decide, by decide, by decide⟩
  have hshared : sharedName.IsSimple := ⟨by decide, by decide, by decide, by decide, by decide⟩
  refine ⟨⟨hother, _, read_otherKey, nofun, rfl⟩, hshared, ?_⟩
  decide +kernel

end Simple

end PackScope
