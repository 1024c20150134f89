import PackScope.Proofs.Pack.Places
import PackScope.Proofs.Scope.Structure

/-!
Scopes and the flat map. At every node a scope shows the variables that the flat map holds under the
path of the node's pack, and what is loaded under the paths of other packs never shows.
-/

namespace PackScope

/-! ### The flat map -/

/-- What an object holds under a key. -/
def Json.member? (key : String) : Json → Option Json
  | object entries => Entries.get? key entries
  | _ => none

namespace Store

variable (store : Store)

lemma member?_flat (path : PackId) :
    store.flat.member? path.text =
      (store.contents.get? path).map fun vars => .object vars.values :=
  Entries.get?_map (f := PackId.text) (g := fun vars : PackVariables => Json.object vars.values)
    (fun _ _ => rfl) path store.contents.entries

lemma mem_packIds_iff {path : PackId} :
    path ∈ store.packIds ↔ (store.contents.get? path).isSome :=
  Entries.mem_keys_iff

end Store

/-- **Whether a node of a scope shows what the flat map holds** under the path of its pack: all of
it if the path is that of a loaded pack, and no variables otherwise. -/
structure Scope.IsFlat (node : Scope) (store : Store) : Prop where
  member?_eq : node.current.pack.path ∈ store.packIds →
    store.flat.member? node.current.pack.path.text = some (.object node.current.vars)
  vars_eq_nil : node.current.pack.path ∉ store.packIds →
    store.flat.member? node.current.pack.path.text = none ∧ node.current.vars = []

lemma Scope.isFlat_scope (store : Store) (p : Pack) : (store.scope p).1.IsFlat store := by
  have hpack : (store.scope p).1.current.pack = p := (shows_scope store p).pack_eq
  have hvars : (store.scope p).1.current.vars = (store.contents.ofPack p.path).values := by
    rw [Store.scope, ofPack_eq]
    rfl
  constructor
  · intro hloaded
    rw [hpack, Store.mem_packIds_iff] at hloaded
    obtain ⟨vars, hget⟩ := Option.isSome_iff_exists.1 hloaded
    rw [hpack, hvars, Store.member?_flat, VariableSet.ofPack, hget]
    rfl
  · intro habsent
    rw [hpack, Store.mem_packIds_iff, Option.not_isSome_iff_eq_none] at habsent
    rw [hpack, hvars, Store.member?_flat, VariableSet.ofPack, habsent]
    exact ⟨rfl, rfl⟩

/-! ### What a scope depends on -/

namespace Scope

variable {own other : PackId → List (String × Json) × Diagnostics}

mutual

/-- **A scope depends on the variables under the paths of its tree** and on no others. -/
theorem ofPack_congr : ∀ p : Pack, (∀ q ∈ p.all, own q.path = other q.path) →
    ofPack own p = ofPack other p
  | ⟨name, aliasName, path, chosen, metadata, dependencies⟩, h => by
    rw [Pack.all, List.forall_mem_cons] at h
    rw [ofPack, ofPack, h.1, ofDependencies_congr name [] dependencies h.2]

theorem ofDependencies_congr (parent : String) (earlier : List (String × Scope)) :
    ∀ ps : List Pack, (∀ q ∈ Pack.allOf ps, own q.path = other q.path) →
      ofDependencies own parent earlier ps = ofDependencies other parent earlier ps
  | [], _ => by rw [ofDependencies, ofDependencies]
  | p :: ps, h => by
    rw [Pack.allOf, List.forall_mem_append] at h
    have hown : ofPack own p = ofPack other p := ofPack_congr p h.1
    by_cases hp : p.key = currentKey
    · rw [ofDependencies_reserved hp, ofDependencies_reserved hp,
        ofDependencies_congr parent earlier ps h.2]
    · rw [ofDependencies_shown hp, ofDependencies_shown hp, hown,
        ofDependencies_congr parent _ ps h.2]

end

end Scope

namespace Store

/-- **Whether two stores hold the same variables under some paths**, whatever they hold under
others. A pack without variables is as good as none. -/
def AgreesUnder (paths : List PackId) (store other : Store) : Prop :=
  ∀ path ∈ paths, ∀ key, store.lookup? path.text key = other.lookup? path.text key

lemma AgreesUnder.converted_eq {paths : List PackId} {store other : Store}
    (h : AgreesUnder paths store other) {path : PackId} (hpath : path ∈ paths) :
    store.contents.converted path = other.contents.converted path := by
  have hvars : store.contents.ofPack path = other.contents.ofPack path := by
    refine KeyMap.ext_get? fun key => ?_
    have hkey := h path hpath key.text
    rw [lookup?_eq, lookup?_eq] at hkey
    exact hkey
  rw [VariableSet.converted, VariableSet.converted, hvars]

/-- **A scope shows the flat map along its own tree, and nothing else.** Each of its nodes has the
variables that the flat map holds under the path of the pack that is reached there, and a store with
the same variables under the paths of the tree gives the same scope and the same reports. -/
theorem scope_flat (store : Store) (p : Pack) :
    (∀ way node, (store.scope p).1.follow? way = some node →
      p.follow? way = some node.current.pack ∧ node.IsFlat store) ∧
    ∀ other, AgreesUnder (p.all.map Pack.path) store other → store.scope p = other.scope p := by
  constructor
  · intro way node hnode
    rw [Scope.follow?_scope] at hnode
    obtain ⟨q, hq, rfl⟩ := Option.map_eq_some_iff.1 hnode
    rw [hq, (Scope.shows_scope store q).pack_eq]
    exact ⟨rfl, Scope.isFlat_scope store q⟩
  · intro other hagree
    apply Scope.ofPack_congr
    intro q hq
    exact hagree.converted_eq (List.mem_map_of_mem hq)

end Store

/-- A pack with a dependency whose variables do not stand under its key. -/
def Pack.redirected : Pack :=
  build "app" [.dependency (((new "redis").withAlias "cache").withPath ⟨"shared"⟩)]

/-- The variable that names a region. -/
def Variable.region (name : String) : Variable := { name := ⟨"region"⟩, value := .string name }

/-- Regions under the path of the dependency, and under the path that its key would give it. -/
def Store.regions : Store :=
  .unified ((VariableSet.put .empty ⟨"shared"⟩ ⟨"region"⟩ (.region "eu")).put
    ⟨"app.cache"⟩ ⟨"region"⟩ (.region "us"))

/-- The region under the path of the dependency alone, in the older layout. -/
def Store.sharedRegion : Store := .legacy (.put .empty "shared" "region" (.region "eu"))

theorem Store.scope_flat_redirected :
    (∃ node, (regions.scope .redirected).1.follow? ["cache"] = some node ∧
      Pack.redirected.follow? ["cache"] = some node.current.pack ∧ node.IsFlat regions ∧
      node.current.vars = [("region", .string "eu")]) ∧
    AgreesUnder (Pack.redirected.all.map Pack.path) regions sharedRegion ∧
    regions.scope .redirected = sharedRegion.scope .redirected := by
  obtain ⟨hnodes, hcongr⟩ := scope_flat regions .redirected
  have hagree : AgreesUnder (Pack.redirected.all.map Pack.path) regions sharedRegion := by
    intro path hpath key
    rcases List.mem_pair.1 hpath with rfl | rfl
    · rfl
    · rfl
  obtain ⟨hpack, hflat⟩ := hnodes ["cache"] _ rfl
  exact ⟨⟨_, rfl, hpack, hflat, rfl⟩, hagree, hcongr _ hagree⟩

end PackScope
