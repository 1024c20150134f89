import PackScope.Proofs.Manifest.Layout
import PackScope.Proofs.Scope.Reports

/-!
Manifests without collisions. The packs that a manifest describes have paths that tell them apart,
no dependency hides another, and a scope reports on variables alone.
-/

namespace PackScope

/-- **Whether no pack of a tree collides with another**, over the variables of a store. -/
structure Pack.CollisionFree (p : Pack) (store : Store) : Prop where
  path_eq : ∀ place q, p.at? place = some q →
    q.path.text = ".".intercalate (p.name :: p.keysTo place)
  path_unique : ∀ place place' q q', p.at? place = some q → p.at? place' = some q' →
    q.path = q'.path → place = place'
  keys_perm : ∀ place q, p.at? place = some q →
    (store.scope q).1.keys.Perm (currentKey :: q.dependencies.map key)
  follow?_eq_some_iff : ∀ way node, (store.scope p).1.follow? way = some node ↔
    ∃ place q, p.at? place = some q ∧ p.keysTo place = way ∧ (store.scope q).1 = node
  reports_eq : ∃ failed : List FailedVariable,
    (store.scope p).2 = failed.map FailedVariable.report ∧
      (failed.map fun f => (f.pack, f.key)).Nodup ∧
      ∀ f, f ∈ failed ↔ (∃ place q, p.at? place = some q ∧ q.path = f.pack) ∧ f.HeldBy store
  no_key_report : ∀ d ∈ (store.scope p).2, ∀ parent dependency,
    d ≠ reservedKey parent dependency ∧ d ≠ repeatedKey parent dependency

namespace Pack.Orderly

variable {p q : Pack} {place : List ℕ}

/-- What stands at a place of an orderly tree is an orderly tree. -/
lemma orderly_at? (h : p.Orderly) (hq : p.at? place = some q) : q.Orderly := by
  induction place generalizing p with
  | nil =>
    obtain rfl : p = q := Option.some.inj hq
    exact h
  | cons i place ih =>
    obtain ⟨d, hd, hq, -⟩ := exists_of_at?_cons hq
    exact ih (h.of_mem (List.mem_of_getElem? hd)) hq

lemma mem_paths_iff (h : p.Orderly) {path : PackId} :
    path ∈ p.all.map Pack.path ↔ ∃ place q, p.at? place = some q ∧ q.path = path := by
  rw [List.mem_map]
  constructor
  · rintro ⟨q, hq, rfl⟩
    obtain ⟨place, hplace⟩ := h.mem_all_iff.1 hq
    exact ⟨place, q, hplace, rfl⟩
  · rintro ⟨place, q, hplace, rfl⟩
    exact ⟨q, h.mem_all_iff.2 ⟨place, hplace⟩, rfl⟩

/-- **An orderly tree that stands at its name has no collisions.** -/
lemma collisionFree (h : p.Orderly) (hname : p.path = ⟨p.name⟩) (store : Store) :
    p.CollisionFree store where
  path_eq place q hq := by
    rw [h.path_at? hq, hname, PackId.text_extend]
  path_unique place place' q q' hq hq' hpath := h.place_unique hq hq' hpath
  keys_perm place q hq := (h.orderly_at? hq).keys_perm store
  follow?_eq_some_iff way node := by
    rw [Scope.follow?_scope, Option.map_eq_some_iff]
    constructor
    · rintro ⟨q, hq, rfl⟩
      obtain ⟨place, hplace, hway⟩ := h.follow?_eq_some_iff.1 hq
      exact ⟨place, q, hplace, hway, rfl⟩
    · rintro ⟨place, q, hplace, hway, rfl⟩
      exact ⟨q, h.follow?_eq_some_iff.2 ⟨place, hplace, hway⟩, rfl⟩
  reports_eq := by
    refine ⟨_, h.reports_eq store, Store.nodup_failedUnder h.nodup_paths, fun f => ?_⟩
    rw [Store.mem_failedUnder, h.mem_paths_iff]
  no_key_report d hd parent dependency := by
    rw [h.reports_eq store] at hd
    obtain ⟨f, -, rfl⟩ := List.mem_map.1 hd
    have hreserved : "Failed to convert variable value" ≠ "Dependency key is reserved" := by decide
    have hrepeated : "Failed to convert variable value" ≠ "Duplicate dependency key" := by decide
    constructor
    · intro heq
      exact hreserved (congrArg Diagnostic.summary heq)
    · intro heq
      exact hrepeated (congrArg Diagnostic.summary heq)

end Pack.Orderly

namespace Manifest

variable {text : String} {m : Manifest}

/-- **The packs of a manifest that is read never collide**, whatever is loaded. -/
theorem collisionFree_of_read (h : read text = .ok m) (store : Store) :
    m.toPack.CollisionFree store := by
  rw [toPack_eq]
  refine Pack.Orderly.collisionFree (orderly_packAt (isProper_of_read h) _) ?_ store
  cases m
  rw [packAt]

/-- A manifest that lists a pack twice, the second time under an alias. -/
def twice : Manifest where
  pack := { name := "a" }
  dependencies := [{ pack := { name := "a" } }, { pack := { name := "a" }, aliasName := some "b" }]

/-- The text of this manifest. -/
def twiceText : String :=
  "pack.name = \"a\"\ndependencies = " ++
    "[\x7bpack.name = \"a\"\x7d, \x7balias = \"b\", pack.name = \"a\"\x7d]\n"

theorem collisionFree_twice :
    read twiceText = .ok twice ∧
      twice.toPack.CollisionFree (.unified (VariableSet.put .empty ⟨"a.b"⟩ ⟨"x"⟩
        { name := ⟨"x"⟩, value := .unknown })) := by
  have hread : read twiceText = .ok twice := by decide +kernel
  exact ⟨hread, collisionFree_of_read hread _⟩

end Manifest

end PackScope
