import PackScope.Proofs.Manifest.Violations
import PackScope.Proofs.Pack.Places

/-!
The layout of the packs of a manifest. A manifest that keeps the rules for names describes a tree of
packs in which every path follows from the place of its pack.
-/

namespace PackScope

namespace Manifest

/-! ### Packs at their paths -/

mutual

/-- **The pack of a manifest at a path**, with the packs that it depends on below it. -/
def packAt (path : PackId) : Manifest → Pack
  | ⟨pack, app, aliasName, dependencies⟩ =>
    ⟨pack.name, aliasName, path, false, ⟨app, pack⟩, packsBelow path dependencies⟩

/-- The packs of some manifests below a path. -/
def packsBelow (parent : PackId) : List Manifest → List Pack
  | [] => []
  | m :: rest => m.packAt (parent.join m.key) :: packsBelow parent rest

end

section Packs

variable (m : Manifest) (path parent : PackId)

lemma packsBelow_eq (ms : List Manifest) :
    packsBelow parent ms = ms.map fun m => m.packAt (parent.join m.key) := by
  induction ms with
  | nil => rfl
  | cons m ms ih => rw [packsBelow, ih, List.map_cons]

@[simp] lemma packAt_path : (m.packAt path).path = path := by
  cases m
  rw [packAt]

@[simp] lemma packAt_key : (m.packAt path).key = m.key := by
  cases m
  rw [packAt]
  rfl

@[simp] lemma packAt_dependencies :
    (m.packAt path).dependencies = m.dependencies.map fun d => d.packAt (path.join d.key) := by
  cases m
  rw [packAt, packsBelow_eq]

end Packs

mutual

/-- Moving the pack of a manifest changes the path that it stands at. -/
theorem rebase_packAt (parent path : PackId) :
    ∀ m : Manifest, (m.packAt path).rebase parent = m.packAt (parent.join m.key)
  | ⟨pack, app, aliasName, dependencies⟩ => by
    rw [packAt, packAt, Pack.rebase, if_neg Bool.false_ne_true, rebaseAll_packsBelow]
    rfl

theorem rebaseAll_packsBelow (parent path : PackId) :
    ∀ ms : List Manifest, Pack.rebaseAll parent (packsBelow path ms) = packsBelow parent ms
  | [] => rfl
  | m :: rest => by
    rw [packsBelow, packsBelow, Pack.rebaseAll, rebase_packAt parent _ m,
      rebaseAll_packsBelow parent path rest]

end

mutual

/-- **The pack that a manifest describes stands at its name.** -/
theorem toPack_eq : ∀ m : Manifest, m.toPack = m.packAt ⟨m.pack.name⟩
  | ⟨pack, app, none, dependencies⟩ => by
    rw [toPack, attach_eq _ dependencies, packAt]
    rfl
  | ⟨pack, app, some aliasName, dependencies⟩ => by
    rw [toPack, attach_eq _ dependencies, packAt]
    rfl

theorem attach_eq (p : Pack) : ∀ ms : List Manifest,
    attach p ms = { p with dependencies := p.dependencies ++ packsBelow p.path ms }
  | [] => by
    rw [attach, packsBelow, List.append_nil]
    cases p
    rfl
  | m :: rest => by
    rw [attach, attach_eq _ rest, toPack_eq m, Pack.withDependency, rebase_packAt, packsBelow,
      List.append_assoc]
    rfl

end

/-! ### Orderly trees -/

/-- **The packs of a manifest that keeps the rules are told apart by their paths.** -/
theorem orderly_packAt {m : Manifest} (h : ∀ d : Manifest, d.IsWithin m → d.IsProper)
    (path : PackId) : (m.packAt path).Orderly := by
  induction m using induction_on generalizing path with
  | step m ih =>
    have hkey : ∀ d ∈ m.dependencies, IsPackName d.key := fun d hd =>
      (h d (.under hd .self)).isPackName_key
    constructor
    · rw [packAt_dependencies, List.map_map, List.Nodup, List.pairwise_map]
      refine (h m .self).keys_ne.imp fun {d e} hne => ?_
      simpa using hne
    all_goals
      rw [packAt_dependencies]
      intro p hp
      obtain ⟨d, hd, rfl⟩ := List.mem_map.1 hp
    · rw [packAt_key]
      exact (hkey d hd).ne_current
    · rw [packAt_key]
      exact (hkey d hd).no_point
    · rw [packAt_path, packAt_path, packAt_key]
    · exact ih d hd (fun c hc => h c (.under hd hc)) _

end Manifest

end PackScope
