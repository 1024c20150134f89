import PackScope.Proofs.KeyMap.OfList
import PackScope.Proofs.Pack.Places
import PackScope.Proofs.Scope.Structure

/-!
Scopes of orderly trees of packs. No key hides another there, so the keys on the way to a place lead
to its pack, and all reports are on variables that have no JSON form.
-/

namespace PackScope

namespace Pack.Orderly

variable {p q d : Pack}

lemma shown?_eq_some_iff (h : p.Orderly) {key : String} :
    p.shown? key = some d ↔ d ∈ p.dependencies ∧ d.key = key := by
  obtain ⟨hnodup, hcurrent, -, -, -⟩ := h
  unfold shown?
  constructor
  · intro hd
    split_ifs at hd
    have hkey := List.find?_some hd
    exact ⟨List.mem_reverse.1 (List.mem_of_find?_eq_some hd), of_decide_eq_true hkey⟩
  · rintro ⟨hd, rfl⟩
    rw [if_neg (hcurrent d hd)]
    have hsome : (p.dependencies.reverse.find? (·.key = d.key)).isSome :=
      List.find?_isSome.2 ⟨d, List.mem_reverse.2 hd, by simp⟩
    obtain ⟨d', hd'⟩ := Option.isSome_iff_exists.1 hsome
    have hkey : d'.key = d.key := by simpa using List.find?_some hd'
    have hmem := List.mem_reverse.1 (List.mem_of_find?_eq_some hd')
    rw [hd', List.inj_on_of_nodup_map hnodup hmem hd hkey]

/-- **Keys lead to the packs at the places that they are the way to.** -/
lemma follow?_eq_some_iff (h : p.Orderly) {way : List String} :
    p.follow? way = some q ↔ ∃ place, p.at? place = some q ∧ p.keysTo place = way := by
  induction way generalizing p with
  | nil =>
    constructor
    · intro hq
      exact ⟨[], hq, rfl⟩
    · rintro ⟨_ | ⟨i, place⟩, hq, hway⟩
      · exact hq
      · obtain ⟨d, -, -, hkeys⟩ := exists_of_at?_cons hq
        rw [hkeys] at hway
        cases hway
  | cons key way ih =>
    rw [follow?, Option.bind_eq_some_iff]
    constructor
    · rintro ⟨d, hd, hq⟩
      obtain ⟨hmem, rfl⟩ := h.shown?_eq_some_iff.1 hd
      obtain ⟨place, hplace, rfl⟩ := (ih (h.of_mem hmem)).1 hq
      obtain ⟨i, hi⟩ := List.getElem?_of_mem hmem
      refine ⟨i :: place, ?_, ?_⟩
      · rw [at?, hi]
        exact hplace
      · rw [keysTo, hi]
    · rintro ⟨_ | ⟨i, place⟩, hq, hway⟩
      · cases hway
      · obtain ⟨d, hd, hq, hkeys⟩ := exists_of_at?_cons hq
        have hmem := List.mem_of_getElem? hd
        obtain ⟨rfl, rfl⟩ := List.cons.inj (hkeys.symm.trans hway)
        exact ⟨d, h.shown?_eq_some_iff.2 ⟨hmem, rfl⟩, (ih (h.of_mem hmem)).2 ⟨place, hq, rfl⟩⟩

lemma keys_perm (h : p.Orderly) (store : Store) :
    (store.scope p).1.keys.Perm (currentKey :: p.dependencies.map key) := by
  have hshows := Scope.shows_scope store p
  obtain ⟨hnodup, hcurrent, -, -, -⟩ := h
  have hkeys : (store.scope p).1.keys.Nodup :=
    hshows.keys_ascending.imp fun hlt heq => by simp [heq] at hlt
  have hnot : currentKey ∉ p.dependencies.map key := fun hmem => by
    obtain ⟨d, hd, hkey⟩ := List.mem_map.1 hmem
    exact hcurrent d hd hkey
  refine (List.perm_ext_iff_of_nodup hkeys (List.nodup_cons.2 ⟨hnot, hnodup⟩)).2 fun key => ?_
  rw [hshows.mem_keys, List.mem_cons, List.mem_map]
  constructor
  · rintro (rfl | ⟨d, hd, hkey, -⟩)
    · exact .inl rfl
    · exact .inr ⟨d, hd, hkey⟩
  · rintro (rfl | ⟨d, hd, hkey⟩)
    · exact .inl rfl
    · exact .inr ⟨d, hd, hkey, hcurrent d hd⟩

lemma dependencyReports_eq (h : p.Orderly) (store : Store) {i : ℕ}
    (hd : p.dependencies[i]? = some d) :
    store.dependencyReports p.name (p.dependencies.take i) d = (store.scope d).2 := by
  obtain ⟨hnodup, hcurrent, -, -, -⟩ := h
  have hmem := List.mem_of_getElem? hd
  rw [Store.dependencyReports, if_neg (hcurrent d hmem), if_neg, List.append_nil]
  rintro ⟨e, he, hkey⟩
  obtain ⟨j, hj⟩ := List.getElem?_of_mem he
  rw [List.getElem?_take] at hj
  split_ifs at hj with hji
  have heq : j = i := position_unique hnodup hj hd hkey
  omega

/-- **The reports on an orderly pack** are on the variables under the paths of its tree. -/
lemma reports_eq (h : p.Orderly) (store : Store) :
    (store.scope p).2 = (store.failedUnder (p.all.map path)).map FailedVariable.report := by
  induction h with
  | @intro p hnodup hcurrent hpoint hpath hbelow ih =>
    have horderly : p.Orderly := .intro hnodup hcurrent hpoint hpath hbelow
    have hdependencies : (p.dependencies.mapIdx fun i d =>
        store.dependencyReports p.name (p.dependencies.take i) d) =
        p.dependencies.map fun d => (store.scope d).2 := by
      refine List.ext_getElem? fun i => ?_
      rw [List.getElem?_mapIdx, List.getElem?_map]
      cases hd : p.dependencies[i]? with
      | none => rfl
      | some d => rw [Option.map_some, Option.map_some, horderly.dependencyReports_eq store hd]
    rw [Scope.reports_scope, Store.reportsBelow, hdependencies, List.map_congr_left ih, all_eq,
      List.map_cons, List.map_flatMap, Store.failedUnder_cons p.path (p.dependencies.flatMap _),
      Store.failedUnder_flatMap, List.map_append, List.map_flatMap, List.flatMap_def]

end Pack.Orderly

end PackScope
