import PackScope.Proofs.KeyMap.OfList
import PackScope.Proofs.Scope.Variables

/-!
The structure of scopes. At every node a scope shows its own pack and, under each key, the scope of
the last dependency with that key; the reports follow the order of declaration, and a dependency
that is replaced still has its reports while one with the reserved key has none.
-/

namespace PackScope

/-! ### What is shown under a key -/

namespace Pack

/-- The dependency of a pack that is shown under a key, which is the last one with that key. -/
def shown? (p : Pack) (key : String) : Option Pack :=
  if key = currentKey then none else p.dependencies.reverse.find? (·.key = key)

/-- The pack that is reached from another by keys of dependencies that are shown. -/
def follow? (p : Pack) : List String → Option Pack
  | [] => some p
  | key :: way => (p.shown? key).bind (·.follow? way)

end Pack

namespace Scope

/-- The scope that is reached from another by keys of dependencies. -/
def follow? (s : Scope) : List String → Option Scope
  | [] => some s
  | key :: way => (s.dependency? key).bind (·.follow? way)

end Scope

/-! ### The order of reports -/

/-- The reports on a dependency, given the dependencies before it. -/
def Store.dependencyReports (store : Store) (parent : String) (earlier : List Pack)
    (dependency : Pack) : Diagnostics :=
  if dependency.key = currentKey then [reservedKey parent dependency]
  else (store.scope dependency).2 ++
    if ∃ e ∈ earlier, e.key = dependency.key then [repeatedKey parent dependency] else []

/-- The reports on the dependencies of a pack, in the order of declaration. -/
def Store.reportsBelow (store : Store) (p : Pack) : Diagnostics :=
  (p.dependencies.mapIdx fun i d =>
    store.dependencyReports p.name (p.dependencies.take i) d).flatten

/-- **What a scope of a pack shows.** -/
structure Scope.Shows (node : Scope) (store : Store) (p : Pack) : Prop where
  pack_eq : node.current.pack = p
  metadata_eq : node.current.metadata = p.metadata.fields
  vars_ascending : Ascending node.current.vars
  vars_get? : ∀ key, Entries.get? key node.current.vars =
    (store.lookup? p.path.text key).bind fun v => v.value.toJson.toOption
  keys_ascending : node.keys.Pairwise fun a b => compare a b = .lt
  mem_keys : ∀ key, key ∈ node.keys ↔
    key = currentKey ∨ ∃ d ∈ p.dependencies, d.key = key ∧ d.key ≠ currentKey
  dependency?_eq : ∀ key, node.dependency? key = (p.shown? key).map fun d => (store.scope d).1

namespace Scope

variable {store : Store} {p : Pack}

/-! ### One level -/

section Level

variable {own : PackId → List (String × Json) × Diagnostics} {parent : String}
  {earlier : List (String × Scope)}

lemma ofDependencies_reserved {d : Pack} (h : d.key = currentKey) (ds : List Pack) :
    ofDependencies own parent earlier (d :: ds) =
      ((ofDependencies own parent earlier ds).1,
        reservedKey parent d :: (ofDependencies own parent earlier ds).2) := by
  rw [ofDependencies, if_pos h]

lemma ofDependencies_shown {d : Pack} (h : d.key ≠ currentKey) (ds : List Pack) :
    ofDependencies own parent earlier (d :: ds) =
      ((ofDependencies own parent (Entries.insert d.key (ofPack own d).1 earlier) ds).1,
        (ofPack own d).2 ++
          (if (Entries.get? d.key earlier).isSome then [repeatedKey parent d] else []) ++
          (ofDependencies own parent (Entries.insert d.key (ofPack own d).1 earlier) ds).2) := by
  rw [ofDependencies, if_neg h]

lemma ascending_ofDependencies (h : Ascending earlier) (ds : List Pack) :
    Ascending (ofDependencies own parent earlier ds).1 := by
  induction ds generalizing earlier with
  | nil =>
    rw [ofDependencies]
    exact h
  | cons d ds ih =>
    by_cases hd : d.key = currentKey
    · rw [ofDependencies_reserved hd]
      exact ih h
    · rw [ofDependencies_shown hd]
      exact ih (h.insert _ _)

lemma get?_ofDependencies_current (ds : List Pack) :
    Entries.get? currentKey (ofDependencies own parent earlier ds).1 =
      Entries.get? currentKey earlier := by
  induction ds generalizing earlier with
  | nil => rw [ofDependencies]
  | cons d ds ih =>
    by_cases hd : d.key = currentKey
    · rw [ofDependencies_reserved hd]
      exact ih
    · have hne : compare currentKey d.key ≠ .eq := fun h =>
        hd (Std.LawfulEqOrd.eq_of_compare h).symm
      rw [ofDependencies_shown hd, ih, Entries.get?_insert_of_ne hne]

/-- Under a key stands the scope of the last dependency with it, or what stood there before. -/
lemma get?_ofDependencies {key : String} (hkey : key ≠ currentKey) (ds : List Pack) :
    Entries.get? key (ofDependencies own parent earlier ds).1 =
      ((ds.reverse.find? (·.key = key)).map fun d => (ofPack own d).1).or
        (Entries.get? key earlier) := by
  induction ds generalizing earlier with
  | nil => rw [ofDependencies, List.reverse_nil, List.find?_nil, Option.map_none, Option.none_or]
  | cons d ds ih =>
    rw [List.reverse_cons, List.find?_append, Option.map_or, Option.or_assoc]
    by_cases hd : d.key = currentKey
    · have hne : d.key ≠ key := fun h => hkey (h.symm.trans hd)
      rw [ofDependencies_reserved hd, ih]
      simp [hne]
    · rw [ofDependencies_shown hd, ih]
      by_cases hk : d.key = key
      · subst hk
        rw [Entries.get?_insert_self]
        simp
      · have hne : compare key d.key ≠ .eq := fun h => hk (Std.LawfulEqOrd.eq_of_compare h).symm
        rw [Entries.get?_insert_of_ne hne]
        simp [hk]

/-- The reports on dependencies, given the packs whose scopes are there already. -/
lemma reports_ofDependencies (store : Store) {before : List Pack}
    (h : ∀ key, key ≠ currentKey →
      ((Entries.get? key earlier).isSome ↔ ∃ e ∈ before, e.key = key)) (ds : List Pack) :
    (ofDependencies store.contents.converted parent earlier ds).2 =
      (ds.mapIdx fun i d => store.dependencyReports parent (before ++ ds.take i) d).flatten := by
  induction ds generalizing earlier before with
  | nil => rw [ofDependencies]; rfl
  | cons d ds ih =>
    have hbefore (i : ℕ) : before ++ (d :: ds).take (i + 1) = before ++ [d] ++ ds.take i := by
      simp
    rw [List.mapIdx_cons, List.flatten_cons]
    simp only [hbefore, List.take_zero, List.append_nil]
    by_cases hd : d.key = currentKey
    · have hnext : ∀ key, key ≠ currentKey →
          ((Entries.get? key earlier).isSome ↔ ∃ e ∈ before ++ [d], e.key = key) := by
        intro key hkey
        have hne : d.key ≠ key := fun e => hkey (e.symm.trans hd)
        rw [h key hkey]
        simp [or_and_right, exists_or, hne]
      rw [ofDependencies_reserved hd, Store.dependencyReports, if_pos hd, ih hnext]
      rfl
    · have hnext : ∀ key, key ≠ currentKey →
          ((Entries.get? key
              (Entries.insert d.key (ofPack store.contents.converted d).1 earlier)).isSome ↔
            ∃ e ∈ before ++ [d], e.key = key) := by
        intro key hkey
        by_cases hk : d.key = key
        · subst hk
          rw [Entries.get?_insert_self]
          simp
        · have hne : compare key d.key ≠ .eq := fun e => hk (Std.LawfulEqOrd.eq_of_compare e).symm
          rw [Entries.get?_insert_of_ne hne, h key hkey]
          simp [or_and_right, exists_or, hk]
      rw [ofDependencies_shown hd, Store.dependencyReports, if_neg hd, ih hnext]
      simp only [h d.key hd]
      rfl

end Level

/-! ### Nodes -/

variable (store : Store) (p : Pack)

lemma ofPack_eq (own : PackId → List (String × Json) × Diagnostics) (p : Pack) :
    ofPack own p =
      (⟨⟨p, (own p.path).1, p.metadata.fields⟩,
        (ofDependencies own p.name [] p.dependencies).1⟩,
      (own p.path).2 ++ (ofDependencies own p.name [] p.dependencies).2) := by
  cases p
  rw [ofPack]

lemma mem_keys (s : Scope) (key : String) :
    key ∈ s.keys ↔ key = currentKey ∨ (s.dependency? key).isSome := by
  rw [keys, (sortKeys_perm _).mem_iff, List.mem_cons, dependency?, Entries.mem_keys_iff]

lemma ascending_dependencies : Ascending (store.scope p).1.dependencies := by
  rw [Store.scope, ofPack_eq]
  exact ascending_ofDependencies .nil _

lemma dependency?_scope (key : String) :
    (store.scope p).1.dependency? key = (p.shown? key).map fun d => (store.scope d).1 := by
  rw [Store.scope, ofPack_eq, dependency?, Pack.shown?]
  by_cases h : key = currentKey
  · subst h
    rw [get?_ofDependencies_current, if_pos rfl]
    rfl
  · rw [get?_ofDependencies h, if_neg h, Entries.get?, Option.or_none]
    rfl

/-- **The keys of a scope are distinct**: no dependency is shown under the reserved one. -/
lemma keys_ascending : (store.scope p).1.keys.Pairwise fun a b => compare a b = .lt := by
  refine ascending_sortKeys (List.nodup_cons.2 ⟨fun hmem => ?_, ?_⟩)
  · have hsome : ((store.scope p).1.dependency? currentKey).isSome := Entries.mem_keys_iff.1 hmem
    rw [dependency?_scope, Pack.shown?, if_pos rfl] at hsome
    cases hsome
  · exact List.pairwise_map.2 (ascending_dependencies store p).keys_ne

lemma isSome_shown? (key : String) :
    (p.shown? key).isSome ↔ ∃ d ∈ p.dependencies, d.key = key ∧ d.key ≠ currentKey := by
  unfold Pack.shown?
  by_cases h : key = currentKey
  · subst h
    simp
  · rw [if_neg h, List.find?_isSome]
    constructor
    · rintro ⟨d, hd, hk⟩
      obtain rfl : d.key = key := by simpa using hk
      exact ⟨d, List.mem_reverse.1 hd, rfl, h⟩
    · rintro ⟨d, hd, rfl, -⟩
      exact ⟨d, List.mem_reverse.2 hd, by simp⟩

lemma shows_scope : (store.scope p).1.Shows store p where
  pack_eq := by rw [Store.scope, ofPack_eq]
  metadata_eq := by rw [Store.scope, ofPack_eq]
  vars_ascending := by
    rw [Store.scope, ofPack_eq]
    exact PackVariables.ascending_values _
  vars_get? key := by
    rw [Store.scope, ofPack_eq, Store.lookup?_eq]
    exact PackVariables.get?_values _ key
  keys_ascending := keys_ascending store p
  mem_keys key := by
    rw [mem_keys, dependency?_scope, Option.isSome_map, isSome_shown?]
  dependency?_eq := dependency?_scope store p

lemma reports_scope : (store.scope p).2 =
    (store.failedUnder [p.path]).map FailedVariable.report ++ store.reportsBelow p := by
  have hnone : ∀ key, key ≠ currentKey →
      ((Entries.get? key ([] : List (String × Scope))).isSome ↔
        ∃ e ∈ ([] : List Pack), e.key = key) := by
    simp [Entries.get?]
  rw [Store.scope, ofPack_eq, reports_ofDependencies store hnone, Store.failedUnder,
    List.flatMap_singleton, ← PackVariables.failures_eq]
  rfl

lemma follow?_scope (way : List String) :
    (store.scope p).1.follow? way = (p.follow? way).map fun q => (store.scope q).1 := by
  induction way generalizing p with
  | nil => rfl
  | cons key way ih =>
    rw [follow?, Pack.follow?, (shows_scope store p).dependency?_eq]
    cases p.shown? key with
    | none => rfl
    | some d => exact ih d

end Scope

end PackScope
