import Mathlib.Data.List.Nodup
import Mathlib.Data.List.Perm.Basic
import Mathlib.Tactic.Lemma
import PackScope.Pack
import PackScope.Scope

/-!
Places in trees of packs. Where every path is made of the path above it and a key, and keys have no
points and differ among siblings, a path tells its place.
-/

namespace PackScope

/-! ### Paths -/

namespace PackId

variable {a b : PackId} {k k' : String}

/-- The path that some keys lead to from another. -/
def extend (a : PackId) (keys : List String) : PackId := keys.foldl join a

lemma toList_join (a : PackId) (k : String) :
    (a.join k).text.toList = a.text.toList ++ '.' :: k.toList := by
  unfold join
  rw [String.toList_append, String.toList_append, List.append_assoc]
  rfl

lemma toList_extend (a : PackId) (keys : List String) :
    (a.extend keys).text.toList = a.text.toList ++ keys.flatMap fun k => '.' :: k.toList := by
  induction keys generalizing a with
  | nil => simp [extend]
  | cons k keys ih =>
    rw [extend, List.foldl_cons, ← extend, ih, toList_join, List.flatMap_cons, List.append_assoc]

/-- The path below a name is the name and the keys, joined by points. -/
lemma text_extend (name : String) (keys : List String) :
    (extend ⟨name⟩ keys).text = ".".intercalate (name :: keys) := by
  induction keys generalizing name with
  | nil => rw [String.intercalate_singleton]; rfl
  | cons k keys ih =>
    rw [extend, List.foldl_cons, ← extend, join, ih, String.intercalate_cons_append,
      String.intercalate_cons_cons]

lemma takeWhile_key (hk : '.' ∉ k.toList) (keys : List String) :
    (k.toList ++ keys.flatMap fun k => '.' :: k.toList).takeWhile (· ≠ '.') = k.toList := by
  have hall : ∀ c ∈ k.toList, decide (c ≠ '.') = true := by
    intro c hc
    simp only [ne_eq, decide_eq_true_eq]
    rintro rfl
    exact hk hc
  rw [List.takeWhile_append_of_pos hall]
  cases keys with
  | nil => simp
  | cons k' keys => simp

/-- Keys without points are told apart by what is below them. -/
lemma key_unique (hk : '.' ∉ k.toList) (hk' : '.' ∉ k'.toList) {keys keys' : List String}
    (h : (a.join k).extend keys = (a.join k').extend keys') : k = k' := by
  have hchars := congrArg (fun b => b.text.toList) h
  simp only [toList_extend, toList_join, List.append_assoc, List.append_cancel_left_eq,
    List.cons_append, List.cons.injEq, true_and] at hchars
  have htake := congrArg (List.takeWhile (· ≠ '.')) hchars
  rw [takeWhile_key hk, takeWhile_key hk'] at htake
  exact String.toList_inj.1 htake

lemma extend_join_ne (a : PackId) (k : String) (keys : List String) :
    (a.join k).extend keys ≠ a := by
  intro h
  have hlen := congrArg (fun b => b.text.toList.length) h
  simp only [toList_extend, toList_join, List.length_append, List.length_cons] at hlen
  omega

end PackId

/-! ### Places -/

namespace Pack

/-- The pack at a place, which is the way to it by positions among the dependencies. -/
def at? (p : Pack) : List ℕ → Option Pack
  | [] => some p
  | i :: place => p.dependencies[i]?.bind (·.at? place)

/-- The keys on the way to a place. -/
def keysTo (p : Pack) : List ℕ → List String
  | [] => []
  | i :: place =>
    match p.dependencies[i]? with
    | some d => d.key :: d.keysTo place
    | none => []

mutual

/-- All packs of a tree, each before the packs below it. -/
def all : Pack → List Pack
  | ⟨name, aliasName, path, chosen, metadata, dependencies⟩ =>
    ⟨name, aliasName, path, chosen, metadata, dependencies⟩ :: allOf dependencies

/-- All packs of several trees. -/
def allOf : List Pack → List Pack
  | [] => []
  | p :: rest => p.all ++ allOf rest

end

lemma allOf_eq (ps : List Pack) : allOf ps = ps.flatMap all := by
  induction ps with
  | nil => rfl
  | cons p ps ih => rw [allOf, ih, List.flatMap_cons]

lemma all_eq (p : Pack) : p.all = p :: p.dependencies.flatMap all := by
  cases p
  rw [all, allOf_eq]

/-- **Whether every path in a tree of packs follows from its place**, and siblings differ in their
keys, which have no points and are not reserved. -/
inductive Orderly : Pack → Prop
  | intro {p : Pack} (keys_nodup : (p.dependencies.map key).Nodup)
    (not_current : ∀ d ∈ p.dependencies, d.key ≠ currentKey)
    (no_point : ∀ d ∈ p.dependencies, '.' ∉ d.key.toList)
    (path_eq : ∀ d ∈ p.dependencies, d.path = p.path.join d.key)
    (below : ∀ d ∈ p.dependencies, d.Orderly) : p.Orderly

/-- Where keys differ, a key tells the position. -/
lemma position_unique {ps : List Pack} (h : (ps.map key).Nodup) {i j : ℕ} {d d' : Pack}
    (hd : ps[i]? = some d) (hd' : ps[j]? = some d') (hkey : d.key = d'.key) : i = j := by
  have hlt : i < (ps.map key).length := by
    rw [List.length_map]
    exact (List.getElem?_eq_some_iff.1 hd).1
  rw [← List.getElem?_inj hlt h, List.getElem?_map, List.getElem?_map, hd, hd', Option.map_some,
    Option.map_some, hkey]

section Places

variable {p q q' : Pack} {place place' : List ℕ}

lemma Orderly.of_mem (h : p.Orderly) (hq : q ∈ p.dependencies) : q.Orderly := by
  obtain ⟨-, -, -, -, hbelow⟩ := h
  exact hbelow q hq

/-- The path at a place is the path above it and the keys on the way. -/
lemma Orderly.path_at? (h : p.Orderly) (hq : p.at? place = some q) :
    q.path = p.path.extend (p.keysTo place) := by
  induction place generalizing p with
  | nil =>
    obtain rfl : p = q := Option.some.inj hq
    rfl
  | cons i place ih =>
    obtain ⟨d, hd, hq⟩ := Option.bind_eq_some_iff.1 hq
    cases h with
    | intro _ _ _ hpath hbelow =>
      have hmem := List.mem_of_getElem? hd
      rw [keysTo, hd, ih (hbelow d hmem) hq, hpath d hmem]
      rfl

lemma exists_of_at?_cons {i : ℕ} (hq : p.at? (i :: place) = some q) :
    ∃ d, p.dependencies[i]? = some d ∧ d.at? place = some q ∧
      p.keysTo (i :: place) = d.key :: d.keysTo place := by
  obtain ⟨d, hd, hq⟩ := Option.bind_eq_some_iff.1 hq
  exact ⟨d, hd, hq, by rw [keysTo, hd]⟩

/-- **A path tells its place.** -/
lemma Orderly.place_unique (h : p.Orderly) (hq : p.at? place = some q)
    (hq' : p.at? place' = some q') (hpath : q.path = q'.path) : place = place' := by
  rw [h.path_at? hq, h.path_at? hq'] at hpath
  induction place generalizing p place' with
  | nil =>
    match place' with
    | [] => rfl
    | j :: place' =>
      obtain ⟨d, -, -, hkeys⟩ := exists_of_at?_cons hq'
      rw [hkeys] at hpath
      exact absurd hpath.symm (PackId.extend_join_ne _ _ _)
  | cons i place ih =>
    obtain ⟨d, hd, hq, hkeys⟩ := exists_of_at?_cons hq
    match place' with
    | [] =>
      rw [hkeys] at hpath
      exact absurd hpath (PackId.extend_join_ne _ _ _)
    | j :: place' =>
      obtain ⟨d', hd', hq', hkeys'⟩ := exists_of_at?_cons hq'
      rw [hkeys, hkeys'] at hpath
      cases h with
      | intro hnodup _ hpoint hdpath hbelow =>
        have hmem := List.mem_of_getElem? hd
        have hkey : d.key = d'.key :=
          PackId.key_unique (hpoint d hmem) (hpoint d' (List.mem_of_getElem? hd')) hpath
        obtain rfl : i = j := position_unique hnodup hd hd' hkey
        obtain rfl : d = d' := Option.some.inj (hd.symm.trans hd')
        rw [ih (hbelow d hmem) hq hq' ?_]
        rw [hdpath d hmem]
        exact hpath

lemma Orderly.mem_all_iff (h : p.Orderly) : q ∈ p.all ↔ ∃ place, p.at? place = some q := by
  induction h with
  | @intro p _ _ _ _ _ ih =>
    rw [all_eq, List.mem_cons, List.mem_flatMap]
    constructor
    · rintro (rfl | ⟨d, hd, hq⟩)
      · exact ⟨[], rfl⟩
      · obtain ⟨place, hplace⟩ := (ih d hd).1 hq
        obtain ⟨i, hi⟩ := List.getElem?_of_mem hd
        exact ⟨i :: place, by rw [at?, hi]; exact hplace⟩
    · rintro ⟨_ | ⟨i, place⟩, hplace⟩
      · exact .inl (Option.some.inj hplace).symm
      · obtain ⟨d, hd, hq, -⟩ := exists_of_at?_cons hplace
        have hmem := List.mem_of_getElem? hd
        exact .inr ⟨d, hmem, (ih d hmem).2 ⟨place, hq⟩⟩

lemma Orderly.exists_path (h : p.Orderly) (hq : q ∈ p.all) :
    ∃ keys, q.path = p.path.extend keys := by
  obtain ⟨place, hplace⟩ := h.mem_all_iff.1 hq
  exact ⟨_, h.path_at? hplace⟩

lemma Orderly.nodup_paths (h : p.Orderly) : (p.all.map path).Nodup := by
  induction h with
  | @intro p hnodup _ hpoint hpath hbelow ih =>
    rw [all_eq, List.map_cons, List.nodup_cons, List.map_flatMap]
    constructor
    · intro hmem
      obtain ⟨d, hd, hmem⟩ := List.mem_flatMap.1 hmem
      obtain ⟨q, hq, hqp⟩ := List.mem_map.1 hmem
      obtain ⟨keys, hkeys⟩ := (hbelow d hd).exists_path hq
      rw [hkeys, hpath d hd] at hqp
      exact PackId.extend_join_ne _ _ _ hqp
    · refine List.nodup_flatMap.2 ⟨ih, ?_⟩
      refine (List.pairwise_map.1 hnodup).imp_of_mem fun {d d'} hd hd' hne => ?_
      intro path hmem hmem'
      obtain ⟨q, hq, rfl⟩ := List.mem_map.1 hmem
      obtain ⟨q', hq', hqq⟩ := List.mem_map.1 hmem'
      obtain ⟨keys, hkeys⟩ := (hbelow d hd).exists_path hq
      obtain ⟨keys', hkeys'⟩ := (hbelow d' hd').exists_path hq'
      rw [hkeys, hkeys', hpath d hd, hpath d' hd'] at hqq
      exact hne (PackId.key_unique (hpoint d' hd') (hpoint d hd) hqq).symm

end Places

end Pack

end PackScope
