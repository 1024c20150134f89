import Mathlib.Data.List.Basic
import Mathlib.Tactic.ByContra
import PackScope.Manifest.Reader
import PackScope.Proofs.Traversal

/-!
What violates the rules for names in a manifest. A manifest is accepted exactly if every name and
alias in its tree is a proper one and no pack has two dependencies under one key; otherwise the
violation that is reported is the first one in the order in which the tree is gone through.
-/

namespace PackScope

/-! ### Names -/

/-- Whether a character is an ASCII letter or digit, a hyphen or an underscore. -/
def IsNameLetter (c : Char) : Prop :=
  ('a' ≤ c ∧ c ≤ 'z') ∨ ('A' ≤ c ∧ c ≤ 'Z') ∨ ('0' ≤ c ∧ c ≤ '9') ∨ c = '-' ∨ c = '_'

instance : DecidablePred IsNameLetter := fun _ =>
  inferInstanceAs (Decidable (_ ∨ _ ∨ _ ∨ _ ∨ _))

/-- **Whether a text may be the name of a pack.** -/
structure IsPackName (name : String) : Prop where
  ne_empty : name ≠ ""
  ne_current : name ≠ "_self"
  letters : ∀ c ∈ name.toList, IsNameLetter c

namespace NameFault

/-- Whether a name has a fault. -/
def Affects (name : String) : NameFault → Prop
  | empty => name = ""
  | reserved => name = "_self"
  | characters => ∃ c ∈ name.toList, ¬ IsNameLetter c

instance (name : String) : DecidablePred (Affects name)
  | empty => inferInstanceAs (Decidable (name = ""))
  | reserved => inferInstanceAs (Decidable (name = "_self"))
  -- The letters of the name are gone through here, not all characters there are.
  | characters => List.decidableBEx (fun c => ¬ IsNameLetter c) name.toList

end NameFault

section Names

variable {name : String} {fault : NameFault}

lemma isPackName_iff : IsPackName name ↔ ∀ fault : NameFault, ¬ fault.Affects name := by
  constructor
  · rintro ⟨hempty, hcurrent, hletters⟩ (_ | _ | _)
    · exact hempty
    · exact hcurrent
    · rintro ⟨c, hc, hletter⟩
      exact hletter (hletters c hc)
  · intro h
    refine ⟨h .empty, h .reserved, fun c hc => ?_⟩
    by_contra hletter
    exact h .characters ⟨c, hc, hletter⟩

lemma isNameChar_iff (c : Char) : Manifest.isNameChar c = true ↔ IsNameLetter c := by
  have hupper : c.isUpper = true ↔ 'A' ≤ c ∧ c ≤ 'Z' := decide_eq_true_iff
  have hlower : c.isLower = true ↔ 'a' ≤ c ∧ c ≤ 'z' :=
    Bool.and_eq_true_iff.trans (and_congr decide_eq_true_iff decide_eq_true_iff)
  have hdigit : c.isDigit = true ↔ '0' ≤ c ∧ c ≤ '9' :=
    Bool.and_eq_true_iff.trans (and_congr decide_eq_true_iff decide_eq_true_iff)
  have halphanum : c.isAlphanum = true ↔
      (c.isUpper = true ∨ c.isLower = true) ∨ c.isDigit = true :=
    Bool.or_eq_true_iff.trans (or_congr_left Bool.or_eq_true_iff)
  rw [Manifest.isNameChar, Bool.or_eq_true, Bool.or_eq_true, decide_eq_true_eq, decide_eq_true_eq,
    halphanum, hupper, hlower, hdigit, IsNameLetter, or_assoc, or_assoc, or_assoc, or_left_comm]

/-- **A name has at most one fault**, which is the one that is found. -/
lemma nameFault?_eq_some_iff : Manifest.nameFault? name = some fault ↔ fault.Affects name := by
  by_cases hempty : name = ""
  · subst hempty
    cases fault <;> decide
  by_cases hcurrent : name = "_self"
  · subst hcurrent
    cases fault <;> decide
  have hall : name.toList.all Manifest.isNameChar = false ↔
      ∃ c ∈ name.toList, ¬ IsNameLetter c := by
    simp only [List.all_eq_false, isNameChar_iff]
  rw [Manifest.nameFault?, if_neg (by simpa using hempty), currentKey, if_neg hcurrent]
  cases fault with
  | empty => simpa [NameFault.Affects] using hempty
  | reserved => simpa [NameFault.Affects] using hcurrent
  | characters => simp only [NameFault.Affects, ← hall]; simp

lemma IsPackName.no_point (h : IsPackName name) : '.' ∉ name.toList := fun hmem =>
  absurd (h.letters '.' hmem) (by decide)

end Names

/-! ### Violations -/

namespace Manifest

/-- A property of manifests holds if it passes from dependencies to what depends on them. -/
theorem induction_on {motive : Manifest → Prop}
    (step : ∀ m : Manifest, (∀ d ∈ m.dependencies, motive d) → motive m) : ∀ m, motive m
  | ⟨pack, app, aliasName, dependencies⟩ =>
    step _ fun d _ => induction_on step d

/-- **Whether a manifest stands in another one**: that one itself, or one in a dependency of it. -/
inductive IsWithin (d : Manifest) : Manifest → Prop
  | self : IsWithin d d
  | under {m e : Manifest} (mem : e ∈ m.dependencies) (within : IsWithin d e) : IsWithin d m

/-- **Whether the pack of a manifest keeps the rules**: its name and its alias are proper, and no
two of its dependencies have one key. -/
structure IsProper (m : Manifest) : Prop where
  name_ok : IsPackName m.pack.name
  alias_ok : ∀ name ∈ m.aliasName, IsPackName name
  keys_ne : m.dependencies.Pairwise fun d e => d.key ≠ e.key

lemma IsProper.isPackName_key {m : Manifest} (h : m.IsProper) : IsPackName m.key := by
  unfold key
  cases hm : m.aliasName with
  | none => exact h.name_ok
  | some name => exact h.alias_ok name hm

/-- **What violates the rules at a manifest itself**, apart from what stands below. -/
inductive Violates (m : Manifest) : ManifestError → Prop
  | name {fault : NameFault} (affects : fault.Affects m.pack.name) :
    Violates m (.invalidName m.pack.name fault)
  | aliasName {name : String} {fault : NameFault} (named : m.aliasName = some name)
    (affects : fault.Affects name) : Violates m (.invalidName name fault)
  | clash {i j : ℕ} {d e : Manifest} (lt : i < j) (first : m.dependencies[i]? = some d)
    (second : m.dependencies[j]? = some e) (key_eq : d.key = e.key) :
    Violates m (.duplicateDependency m.pack.name e.key)

/-- The faults of a name. -/
def nameViolations (name : String) : List ManifestError :=
  ([.empty, .reserved, .characters].filter fun fault => NameFault.Affects name fault).map
    (.invalidName name)

/-- The clash of a dependency with one before it. -/
def clashes (parent : String) (earlier : List Manifest) (d : Manifest) : List ManifestError :=
  if ∃ e ∈ earlier, e.key = d.key then [.duplicateDependency parent d.key] else []

mutual

/-- **All violations in a manifest**, in the order in which they are met: of its name, of its alias,
and then for each dependency those in it before its clash with an earlier one. -/
def violations : Manifest → List ManifestError
  | ⟨pack, _, aliasName, dependencies⟩ =>
    nameViolations pack.name ++ aliasName.toList.flatMap nameViolations ++
      violationsBelow pack.name [] dependencies

/-- The violations in dependencies that stand behind some others. -/
def violationsBelow (parent : String) (earlier : List Manifest) :
    List Manifest → List ManifestError
  | [] => []
  | d :: rest =>
    d.violations ++ clashes parent earlier d ++ violationsBelow parent (earlier ++ [d]) rest

end

/-- The outcome of a check that finds some violations, of which the first one counts. -/
def refuse (found : List ManifestError) : Except ManifestError Unit :=
  match found.head? with
  | some e => .error e
  | none => .ok ()

section Violations

variable {m : Manifest} {e : ManifestError} {name parent : String}

lemma violations_eq (m : Manifest) : m.violations =
    nameViolations m.pack.name ++ m.aliasName.toList.flatMap nameViolations ++
      violationsBelow m.pack.name [] m.dependencies := by
  cases m
  rw [violations]

/-! ### The first violation -/

lemma refuse_append (found others : List ManifestError) :
    refuse (found ++ others) = refuse found >>= fun _ => refuse others := by
  cases found with
  | nil => rfl
  | cons e found => rfl

lemma nameViolations_eq (name : String) :
    nameViolations name = (nameFault? name).toList.map (.invalidName name) := by
  have hfault (fault : NameFault) :
      decide (fault.Affects name) = decide (nameFault? name = some fault) :=
    decide_eq_decide.2 nameFault?_eq_some_iff.symm
  rw [nameViolations]
  simp only [hfault]
  cases nameFault? name with
  | none => rfl
  | some fault => cases fault <;> rfl

lemma checkName_eq (name : String) : checkName name = refuse (nameViolations name) := by
  rw [checkName, nameViolations_eq]
  cases nameFault? name with
  | none => rfl
  | some fault => rfl

lemma checkAlias_eq (aliasName : Option String) :
    checkAlias aliasName = refuse (aliasName.toList.flatMap nameViolations) := by
  cases aliasName with
  | none => rfl
  | some name =>
    rw [checkAlias, checkName_eq, Option.toList_some, List.flatMap_cons, List.flatMap_nil,
      List.append_nil]

mutual

/-- **A check reports the first violation.** -/
theorem check_eq_refuse : ∀ m : Manifest, m.check = refuse m.violations
  | ⟨pack, app, aliasName, dependencies⟩ => by
    rw [check, violations, checkName_eq, checkAlias_eq,
      checkDependencies_eq pack.name [] (fun _ => by simp) dependencies,
      refuse_append, refuse_append, bind_assoc]

-- The check keeps the keys that it has seen: those of the earlier dependencies.
theorem checkDependencies_eq (parent : String) (earlier : List Manifest) {keys : List String}
    (h : ∀ key, key ∈ keys ↔ ∃ e ∈ earlier, e.key = key) : ∀ ds : List Manifest,
    checkDependencies parent keys ds = refuse (violationsBelow parent earlier ds)
  | [] => by
    rw [checkDependencies, violationsBelow]
    rfl
  | d :: ds => by
    have hnext : ∀ key, key ∈ d.key :: keys ↔ ∃ e ∈ earlier ++ [d], e.key = key := by
      intro key
      simp [h, or_and_right, exists_or, or_comm, eq_comm]
    rw [checkDependencies, violationsBelow, check_eq_refuse d, refuse_append, refuse_append,
      bind_assoc, clashes]
    by_cases hkey : ∃ e ∈ earlier, e.key = d.key
    · rw [if_pos hkey, if_pos ((h d.key).2 hkey)]
      rfl
    · rw [if_neg hkey, if_neg (mt (h d.key).1 hkey), checkDependencies_eq parent _ hnext ds]
      rfl

end

/-! ### All violations -/

lemma mem_nameViolations : e ∈ nameViolations name ↔
    ∃ fault : NameFault, fault.Affects name ∧ .invalidName name fault = e := by
  rw [nameViolations_eq]
  simp only [List.mem_map, Option.mem_toList, nameFault?_eq_some_iff]

lemma mem_clashes {earlier : List Manifest} {d : Manifest} : e ∈ clashes parent earlier d ↔
    (∃ c ∈ earlier, c.key = d.key) ∧ e = .duplicateDependency parent d.key := by
  unfold clashes
  split_ifs with h
  · rw [List.mem_singleton, and_iff_right h]
  · exact iff_of_false List.not_mem_nil fun hc => h hc.1

lemma violationsBelow_eq (earlier ds : List Manifest) : violationsBelow parent earlier ds =
    (ds.mapIdx fun i d => d.violations ++ clashes parent (earlier ++ ds.take i) d).flatten := by
  induction ds generalizing earlier with
  | nil => rfl
  | cons d ds ih =>
    rw [violationsBelow, ih, List.mapIdx_cons, List.flatten_cons, List.take_zero, List.append_nil]
    simp only [List.take_succ_cons, List.append_assoc, List.singleton_append]

lemma mem_violationsBelow {ds : List Manifest} : e ∈ violationsBelow parent [] ds ↔
    ∃ j d, ds[j]? = some d ∧ (e ∈ d.violations ∨ e ∈ clashes parent (ds.take j) d) := by
  rw [violationsBelow_eq, List.mem_flatten]
  constructor
  · rintro ⟨found, hfound, he⟩
    obtain ⟨j, hj⟩ := List.getElem?_of_mem hfound
    rw [List.getElem?_mapIdx] at hj
    obtain ⟨d, hd, rfl⟩ := Option.map_eq_some_iff.1 hj
    exact ⟨j, d, hd, List.mem_append.1 he⟩
  · rintro ⟨j, d, hd, he⟩
    refine ⟨_, List.mem_of_getElem? (i := j) ?_, List.mem_append.2 he⟩
    rw [List.getElem?_mapIdx, hd, Option.map_some, List.nil_append]

/-- The violations in a manifest are its own and those in its dependencies. -/
lemma mem_violations :
    e ∈ m.violations ↔ m.Violates e ∨ ∃ d ∈ m.dependencies, e ∈ d.violations := by
  rw [violations_eq, List.mem_append, List.mem_append, mem_nameViolations, List.mem_flatMap,
    mem_violationsBelow]
  constructor
  · rintro ((⟨fault, hfault, rfl⟩ | ⟨name, hname, he⟩) | ⟨j, d, hd, he | he⟩)
    · exact .inl (.name hfault)
    · obtain ⟨fault, hfault, rfl⟩ := mem_nameViolations.1 he
      exact .inl (.aliasName (Option.mem_toList.1 hname) hfault)
    · exact .inr ⟨d, List.mem_of_getElem? hd, he⟩
    · obtain ⟨⟨c, hc, hkey⟩, rfl⟩ := mem_clashes.1 he
      obtain ⟨i, hi⟩ := List.getElem?_of_mem hc
      rw [List.getElem?_take] at hi
      split_ifs at hi with hij
      exact .inl (.clash hij hi hd hkey)
  · rintro (hviolates | ⟨d, hd, he⟩)
    · cases hviolates with
      | name hfault => exact .inl (.inl ⟨_, hfault, rfl⟩)
      | aliasName hname hfault =>
        exact .inl (.inr ⟨_, Option.mem_toList.2 hname, mem_nameViolations.2 ⟨_, hfault, rfl⟩⟩)
      | @clash i j c d hij hi hj hkey =>
        have hc : c ∈ m.dependencies.take j := by
          refine List.mem_of_getElem? (i := i) ?_
          rw [List.getElem?_take, if_pos hij, hi]
        exact .inr ⟨j, d, hj, .inr (mem_clashes.2 ⟨⟨c, hc, hkey⟩, rfl⟩)⟩
    · obtain ⟨j, hj⟩ := List.getElem?_of_mem hd
      exact .inr ⟨j, d, hj, .inl he⟩

/-- **The violations in a manifest are those of all manifests that stand in it.** -/
lemma mem_violations_iff (m : Manifest) :
    e ∈ m.violations ↔ ∃ d : Manifest, d.IsWithin m ∧ d.Violates e := by
  induction m using induction_on with
  | step m ih =>
    rw [mem_violations]
    constructor
    · rintro (hviolates | ⟨d, hd, he⟩)
      · exact ⟨m, .self, hviolates⟩
      · obtain ⟨c, hc, hviolates⟩ := (ih d hd).1 he
        exact ⟨c, .under hd hc, hviolates⟩
    · rintro ⟨c, hc | ⟨hd, hc⟩, hviolates⟩
      · exact .inl hviolates
      · exact .inr ⟨_, hd, (ih _ hd).2 ⟨c, hc, hviolates⟩⟩

/-- The pack of a manifest keeps the rules exactly if nothing violates them there. -/
lemma isProper_iff : m.IsProper ↔ ∀ e, ¬ m.Violates e := by
  constructor
  · rintro ⟨hname, halias, hkeys⟩ e hviolates
    cases hviolates with
    | name hfault => exact isPackName_iff.1 hname _ hfault
    | aliasName hnamed hfault => exact isPackName_iff.1 (halias _ hnamed) _ hfault
    | clash hij hi hj hkey =>
      obtain ⟨hi', rfl⟩ := List.getElem?_eq_some_iff.1 hi
      obtain ⟨hj', rfl⟩ := List.getElem?_eq_some_iff.1 hj
      exact List.pairwise_iff_getElem.1 hkeys _ _ hi' hj' hij hkey
  · intro h
    refine ⟨isPackName_iff.2 fun fault hfault => h _ (.name hfault), fun name hname =>
      isPackName_iff.2 fun fault hfault => h _ (.aliasName hname hfault), ?_⟩
    refine List.pairwise_iff_getElem.2 fun i j hi hj hij hkey => ?_
    exact h _ (.clash hij (List.getElem?_eq_getElem hi) (List.getElem?_eq_getElem hj) hkey)

lemma violations_eq_nil_iff : m.violations = [] ↔ ∀ d : Manifest, d.IsWithin m → d.IsProper := by
  simp only [List.eq_nil_iff_forall_not_mem, mem_violations_iff, isProper_iff, not_exists, not_and]
  exact forall_comm.trans (forall_congr' fun d => forall_comm)

/-! ### Reading -/

/-- A text is accepted if nothing violates the rules in its manifest. -/
lemma read_eq {text : String} (h : parse text = .ok m) :
    read text = (refuse m.violations).map fun _ => m := by
  rw [read, h]
  change (m.check >>= fun _ => pure m) = _
  rw [check_eq_refuse]
  cases refuse m.violations with
  | error e => rfl
  | ok u => rfl

lemma refuse_eq_ok {found : List ManifestError} {u : Unit} : refuse found = .ok u ↔ found = [] := by
  cases found with
  | nil => exact iff_of_true rfl rfl
  | cons e found => exact iff_of_false (by rintro ⟨⟩) (List.cons_ne_nil _ _)

/-- A manifest that is read keeps the rules in all of its tree. -/
lemma isProper_of_read {text : String} (h : read text = .ok m) :
    ∀ d : Manifest, d.IsWithin m → d.IsProper := by
  obtain ⟨m', hparse, -⟩ := bind_eq_ok.1 h
  rw [read_eq (mapError_eq_ok.1 hparse)] at h
  obtain ⟨u, hrefuse, rfl⟩ := map_eq_ok.1 h
  exact violations_eq_nil_iff.1 (refuse_eq_ok.1 hrefuse)

end Violations

/-- **Whether a text is accepted, and what is reported if not.** A text that can be read as a
manifest is accepted exactly if every pack of the tree keeps the rules; otherwise the first of all
violations is reported, each of which is one of a pack of the tree. -/
theorem read_of_parse {text : String} {m : Manifest} (h : parse text = .ok m) :
    ((∃ r, read text = .ok r) ↔ ∀ d : Manifest, d.IsWithin m → d.IsProper) ∧
    (∀ r, read text = .ok r → r = m) ∧
    (∀ e, read text = .error e ↔ m.violations.head? = some e) ∧
    ∀ e, e ∈ m.violations ↔ ∃ d : Manifest, d.IsWithin m ∧ d.Violates e := by
  rw [read_eq h, ← violations_eq_nil_iff]
  refine ⟨?_, ?_, ?_, fun e => mem_violations_iff m⟩
  · rw [exists_map_eq_ok]
    simp only [refuse_eq_ok, exists_const]
  · intro r hr
    obtain ⟨-, -, rfl⟩ := map_eq_ok.1 hr
    rfl
  · intro e
    rw [map_eq_error]
    cases m.violations with
    | nil => exact iff_of_false (by rintro ⟨⟩) (by rintro ⟨⟩)
    | cons first found => rw [refuse, List.head?_cons, Except.error.injEq, Option.some.injEq]

/-- A manifest with a bad alias below its first dependency, and a second one under the same key. -/
def faulty : Manifest where
  pack := { name := "a" }
  dependencies :=
    [{ pack := { name := "b" },
       dependencies := [{ pack := { name := "c" }, aliasName := some "d.e" }] },
     { pack := { name := "b" } }]

/-- The text of this manifest. -/
def faultyText : String :=
  "pack.name = \"a\"\ndependencies = [\x7bpack.name = \"b\", dependencies = " ++
    "[\x7balias = \"d.e\", pack.name = \"c\"\x7d]\x7d, \x7bpack.name = \"b\"\x7d]\n"

theorem read_of_parse_faulty :
    parse faultyText = .ok faulty ∧
      read faultyText = .error (.invalidName "d.e" .characters) ∧
      .duplicateDependency "a" "b" ∈ faulty.violations ∧
      ∃ d : Manifest, d.IsWithin faulty ∧ d.Violates (.duplicateDependency "a" "b") := by
  have hparse : parse faultyText = .ok faulty := by decide +kernel
  have hviolations : faulty.violations =
      [.invalidName "d.e" .characters, .duplicateDependency "a" "b"] := by decide
  obtain ⟨-, -, herror, hmem⟩ := read_of_parse hparse
  have hfirst : faulty.violations.head? = some (.invalidName "d.e" .characters) := by
    rw [hviolations, List.head?_cons]
  have hclash : .duplicateDependency "a" "b" ∈ faulty.violations := by
    rw [hviolations]
    exact List.mem_cons_of_mem _ List.mem_cons_self
  exact ⟨hparse, (herror _).2 hfirst, hclash, (hmem _).1 hclash⟩

end Manifest

end PackScope
