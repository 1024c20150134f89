import Mathlib.Data.List.Forall2
import Mathlib.Tactic.Lemma
import PackScope.Pack

/-!
Trees of packs that are built step by step. After every step a pack stands at the path that was
chosen for it last, or else at the one that follows from its place in the tree, so only the order of
steps of one kind counts.
-/

namespace PackScope

/-! ### Moved packs -/

namespace Pack

lemma rebaseAll_eq (parent : PackId) (ps : List Pack) :
    rebaseAll parent ps = ps.map (rebase parent) := by
  induction ps with
  | nil => rfl
  | cons p ps ih => rw [rebaseAll, ih, List.map_cons]

lemma rebase_eq (parent : PackId) (p : Pack) :
    p.rebase parent =
      { p with
        path := if p.pathChosen then p.path else parent.join p.key
        dependencies := p.dependencies.map
          (rebase (if p.pathChosen then p.path else parent.join p.key)) } := by
  cases p
  rw [Pack.rebase, rebaseAll_eq]
  rfl

lemma key_rebase (parent : PackId) (p : Pack) : (p.rebase parent).key = p.key := by
  rw [rebase_eq]
  rfl

end Pack

/-! ### Plans -/

mutual

/-- **A plan for a pack**: its name, and the steps in which it is built. -/
inductive Plan where
  | mk (name : String) (steps : List Plan.Step)

/-- A step of a plan. The pack of a dependency is planned in its turn. -/
inductive Plan.Step where
  | aliasName (name : String)
  | path (path : PackId)
  | metadata (metadata : Metadata)
  | dependency (plan : Plan)

end

namespace Plan

/-- The name of the planned pack. -/
def name : Plan → String
  | ⟨name, _⟩ => name

/-- The steps of a plan. -/
def steps : Plan → List Step
  | ⟨_, steps⟩ => steps

/-- The plan that stops after some steps. -/
def after (plan : Plan) (n : ℕ) : Plan := ⟨plan.name, plan.steps.take n⟩

mutual

/-- **The pack that a plan builds.** -/
def build : Plan → Pack
  | ⟨name, steps⟩ => Pack.build name (toSteps steps)

/-- A planned step as a step in building a pack, whose dependency is built before. -/
def Step.toStep : Step → Pack.Step
  | .aliasName name => .aliasName name
  | .path path => .path path
  | .metadata metadata => .metadata metadata
  | .dependency plan => .dependency plan.build

/-- Planned steps as steps in building a pack. -/
def toSteps : List Step → List Pack.Step
  | [] => []
  | s :: rest => s.toStep :: toSteps rest

end

/-! ### Steps of one kind -/

namespace Step

/-- The alias that a step gives. -/
def aliasName? : Step → Option String
  | .aliasName name => some name
  | _ => none

/-- The path that a step chooses. -/
def path? : Step → Option PackId
  | .path p => some p
  | _ => none

/-- The metadata that a step gives. -/
def metadata? : Step → Option Metadata
  | .metadata m => some m
  | _ => none

/-- The plan of the dependency that a step adds. -/
def dependency? : Step → Option Plan
  | .dependency plan => some plan
  | _ => none

end Step

/-- The alias that is given last. -/
def aliasName? (plan : Plan) : Option String := (plan.steps.filterMap Step.aliasName?).getLast?

/-- The path that is chosen last. -/
def path? (plan : Plan) : Option PackId := (plan.steps.filterMap Step.path?).getLast?

/-- The metadata that are given last. -/
def metadata? (plan : Plan) : Option Metadata := (plan.steps.filterMap Step.metadata?).getLast?

/-- The plans of the dependencies, in the order in which they are added. -/
def dependencies (plan : Plan) : List Plan := plan.steps.filterMap Step.dependency?

/-- The key of the planned pack among the dependencies of another. -/
def key (plan : Plan) : String := plan.aliasName?.getD plan.name

/-- **Whether a pack is laid out as a plan says**, below a place that counts where the plan chooses
no path. A dependency's place is the path of the pack that it belongs to, and its key. -/
inductive LaidOut : PackId → Plan → Pack → Prop
  | intro {place : PackId} {plan : Plan} {p : Pack} (name_eq : p.name = plan.name)
    (alias_eq : p.aliasName = plan.aliasName?) (path_eq : p.path = plan.path?.getD place)
    (chosen_eq : p.pathChosen = plan.path?.isSome)
    (metadata_eq : p.metadata = plan.metadata?.getD { pack := { name := plan.name } })
    (length_eq : p.dependencies.length = plan.dependencies.length)
    (below : ∀ (i : ℕ) (d : Plan) (q : Pack), plan.dependencies[i]? = some d →
      p.dependencies[i]? = some q → LaidOut (p.path.join q.key) d q) : LaidOut place plan p

section LaidOut

variable {place : PackId} {plan : Plan} {p : Pack}

lemma LaidOut.dependency (h : LaidOut place plan p) {i : ℕ} {d : Plan} {q : Pack}
    (hd : plan.dependencies[i]? = some d) (hq : p.dependencies[i]? = some q) :
    LaidOut (p.path.join q.key) d q := by
  obtain ⟨-, -, -, -, -, -, hbelow⟩ := h
  exact hbelow i d q hd hq

lemma LaidOut.length_dependencies (h : LaidOut place plan p) :
    p.dependencies.length = plan.dependencies.length := by
  obtain ⟨-, -, -, -, -, hlength, -⟩ := h
  exact hlength

lemma LaidOut.key_eq (h : LaidOut place plan p) : p.key = plan.key := by
  obtain ⟨hname, halias, -, -, -, -, -⟩ := h
  rw [Pack.key, Plan.key, hname, halias]

/-- **A plan lays out one pack only.** -/
lemma LaidOut.unique (h : LaidOut place plan p) {p' : Pack} (h' : LaidOut place plan p') :
    p = p' := by
  induction h generalizing p' with
  | @intro place plan p hname halias hpath hchosen hmetadata hlength hbelow ih =>
    obtain ⟨hname', halias', hpath', hchosen', hmetadata', hlength', hbelow'⟩ := h'
    have hdependencies : p.dependencies = p'.dependencies := by
      refine List.ext_getElem (hlength.trans hlength'.symm) fun i hi hi' => ?_
      have hd : plan.dependencies[i]? = some plan.dependencies[i] :=
        List.getElem?_eq_getElem (hlength ▸ hi)
      have hq := List.getElem?_eq_getElem hi
      have hq' := List.getElem?_eq_getElem hi'
      have hkey : p.dependencies[i].key = p'.dependencies[i].key :=
        (hbelow i _ _ hd hq).key_eq.trans (hbelow' i _ _ hd hq').key_eq.symm
      refine ih i _ _ hd hq ?_
      rw [hkey, hpath, ← hpath']
      exact hbelow' i _ _ hd hq'
    cases p
    cases p'
    simp_all

end LaidOut

/-! ### Moving packs -/

section Moving

variable {place : PackId} {plan : Plan} {p : Pack}

/-- **A pack that is moved is laid out at its new place.** -/
lemma LaidOut.rebase (h : LaidOut place plan p) (parent : PackId) :
    LaidOut (parent.join p.key) plan (p.rebase parent) := by
  induction h generalizing parent with
  | @intro place plan p hname halias hpath hchosen hmetadata hlength hbelow ih =>
    rw [Pack.rebase_eq]
    refine .intro hname halias ?_ hchosen hmetadata (by simpa using hlength) ?_
    · cases hp : plan.path? with
      | none => simp [hchosen, hp]
      | some path => simp [hchosen, hpath, hp]
    · intro i d q hd hq
      rw [List.getElem?_map, Option.map_eq_some_iff] at hq
      obtain ⟨q, hq, rfl⟩ := hq
      rw [Pack.key_rebase]
      exact ih i d q hd hq _

end Moving

/-! ### Building packs -/

section Building

variable {place : PackId} {name : String} {before : List Step} {p : Pack} {s : Step}

@[simp] lemma aliasName?_snoc : (mk name (before ++ [s])).aliasName? =
    s.aliasName?.or (mk name before).aliasName? := by
  cases s <;> simp [aliasName?, steps, Step.aliasName?]

@[simp] lemma path?_snoc : (mk name (before ++ [s])).path? =
    s.path?.or (mk name before).path? := by
  cases s <;> simp [path?, steps, Step.path?]

@[simp] lemma metadata?_snoc : (mk name (before ++ [s])).metadata? =
    s.metadata?.or (mk name before).metadata? := by
  cases s <;> simp [metadata?, steps, Step.metadata?]

@[simp] lemma dependencies_snoc : (mk name (before ++ [s])).dependencies =
    (mk name before).dependencies ++ s.dependency?.toList := by
  cases s <;> simp [dependencies, steps, Step.dependency?]

lemma laidOut_new (name : String) : LaidOut ⟨name⟩ ⟨name, []⟩ (Pack.new name) :=
  .intro rfl rfl rfl rfl rfl rfl fun _ _ _ hd => by cases hd

/-- What a step changes in a pack decides whether the changed pack is laid out. -/
lemma LaidOut.snoc (h : LaidOut place ⟨name, before⟩ p) {p' : Pack} (hname : p'.name = p.name)
    (halias : p'.aliasName = s.aliasName?.or p.aliasName) (hpath : p'.path = s.path?.getD p.path)
    (hchosen : p'.pathChosen = (s.path?.isSome || p.pathChosen))
    (hmetadata : p'.metadata = s.metadata?.getD p.metadata)
    (hlength : p'.dependencies.length = p.dependencies.length + s.dependency?.toList.length)
    (hbelow : ∀ (i : ℕ) (d : Plan) (q : Pack),
      ((mk name before).dependencies ++ s.dependency?.toList)[i]? = some d →
      p'.dependencies[i]? = some q → LaidOut (p'.path.join q.key) d q) :
    LaidOut place ⟨name, before ++ [s]⟩ p' := by
  obtain ⟨hname₀, halias₀, hpath₀, hchosen₀, hmetadata₀, hlength₀, -⟩ := h
  refine .intro (hname.trans hname₀) ?_ ?_ ?_ ?_ ?_ ?_
  · rw [halias, halias₀, aliasName?_snoc]
  · rw [hpath, hpath₀, path?_snoc]
    cases s.path? <;> rfl
  · rw [hchosen, hchosen₀, path?_snoc, Option.isSome_or]
  · rw [hmetadata, hmetadata₀, metadata?_snoc]
    cases s.metadata? <;> rfl
  · rw [hlength, hlength₀, dependencies_snoc, List.length_append]
  · rw [dependencies_snoc]
    exact hbelow

/-- A step that adds no dependency and chooses no path leaves the dependencies where they are. -/
lemma LaidOut.snoc_of_same (h : LaidOut place ⟨name, before⟩ p) (hs : s.dependency? = none)
    (hs' : s.path? = none) {p' : Pack} (hname : p'.name = p.name)
    (halias : p'.aliasName = s.aliasName?.or p.aliasName) (hpath : p'.path = p.path)
    (hchosen : p'.pathChosen = p.pathChosen) (hmetadata : p'.metadata = s.metadata?.getD p.metadata)
    (hdependencies : p'.dependencies = p.dependencies) :
    LaidOut place ⟨name, before ++ [s]⟩ p' := by
  refine h.snoc hname halias (by simp [hs', hpath]) (by simp [hs', hchosen]) hmetadata
    (by simp [hs, hdependencies]) fun i d q hd hq => ?_
  rw [hs, Option.toList_none, List.append_nil] at hd
  rw [hdependencies] at hq
  rw [hpath]
  exact h.dependency hd hq

lemma LaidOut.withPath (h : LaidOut place ⟨name, before⟩ p) (path : PackId) :
    LaidOut place ⟨name, before ++ [.path path]⟩ (p.withPath path) := by
  refine h.snoc rfl rfl rfl rfl rfl ?_ fun i d q hd hq => ?_
  · simp [Pack.withPath, Pack.rebaseAll_eq, Step.dependency?]
  · change ((mk name before).dependencies ++ [])[i]? = some d at hd
    rw [List.append_nil] at hd
    rw [Pack.withPath, Pack.rebaseAll_eq, List.getElem?_map, Option.map_eq_some_iff] at hq
    obtain ⟨q, hq, rfl⟩ := hq
    rw [Pack.key_rebase]
    exact (h.dependency hd hq).rebase path

lemma LaidOut.withDependency (h : LaidOut place ⟨name, before⟩ p) {d : Plan} {q : Pack}
    {place' : PackId} (hd : LaidOut place' d q) :
    LaidOut place ⟨name, before ++ [.dependency d]⟩ (p.withDependency q) := by
  refine h.snoc rfl rfl rfl rfl rfl ?_ fun i d' q' hd' hq' => ?_
  · simp [Pack.withDependency, Step.dependency?]
  · change ((mk name before).dependencies ++ [d])[i]? = some d' at hd'
    rw [List.getElem?_append, List.getElem?_singleton] at hd'
    rw [Pack.withDependency, List.getElem?_append, List.getElem?_singleton,
      h.length_dependencies] at hq'
    split_ifs at hd' hq'
    · exact h.dependency hd' hq'
    · obtain rfl : d = d' := Option.some.inj hd'
      obtain rfl : q.rebase p.path = q' := Option.some.inj hq'
      rw [Pack.key_rebase]
      exact hd.rebase p.path

mutual

/-- **Every plan lays out the pack that it builds**, at its name. -/
theorem laidOut_build : ∀ plan : Plan, LaidOut ⟨plan.name⟩ plan plan.build
  | ⟨name, steps⟩ => by
    rw [build]
    exact laidOut_run steps (laidOut_new name)

/-- A step leads from what a plan lays out to what the plan lays out with that step. -/
theorem laidOut_step : ∀ (s : Step) {place : PackId} {name : String} {before : List Step}
    {p : Pack}, LaidOut place ⟨name, before⟩ p →
    LaidOut place ⟨name, before ++ [s]⟩ (p.step s.toStep)
  | .aliasName _, _, _, _, _, h => h.snoc_of_same rfl rfl rfl rfl rfl rfl rfl rfl
  | .path path, _, _, _, _, h => h.withPath path
  | .metadata _, _, _, _, _, h => h.snoc_of_same rfl rfl rfl rfl rfl rfl rfl rfl
  | .dependency plan, _, _, _, _, h => h.withDependency (laidOut_build plan)

/-- Steps lead from what a plan lays out to what the plan lays out with those steps. -/
theorem laidOut_run : ∀ (rest : List Step) {place : PackId} {name : String} {before : List Step}
    {p : Pack}, LaidOut place ⟨name, before⟩ p →
    LaidOut place ⟨name, before ++ rest⟩ ((toSteps rest).foldl Pack.step p)
  | [], _, _, before, _, h => by
    rw [List.append_nil]
    exact h
  | s :: rest, _, _, before, _, h => by
    rw [List.append_cons, toSteps, List.foldl_cons]
    exact laidOut_run rest (laidOut_step s h)

end

end Building

/-! ### Reordering steps -/

/-- Whether steps of each kind come in one order in two lists of steps. -/
structure Step.SameOrder (before after : List Step) : Prop where
  aliases_eq : before.filterMap aliasName? = after.filterMap aliasName?
  paths_eq : before.filterMap path? = after.filterMap path?
  metadata_eq : before.filterMap metadata? = after.filterMap metadata?
  dependencies_eq : before.filterMap dependency? = after.filterMap dependency?

/-- **Whether two plans differ in the order of the steps of one pack only**, which may stand at any
depth, and steps of one kind come in the same order in both. -/
inductive Reordered : Plan → Plan → Prop
  | root {name : String} {steps steps' : List Step} (h : Step.SameOrder steps steps') :
    Reordered ⟨name, steps⟩ ⟨name, steps'⟩
  | inner {name : String} {before rest : List Step} {d d' : Plan} (h : Reordered d d') :
    Reordered ⟨name, before ++ .dependency d :: rest⟩ ⟨name, before ++ .dependency d' :: rest⟩

section Reordering

variable {plan plan' : Plan} {place : PackId} {p : Pack}

/-- Of the steps of a plan, what a pack is laid out by is the last one of each kind and all
dependencies. -/
lemma LaidOut.congr (hp : LaidOut place plan p) (hname : plan.name = plan'.name)
    (halias : plan.aliasName? = plan'.aliasName?) (hpath : plan.path? = plan'.path?)
    (hmetadata : plan.metadata? = plan'.metadata?)
    (hdependencies : List.Forall₂ (fun d d' => ∀ {place q}, LaidOut place d q → LaidOut place d' q)
      plan.dependencies plan'.dependencies) : LaidOut place plan' p := by
  obtain ⟨hname₀, halias₀, hpath₀, hchosen₀, hmetadata₀, hlength₀, hbelow₀⟩ := hp
  refine .intro (hname₀.trans hname) (halias₀.trans halias) (hpath ▸ hpath₀) (hpath ▸ hchosen₀) ?_
    (hlength₀.trans hdependencies.length_eq) fun i d' q hd' hq => ?_
  · rw [hmetadata₀, hmetadata, hname]
  · obtain ⟨hi, rfl⟩ := List.getElem?_eq_some_iff.1 hd'
    have hi₀ : i < plan.dependencies.length := hdependencies.length_eq ▸ hi
    exact hdependencies.get hi₀ hi (hbelow₀ i _ q (List.getElem?_eq_getElem hi₀) hq)

lemma Reordered.name_eq (h : Reordered plan plan') : plan.name = plan'.name := by
  cases h with
  | root h => rfl
  | inner h => rfl

/-- **Reordered plans lay out the same packs.** -/
lemma Reordered.laidOut (h : Reordered plan plan') (hp : LaidOut place plan p) :
    LaidOut place plan' p := by
  induction h generalizing place p with
  | @root name before after h =>
    have hdependencies : (mk name before).dependencies = (mk name after).dependencies :=
      h.dependencies_eq
    refine hp.congr rfl (congrArg List.getLast? h.aliases_eq) (congrArg List.getLast? h.paths_eq)
      (congrArg List.getLast? h.metadata_eq) ?_
    rw [hdependencies]
    exact List.forall₂_same.2 fun d _ place q hq => hq
  | @inner name before rest d d' h ih =>
    refine hp.congr rfl ?_ ?_ ?_ ?_
    · simp [aliasName?, steps, Step.aliasName?]
    · simp [path?, steps, Step.path?]
    · simp [metadata?, steps, Step.metadata?]
    · simp only [dependencies, steps, List.filterMap_append, List.filterMap_cons, Step.dependency?]
      refine List.rel_append (List.forall₂_same.2 fun d _ place q hq => hq) ?_
      exact .cons ih (List.forall₂_same.2 fun d _ place q hq => hq)

end Reordering

/-- **The paths of a tree of packs follow its plan.** After every step each pack has the path that
was chosen for it last, or else its name, if it is the root, or the path of its parent and its key;
and the order among steps of different kinds makes no difference. -/
theorem paths_follow (plan : Plan) :
    (∀ n, LaidOut ⟨plan.name⟩ (plan.after n) (plan.after n).build) ∧
      ∀ plan', Reordered plan plan' → plan.build = plan'.build := by
  refine ⟨fun n => laidOut_build (plan.after n), fun plan' h => ?_⟩
  refine (h.laidOut (laidOut_build plan)).unique ?_
  rw [h.name_eq]
  exact laidOut_build plan'

/-- A pack that is moved after a dependency was added, and the dependency's own dependency has a
path of its own. -/
def moved (steps : List Step) : Plan :=
  ⟨"app", [.dependency ⟨"postgres", steps⟩, .path ⟨"shared"⟩]⟩

theorem paths_follow_moved :
    Reordered (moved [.dependency ⟨"pool", [.path ⟨"own"⟩]⟩, .aliasName "db", .aliasName "sql"])
        (moved [.aliasName "db", .aliasName "sql", .dependency ⟨"pool", [.path ⟨"own"⟩]⟩]) ∧
      (moved [.dependency ⟨"pool", [.path ⟨"own"⟩]⟩, .aliasName "db", .aliasName "sql"]).build =
        (moved [.aliasName "db", .aliasName "sql",
          .dependency ⟨"pool", [.path ⟨"own"⟩]⟩]).build := by
  have h : Reordered
      (moved [.dependency ⟨"pool", [.path ⟨"own"⟩]⟩, .aliasName "db", .aliasName "sql"])
      (moved [.aliasName "db", .aliasName "sql", .dependency ⟨"pool", [.path ⟨"own"⟩]⟩]) :=
    @Reordered.inner _ [] _ _ _ (.root ⟨rfl, rfl, rfl, rfl⟩)
  exact ⟨h, (paths_follow _).2 _ h⟩

end Plan

end PackScope
