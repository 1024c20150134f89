import PackScope.Proofs.Scope.Structure
import PackScope.Proofs.Store.Runs

/-!
Stores in use. Whatever a program does with its sets and however often it loads them, the first set
that a store is given decides what every later read of it gives, and any other load is refused.
-/

namespace PackScope

/-! ### Reads -/

namespace Store

/-- **What can be asked of a store.** -/
inductive Query where
  | layout
  | isLoaded
  | isLegacy
  | isUnified
  | legacySet
  | contents
  | lookup (pack key : String)
  | packIds
  | dump
  | flat
  | scope (p : Pack)

/-- The answers that a query may have. -/
def Query.Answer : Query → Type
  | layout => Option Layout
  | isLoaded | isLegacy | isUnified => Bool
  | legacySet => Option LegacySet
  | contents => VariableSet
  | lookup _ _ => Option Variable
  | packIds => List PackId
  | dump => String
  | flat => Json × Diagnostics
  | scope _ => Scope × Diagnostics

/-- **What a store answers.** -/
def ask (store : Store) : (q : Query) → q.Answer
  | .layout => store.layout?
  | .isLoaded => store.isLoaded
  | .isLegacy => store.isLegacy
  | .isUnified => store.isUnified
  | .legacySet => store.legacySet?
  | .contents => store.contents
  | .lookup pack key => store.lookup? pack key
  | .packIds => store.packIds
  | .dump => store.dump
  | .flat => (store.flat, store.flatFailures)
  | .scope p => store.scope p

/-- **Whether nothing is seen in a store**: it names no layout, and every view of it is empty. -/
structure IsBlank (store : Store) : Prop where
  layout?_eq : store.layout? = none
  isLoaded_eq : store.isLoaded = false
  isLegacy_eq : store.isLegacy = false
  isUnified_eq : store.isUnified = false
  legacySet?_eq : store.legacySet? = none
  contents_eq : store.contents = .empty
  lookup?_eq : ∀ pack key, store.lookup? pack key = none
  packIds_eq : store.packIds = []
  dump_eq : store.dump = ""
  flat_eq : store.flat = .object []
  flatFailures_eq : store.flatFailures = []
  vars_eq : ∀ p way node, (store.scope p).1.follow? way = some node → node.current.vars = []

lemma isBlank_unloaded : unloaded.IsBlank where
  layout?_eq := rfl
  isLoaded_eq := rfl
  isLegacy_eq := rfl
  isUnified_eq := rfl
  legacySet?_eq := rfl
  contents_eq := rfl
  lookup?_eq _ _ := rfl
  packIds_eq := rfl
  dump_eq := rfl
  flat_eq := rfl
  flatFailures_eq := rfl
  vars_eq p way node hnode := by
    rw [Scope.follow?_scope] at hnode
    obtain ⟨q, -, rfl⟩ := Option.map_eq_some_iff.1 hnode
    rw [scope, Scope.ofPack_eq]
    rfl

/-! ### Loads -/

variable {store loaded : Store}

lemma load_unloaded : unloaded.load loaded = .ok loaded := rfl

lemma load_of_layout {layout : Layout} (h : store.layout? = some layout) :
    store.load loaded = .error ⟨layout⟩ := by
  rw [load, h]

end Store

/-! ### Programs -/

namespace Session

/-- What a program may do with its sets and stores: change a set to any other, load a set in one of
the layouts, or ask something. -/
inductive Use where
  | put (name : String) (set : VariableSet)
  | putLegacy (name : String) (set : LegacySet)
  | load (store : String) (layout : Layout) (set : String)
  | ask (store : String) (query : Store.Query)

/-- What a program gets back. -/
inductive Reply where
  | done
  | loaded
  | refused (e : AlreadyLoaded)
  | answer (query : Store.Query) (answer : query.Answer)

/-- Loads the set of a name into a store. -/
def load (s : Session) (store : String) : Layout → String → Except AlreadyLoaded Store
  | .legacy, set => (s.stores store).loadLegacy (s.legacySets set)
  | .unified, set => (s.stores store).loadUnified (s.sets set)

/-- **What comes of a use**: the session afterwards, and what the program gets back. -/
def use (s : Session) : Use → Session × Reply
  | .put name set => ({ s with sets := Function.update s.sets name set }, .done)
  | .putLegacy name set => ({ s with legacySets := Function.update s.legacySets name set }, .done)
  | .load store layout set =>
    let loaded := s.load store layout set
    (s.putStore store loaded, match loaded with
      | .ok _ => .loaded
      | .error e => .refused e)
  | .ask store query => (s, .answer query ((s.stores store).ask query))

/-- The session after some uses. -/
def after (s : Session) (uses : List Use) : Session := uses.foldl (fun s u => (s.use u).1) s

/-- What is offered to a store by loading the set of a name. -/
def offer (s : Session) : Layout → String → Store
  | .legacy, set => .legacy (s.legacySets set)
  | .unified, set => .unified (s.sets set)

/-- Whether a use is a load of a store. -/
def Use.Loads (u : Use) (store : String) : Prop := ∃ layout set, u = .load store layout set

variable {s : Session} {store : String} {layout : Layout}

lemma load_eq (s : Session) (store : String) (layout : Layout) (set : String) :
    s.load store layout set = (s.stores store).load (s.offer layout set) := by
  cases layout with
  | legacy => rfl
  | unified => rfl

lemma layout?_offer (s : Session) (layout : Layout) (set : String) :
    (s.offer layout set).layout? = some layout := by
  cases layout with
  | legacy => rfl
  | unified => rfl

lemma after_append (s : Session) (uses later : List Use) :
    s.after (uses ++ later) = (s.after uses).after later := by
  unfold after
  rw [List.foldl_append]

lemma after_cons (s : Session) (u : Use) (uses : List Use) :
    s.after (u :: uses) = (s.use u).1.after uses := rfl

lemma stores_putStore_of_ne (s : Session) {other : String} (h : store ≠ other)
    (loaded : Except AlreadyLoaded Store) :
    (s.putStore other loaded).stores store = s.stores store := by
  cases loaded with
  | error e => rfl
  | ok loaded => exact Function.update_of_ne h _ _

/-! ### One use -/

/-- **A use keeps a store** unless it loads it. -/
lemma stores_use {u : Use} (h : ¬ u.Loads store) : (s.use u).1.stores store = s.stores store := by
  cases u with
  | put name set => rfl
  | putLegacy name set => rfl
  | load other layout set =>
    apply stores_putStore_of_ne
    rintro rfl
    exact h ⟨layout, set, rfl⟩
  | ask other query => rfl

lemma use_load_of_unloaded (h : s.stores store = .unloaded) (layout : Layout) (set : String) :
    ((s.use (.load store layout set)).1.stores store = s.offer layout set) ∧
      (s.use (.load store layout set)).2 = .loaded := by
  have hload : s.load store layout set = .ok (s.offer layout set) := by
    rw [load_eq, h, Store.load_unloaded]
  rw [use, hload]
  exact ⟨Function.update_self _ _ _, rfl⟩

lemma use_load_of_layout (h : (s.stores store).layout? = some layout) (layout' : Layout)
    (set : String) : s.use (.load store layout' set) = (s, .refused ⟨layout⟩) := by
  have hload : s.load store layout' set = .error ⟨layout⟩ := by
    rw [load_eq, Store.load_of_layout h]
  rw [use, hload]
  rfl

/-- **A use keeps a store in which something is loaded.** -/
lemma stores_use_of_layout (h : (s.stores store).layout? = some layout) (u : Use) :
    (s.use u).1.stores store = s.stores store := by
  by_cases hu : u.Loads store
  · obtain ⟨layout', set, rfl⟩ := hu
    rw [use_load_of_layout h]
  · exact stores_use hu

/-! ### Runs -/

lemma stores_after {uses : List Use} (h : ∀ u ∈ uses, ¬ u.Loads store) :
    (s.after uses).stores store = s.stores store := by
  induction uses generalizing s with
  | nil => rfl
  | cons u uses ih =>
    obtain ⟨hu, huses⟩ := List.forall_mem_cons.1 h
    rw [after_cons, ih huses, stores_use hu]

lemma stores_after_of_layout (h : (s.stores store).layout? = some layout) (uses : List Use) :
    (s.after uses).stores store = s.stores store := by
  induction uses generalizing s with
  | nil => rfl
  | cons u uses ih =>
    have hu := stores_use_of_layout h u
    rw [after_cons, ih (by rw [hu, h]), hu]

/-- **A store is loaded once.** Nothing is seen in a new store before its first load. That load is
accepted and shows the set as it is then; from there on every answer stays, whatever is done and
whatever becomes of the set, and every other load is refused with the layout of the first one. -/
theorem load_once (hnew : s.stores store = .unloaded) {before : List Use}
    (hbefore : ∀ u ∈ before, ¬ u.Loads store) :
    ((s.after before).stores store).IsBlank ∧
    ∀ layout set,
      ((s.after before).use (.load store layout set)).2 = .loaded ∧
      (∀ query, ((s.after (before ++ [.load store layout set])).stores store).ask query =
        ((s.after before).offer layout set).ask query) ∧
      ∀ later,
        (∀ query, ((s.after (before ++ .load store layout set :: later)).stores store).ask query =
          ((s.after (before ++ [.load store layout set])).stores store).ask query) ∧
        ∀ layout' set', ((s.after (before ++ .load store layout set :: later)).use
          (.load store layout' set')).2 = .refused ⟨layout⟩ := by
  have hstore : (s.after before).stores store = .unloaded := by
    rw [stores_after hbefore, hnew]
  refine ⟨by rw [hstore]; exact Store.isBlank_unloaded, fun layout set => ?_⟩
  obtain ⟨hloaded, hreply⟩ := use_load_of_unloaded hstore layout set
  have hfirst : (s.after (before ++ [.load store layout set])).stores store =
      (s.after before).offer layout set := by
    rw [after_append, after_cons]
    exact hloaded
  have hlayout : ((s.after (before ++ [.load store layout set])).stores store).layout? =
      some layout := by
    rw [hfirst, layout?_offer]
  refine ⟨hreply, fun query => by rw [hfirst], fun later => ?_⟩
  have hlater : (s.after (before ++ .load store layout set :: later)).stores store =
      (s.after (before ++ [.load store layout set])).stores store := by
    rw [List.append_cons, after_append, stores_after_of_layout hlayout]
  refine ⟨fun query => by rw [hlater], fun layout' set' => ?_⟩
  rw [use_load_of_layout (by rw [hlater, hlayout])]

/-- What a program does before its first load: it asks, and puts a variable into a legacy set. -/
def fillOld : List Use :=
  [.ask "store" .packIds, .putLegacy "old" (.put .empty "a" "b" { name := ⟨"b"⟩, value := .null })]

/-- What it does then: it empties the set, and loads another one into the same store. -/
def emptyOld : List Use := [.putLegacy "old" .empty, .load "store" .unified "new"]

theorem load_once_emptied :
    (start.stores "store" = .unloaded ∧ ∀ u ∈ fillOld, ¬ u.Loads "store") ∧
    ((start.after fillOld).stores "store").IsBlank ∧
    ((start.after (fillOld ++ .load "store" .legacy "old" :: emptyOld)).stores "store").ask
      .packIds = [⟨"a"⟩] ∧
    ((start.after (fillOld ++ .load "store" .legacy "old" :: emptyOld)).use
      (.load "store" .unified "new")).2 = .refused ⟨.legacy⟩ := by
  have hbefore : ∀ u ∈ fillOld, ¬ u.Loads "store" := by
    intro u hu
    rcases List.mem_pair.1 hu with rfl | rfl
    · rintro ⟨_, _, h⟩
      cases h
    · rintro ⟨_, _, h⟩
      cases h
  obtain ⟨hblank, hfirst⟩ := load_once (s := start) rfl hbefore
  obtain ⟨-, hoffer, hlater⟩ := hfirst .legacy "old"
  obtain ⟨hanswers, hrefused⟩ := hlater emptyOld
  refine ⟨⟨rfl, hbefore⟩, hblank, ?_, hrefused .unified "new"⟩
  rw [hanswers, hoffer]
  rfl

end Session

end PackScope
