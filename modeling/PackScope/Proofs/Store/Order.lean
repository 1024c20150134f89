import Mathlib.Data.List.Induction
import PackScope.Proofs.Store.Layouts
import PackScope.Proofs.Store.Listing
import PackScope.Proofs.Text.ByteOrder

/-!
The order in which a store is filled. A set of variables is put together by insertions; the same
insertions in another order, and in either layout, give a store that reads the same.
-/

namespace PackScope

/-- One step in which a set is put together: a pack comes in, or a variable below a pack. -/
inductive Insertion where
  | touch (pack : PackId)
  | put (pack : PackId) (key : VariableId) (v : Variable)

namespace Insertion

/-- The pack that an insertion names. -/
def pack : Insertion → PackId
  | touch pack => pack
  | put pack _ _ => pack

/-- **Whether insertions are of one variable for each address.** -/
def Consistent (is : List Insertion) : Prop :=
  ∀ pack key v w, put pack key v ∈ is → put pack key w ∈ is → v = w

end Insertion

/-- One insertion into a set. -/
def VariableSet.add (set : VariableSet) : Insertion → VariableSet
  | .touch pack => set.touch pack
  | .put pack key v => set.put pack key v

/-- One insertion into a legacy set, under the texts of the names. -/
def LegacySet.add (set : LegacySet) : Insertion → LegacySet
  | .touch pack => set.touch pack.text
  | .put pack key v => set.put pack.text key.text v

namespace VariableSet

variable {set : VariableSet} {is : List Insertion} {pack : PackId} {key : VariableId}

lemma isSome_get?_add (i : Insertion) :
    ((set.add i).get? pack).isSome ↔ (set.get? pack).isSome ∨ i.pack = pack := by
  cases i with
  | touch other =>
    rw [add, get?_touch, Insertion.pack]
    split_ifs with h
    · simp [h]
    · simp [Ne.symm h]
  | put other key v =>
    rw [add, get?_put, Insertion.pack]
    split_ifs with h
    · simp [h]
    · simp [Ne.symm h]

/-- The set that insertions put together. -/
def ofInsertions (is : List Insertion) : VariableSet := is.foldl add .empty

lemma ofInsertions_concat (is : List Insertion) (i : Insertion) :
    ofInsertions (is ++ [i]) = (ofInsertions is).add i := by
  rw [ofInsertions, List.foldl_append]
  rfl

/-- The packs are those that are named. -/
lemma isSome_get?_ofInsertions :
    ((ofInsertions is).get? pack).isSome ↔ ∃ i ∈ is, i.pack = pack := by
  induction is using List.reverseRecOn with
  | nil => simp [ofInsertions, KeyMap.empty, KeyMap.get?, Entries.get?]
  | append_singleton is i ih =>
    rw [ofInsertions_concat, isSome_get?_add, ih]
    simp [or_and_right, exists_or]

/-- **The variables are those that are put in**, where no two are put at one address. -/
lemma lookup?_ofInsertions {v : Variable} (h : Insertion.Consistent is) :
    (ofInsertions is).lookup? pack key = some v ↔ .put pack key v ∈ is := by
  induction is using List.reverseRecOn with
  | nil => simp [ofInsertions, KeyMap.empty, lookup?, KeyMap.get?, Entries.get?]
  | append_singleton is i ih =>
    have ih := ih fun pack key v w hv hw =>
      h pack key v w (List.mem_append_left _ hv) (List.mem_append_left _ hw)
    rw [ofInsertions_concat, List.mem_append, List.mem_singleton]
    cases i with
    | touch other =>
      rw [add, lookup?_touch, ih]
      simp
    | put other last w =>
      rw [add, lookup?_put]
      split_ifs with haddress
      · obtain ⟨rfl, rfl⟩ := haddress
        have hlast : Insertion.put pack key w ∈ is ++ [.put pack key w] := by simp
        constructor
        · rintro ⟨⟩
          exact .inr rfl
        · intro hv
          have hmem := List.mem_append.2 (hv.imp_right List.mem_singleton.2)
          rw [h _ _ _ _ hmem hlast]
      · rw [ih]
        refine (or_iff_left ?_).symm
        rintro ⟨⟩
        exact haddress ⟨rfl, rfl⟩

/-- Insertions put together one set, in whatever order they come. -/
lemma ofInsertions_congr {is' : List Insertion} (h : Insertion.Consistent is)
    (hsame : ∀ i, i ∈ is ↔ i ∈ is') : ofInsertions is = ofInsertions is' := by
  have h' : Insertion.Consistent is' := fun pack key v w hv hw =>
    h pack key v w ((hsame _).2 hv) ((hsame _).2 hw)
  refine ext_lookup? (fun pack => ?_) fun pack key => Option.ext fun v => ?_
  · rw [isSome_get?_ofInsertions, isSome_get?_ofInsertions]
    simp only [hsame]
  · rw [lookup?_ofInsertions h, lookup?_ofInsertions h', hsame]

/-- Insertions that put a set together. -/
def insertions (set : VariableSet) : List Insertion :=
  set.keys.map .touch ++ set.stored.map fun a => .put a.pack a.key a.entry

lemma put_mem_insertions {v : Variable} :
    .put pack key v ∈ set.insertions ↔ set.lookup? pack key = some v := by
  rw [insertions, List.mem_append, List.mem_map, List.mem_map]
  constructor
  · rintro (⟨_, _, ⟨⟩⟩ | ⟨a, ha, ⟨⟩⟩)
    exact mem_stored.1 ha
  · intro h
    exact .inr ⟨⟨pack, key, v⟩, mem_stored.2 h, rfl⟩

lemma consistent_insertions (set : VariableSet) : Insertion.Consistent set.insertions :=
  fun _ _ _ _ hv hw =>
    Option.some.inj ((put_mem_insertions.1 hv).symm.trans (put_mem_insertions.1 hw))

/-- **Every set is put together by insertions.** -/
lemma ofInsertions_insertions (set : VariableSet) : ofInsertions set.insertions = set := by
  refine ext_lookup? (fun pack => ?_) fun pack key => Option.ext fun v => ?_
  · rw [isSome_get?_ofInsertions]
    constructor
    · rintro ⟨i, hi, rfl⟩
      cases i with
      | touch pack =>
        have hpack : pack ∈ set.keys := by simpa [insertions] using hi
        exact Entries.mem_keys_iff.1 hpack
      | put pack key v =>
        obtain ⟨vars, hvars, -⟩ := Option.bind_eq_some_iff.1 (put_mem_insertions.1 hi)
        exact Option.isSome_iff_exists.2 ⟨vars, hvars⟩
    · intro hpack
      have hkey : pack ∈ set.keys := Entries.mem_keys_iff.2 hpack
      exact ⟨.touch pack, List.mem_append_left _ (List.mem_map.2 ⟨pack, hkey, rfl⟩), rfl⟩
  · rw [lookup?_ofInsertions set.consistent_insertions, put_mem_insertions]

end VariableSet

/-- The legacy set that insertions put together. -/
def LegacySet.ofInsertions (is : List Insertion) : LegacySet := is.foldl add .empty

lemma LegacySet.rekey_ofInsertions (is : List Insertion) :
    (ofInsertions is).rekey = VariableSet.ofInsertions is := by
  induction is using List.reverseRecOn with
  | nil => rfl
  | append_singleton is i ih =>
    rw [VariableSet.ofInsertions_concat, ← ih, ofInsertions, List.foldl_append]
    cases i with
    | touch pack => exact rekey_touch _ _
    | put pack key v => exact rekey_put _ _ _ _

namespace Store

/-- **The store of a set that insertions put together**, in one of the layouts. -/
def ofInsertions : Layout → List Insertion → Store
  | .legacy, is => legacy (.ofInsertions is)
  | .unified, is => unified (.ofInsertions is)

variable {layout layout' : Layout} {is is' : List Insertion}

lemma contents_ofInsertions : (ofInsertions layout is).contents = .ofInsertions is := by
  cases layout with
  | legacy => exact LegacySet.rekey_ofInsertions is
  | unified => rfl

/-- **The order in which a store is filled is never seen.** Two stores into which the same packs and
variables are put, in whatever order and layout, read alike; so do any store and those into which
its variables are put. Every read can be read off any listing of the variables, also of those that
were put under typed names from a listing of a legacy set. The dump is one block for each variable,
in ascending order of the bytes of packs and keys. -/
theorem reads_ofInsertions (h : Insertion.Consistent is) (hsame : ∀ i, i ∈ is ↔ i ∈ is') :
    (ofInsertions layout is).ReadsAlike (ofInsertions layout' is') ∧
      (∀ store : Store, Insertion.Consistent store.contents.insertions ∧
        store.ReadsAlike (ofInsertions layout store.contents.insertions)) ∧
      (∀ packs, packs.Lists (VariableSet.ofInsertions is) →
        (ofInsertions .unified is).ReadsFrom packs) ∧
      (∀ listing packs, listing.Lists (LegacySet.ofInsertions is) →
        packs.Lists (LegacySet.typedListing listing).collect →
          (ofInsertions .legacy is).ReadsFrom packs) ∧
      ∃ blocks : List VariableSet.Stored,
        (∀ a, a ∈ blocks ↔ Insertion.put a.pack a.key a.entry ∈ is) ∧
        blocks.Pairwise (fun a b => utf8Bytes a.pack.text < utf8Bytes b.pack.text ∨
          a.pack = b.pack ∧ utf8Bytes a.key.text < utf8Bytes b.key.text) ∧
        (ofInsertions layout is).dump = String.join (blocks.map fun a => a.entry.block a.pack) := by
  refine ⟨readsAlike_of_contents ?_, fun store => ⟨store.contents.consistent_insertions,
    readsAlike_of_contents ?_⟩, fun packs hpacks => ?_,
    fun listing packs hlisting hpacks => ?_, (ofInsertions layout is).contents.stored,
    fun a => ?_, ?_, VariableSet.dump_eq_join _⟩
  · rw [contents_ofInsertions, contents_ofInsertions, VariableSet.ofInsertions_congr h hsame]
  · rw [contents_ofInsertions, VariableSet.ofInsertions_insertions]
  · exact @readsFrom (.unified (.ofInsertions is)) packs hpacks
  · rw [LegacySet.collect_typedListing _ hlisting] at hpacks
    exact readsFrom hpacks
  · rw [VariableSet.mem_stored, contents_ofInsertions, VariableSet.lookup?_ofInsertions h]
  · refine (VariableSet.pairwise_stored _).imp fun hab => ?_
    exact hab.imp utf8Bytes_lt (And.imp_right utf8Bytes_lt)

/-- A pack without variables, and another one with two of them. -/
def threeInsertions : List Insertion :=
  [.put ⟨"b"⟩ ⟨"k"⟩ { name := ⟨"k"⟩, value := .integer 1 }, .touch ⟨"a"⟩,
    .put ⟨"b"⟩ ⟨"é"⟩ { name := ⟨"é"⟩, value := .unknown }]

/-- What is put in, the last pack and the last variable first. -/
def threeInsertionsListing : Listing PackId (Listing VariableId Variable) :=
  [(⟨"b"⟩, [(⟨"é"⟩, { name := ⟨"é"⟩, value := .unknown }),
    (⟨"k"⟩, { name := ⟨"k"⟩, value := .integer 1 })]), (⟨"a"⟩, [])]

theorem reads_ofInsertions_reversed : Insertion.Consistent threeInsertions ∧
    (∀ i, i ∈ threeInsertions ↔ i ∈ threeInsertions.reverse) ∧
    threeInsertionsListing.Lists (VariableSet.ofInsertions threeInsertions) ∧
    (ofInsertions .legacy threeInsertions).ReadsAlike
      (ofInsertions .unified threeInsertions.reverse) ∧
    (ofInsertions .unified threeInsertions).ReadsFrom threeInsertionsListing := by
  have hconsistent : Insertion.Consistent threeInsertions := by
    intro pack key v w hv hw
    simp only [threeInsertions, List.mem_cons, Insertion.put.injEq, reduceCtorEq, List.not_mem_nil,
      false_or, or_false] at hv hw
    rcases hv with ⟨rfl, rfl, rfl⟩ | ⟨rfl, rfl, rfl⟩ <;> rcases hw with ⟨-, h, rfl⟩ | ⟨-, h, rfl⟩
    · rfl
    · exact absurd h (by decide)
    · exact absurd h (by decide)
    · rfl
  have hsame : ∀ i, i ∈ threeInsertions ↔ i ∈ threeInsertions.reverse :=
    fun i => List.mem_reverse.symm
  have hlists : threeInsertionsListing.Lists (VariableSet.ofInsertions threeInsertions) := by
    have hkeys : (VariableSet.ofInsertions threeInsertions).keys = [⟨"a"⟩, ⟨"b"⟩] := by rfl
    refine ⟨by rw [hkeys]; exact .swap _ _ [], fun e he => ?_⟩
    rcases List.mem_pair.1 he with rfl | rfl
    · exact ⟨_, rfl, .swap _ _ []⟩
    · exact ⟨.empty, rfl, .nil⟩
  obtain ⟨halike, -, hfrom, -, -⟩ :=
    @reads_ofInsertions .legacy .unified threeInsertions threeInsertions.reverse hconsistent hsame
  exact ⟨hconsistent, hsame, hlists, halike, hfrom _ hlists⟩

end Store

end PackScope
