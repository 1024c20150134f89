import PackScope.Proofs.Scope.Variables

/-!
The two layouts of a store. A legacy set and the same set under typed names cannot be told apart
once they are loaded: every read of the one store gives what it gives of the other.
-/

namespace PackScope

/-- **Whether two stores cannot be told apart** by reading them. -/
structure Store.ReadsAlike (s t : Store) : Prop where
  contents_eq : s.contents = t.contents
  lookup?_eq : ∀ pack key, s.lookup? pack key = t.lookup? pack key
  packIds_eq : s.packIds = t.packIds
  dump_eq : s.dump = t.dump
  flat_eq : s.flat = t.flat
  flatFailures_eq : s.flatFailures = t.flatFailures
  scope_eq : ∀ p, s.scope p = t.scope p

/-- Whatever is read of a store is read of its contents. -/
lemma Store.readsAlike_of_contents {s t : Store} (h : s.contents = t.contents) :
    s.ReadsAlike t where
  contents_eq := h
  lookup?_eq pack key := by rw [lookup?_contents, lookup?_contents, h]
  packIds_eq := by rw [packIds, packIds, h]
  dump_eq := by rw [dump, dump, dumpChars, dumpChars, h]
  flat_eq := by rw [flat, flat, h]
  flatFailures_eq := by rw [flatFailures, flatFailures, h]
  scope_eq p := by rw [scope, scope, h]

namespace LegacySet

/-- **A legacy set reads as the same set under typed names.** Lookups in either store are lookups in
its contents, which hold the packs and variables of the legacy set and no others, whatever the order
in which these are put under typed names; and no other legacy set has the same contents. -/
theorem loads_alike (set : LegacySet) :
    ∃ s t, Store.unloaded.loadLegacy set = .ok s ∧ Store.unloaded.loadUnified set.rekey = .ok t ∧
      s.ReadsAlike t ∧
      (∀ pack key, s.lookup? pack key = s.contents.lookup? ⟨pack⟩ ⟨key⟩) ∧
      (∀ pack key, t.lookup? pack key = t.contents.lookup? ⟨pack⟩ ⟨key⟩) ∧
      s.contents.keys = set.keys.map PackId.mk ∧
      (∀ pack key, s.contents.lookup? ⟨pack⟩ ⟨key⟩ = (set.get? pack).bind (·.get? key)) ∧
      (∀ listing, listing.Lists set → (typedListing listing).collect = s.contents) ∧
      ∀ other : LegacySet, (Store.legacy other).contents = s.contents ↔ other = set := by
  refine ⟨.legacy set, .unified set.rekey, rfl, rfl, Store.readsAlike_of_contents rfl, ?_, ?_,
    keys_rekey set, lookup?_rekey set, fun listing h => collect_typedListing set h, fun other => ?_⟩
  · exact Store.lookup?_contents (.legacy set)
  · exact Store.lookup?_contents (.unified set.rekey)
  · constructor
    · intro h
      exact rekey_injective h
    · intro h
      rw [h]

/-- Two packs, of which one has no variables. -/
def twoPacks : LegacySet :=
  (put .empty "app" "port" { name := ⟨"port"⟩, value := .integer 80 }).touch "bare"

/-- The two packs, the last one first. -/
def twoPacksListing : Listing String (Listing String Variable) :=
  [("bare", []), ("app", [("port", { name := ⟨"port"⟩, value := .integer 80 })])]

theorem loads_alike_twoPacks : twoPacksListing.Lists twoPacks ∧
    ∃ s, Store.unloaded.loadLegacy twoPacks = .ok s ∧ s.packIds = [⟨"app"⟩, ⟨"bare"⟩] ∧
      (typedListing twoPacksListing).collect = s.contents := by
  have hlists : twoPacksListing.Lists twoPacks := by
    refine ⟨.swap "app" "bare" [], fun e he => ?_⟩
    rcases List.mem_pair.1 he with rfl | rfl
    · exact ⟨.empty, rfl, .nil⟩
    · exact ⟨.insert .empty "port" { name := ⟨"port"⟩, value := .integer 80 }, rfl, .refl _⟩
  obtain ⟨s, -, hs, -, -, -, -, hkeys, -, hcollect, -⟩ := loads_alike twoPacks
  exact ⟨hlists, s, hs, hkeys, hcollect _ hlists⟩

end LegacySet

end PackScope
