import PackScope.Proofs.KeyMap.Listing
import PackScope.VariableSet

/-!
The typed names of a legacy set. Each of its variables is found under the typed names of its pack
and key, and nothing else is; whatever is put into a legacy set is put under typed names as well.
-/

namespace PackScope

namespace LegacySet

/-- The variables of a pack under typed names. -/
def typed (vars : KeyMap String Variable) : PackVariables :=
  vars.mapKeys VariableId.mk fun _ _ h => h

lemma get?_typed (vars : KeyMap String Variable) (key : String) :
    (typed vars).get? ⟨key⟩ = vars.get? key := by
  have hget := Entries.get?_map (f := VariableId.mk) (g := id) (fun _ _ => rfl) key vars.entries
  rw [Option.map_id_fun] at hget
  exact hget

lemma typed_insert (vars : KeyMap String Variable) (key : String) (v : Variable) :
    typed (vars.insert key v) = (typed vars).insert ⟨key⟩ v :=
  KeyMap.ext (Entries.map_insert (f := VariableId.mk) (fun _ => id) (fun _ _ => rfl) key v vars.entries)

variable (set : LegacySet) (pack key : String)

lemma entries_rekey : set.rekey.entries = set.entries.map fun e => (⟨e.1⟩, typed e.2) :=
  List.map_map

lemma get?_rekey : set.rekey.get? ⟨pack⟩ = (set.get? pack).map typed := by
  rw [KeyMap.get?, entries_rekey]
  exact Entries.get?_map (f := PackId.mk) (g := typed) (fun _ _ => rfl) pack set.entries

lemma ofPack_rekey : set.rekey.ofPack ⟨pack⟩ = typed (set.ofPack pack) := by
  rw [VariableSet.ofPack, get?_rekey, ofPack]
  cases set.get? pack with
  | none => rfl
  | some vars => rfl

lemma lookup?_rekey : set.rekey.lookup? ⟨pack⟩ ⟨key⟩ = (set.get? pack).bind (·.get? key) := by
  rw [VariableSet.lookup?, get?_rekey]
  cases set.get? pack with
  | none => rfl
  | some vars => exact get?_typed vars key

lemma keys_rekey : set.rekey.keys = set.keys.map PackId.mk := by
  rw [KeyMap.keys, entries_rekey, List.map_map, KeyMap.keys, List.map_map]
  rfl

/-- **No two legacy sets are the same under typed names.** -/
lemma rekey_injective {set set' : LegacySet} (h : set.rekey = set'.rekey) : set = set' := by
  have htyped : ∀ {vars vars' : KeyMap String Variable},
      typed vars = typed vars' → vars = vars' := by
    intro vars vars' h
    refine KeyMap.ext_get? fun key => ?_
    rw [← get?_typed, h, get?_typed]
  refine KeyMap.ext_get? fun pack => ?_
  have hpack : (set.get? pack).map typed = (set'.get? pack).map typed := by
    rw [← get?_rekey, h, get?_rekey]
  exact Option.map_injective (fun _ _ => htyped) hpack

/-! ### Changes -/

lemma rekey_insert (vars : KeyMap String Variable) :
    LegacySet.rekey (set.insert pack vars) = set.rekey.insert ⟨pack⟩ (typed vars) := by
  refine KeyMap.ext ?_
  rw [entries_rekey]
  change _ = Entries.insert _ _ set.rekey.entries
  rw [entries_rekey]
  exact Entries.map_insert (f := PackId.mk) (fun _ => typed) (fun _ _ => rfl) pack vars set.entries

lemma rekey_touch : (set.touch pack).rekey = set.rekey.touch ⟨pack⟩ := by
  rw [touch, rekey_insert, VariableSet.touch, ofPack_rekey]

lemma rekey_put (v : Variable) : (set.put pack key v).rekey = set.rekey.put ⟨pack⟩ ⟨key⟩ v := by
  rw [put, rekey_insert, typed_insert, VariableSet.put, ofPack_rekey]

/-! ### Listings -/

/-- The entries of a listing under typed names, one by one. -/
def typedListing (listing : Listing String (Listing String Variable)) :
    Listing PackId (Listing VariableId Variable) :=
  listing.map fun e => (⟨e.1⟩, e.2.map fun x => (⟨x.1⟩, x.2))

/-- **Whatever the order in which its variables are put under typed names, the set is the same.** -/
lemma collect_typedListing {listing : Listing String (Listing String Variable)}
    (h : listing.Lists set) : (typedListing listing).collect = set.rekey := by
  refine Listing.Lists.collect_eq ⟨?_, fun e he => ?_⟩
  · rw [keys_rekey, typedListing, List.map_map]
    have hkeys := h.keys.map PackId.mk
    rwa [List.map_map] at hkeys
  · obtain ⟨x, hx, rfl⟩ := List.mem_map.1 he
    obtain ⟨vars, hvars, hperm⟩ := h.entries x hx
    exact ⟨typed vars, by rw [get?_rekey, hvars]; rfl, hperm.map _⟩

end LegacySet

end PackScope
