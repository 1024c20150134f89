import PackScope.Proofs.OverrideFile.Reading

/-!
The round trip of override files. A set with plain names is dumped and read back, and what comes
back is what it restates, unless a value has a map that starts with the key reserved for date-times.
-/

namespace PackScope

open Toml (isTextChar)

/-- Whether a name is plain: no control characters but tabs, and single quotes not together with
double quotes or backslashes. -/
def IsPlainName (name : String) : Prop :=
  (∀ c ∈ name.toList, isTextChar c = true) ∧
    ¬ ('\'' ∈ name.toList ∧ ('"' ∈ name.toList ∨ '\\' ∈ name.toList))

instance : DecidablePred IsPlainName := fun name =>
  decidable_of_iff (name.toList.all isTextChar = true ∧
    ¬ ('\'' ∈ name.toList ∧ ('"' ∈ name.toList ∨ '\\' ∈ name.toList)))
    (and_congr_left' List.all_eq_true)

/-- **Whether a set can be dumped with plain names**: each variable stands under its own name,
descriptions have no control characters but tabs and line feeds, and the values with a TOML form
nest no deeper than the reader goes. -/
structure VariableSet.IsPlain (set : VariableSet) : Prop where
  name_eq : ∀ p ∈ set.entries, ∀ e ∈ p.2.entries, e.2.name = e.1
  pack_plain : ∀ p ∈ set.entries, IsPlainName p.1.text
  name_plain : ∀ p ∈ set.entries, ∀ e ∈ p.2.entries, IsPlainName e.2.name.text
  description_text : ∀ p ∈ set.entries, ∀ e ∈ p.2.entries, ∀ s, e.2.description = some s →
    ∀ c ∈ s.toList, isTextChar c = true ∨ c = '\n'
  ordered : ∀ p ∈ set.entries, ∀ e ∈ p.2.entries, e.2.value.isWritable = true → e.2.value.Ordered
  depth_le : ∀ p ∈ set.entries, ∀ e ∈ p.2.entries, e.2.value.isWritable = true →
    e.2.value.depth ≤ 79

lemma IsPlainName.onOneLine {name : String} (h : IsPlainName name) : OnOneLine name := by
  obtain ⟨htext, hquotes⟩ := h
  refine onOneLine_iff.2 ⟨fun hn => (Toml.isTextChar_iff.1 (htext _ hn)).2 rfl, ?_⟩
  by_cases hsingle : '\'' ∈ name.toList
  · exact .inr (.inl (not_or.1 fun hescapes => hquotes ⟨hsingle, hescapes⟩))
  · exact .inl hsingle

lemma VariableSet.IsPlain.readable {set : VariableSet} (h : set.IsPlain) : set.Readable where
  name_eq := h.name_eq
  readable p hp e he :=
    { pack_text := (h.pack_plain p hp).1
      name_text := (h.name_plain p hp e he).1
      description_text := h.description_text p hp e he
      pack_line := fun _ => (h.pack_plain p hp).onOneLine
      name_line := fun _ => (h.name_plain p hp e he).onOneLine
      ordered := h.ordered p hp e he
      depth_le := h.depth_le p hp e he }

/-- **The dump of a plain set restates it when it is read**, with all values that have a TOML form
and nothing else, exactly if none of these values has a map that starts with the reserved key. -/
theorem VariableSet.IsPlain.dump_restates_iff {set : VariableSet} (h : set.IsPlain)
    (filename : String) :
    (∃ result, OverrideFile.read filename (Store.unified set).dump = .ok result ∧
      result.forgetRanges = set.restated) ↔
      ∀ p ∈ set.entries, ∀ e ∈ p.2.entries, e.2.value.isWritable = true →
        e.2.value.startsReserved = false :=
  h.readable.exists_read_iff filename

/-! ### Sets of one variable -/

/-- The set of one variable. -/
def VariableSet.single (pack name : String) (value : Value) : VariableSet :=
  VariableSet.put .empty ⟨pack⟩ ⟨name⟩ { name := ⟨name⟩, value := value }

lemma isPlain_single {pack name : String} {value : Value} (hpack : IsPlainName pack)
    (hname : IsPlainName name) (ho : value.Ordered) (hd : value.depth ≤ 79) :
    (VariableSet.single pack name value).IsPlain := by
  have hentries (Q : PackId × PackVariables → VariableId × Variable → Prop)
      (h : Q (⟨pack⟩, KeyMap.insert .empty ⟨name⟩ { name := ⟨name⟩, value := value })
        (⟨name⟩, { name := ⟨name⟩, value := value })) :
      ∀ p ∈ (VariableSet.single pack name value).entries, ∀ e ∈ p.2.entries, Q p e := by
    intro p hp e he
    rw [List.mem_singleton.1 hp] at he ⊢
    rw [List.mem_singleton.1 he]
    exact h
  refine ⟨hentries _ rfl, ?_, hentries _ hname, hentries _ ?_, hentries _ fun _ => ho,
    hentries _ fun _ => hd⟩
  · intro p hp
    rw [List.mem_singleton.1 hp]
    exact hpack
  · rintro s ⟨⟩

/-- A map that quotes a key and holds an empty list comes back. -/
theorem dump_restates_limits :
    ∃ result, OverrideFile.read "vars.toml" (Store.unified (VariableSet.single "app.db" "limits"
      (.map [("max \"", .integer 3), ("min", .list [])]))).dump = .ok result ∧
      result.forgetRanges = (VariableSet.single "app.db" "limits"
        (.map [("max \"", .integer 3), ("min", .list [])])).restated := by
  refine (VariableSet.IsPlain.dump_restates_iff ?_ "vars.toml").2 ?_
  · refine isPlain_single (by decide) (by decide) ⟨?_, trivial, trivial, trivial⟩ (by decide)
    exact List.pairwise_pair.2 (by decide)
  · intro p hp e he _
    rw [List.mem_singleton.1 hp] at he
    rw [List.mem_singleton.1 he]
    rfl

/-- A map under the reserved key does not come back, whatever else is plain. -/
theorem dump_loses_reserved :
    (VariableSet.single "a" "b" (.map [("$__toml_private_datetime", .string "x")])).IsPlain ∧
    ¬ ∃ result, OverrideFile.read "vars.toml" (Store.unified (VariableSet.single "a" "b"
        (.map [("$__toml_private_datetime", .string "x")]))).dump = .ok result ∧
      result.forgetRanges = (VariableSet.single "a" "b"
        (.map [("$__toml_private_datetime", .string "x")])).restated := by
  have hplain : (VariableSet.single "a" "b"
      (.map [("$__toml_private_datetime", .string "x")])).IsPlain :=
    isPlain_single (by decide) (by decide) ⟨List.pairwise_singleton _ _, trivial, trivial⟩
      (by decide)
  refine ⟨hplain, ?_⟩
  rw [hplain.readable.exists_read_iff]
  intro h
  exact absurd (h _ (List.mem_singleton.2 rfl) _ (List.mem_singleton.2 rfl) rfl) (by decide)

end PackScope
