import PackScope.Proofs.Command.Merging
import PackScope.Proofs.VariableSet.Union

/-!
Override files in layers. Reading several files layers their sets one after another, so what holds of
layering holds of lists of files: the last file that declares a variable tells it whole, and the
files may be grouped at will.
-/

namespace PackScope.Command

open VariableSet (IsLayered)

/-- **Layering is a union in which the upper set counts.** It keeps all packs of both sets, it is
associative, the empty set is neutral, a set layered over itself is that set, and sets without a
common variable may change places. What is read from a list of files is the union of their sets. -/
theorem layering_is_union :
    (∀ a b : VariableSet,
      (∀ pack, ((a.overlay b).get? pack).isSome ↔ (a.get? pack).isSome ∨ (b.get? pack).isSome) ∧
      ∀ pack key, (a.overlay b).lookup? pack key =
        (b.lookup? pack key).or (a.lookup? pack key)) ∧
    (∀ a b c : VariableSet, (a.overlay b).overlay c = a.overlay (b.overlay c)) ∧
    (∀ set : VariableSet, VariableSet.overlay .empty set = set ∧ set.overlay .empty = set ∧
      set.overlay set = set) ∧
    (∀ base a b : VariableSet, a.Apart b →
      (base.overlay a).overlay b = (base.overlay b).overlay a) ∧
    ∀ (files : Files) (paths : List String) (sets : List VariableSet),
      List.Forall₂ (Holds files) paths sets →
        ∃ merged, readLayers files paths = .ok merged ∧ IsLayered sets merged := by
  refine ⟨fun a b => ⟨?_, ?_⟩, VariableSet.overlay_assoc, fun set => ⟨?_, ?_, ?_⟩, ?_, ?_⟩
  · intro pack
    exact VariableSet.isSome_get?_overlay
  · intro pack key
    exact VariableSet.lookup?_overlay
  · exact VariableSet.overlay_empty set
  · exact VariableSet.overlay_empty_right set
  · exact VariableSet.overlay_self set
  · intro base a b h
    exact VariableSet.overlay_right_comm h base
  · intro files paths sets h
    exact ⟨VariableSet.layers sets, readLayers_eq h, VariableSet.isLayered_layers sets⟩

/-- Three files; the first two hold one variable both, the last one holds another one of the same
pack. -/
def threeFiles : Files where
  read path :=
    if path = "a.toml" then .ok "a.b = 1\n"
    else if path = "b.toml" then .ok "a.b = 2\n"
    else if path = "c.toml" then .ok "a.c = 3\n"
    else .error .missing
  writeFault? _ := none

/-- What one of the files holds. -/
def heldIn (path key : String) (n : Int64) : VariableSet :=
  VariableSet.put .empty ⟨"a"⟩ ⟨key⟩
    { name := ⟨key⟩, value := .integer n, range := ⟨path, ⟨1, 7, 6⟩, ⟨1, 8, 7⟩⟩ }

theorem layering_is_union_threeFiles :
    List.Forall₂ (Holds threeFiles) ["a.toml", "b.toml", "c.toml"]
      [heldIn "a.toml" "b" 1, heldIn "b.toml" "b" 2, heldIn "c.toml" "c" 3] ∧
    (∃ merged, readLayers threeFiles ["a.toml", "b.toml", "c.toml"] = .ok merged ∧
      IsLayered [heldIn "a.toml" "b" 1, heldIn "b.toml" "b" 2, heldIn "c.toml" "c" 3] merged ∧
      merged.lookup? ⟨"a"⟩ ⟨"b"⟩ = (heldIn "b.toml" "b" 2).lookup? ⟨"a"⟩ ⟨"b"⟩) ∧
    (heldIn "b.toml" "b" 2).Apart (heldIn "c.toml" "c" 3) ∧
    ((heldIn "a.toml" "b" 1).overlay (heldIn "b.toml" "b" 2)).overlay (heldIn "c.toml" "c" 3) =
      ((heldIn "a.toml" "b" 1).overlay (heldIn "c.toml" "c" 3)).overlay (heldIn "b.toml" "b" 2) := by
  have hread : List.Forall₂ (Holds threeFiles) ["a.toml", "b.toml", "c.toml"]
      [heldIn "a.toml" "b" 1, heldIn "b.toml" "b" 2, heldIn "c.toml" "c" 3] := by
    have ha : OverrideFile.read "a.toml" "a.b = 1\n" = .ok (heldIn "a.toml" "b" 1) := by
      decide +kernel
    have hb : OverrideFile.read "b.toml" "a.b = 2\n" = .ok (heldIn "b.toml" "b" 2) := by
      decide +kernel
    have hc : OverrideFile.read "c.toml" "a.c = 3\n" = .ok (heldIn "c.toml" "c" 3) := by
      decide +kernel
    exact .cons ⟨_, rfl, ha⟩ (.cons ⟨_, rfl, hb⟩ (.cons ⟨_, rfl, hc⟩ .nil))
  have hapart : (heldIn "b.toml" "b" 2).Apart (heldIn "c.toml" "c" 3) := by
    intro pack key
    rw [heldIn, heldIn, VariableSet.lookup?_put, VariableSet.lookup?_put]
    by_cases hkey : pack = ⟨"a"⟩ ∧ key = ⟨"b"⟩
    · have hother : key ≠ ⟨"c"⟩ := by
        rw [hkey.2]
        decide
      right
      rw [if_neg fun h => hother h.2]
      rfl
    · left
      rw [if_neg hkey]
      rfl
  obtain ⟨-, -, -, hcomm, hlayers⟩ := layering_is_union
  obtain ⟨merged, hmerged, hlayered⟩ := hlayers _ _ _ hread
  refine ⟨hread, ⟨merged, hmerged, hlayered, ?_⟩, hapart, hcomm _ _ _ hapart⟩
  apply (hlayered.lookup?_iff _ _ _).2
  exact ⟨[_], _, [_], rfl, rfl, List.forall_mem_singleton.2 (by decide)⟩

end PackScope.Command
