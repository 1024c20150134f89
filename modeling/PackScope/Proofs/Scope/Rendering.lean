import PackScope.Proofs.KeyMap.Merging
import PackScope.Proofs.Scope.Flat

/-!
Scopes and flat maps as JSON objects. Followed key by key, the object of a scope leads to all that
the scope shows, and the flat map leads to every variable that has a JSON form.
-/

namespace PackScope

/-- What is reached from an object by following keys. -/
def Json.at? : List String → Json → Option Json
  | [], j => some j
  | key :: way, j => (j.member? key).bind (at? way)

lemma Json.at?_object (key : String) (entries : List (String × Json)) :
    (object entries).at? [key] = Entries.get? key entries :=
  Option.bind_fun_some _

namespace Scope

/-! ### One level -/

/-- Of several scopes that are added under one key the last one is found, and what stood under the
key before if there is none. -/
lemma get?_insertAll (key : String) (scopes : List (String × Scope))
    (entries : List (String × Json)) :
    Entries.get? key (insertAll scopes entries) =
      ((Entries.get? key scopes.reverse).map toJson).or (Entries.get? key entries) := by
  induction scopes generalizing entries with
  | nil => rfl
  | cons e scopes ih =>
    rw [insertAll, ih, List.reverse_cons, Entries.get?_append, Option.map_or, Option.or_assoc]
    congr 1
    by_cases hkey : compare key e.1 = .eq
    · obtain rfl : key = e.1 := Std.LawfulEqOrd.eq_of_compare hkey
      rw [Entries.get?_insert_self, Entries.get?, if_pos hkey]
      rfl
    · rw [Entries.get?_insert_of_ne hkey, Entries.get?, if_neg hkey]
      rfl

variable (store : Store) (p : Pack)

/-- **The object of a scope holds its own pack and its dependencies** under their keys. -/
lemma member?_toJson (key : String) :
    (store.scope p).1.toJson.member? key =
      if key = currentKey then
        some (.object [("meta", .object (store.scope p).1.current.metadata),
          ("vars", .object (store.scope p).1.current.vars)])
      else (p.shown? key).map fun d => (store.scope d).1.toJson := by
  have hdependency := dependency?_scope store p key
  have hascending := ascending_dependencies store p
  rw [dependency?] at hdependency
  generalize (store.scope p).1 = s at *
  obtain ⟨current, dependencies⟩ := s
  rw [toJson, Json.member?, get?_insertAll, hascending.get?_reverse, hdependency]
  by_cases hkey : key = currentKey
  -- No dependency is shown under the reserved key, so the current pack is not replaced.
  · have hnone : p.shown? key = none := if_pos hkey
    subst hkey
    rw [hnone, if_pos rfl]
    rfl
  · have hne : compare key currentKey ≠ .eq := fun h => hkey (Std.LawfulEqOrd.eq_of_compare h)
    rw [if_neg hkey, Entries.get?, if_neg hne, Option.map_map]
    exact Option.or_none

/-! ### Ways -/

/-- The object of the scope of a pack leads to those of the packs that are shown. -/
lemma at?_toJson {p q : Pack} {way : List String} (h : p.follow? way = some q)
    (rest : List String) :
    (store.scope p).1.toJson.at? (way ++ rest) = (store.scope q).1.toJson.at? rest := by
  induction way generalizing p with
  | nil =>
    obtain rfl := Option.some.inj h
    rfl
  | cons key way ih =>
    obtain ⟨d, hd, hq⟩ := Option.bind_eq_some_iff.1 h
    have hne : key ≠ currentKey := by
      rintro rfl
      cases hd
    rw [List.cons_append, Json.at?, member?_toJson, if_neg hne, hd, Option.map_some,
      Option.bind_some]
    exact ih hq

/-- **The object of a scope holds the variables of every pack that is shown**, if they have a JSON
form. -/
theorem at?_vars {p q : Pack} {way : List String} (h : p.follow? way = some q) (key : String) :
    (store.scope p).1.toJson.at? (way ++ [currentKey, "vars", key]) =
      (store.lookup? q.path.text key).bind fun v => v.value.toJson.toOption := by
  rw [at?_toJson store h, Json.at?, member?_toJson, if_pos rfl, ← (shows_scope store q).vars_get?]
  exact Json.at?_object key _

end Scope

/-- **The flat map holds all variables that have a JSON form**, under their packs and keys. -/
theorem Store.at?_flat (store : Store) (pack key : String) :
    store.flat.at? [pack, key] =
      (store.lookup? pack key).bind fun v => v.value.toJson.toOption := by
  have hpack := store.member?_flat ⟨pack⟩
  rw [Json.at?, hpack, lookup?_eq, VariableSet.ofPack]
  cases store.contents.get? ⟨pack⟩ with
  | none => rfl
  | some vars => exact (Json.at?_object key _).trans (PackVariables.get?_values vars key)

end PackScope
