import PackScope.Proofs.Json.Order
import PackScope.Proofs.Scope.Rendering

/-!
Scopes as they are written out. What is written repeats no key and stands for the JSON object of the
scope, and this object has a member for the current pack exactly where the scope has a node, apart
from variables that look like one.
-/

namespace PackScope

/-! ### Metadata -/

namespace Json

/-- Whether no object in some data has a key, at any depth. -/
inductive Lacks (key : String) : Json → Prop
  | leaf {j : Json} (member?_eq : ∀ k, j.member? k = none) : Lacks key j
  | object {entries : List (String × Json)} (keys_ne : ∀ e ∈ entries, e.1 ≠ key)
    (below : ∀ e ∈ entries, Lacks key e.2) :
    Lacks key (.object entries)

/-- A key that is in no object is at the end of no way. -/
lemma Lacks.at?_eq_none {key : String} {j : Json} (h : Lacks key j) (way : List String) :
    j.at? (way ++ [key]) = none := by
  induction h generalizing way with
  | leaf member?_eq =>
    cases way with
    | nil => exact congrArg (Option.bind · _) (member?_eq key)
    | cons k way => exact congrArg (Option.bind · _) (member?_eq k)
  | @object entries keys_ne below ih =>
    have hfound {k : String} {v : Json} (hv : (Json.object entries).member? k = some v) :=
      Entries.mem_of_get? hv
    cases way with
    | nil =>
      rw [List.nil_append, at?_object, ← Option.not_isSome_iff_eq_none]
      intro hsome
      obtain ⟨v, hv⟩ := Option.isSome_iff_exists.1 hsome
      exact keys_ne _ (hfound hv) rfl
    | cons k way =>
      rw [List.cons_append, at?]
      cases hv : (Json.object entries).member? k with
      | none => rfl
      | some v => exact ih _ (hfound hv) way

end Json

namespace Metadata

variable (m : Metadata)

/-- What is known of a pack, as it stands in its metadata. -/
def packEntries : List (String × Json) :=
  optionalField "description" m.pack.description ++ [("name", .string m.pack.name)] ++
    optionalField "url" m.pack.url ++ optionalField "version" m.pack.version

lemma fields_eq : m.fields = [("app", .object m.app.fields), ("pack", .object m.packEntries)] := rfl

lemma keys_optionalField (key : String) (text : Option String) :
    ((optionalField key text).map Prod.fst).Sublist [key] := by
  cases text with
  | none => exact List.nil_sublist _
  | some text => exact .refl _

lemma keys_packEntries :
    (m.packEntries.map Prod.fst).Sublist ["description", "name", "url", "version"] := by
  unfold packEntries
  rw [List.map_append, List.map_append, List.map_append]
  exact (((keys_optionalField _ _).append (.refl _)).append (keys_optionalField _ _)).append
    (keys_optionalField _ _)

lemma string_of_mem_optionalField {key : String} {text : Option String} {e : String × Json}
    (h : e ∈ optionalField key text) : ∃ s, e.2 = .string s := by
  cases text with
  | none => cases h
  | some text =>
    obtain rfl := List.mem_singleton.1 h
    exact ⟨text, rfl⟩

lemma string_of_mem_packEntries {e : String × Json} (h : e ∈ m.packEntries) :
    ∃ s, e.2 = .string s := by
  simp only [packEntries, List.mem_append, List.mem_singleton] at h
  rcases h with ((h | rfl) | h) | h
  · exact string_of_mem_optionalField h
  · exact ⟨_, rfl⟩
  · exact string_of_mem_optionalField h
  · exact string_of_mem_optionalField h

/-- Texts under keys that are taken in order from some others. -/
lemma isInOrder_of_sublist {entries : List (String × Json)} {keys : List String}
    (hkeys : (entries.map Prod.fst).Sublist keys)
    (horder : keys.Pairwise fun a b => compare a b = .lt)
    (htexts : ∀ e ∈ entries, ∃ s, e.2 = .string s) : (Json.object entries).IsInOrder := by
  refine .object (ascending_iff_keys.2 (horder.sublist hkeys)) fun e he => ?_
  obtain ⟨s, hs⟩ := htexts e he
  rw [hs]
  exact .string s

lemma isInOrder_fields : (Json.object m.fields).IsInOrder := by
  have happ : (Json.object m.app.fields).IsInOrder :=
    isInOrder_of_sublist (keys_optionalField _ _) (by decide) fun _ => string_of_mem_optionalField
  have hpack : (Json.object m.packEntries).IsInOrder :=
    isInOrder_of_sublist m.keys_packEntries (by decide) fun _ => m.string_of_mem_packEntries
  have hkeys : ["app", "pack"].Pairwise fun a b => compare a b = .lt := by decide
  rw [fields_eq]
  exact .object (ascending_iff_keys.2 hkeys) (by simp [happ, hpack])

/-- Texts under keys that are taken from some others have no other keys below them. -/
lemma lacks_of_sublist {key : String} {entries : List (String × Json)} {keys : List String}
    (hkeys : (entries.map Prod.fst).Sublist keys) (hkey : key ∉ keys)
    (htexts : ∀ e ∈ entries, ∃ s, e.2 = .string s) : Json.Lacks key (.object entries) := by
  refine .object (fun e he heq => hkey (heq ▸ hkeys.subset (List.mem_map_of_mem he))) fun e he => ?_
  obtain ⟨s, hs⟩ := htexts e he
  rw [hs]
  exact .leaf fun _ => rfl

/-- The metadata of a pack never look like a current pack. -/
lemma lacks_fields : Json.Lacks currentKey (.object m.fields) := by
  have happ : Json.Lacks currentKey (.object m.app.fields) :=
    lacks_of_sublist (keys_optionalField _ _) (by decide) fun _ => string_of_mem_optionalField
  have hpack : Json.Lacks currentKey (.object m.packEntries) :=
    lacks_of_sublist m.keys_packEntries (by decide) fun _ => m.string_of_mem_packEntries
  rw [fields_eq]
  exact .object (by simp only [List.forall_mem_cons]; decide) (by simp [happ, hpack])

end Metadata

/-! ### Regular scopes -/

/-- **Whether all values of a store are ordered.** A value keeps the entries of a map as a list, and
they are in key order there, as those of every map that is read or built. -/
def Store.IsOrdered (store : Store) : Prop :=
  ∀ pack key v, store.lookup? pack key = some v → v.value.Ordered

namespace Scope

/-- **Whether a scope is regular**: what it shows of its pack is in order, its dependencies ascend,
and none of them stands under the reserved key, at every depth. -/
inductive IsRegular : Scope → Prop
  | intro {s : Scope} (vars : (Json.object s.current.vars).IsInOrder)
    (metadata : (Json.object s.current.metadata).IsInOrder) (ascending : Ascending s.dependencies)
    (keys_ne : ∀ e ∈ s.dependencies, e.1 ≠ currentKey)
    (below : ∀ e ∈ s.dependencies, IsRegular e.2) : IsRegular s

variable {store : Store}

lemma isInOrder_values (h : store.IsOrdered) (path : PackId) :
    (Json.object (store.contents.ofPack path).values).IsInOrder := by
  refine .object (store.contents.ofPack path).ascending_values fun e he => ?_
  obtain ⟨v, hv, hj⟩ := (store.contents.ofPack path).mem_values_iff.1 he
  rw [← Store.lookup?_eq store path.text e.1] at hv
  exact Value.isInOrder_toJson hj (h _ _ v hv)

mutual

/-- **The scope of a pack is regular.** -/
theorem isRegular_ofPack (h : store.IsOrdered) :
    ∀ p : Pack, (ofPack store.contents.converted p).1.IsRegular
  | ⟨name, aliasName, path, chosen, metadata, dependencies⟩ => by
    rw [ofPack]
    have hbelow := isRegular_ofDependencies h name [] (by simp) dependencies
    exact .intro (isInOrder_values h path) metadata.isInOrder_fields
      (ascending_ofDependencies .nil dependencies) (fun e he => (hbelow e he).1)
      fun e he => (hbelow e he).2

theorem isRegular_ofDependencies (h : store.IsOrdered) (parent : String)
    (earlier : List (String × Scope))
    (hearlier : ∀ e ∈ earlier, e.1 ≠ currentKey ∧ e.2.IsRegular) : ∀ ds : List Pack,
    ∀ e ∈ (ofDependencies store.contents.converted parent earlier ds).1,
      e.1 ≠ currentKey ∧ e.2.IsRegular
  | [] => by
    rw [ofDependencies]
    exact hearlier
  | d :: ds => by
    by_cases hd : d.key = currentKey
    · rw [ofDependencies_reserved hd]
      exact isRegular_ofDependencies h parent _ hearlier ds
    · rw [ofDependencies_shown hd]
      have hd' : (ofPack store.contents.converted d).1.IsRegular := isRegular_ofPack h d
      refine isRegular_ofDependencies h parent _ (fun e he => ?_) ds
      rcases Entries.mem_insert he with rfl | he
      · exact ⟨hd, hd'⟩
      · exact hearlier e he

end

/-! ### What is written -/

lemma writtenAll_eq (scopes : List (String × Scope)) :
    writtenAll scopes = scopes.map fun e => (e.1, e.2.written) := by
  induction scopes with
  | nil => rfl
  | cons e scopes ih => rw [writtenAll, ih, List.map_cons]

lemma insertAll_eq (scopes : List (String × Scope)) (entries : List (String × Json)) :
    insertAll scopes entries =
      scopes.foldl (fun acc e => Entries.insert e.1 e.2.toJson acc) entries := by
  induction scopes generalizing entries with
  | nil => rfl
  | cons e scopes ih => rw [insertAll, ih, List.foldl_cons]

/-- **What is written of a regular scope repeats no key.** -/
lemma IsRegular.hasDistinctKeys {s : Scope} (h : s.IsRegular) : s.written.HasDistinctKeys := by
  induction h with
  | @intro s vars metadata ascending keys_ne _ ih =>
    obtain ⟨current, dependencies⟩ := s
    have hkeys : (writtenAll dependencies).map Prod.fst = dependencies.map Prod.fst := by
      rw [writtenAll_eq, List.map_map]
      rfl
    have hcurrent : ["vars", "meta"].Nodup := by decide
    rw [written]
    refine .object ?_ (List.forall_mem_cons.2 ⟨.object hcurrent ?_, ?_⟩)
    · rw [List.map_cons, hkeys, List.nodup_cons]
      refine ⟨fun hmem => ?_, List.pairwise_map.2 ascending.keys_ne⟩
      obtain ⟨e, he, hkey⟩ := List.mem_map.1 hmem
      exact keys_ne e he hkey
    · simp [vars.hasDistinctKeys, metadata.hasDistinctKeys]
    · rw [writtenAll_eq, List.forall_mem_map]
      exact ih

/-- **What is written of a regular scope stands for its object.** -/
lemma IsRegular.inOrder_written {s : Scope} (h : s.IsRegular) : s.written.inOrder = s.toJson := by
  induction h with
  | @intro s vars metadata _ _ _ ih =>
    obtain ⟨current, dependencies⟩ := s
    have hlt : compare "meta" "vars" = .lt := by decide
    have hcurrent : (Json.object [("vars", .object current.vars),
        ("meta", .object current.metadata)]).inOrder =
        .object [("meta", .object current.metadata), ("vars", .object current.vars)] := by
      rw [Json.inOrder, Json.entriesInOrder, Json.entriesInOrder, Json.entriesInOrder,
        vars.inOrder_eq, metadata.inOrder_eq, Entries.ofList, List.foldl_cons, List.foldl_cons,
        List.foldl_nil, Entries.insert, Entries.insert, hlt]
    have hbelow : Json.entriesInOrder (writtenAll dependencies) =
        dependencies.map fun e => (e.1, e.2.toJson) := by
      rw [Json.entriesInOrder_eq, writtenAll_eq, List.map_map]
      exact List.map_congr_left fun e he => Prod.ext rfl (ih e he)
    rw [written, toJson, Json.inOrder, Json.entriesInOrder, hcurrent, hbelow, insertAll_eq,
      Entries.ofList, List.foldl_cons, List.foldl_map]
    rfl

/-! ### Members for current packs -/

/-- **Whether keys lead among the variables of a node**, to an object there that has a member under
the reserved key. -/
def EntersVars (s : Scope) (way : List String) : Prop :=
  ∃ front rest node, way = front ++ currentKey :: "vars" :: rest ∧ s.follow? front = some node ∧
    ((Json.object node.current.vars).at? (rest ++ [currentKey])).isSome

section Members

variable {s : Scope} {way : List String} {key : String}

lemma entersVars_cons (h : key ≠ currentKey) :
    s.EntersVars (key :: way) ↔ ∃ d, s.dependency? key = some d ∧ d.EntersVars way := by
  constructor
  · rintro ⟨_ | ⟨k, front⟩, rest, node, hway, hnode, hmember⟩
    · exact absurd (List.cons.inj hway).1 h
    · obtain ⟨rfl, rfl⟩ := List.cons.inj hway
      obtain ⟨d, hd, hnode⟩ := Option.bind_eq_some_iff.1 hnode
      exact ⟨d, hd, front, rest, node, rfl, hnode, hmember⟩
  · rintro ⟨d, hd, front, rest, node, rfl, hnode, hmember⟩
    refine ⟨key :: front, rest, node, rfl, ?_, hmember⟩
    rw [follow?, hd]
    exact hnode

lemma entersVars_current (h : s.dependency? currentKey = none) :
    s.EntersVars (currentKey :: way) ↔ ∃ rest, way = "vars" :: rest ∧
      ((Json.object s.current.vars).at? (rest ++ [currentKey])).isSome := by
  constructor
  · rintro ⟨_ | ⟨k, front⟩, rest, node, hway, hnode, hmember⟩
    · obtain rfl := Option.some.inj hnode
      exact ⟨rest, (List.cons.inj hway).2, hmember⟩
    · obtain ⟨rfl, -⟩ := List.cons.inj hway
      rw [follow?, h] at hnode
      cases hnode
  · rintro ⟨rest, rfl, hmember⟩
    exact ⟨[], rest, s, rfl, rfl, hmember⟩

/-- Below the member for a current pack, only its variables can have one of the same key. -/
lemma isSome_at?_current {vars metadata : List (String × Json)}
    (h : Json.Lacks currentKey (.object metadata)) :
    ((Json.object [("meta", .object metadata), ("vars", .object vars)]).at?
        (way ++ [currentKey])).isSome ↔
      ∃ rest, way = "vars" :: rest ∧ ((Json.object vars).at? (rest ++ [currentKey])).isSome := by
  cases way with
  | nil =>
    refine iff_of_false ?_ (by rintro ⟨_, ⟨⟩, -⟩)
    rw [List.nil_append, Json.at?_object, ← Entries.mem_keys_iff]
    exact (by decide : currentKey ∉ ["meta", "vars"])
  | cons key way =>
    simp only [List.cons_append, Json.at?, Json.member?, Entries.get?,
      Std.LawfulEqOrd.compare_eq_iff_eq, List.cons.injEq, and_assoc, exists_and_left,
      exists_eq_left']
    by_cases hmeta : key = "meta"
    · subst hmeta
      rw [if_pos rfl, Option.bind_some, h.at?_eq_none]
      exact iff_of_false Bool.false_ne_true fun hvars => absurd hvars.1 (by decide)
    · rw [if_neg hmeta]
      by_cases hvars : key = "vars"
      · rw [if_pos hvars, Option.bind_some, and_iff_right hvars]
      · rw [if_neg hvars]
        exact iff_of_false Bool.false_ne_true fun h => hvars h.1

end Members

/-- **The object of a scope has a member for a current pack exactly where the scope has a node**, or
where keys lead to variables that look like one. -/
lemma isSome_at?_toJson (store : Store) (p : Pack) (way : List String) :
    ((store.scope p).1.toJson.at? (way ++ [currentKey])).isSome ↔
      ((store.scope p).1.follow? way).isSome ∨ (store.scope p).1.EntersVars way := by
  induction way generalizing p with
  | nil =>
    refine iff_of_true ?_ (.inl rfl)
    rw [List.nil_append, Json.at?, member?_toJson, if_pos rfl]
    rfl
  | cons key way ih =>
    have hdependency := dependency?_scope store p key
    rw [List.cons_append, Json.at?, member?_toJson, follow?, hdependency]
    by_cases hkey : key = currentKey
    -- No dependency stands under the reserved key, so the way goes on in the current pack.
    · subst hkey
      have hnone : p.shown? currentKey = none := if_pos rfl
      rw [hnone] at hdependency ⊢
      have hmetadata := (shows_scope store p).metadata_eq
      rw [if_pos rfl, Option.bind_some, entersVars_current hdependency,
        isSome_at?_current (hmetadata ▸ p.metadata.lacks_fields)]
      exact (or_iff_right Bool.false_ne_true).symm
    · rw [if_neg hkey, entersVars_cons hkey, hdependency]
      cases p.shown? key with
      | none =>
        exact iff_of_false Bool.false_ne_true
          (not_or.2 ⟨Bool.false_ne_true, by rintro ⟨_, ⟨⟩, -⟩⟩)
      | some d =>
        rw [Option.map_some, Option.map_some, Option.bind_some, Option.bind_some, ih]
        simp only [Option.some.injEq, exists_eq_left']

end Scope

/-- **The two renderings of a scope agree, and show its nodes.** What is written repeats no key and
stands for the object of the scope. Keys lead to a member for a current pack exactly if they lead to
a node, or among the variables of one to an object with such a member of its own; at a node this
member holds the variables and the metadata that the node shows. -/
theorem Store.renderings_agree (store : Store) (h : store.IsOrdered) (p : Pack) :
    (store.scope p).1.written.inOrder = (store.scope p).1.toJson ∧
    (store.scope p).1.written.HasDistinctKeys ∧
    ∀ way,
      (((store.scope p).1.toJson.at? (way ++ [currentKey])).isSome ↔
        ((store.scope p).1.follow? way).isSome ∨ (store.scope p).1.EntersVars way) ∧
      ∀ node, (store.scope p).1.follow? way = some node →
        (store.scope p).1.toJson.at? (way ++ [currentKey, "vars"]) =
          some (.object node.current.vars) ∧
        (store.scope p).1.toJson.at? (way ++ [currentKey, "meta"]) =
          some (.object node.current.metadata) := by
  have hregular : (store.scope p).1.IsRegular := Scope.isRegular_ofPack h p
  refine ⟨hregular.inOrder_written, hregular.hasDistinctKeys, fun way =>
    ⟨Scope.isSome_at?_toJson store p way, fun node hnode => ?_⟩⟩
  rw [Scope.follow?_scope, Option.map_eq_some_iff] at hnode
  obtain ⟨q, hq, rfl⟩ := hnode
  rw [Scope.at?_toJson store hq, Scope.at?_toJson store hq, Json.at?, Json.at?,
    Scope.member?_toJson, if_pos rfl, Option.bind_some, Option.bind_some, Json.at?_object,
    Json.at?_object]
  exact ⟨rfl, rfl⟩

/-- A store with a variable under the reserved key. -/
def Store.selfNamed : Store :=
  .unified (.put .empty ⟨"a"⟩ ⟨currentKey⟩ { name := ⟨currentKey⟩, value := .integer 1 })

/-- A pack with a dependency whose key is that of a member of each current pack. -/
def Pack.overVars : Pack := build "a" [.dependency ((new "b").withAlias "vars")]

theorem Store.renderings_agree_overVars :
    selfNamed.IsOrdered ∧
    (selfNamed.scope .overVars).1.written.inOrder = (selfNamed.scope .overVars).1.toJson ∧
    ∃ node, (selfNamed.scope .overVars).1.follow? ["vars"] = some node ∧
      (selfNamed.scope .overVars).1.toJson.at? ["vars", "_self", "vars"] =
        some (.object node.current.vars) := by
  have hordered : selfNamed.IsOrdered := by
    intro pack key v hv
    change VariableSet.lookup? (.put _ _ _ _) _ _ = _ at hv
    rw [VariableSet.lookup?_put] at hv
    split_ifs at hv
    · obtain rfl := Option.some.inj hv
      trivial
    · cases hv
  obtain ⟨hwritten, -, hways⟩ := renderings_agree selfNamed hordered .overVars
  exact ⟨hordered, hwritten, _, rfl, ((hways ["vars"]).2 _ rfl).1⟩

/-- Keys that are followed by the reserved one need not lead to a node: a variable may stand under
that key. -/
theorem Store.selfNamed_leads_astray :
    (selfNamed.scope (.new "a")).1.toJson.at? (["_self", "vars"] ++ ["_self"]) =
        some (.integer 1) ∧
      (selfNamed.scope (.new "a")).1.follow? ["_self", "vars"] = none :=
  ⟨rfl, rfl⟩

end PackScope
