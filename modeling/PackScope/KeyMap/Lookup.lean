import PackScope.KeyMap

/-!
What lookups find in finite maps. Binding a key changes what is found for that key alone, and two
maps in which every lookup finds the same are equal.
-/

namespace PackScope

universe u v

variable {κ : Type u} {β : Type v} [Ord κ] [Std.TransOrd κ]

/-! ### Entries -/

theorem Entries.get?_insert_self (key : κ) (value : β) (entries : List (κ × β)) :
    Entries.get? key (Entries.insert key value entries) = some value := by
  induction entries with
  | nil => simp [Entries.insert, Entries.get?]
  | cons head rest ih =>
    obtain ⟨k, b⟩ := head
    simp only [Entries.insert]
    split
    · simp [Entries.get?]
    · simp [Entries.get?]
    next hgt => simpa [Entries.get?, hgt] using ih

theorem Entries.get?_insert_of_ne {key other : κ} (h : compare other key ≠ .eq) (value : β)
    (entries : List (κ × β)) :
    Entries.get? other (Entries.insert key value entries) = Entries.get? other entries := by
  induction entries with
  | nil => simp [Entries.insert, Entries.get?, h]
  | cons head rest ih =>
    obtain ⟨k, b⟩ := head
    simp only [Entries.insert]
    split
    · simp [Entries.get?, h]
    next heq =>
      have hk : compare other k ≠ .eq := by rwa [← Std.TransCmp.congr_right heq]
      simp [Entries.get?, h, hk]
    · simp [Entries.get?, ih]

theorem Entries.get?_congr {key other : κ} (h : compare other key = .eq) (entries : List (κ × β)) :
    Entries.get? other entries = Entries.get? key entries := by
  induction entries with
  | nil => rfl
  | cons head rest ih => simp [Entries.get?, ih, Std.TransCmp.congr_left h]

omit [Std.TransOrd κ] in
theorem Entries.get?_eq_none {key : κ} {entries : List (κ × β)}
    (h : ∀ e ∈ entries, compare key e.1 = .lt) : Entries.get? key entries = none := by
  induction entries with
  | nil => rfl
  | cons head rest ih =>
    obtain ⟨k, b⟩ := head
    have hk : compare key k = .lt := h (k, b) (List.mem_cons_self ..)
    simpa [Entries.get?, hk] using ih fun e he => h e (List.mem_cons_of_mem _ he)

/-- Ascending lists in which every lookup finds the same are equal. -/
theorem Ascending.ext_get? [Std.LawfulEqOrd κ] {m n : List (κ × β)} (hm : Ascending m)
    (hn : Ascending n) (h : ∀ key, Entries.get? key m = Entries.get? key n) : m = n := by
  induction m generalizing n with
  | nil =>
    cases n with
    | nil => rfl
    | cons head rest => simpa [Entries.get?] using h head.1
  | cons head rest ih =>
    obtain ⟨k, b⟩ := head
    obtain ⟨hk, hrest⟩ := List.pairwise_cons.1 hm
    cases n with
    | nil => simpa [Entries.get?] using h k
    | cons head' rest' =>
      obtain ⟨k', b'⟩ := head'
      obtain ⟨hk', hrest'⟩ := List.pairwise_cons.1 hn
      have hkk : k = k' := by
        match hc : compare k k' with
        | .eq => exact Std.LawfulEqCmp.eq_of_compare hc
        | .lt =>
          have hnone : Entries.get? k ((k', b') :: rest') = none :=
            Entries.get?_eq_none fun e he => by
              rcases List.mem_cons.1 he with rfl | he
              · exact hc
              · exact Std.TransCmp.lt_trans hc (hk' e he)
          have hb := h k
          rw [hnone] at hb
          simp [Entries.get?] at hb
        | .gt =>
          have hc' : compare k' k = .lt := Std.OrientedCmp.gt_iff_lt.1 hc
          have hnone : Entries.get? k' ((k, b) :: rest) = none :=
            Entries.get?_eq_none fun e he => by
              rcases List.mem_cons.1 he with rfl | he
              · exact hc'
              · exact Std.TransCmp.lt_trans hc' (hk e he)
          have hb := h k'
          rw [hnone] at hb
          simp [Entries.get?] at hb
      subst hkk
      have hb : b = b' := by simpa [Entries.get?] using h k
      subst hb
      have hr : rest = rest' := ih hrest hrest' fun key => by
        by_cases hkey : compare key k = .eq
        · obtain rfl := Std.LawfulEqCmp.eq_of_compare hkey
          rw [Entries.get?_eq_none hk, Entries.get?_eq_none hk']
        · simpa [Entries.get?, hkey] using h key
      rw [hr]

/-! ### Maps -/

namespace KeyMap

theorem get?_insert (m : KeyMap κ β) (key other : κ) (value : β) :
    (m.insert key value).get? other = if compare other key = .eq then some value
      else m.get? other := by
  split
  next h =>
    show Entries.get? other (Entries.insert key value m.entries) = some value
    rw [← Entries.get?_insert_self key value m.entries]
    exact Entries.get?_congr h _
  next h => exact Entries.get?_insert_of_ne h value m.entries

/-- Maps in which every lookup finds the same are equal. -/
theorem ext_get? [Std.LawfulEqOrd κ] {m n : KeyMap κ β} (h : ∀ key, m.get? key = n.get? key) :
    m = n :=
  ext (m.ascending.ext_get? n.ascending h)

end KeyMap

end PackScope
