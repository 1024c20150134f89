import PackScope.Proofs.Number.Positional
import PackScope.Proofs.Text.ByteOrder
import PackScope.Proofs.Text.Reading
import PackScope.Proofs.Value.Parts

/-!
Failed conversions. A value without a JSON form is refused for the first part at fault, as the parts
stand depth first: items by their index, values of a map by the bytes of their keys. The failure says
where that part is, and without marks in the keys no other position is written in the same way.
-/

namespace PackScope

/-! ### Positions -/

/-- Whether a step leads to a part that stands in front of the part of another step. -/
def PathStep.Before : PathStep → PathStep → Prop
  | index m, index n => m < n
  | key j, key k => utf8Bytes j < utf8Bytes k
  | _, _ => False

namespace Value

/-- The part of a value at a position, which is the way to it from the outside. -/
def at? : Value → List PathStep → Option Value
  | v, [] => some v
  | list items, .index n :: path => items[n]?.bind (·.at? path)
  | map entries, .key k :: path => (Entries.get? k entries).bind (·.at? path)
  | _, _ :: _ => none

/-- What is wrong with a value itself, its parts aside. -/
def fault? : Value → Option ConversionCause
  | unknown => some .unknown
  | float x => if x.isFinite then none else some (.nonFinite x)
  | _ => none

/-- What is wrong with the part of a value at a position. -/
def faultAt? (v : Value) (path : List PathStep) : Option ConversionCause :=
  (v.at? path).bind fault?

/-- **Whether the part at a position is the first one at fault**, depth first. -/
structure FirstFault (v : Value) (path : List PathStep) (cause : ConversionCause) : Prop where
  faultAt?_eq : v.faultAt? path = some cause
  first : ∀ other c, v.faultAt? other = some c → other = path ∨ List.Lex PathStep.Before path other

section Positions

variable {v w : Value} {items : List Value} {entries : List (String × Value)}
  {path : List PathStep} {c : ConversionCause}

lemma faultAt?_list_index (items : List Value) (n : ℕ) (path : List PathStep) :
    (list items).faultAt? (.index n :: path) = items[n]?.bind (·.faultAt? path) := by
  rw [faultAt?, at?, Option.bind_assoc]
  rfl

lemma faultAt?_map_key (entries : List (String × Value)) (k : String) (path : List PathStep) :
    (map entries).faultAt? (.key k :: path) = (Entries.get? k entries).bind (·.faultAt? path) := by
  rw [faultAt?, at?, Option.bind_assoc]
  rfl

/-- In a list something is at fault only behind an index. -/
lemma exists_of_faultAt?_list (h : (list items).faultAt? path = some c) :
    ∃ n rest item, path = .index n :: rest ∧ items[n]? = some item ∧
      item.faultAt? rest = some c := by
  match path with
  | [] => cases h
  | .key k :: rest => cases h
  | .index n :: rest =>
    rw [faultAt?_list_index] at h
    obtain ⟨item, hitem, hrest⟩ := Option.bind_eq_some_iff.1 h
    exact ⟨n, rest, item, rfl, hitem, hrest⟩

/-- In a map something is at fault only behind a key. -/
lemma exists_of_faultAt?_map (h : (map entries).faultAt? path = some c) :
    ∃ k rest value, path = .key k :: rest ∧ Entries.get? k entries = some value ∧
      value.faultAt? rest = some c := by
  match path with
  | [] => cases h
  | .index n :: rest => cases h
  | .key k :: rest =>
    rw [faultAt?_map_key] at h
    obtain ⟨value, hvalue, hrest⟩ := Option.bind_eq_some_iff.1 h
    exact ⟨k, rest, value, rfl, hvalue, hrest⟩

/-- What stands at a position is a part. -/
lemma isPart_of_at? (h : v.at? path = some w) : IsPart w v := by
  induction path generalizing v with
  | nil =>
    obtain rfl : v = w := by simpa [at?] using h
    exact .self
  | cons step path ih =>
    match v, step with
    | list items, .index n =>
      obtain ⟨item, hitem, hpath⟩ := Option.bind_eq_some_iff.1 h
      exact .item (List.mem_of_getElem? hitem) (ih hpath)
    | map entries, .key k =>
      obtain ⟨value, hvalue, hpath⟩ := Option.bind_eq_some_iff.1 h
      exact .entry (Entries.mem_of_get? hvalue) (ih hpath)

/-- **No part of a value with a JSON form is at fault.** -/
lemma faultAt?_eq_none (h : ∃ j, v.toJson = .ok j) (path : List PathStep) :
    v.faultAt? path = none := by
  obtain ⟨hunknown, hfinite⟩ := (exists_toJson_iff_parts v).1 h
  rw [faultAt?, Option.bind_eq_none_iff]
  intro w hw
  have hpart := isPart_of_at? hw
  unfold fault?
  split
  · exact absurd hpart hunknown
  · rw [if_pos (hfinite _ hpart)]
  · rfl

end Positions

/-! ### The first fault -/

section First

variable {v : Value} {items : List Value} {entries : List (String × Value)} {e : ConversionError}

lemma itemsToJson_cons_error {index : ℕ} {item : Value} :
    itemsToJson index (item :: items) = .error e ↔
      (∃ f, item.toJson = .error f ∧ e = f.within (.index index)) ∨
        (∃ j, item.toJson = .ok j) ∧ itemsToJson (index + 1) items = .error e := by
  simp only [itemsToJson, bind_eq_error, mapError_eq_error, mapError_eq_ok, pure_ne_error,
    and_false, exists_false, or_false, exists_and_right]

lemma entriesToJson_cons_error {k : String} {value : Value} :
    entriesToJson ((k, value) :: entries) = .error e ↔
      (∃ f, value.toJson = .error f ∧ e = f.within (.key k)) ∨
        (∃ j, value.toJson = .ok j) ∧ entriesToJson entries = .error e := by
  simp only [entriesToJson, bind_eq_error, mapError_eq_error, mapError_eq_ok, pure_ne_error,
    and_false, exists_false, or_false, exists_and_right]

/-- The items of a list are refused for the first one that is. -/
lemma exists_of_itemsToJson {index : ℕ} (h : itemsToJson index items = .error e) :
    ∃ before item after f, items = before ++ item :: after ∧
      (∀ x ∈ before, ∃ j, x.toJson = .ok j) ∧ item.toJson = .error f ∧
        e = f.within (.index (index + before.length)) := by
  induction items generalizing index with
  | nil => cases h
  | cons item rest ih =>
    rcases itemsToJson_cons_error.1 h with ⟨f, hitem, he⟩ | ⟨hitem, hrest⟩
    · exact ⟨[], item, rest, f, rfl, by simp, hitem, he⟩
    · obtain ⟨before, x, after, f, rfl, hbefore, hx, he⟩ := ih hrest
      refine ⟨item :: before, x, after, f, rfl, List.forall_mem_cons.2 ⟨hitem, hbefore⟩, hx, ?_⟩
      rw [he, List.length_cons, Nat.add_assoc, Nat.add_comm 1]

/-- The values of a map are refused for the first one that is. -/
lemma exists_of_entriesToJson (h : entriesToJson entries = .error e) :
    ∃ before k value after f, entries = before ++ (k, value) :: after ∧
      (∀ x ∈ before, ∃ j, x.2.toJson = .ok j) ∧ value.toJson = .error f ∧
        e = f.within (.key k) := by
  induction entries with
  | nil => cases h
  | cons entry rest ih =>
    obtain ⟨k, value⟩ := entry
    rcases entriesToJson_cons_error.1 h with ⟨f, hvalue, he⟩ | ⟨hvalue, hrest⟩
    · exact ⟨[], k, value, rest, f, rfl, by simp, hvalue, he⟩
    · obtain ⟨before, k', x, after, f, rfl, hbefore, hx, he⟩ := ih hrest
      exact ⟨(k, value) :: before, k', x, after, f, rfl,
        List.forall_mem_cons.2 ⟨hvalue, hbefore⟩, hx, he⟩

/-- A value without parts is at fault itself, if at all. -/
lemma firstFault_nil {c : ConversionCause} (h : v.fault? = some c)
    (hleaf : ∀ step path, v.at? (step :: path) = none) : v.FirstFault [] c where
  faultAt?_eq := h
  first other c' hother := by
    match other with
    | [] => exact .inl rfl
    | step :: path =>
      rw [faultAt?, hleaf] at hother
      cases hother

/-- The first fault of the first item at fault is the first fault of the list. -/
lemma FirstFault.list {before after : List Value} {item : Value} {path : List PathStep}
    {c : ConversionCause} (h : item.FirstFault path c)
    (hbefore : ∀ x ∈ before, ∃ j, x.toJson = .ok j) :
    (list (before ++ item :: after)).FirstFault (.index before.length :: path) c where
  faultAt?_eq := by
    rw [faultAt?_list_index, List.getElem?_append_right le_rfl, Nat.sub_self]
    exact h.faultAt?_eq
  first other c' hother := by
    obtain ⟨n, rest, x, rfl, hx, hrest⟩ := exists_of_faultAt?_list hother
    rcases lt_trichotomy n before.length with hn | rfl | hn
    · rw [List.getElem?_append_left hn] at hx
      rw [faultAt?_eq_none (hbefore x (List.mem_of_getElem? hx))] at hrest
      cases hrest
    · rw [List.getElem?_append_right le_rfl, Nat.sub_self] at hx
      obtain rfl : item = x := Option.some.inj hx
      rcases h.first rest c' hrest with rfl | hlex
      · exact .inl rfl
      · exact .inr (.cons hlex)
    · exact .inr (.rel hn)

/-- The first fault of the first value at fault is the first fault of the map. -/
lemma FirstFault.map {before after : List (String × Value)} {k : String} {value : Value}
    {path : List PathStep} {c : ConversionCause} (h : value.FirstFault path c)
    (hasc : Ascending (before ++ (k, value) :: after))
    (hbefore : ∀ x ∈ before, ∃ j, x.2.toJson = .ok j) :
    (map (before ++ (k, value) :: after)).FirstFault (.key k :: path) c where
  faultAt?_eq := by
    have hk : Entries.get? k (before ++ (k, value) :: after) = some value :=
      hasc.get?_eq_some_iff.2 (by simp)
    rw [faultAt?_map_key, hk]
    exact h.faultAt?_eq
  first other c' hother := by
    obtain ⟨k', rest, x, rfl, hx, hrest⟩ := exists_of_faultAt?_map hother
    rcases List.mem_append.1 (Entries.mem_of_get? hx) with hmem | hmem
    · rw [faultAt?_eq_none (hbefore _ hmem)] at hrest
      cases hrest
    rcases List.mem_cons.1 hmem with hk | hmem
    · obtain ⟨rfl, rfl⟩ := Prod.mk.inj hk
      rcases h.first rest c' hrest with rfl | hlex
      · exact .inl rfl
      · exact .inr (.cons hlex)
    · have hafter := (List.pairwise_cons.1 (List.pairwise_append.1 hasc).2.1).1
      exact .inr (.rel (utf8Bytes_lt (hafter _ hmem)))

/-- **A value without a JSON form is refused for its first fault.** -/
theorem firstFault_of_toJson (h : v.toJson = .error e) (ho : v.Ordered) :
    v.FirstFault e.path e.cause := by
  induction v using induction_on generalizing e with
  | null => cases h
  | unknown =>
    cases h
    exact firstFault_nil rfl fun step _ => by cases step <;> rfl
  | bool b => cases h
  | integer n => cases h
  | float x =>
    rw [toJson] at h
    split_ifs at h with hx
    cases h
    exact firstFault_nil (if_neg hx) fun step _ => by cases step <;> rfl
  | string s => cases h
  | list items ih =>
    obtain ⟨before, item, after, f, rfl, hbefore, hitem, rfl⟩ :=
      exists_of_itemsToJson (map_eq_error.1 h)
    rw [Nat.zero_add]
    exact (ih item (by simp) hitem (ordered_list.1 ho item (by simp))).list hbefore
  | map entries ih =>
    obtain ⟨before, k, value, after, f, rfl, hbefore, hvalue, rfl⟩ :=
      exists_of_entriesToJson (map_eq_error.1 h)
    obtain ⟨hasc, ho⟩ := ordered_map.1 ho
    exact (ih (k, value) (by simp) hvalue (ho (k, value) (by simp))).map hasc hbefore

end First

end Value

/-! ### Positions as they are written -/

/-- Whether a character starts the text of a step. -/
def isMark (c : Char) : Bool := c = '.' || c = '['

namespace PathStep

variable {s t : PathStep}

/-- Whether a step has no mark in its text but the one at the start. -/
def IsPlain : PathStep → Prop
  | index _ => True
  | key k => '.' ∉ k.toList ∧ '[' ∉ k.toList

lemma toList_text_index (n : ℕ) :
    (index n).text.toList = '[' :: (Nat.toDigits 10 n ++ [']']) := by
  rw [text]
  simp [toString]

lemma toList_text_key (k : String) : (key k).text.toList = '.' :: k.toList := by
  rw [text, String.toList_append]
  rfl

lemma IsPlain.exists_text (h : s.IsPlain) :
    ∃ c cs, s.text.toList = c :: cs ∧ isMark c = true ∧ ∀ d ∈ cs, isMark d = false := by
  cases s with
  | index n =>
    refine ⟨'[', _, toList_text_index n, rfl, fun d hd => ?_⟩
    rcases List.mem_append.1 hd with hd | hd
    · have hdigit := isDigit_toDigits hd
      rw [isMark, Bool.or_eq_false_iff, decide_eq_false_iff_not, decide_eq_false_iff_not]
      constructor
      · rintro rfl
        cases hdigit
      · rintro rfl
        cases hdigit
    · rw [List.mem_singleton.1 hd]
      rfl
  | key k =>
    refine ⟨'.', _, toList_text_key k, rfl, fun d hd => ?_⟩
    rw [isMark, Bool.or_eq_false_iff, decide_eq_false_iff_not, decide_eq_false_iff_not]
    constructor
    · rintro rfl
      exact h.1 hd
    · rintro rfl
      exact h.2 hd

/-- Steps are told by their texts. -/
lemma text_injective (h : s.text = t.text) : s = t := by
  have hchars := congrArg String.toList h
  cases s with
  | index m =>
    cases t with
    | index n =>
      rw [toList_text_index, toList_text_index] at hchars
      have hdigits := List.append_cancel_right (List.cons.inj hchars).2
      rw [← Nat.ofDigitChars_toDigits (b := 10) (n := m) (by decide) (by decide), hdigits,
        Nat.ofDigitChars_toDigits (by decide) (by decide)]
    | key k =>
      rw [toList_text_index, toList_text_key] at hchars
      cases (List.cons.inj hchars).1
  | key j =>
    cases t with
    | index n =>
      rw [toList_text_index, toList_text_key] at hchars
      cases (List.cons.inj hchars).1
    | key k =>
      rw [toList_text_key, toList_text_key] at hchars
      rw [String.toList_inj.1 (List.cons.inj hchars).2]

end PathStep

/-- The steps of a position, one after another. -/
def pathChars (path : List PathStep) : List Char := path.flatMap fun s => s.text.toList

lemma toList_join_text (path : List PathStep) :
    (String.join (path.map PathStep.text)).toList = pathChars path := by
  rw [String.toList_join, List.flatMap_map]
  rfl

/-- Each step starts with a mark, so what is written behind a step does too. -/
lemma isMark_head?_pathChars {path : List PathStep} (h : ∀ s ∈ path, s.IsPlain) :
    ∀ c ∈ (pathChars path).head?, isMark c = true := by
  cases path with
  | nil => simp [pathChars]
  | cons s path =>
    obtain ⟨d, ds, htext, hmark, -⟩ := (h s List.mem_cons_self).exists_text
    intro c hc
    rw [pathChars, List.flatMap_cons, htext] at hc
    obtain rfl : d = c := Option.some.inj hc
    exact hmark

/-- **Positions of plain steps are told by their texts.** -/
lemma pathChars_injective {path other : List PathStep} (hpath : ∀ s ∈ path, s.IsPlain)
    (hother : ∀ s ∈ other, s.IsPlain) (h : pathChars path = pathChars other) : path = other := by
  induction path generalizing other with
  | nil =>
    cases other with
    | nil => rfl
    | cons t other =>
      obtain ⟨c, cs, htext, -⟩ := (hother t List.mem_cons_self).exists_text
      rw [pathChars, pathChars, List.flatMap_cons, htext] at h
      cases h
  | cons s path ih =>
    obtain ⟨c, cs, htext, -, hcs⟩ := (hpath s List.mem_cons_self).exists_text
    rw [List.forall_mem_cons] at hpath
    cases other with
    | nil =>
      rw [pathChars, pathChars, List.flatMap_cons, htext] at h
      cases h
    | cons t other =>
      obtain ⟨d, ds, htext', -, hds⟩ := (hother t List.mem_cons_self).exists_text
      rw [List.forall_mem_cons] at hother
      rw [pathChars, pathChars, List.flatMap_cons, List.flatMap_cons, htext, htext'] at h
      obtain ⟨rfl, hrest⟩ := List.cons.inj h
      -- Both texts end where the next mark stands.
      have hrun {es : List Char} {rest : List PathStep} (hes : ∀ d ∈ es, isMark d = false)
          (hplain : ∀ s ∈ rest, s.IsPlain) :
          Reader.run (fun c => !isMark c) (es ++ pathChars rest) = some (es, pathChars rest) := by
        refine Reader.run_append (fun c hc => ?_) fun c hc => ?_
        · rw [hes c hc]
          rfl
        · rw [isMark_head?_pathChars hplain c hc]
          rfl
      have hsplit := (hrun hcs hpath.2).symm.trans
        ((congrArg (Reader.run fun c => !isMark c) hrest).trans (hrun hds hother.2))
      obtain ⟨rfl, hpaths⟩ := Prod.mk.inj (Option.some.inj hsplit)
      rw [PathStep.text_injective (String.toList_inj.1 (htext.trans htext'.symm)),
        ih hpath.2 hother.2 hpaths]

namespace Value

variable {v : Value}

/-- **Whether no key of a map in a value holds a mark.** -/
def SparesMarks (v : Value) : Prop :=
  ∀ entries, IsPart (.map entries) v → ∀ e ∈ entries, '.' ∉ e.1.toList ∧ '[' ∉ e.1.toList

lemma isPlain_of_at? {path : List PathStep} (h : v.SparesMarks)
    (hpath : (v.at? path).isSome = true) : ∀ s ∈ path, s.IsPlain := by
  induction path generalizing v with
  | nil => exact fun s hs => absurd hs List.not_mem_nil
  | cons step path ih =>
    obtain ⟨w, hw⟩ := Option.isSome_iff_exists.1 hpath
    match v, step with
    | list items, .index n =>
      obtain ⟨item, hitem, hrest⟩ := Option.bind_eq_some_iff.1 hw
      refine List.forall_mem_cons.2 ⟨trivial, ih ?_ (Option.isSome_of_eq_some hrest)⟩
      exact fun entries hpart => h entries (.item (List.mem_of_getElem? hitem) hpart)
    | map entries, .key k =>
      obtain ⟨value, hvalue, hrest⟩ := Option.bind_eq_some_iff.1 hw
      have hmem := Entries.mem_of_get? hvalue
      refine List.forall_mem_cons.2 ⟨h entries .self _ hmem, ih ?_ (Option.isSome_of_eq_some hrest)⟩
      exact fun entries hpart => h entries (.entry hmem hpart)

/-- **Without marks in the keys no two positions in a value are written alike.** -/
lemma eq_of_join_text {path other : List PathStep} (h : v.SparesMarks)
    (hpath : (v.at? path).isSome = true) (hother : (v.at? other).isSome = true)
    (htext : String.join (other.map PathStep.text) = String.join (path.map PathStep.text)) :
    other = path := by
  apply pathChars_injective (isPlain_of_at? h hother) (isPlain_of_at? h hpath)
  rw [← toList_join_text, ← toList_join_text, htext]

end Value

/-! ### Failures that are handed outwards -/

/-- A failed conversion as it is handed outwards: a cause, or a failure that happened at a place
inside. -/
inductive NestedError where
  | cause (c : ConversionCause)
  | nested (path : String) (source : NestedError)

namespace NestedError

/-- The same failure seen from one step further out, which is put in front of the place. -/
def within (segment : String) : NestedError → NestedError
  | nested path source => nested (segment ++ path) source
  | cause c => nested segment (.cause c)

/-- The cause behind the places where it was found. -/
def message : NestedError → String
  | cause c => c.message
  | nested path source => "at " ++ path ++ ": " ++ source.message

end NestedError

/-- A failure with its steps as one that was handed outwards. -/
def ConversionError.nested (e : ConversionError) : NestedError :=
  if e.path = [] then .cause e.cause
  else .nested (String.join (e.path.map PathStep.text)) (.cause e.cause)

lemma nested_within (step : PathStep) (e : ConversionError) :
    (e.within step).nested = e.nested.within step.text := by
  have hwithin : (e.within step).nested =
      .nested (step.text ++ String.join (e.path.map PathStep.text)) (.cause e.cause) := by
    rw [ConversionError.within, ConversionError.nested, if_neg (List.cons_ne_nil _ _), List.map_cons,
      String.join_cons]
  rw [hwithin, ConversionError.nested]
  split_ifs with hpath
  · rw [hpath, List.map_nil, String.join_nil, String.append_empty, NestedError.within]
  · rfl

lemma message_nested (e : ConversionError) : e.nested.message = e.message := by
  rw [ConversionError.nested, ConversionError.message]
  cases hpath : e.path with
  | nil => rfl
  | cons step path =>
    rw [if_neg (List.cons_ne_nil _ _), if_neg (by simp), ConversionError.pathText, hpath]
    rfl

namespace Value

mutual

/-- The JSON form of a value, or the failure that its parts hand outwards. -/
def attempt : Value → Except NestedError Json
  | null => .ok .null
  | unknown => .error (.cause .unknown)
  | bool b => .ok (.bool b)
  | integer n => .ok (.integer n.toInt)
  | float x => if x.isFinite then .ok (.float x) else .error (.cause (.nonFinite x))
  | string s => .ok (.string s)
  | list items => (attemptItems 0 items).map .array
  | map entries => (attemptEntries entries).map .object

/-- The JSON forms of the items of a list, the first of which has a given index. -/
def attemptItems (index : ℕ) : List Value → Except NestedError (List Json)
  | [] => .ok []
  | item :: rest => do
    let json ← item.attempt.mapError (.within (PathStep.index index).text)
    return json :: (← attemptItems (index + 1) rest)

/-- The JSON forms of the entries of a map. -/
def attemptEntries : List (String × Value) → Except NestedError (List (String × Json))
  | [] => .ok []
  | (key, value) :: rest => do
    let json ← value.attempt.mapError (.within (PathStep.key key).text)
    return (key, json) :: (← attemptEntries rest)

end

lemma attemptItems_eq {items : List Value}
    (h : ∀ item ∈ items, item.attempt = item.toJson.mapError ConversionError.nested) (index : ℕ) :
    attemptItems index items = (itemsToJson index items).mapError ConversionError.nested := by
  induction items generalizing index with
  | nil => rfl
  | cons item rest ih =>
    rw [List.forall_mem_cons] at h
    rw [attemptItems, itemsToJson, h.1, ih h.2]
    cases item.toJson with
    | error f => exact congrArg Except.error (nested_within _ f).symm
    | ok j =>
      cases itemsToJson (index + 1) rest with
      | error f => rfl
      | ok js => rfl

lemma attemptEntries_eq {entries : List (String × Value)}
    (h : ∀ e ∈ entries, e.2.attempt = e.2.toJson.mapError ConversionError.nested) :
    attemptEntries entries = (entriesToJson entries).mapError ConversionError.nested := by
  induction entries with
  | nil => rfl
  | cons e rest ih =>
    rw [List.forall_mem_cons] at h
    rw [attemptEntries, entriesToJson, h.1, ih h.2]
    cases e.2.toJson with
    | error f => exact congrArg Except.error (nested_within _ f).symm
    | ok j =>
      cases entriesToJson rest with
      | error f => rfl
      | ok es => rfl

/-- **Failures that are handed outwards are those with steps.** -/
theorem attempt_eq (v : Value) : v.attempt = v.toJson.mapError ConversionError.nested := by
  induction v using induction_on with
  | null => rfl
  | unknown => rfl
  | bool b => rfl
  | integer n => rfl
  | float x =>
    rw [attempt, toJson]
    split_ifs
    · rfl
    · rfl
  | string s => rfl
  | list items ih =>
    rw [attempt, toJson, attemptItems_eq ih]
    cases itemsToJson 0 items with
    | error f => rfl
    | ok js => rfl
  | map entries ih =>
    rw [attempt, toJson, attemptEntries_eq ih]
    cases entriesToJson entries with
    | error f => rfl
    | ok es => rfl

/-! ### What a failure says -/

/-- **A failed conversion names the first fault.** Its cause is that of the first part at fault; it
is handed outwards as that cause alone or, if the part is not the whole value, with one place, which
is made of the steps on the way to the part; and without marks in the keys of the value no other
position in it is written as that place. -/
theorem toJson_names_first_fault {v : Value} {e : ConversionError} (h : v.toJson = .error e)
    (ho : v.Ordered) :
    v.FirstFault e.path e.cause ∧
    v.attempt = .error (if e.path = [] then .cause e.cause
      else .nested (String.join (e.path.map PathStep.text)) (.cause e.cause)) ∧
    e.nested.message = e.message ∧
    (v.SparesMarks → ∀ other, (v.at? other).isSome = true →
      String.join (other.map PathStep.text) = String.join (e.path.map PathStep.text) →
        other = e.path) := by
  have hfirst := firstFault_of_toJson h ho
  refine ⟨hfirst, ?_, message_nested e, fun hmarks other hother htext => ?_⟩
  · rw [attempt_eq, h]
    rfl
  · obtain ⟨w, hw, -⟩ := Option.bind_eq_some_iff.1 hfirst.faultAt?_eq
    exact eq_of_join_text hmarks (Option.isSome_of_eq_some hw) hother htext

theorem toJson_names_first_fault_hosts :
    let v := map [("hosts", .list [.string "a", .unknown]), ("zone", .unknown)]
    let e : ConversionError := ⟨[.key "hosts", .index 1], .unknown⟩
    v.toJson = .error e ∧ v.Ordered ∧ v.SparesMarks ∧ v.FirstFault e.path .unknown ∧
      v.attempt = .error (.nested ".hosts[1]" (.cause .unknown)) ∧
      e.nested.message = e.message ∧
      ∀ other, (v.at? other).isSome = true →
        String.join (other.map PathStep.text) = ".hosts[1]" → other = e.path := by
  intro v e
  have h : v.toJson = .error e := rfl
  have ho : v.Ordered :=
    ⟨List.pairwise_pair.2 (by decide), ⟨trivial, trivial, trivial⟩, trivial, trivial⟩
  have hmarks : v.SparesMarks := by
    intro entries hpart
    simp only [v, isPart_map, isPart_list, List.mem_cons, List.not_mem_nil, or_false,
      exists_eq_or_imp, exists_eq_left] at hpart
    rcases hpart with hroot | (hlist | hitem | hitem) | hzone
    · cases hroot
      decide
    · cases hlist
    · cases hitem
    · cases hitem
    · cases hzone
  obtain ⟨hfirst, hattempt, hmessage, hother⟩ := toJson_names_first_fault h ho
  exact ⟨h, ho, hmarks, hfirst, hattempt, hmessage, hother hmarks⟩

end Value

end PackScope
