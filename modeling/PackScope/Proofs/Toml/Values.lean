import PackScope.Proofs.Toml.Keys
import PackScope.Proofs.Toml.Numerals
import PackScope.KeyMap

/-!
Printed values read back. A value is read as a node that shows the same data, whatever the places of
its parts, if it nests no deeper than the reader goes.
-/

namespace PackScope.Toml

/-! ### What is written -/

/-- **Data as they are written**: plain parts, tables in ascending key order, and at most so many
levels. -/
inductive Data.Writable : ℕ → Data → Prop
  | scalar {n : ℕ} {s : Scalar} (plain : s.IsPlain) : Writable n (.scalar s)
  | array {n : ℕ} {items : List Data} (items_writable : ∀ d ∈ items, Writable n d) :
    Writable (n + 1) (.array items)
  | table {n : ℕ} {entries : List (String × Data)} (ascending : Ascending entries)
    (entries_writable : ∀ e ∈ entries, Writable n e.2) : Writable (n + 1) (.table entries)

mutual

/-- The data that a node shows, in the order in which they are defined. -/
def Node.shown : Node → Data
  | .scalar s => .scalar s
  | .array items => .array (shownItems items)
  | .tables elements => .array (shownItems elements)
  | .table _ entries => .table (shownEntries entries)

/-- The data that the items of an array show. -/
def shownItems : List Node → List Data
  | [] => []
  | item :: rest => item.shown :: shownItems rest

/-- The entries that a table shows. -/
def shownEntries : List (Entry Node) → List (String × Data)
  | [] => []
  | ⟨key, _, content⟩ :: rest => (key, content.shown) :: shownEntries rest

end

/-- Whether a reader takes the text of data off a text, with a node that shows the data. -/
def Reads (r : Reader Node) (d : Data) : Prop :=
  ∀ rest, Ends rest → ∃ node, r (d.chars ++ rest) = some (node, rest) ∧ node.shown = d

/-! ### The first character -/

section Heads

/-- No blank, no line break, no comment and no closing bracket. -/
def StartsValue (text : List Char) : Prop :=
  ∃ c cs, text = c :: cs ∧ isBlank c = false ∧ c ≠ '\n' ∧ c ≠ '\r' ∧ c ≠ '#' ∧ c ≠ ']'

lemma startsValue_digit {c : Char} (h : c.isDigit = true) (cs : List Char) :
    StartsValue (c :: cs) := by
  have hs := isDigit_ne h (d := ' ') (by decide)
  have ht := isDigit_ne h (d := '\t') (by decide)
  refine ⟨c, cs, rfl, by simp [isBlank, hs, ht], ?_⟩
  exact ⟨isDigit_ne h (by decide), isDigit_ne h (by decide), isDigit_ne h (by decide),
    isDigit_ne h (by decide)⟩

lemma startsValue_signed (negative : Bool) {whole : List Char} (rest : List Char)
    (h : ∀ c ∈ whole, c.isDigit = true) (hwhole : IsWholePart whole) :
    StartsValue (Binary64.signed negative whole ++ rest) := by
  obtain ⟨c, cs, rfl⟩ := hwhole.exists_cons
  cases negative with
  | false => exact startsValue_digit (h c (by simp)) _
  | true => exact ⟨'-', _, rfl, by decide⟩

lemma startsValue_scalar {s : Scalar} (hs : s.IsPlain) : StartsValue s.chars := by
  match s, hs with
  | .string s, _ =>
    obtain ⟨c, cs, e, hc⟩ := exists_stringText_cons s.toList
    refine ⟨c, cs, e, ?_⟩
    rcases hc with rfl | rfl <;> decide
  | .integer n, _ =>
    have h := startsValue_signed (decide (n.toInt < 0)) [] (fun c => isDigit_toDigits)
      (isWholePart_toDigits n.toInt.natAbs)
    rwa [List.append_nil, ← toList_toString] at h
  | .float (.finite negative rank), _ =>
    obtain ⟨whole, fraction, e, hdigits, -, hwhole, -⟩ := exists_positional_shortest negative rank
    change StartsValue (Binary64.signed negative (Decimal.shortest .away rank).positional)
    rw [e, signed_append]
    exact startsValue_signed negative _ (fun c hc => hdigits c (List.mem_append_left _ hc)) hwhole
  | .boolean true, _ => exact ⟨'t', _, rfl, by decide⟩
  | .boolean false, _ => exact ⟨'f', _, rfl, by decide⟩

lemma Data.Writable.startsValue {n : ℕ} {d : Data} (h : d.Writable n) : StartsValue d.chars := by
  cases h with
  | scalar plain => exact startsValue_scalar plain
  | @array n items _ =>
    cases items with
    | nil => exact ⟨'[', _, rfl, by decide⟩
    | cons d ds => exact ⟨'[', _, rfl, by decide⟩
  | @table n entries _ _ =>
    cases entries with
    | nil => exact ⟨'\x7b', _, rfl, by decide⟩
    | cons e es => exact ⟨'\x7b', _, rfl, by decide⟩

/-- Nothing is skipped in front of a value. -/
lemma StartsValue.dropFiller {text : List Char} (h : StartsValue text) (rest : List Char) :
    dropFiller false (text ++ rest) = text ++ rest := by
  obtain ⟨c, cs, rfl, hb, hn, hr, hc, -⟩ := h
  rw [List.cons_append, Toml.dropFiller.eq_def]
  simp only [hn, hr, hb, hc, if_false, Bool.false_eq_true]

end Heads

/-! ### Arrays -/

section Arrays

variable {r : Reader Node} {rest : List Char}

lemma ends_itemsText (ds : List Data) (rest : List Char) : Ends (itemsText ds ++ rest) := by
  intro c hc
  cases ds with
  | nil =>
    obtain rfl : ']' = c := by simpa [itemsText] using hc
    simp
  | cons d ds =>
    obtain rfl : ',' = c := by simpa [itemsText] using hc
    simp

lemma dropFiller_blank (cs : List Char) : dropFiller false (' ' :: cs) = dropFiller false cs := by
  rw [dropFiller.eq_def false (' ' :: cs)]
  simp [isBlank]

lemma dropFiller_itemsText (ds : List Data) (rest : List Char) :
    dropFiller false (itemsText ds ++ rest) = itemsText ds ++ rest := by
  cases ds with
  | nil => simp [itemsText, dropFiller.eq_def, isBlank]
  | cons d ds => simp [itemsText, dropFiller.eq_def, isBlank]

lemma items_item {d : Data} (hr : Reads r d) (hs : StartsValue d.chars) (ds : List Data)
    (n : ℕ) {cs : List Char} (hcs : dropFiller false cs = d.chars ++ (itemsText ds ++ rest)) :
    ∃ node, node.shown = d ∧ items r (n + 1) cs =
      (do if ← Reader.found ',' then return node :: (← items r n)
          Reader.exactly ']'
          return [node] : Reader _) (itemsText ds ++ rest) := by
  obtain ⟨node, hread, hshown⟩ := hr _ (ends_itemsText ds rest)
  have hfiller : filler cs = some ((), d.chars ++ (itemsText ds ++ rest)) := by
    rw [filler, hcs]
  have hfiller' : filler (itemsText ds ++ rest) = some ((), itemsText ds ++ rest) := by
    rw [filler, dropFiller_itemsText]
  have hopen : ']' ∉ (d.chars ++ (itemsText ds ++ rest)).head? := by
    obtain ⟨c, text, e, -, -, -, -, hc⟩ := hs
    rw [e]
    intro hm
    exact hc (by simpa using hm)
  refine ⟨node, hshown, ?_⟩
  rw [items, Reader.bind_of_eq _ hfiller, Reader.bind_of_eq _ (Reader.found_of_not_mem hopen),
    if_neg (by decide), Reader.bind_of_eq _ hread, Reader.bind_of_eq _ hfiller']

lemma items_itemsText {d : Data} {ds : List Data} (hr : ∀ x ∈ d :: ds, Reads r x)
    (hs : ∀ x ∈ d :: ds, StartsValue x.chars) {n : ℕ} (hn : ds.length < n) {cs : List Char}
    (hcs : dropFiller false cs = d.chars ++ (itemsText ds ++ rest)) :
    ∃ nodes, items r n cs = some (nodes, rest) ∧ shownItems nodes = d :: ds := by
  induction ds generalizing d n cs with
  | nil =>
    obtain ⟨n, rfl⟩ : ∃ m, n = m + 1 := ⟨n - 1, by simp at hn; omega⟩
    obtain ⟨node, hshown, e⟩ := items_item (hr d (by simp)) (hs d (by simp)) [] n hcs
    refine ⟨[node], ?_, by rw [shownItems, hshown, shownItems]⟩
    rw [e]
    rfl
  | cons d' ds ih =>
    obtain ⟨n, rfl⟩ : ∃ m, n = m + 1 := ⟨n - 1, by omega⟩
    obtain ⟨node, hshown, e⟩ := items_item (hr d (by simp)) (hs d (by simp)) (d' :: ds) n hcs
    have hnext : dropFiller false (' ' :: (d'.chars ++ (itemsText ds ++ rest))) =
        d'.chars ++ (itemsText ds ++ rest) := by
      rw [dropFiller_blank, (hs d' (by simp)).dropFiller]
    obtain ⟨nodes, hnodes, hshown'⟩ := ih (fun x hx => hr x (List.mem_cons_of_mem _ hx))
      (fun x hx => hs x (List.mem_cons_of_mem _ hx)) (by simpa using hn) hnext
    refine ⟨node :: nodes, ?_, by rw [shownItems, hshown, hshown']⟩
    rw [e, itemsText, List.cons_append, List.cons_append, List.append_assoc,
      Reader.bind_of_eq _ (Reader.found_cons ',' _), if_pos rfl, Reader.bind_of_eq _ hnodes]
    rfl

lemma items_close (r : Reader Node) (n : ℕ) (rest : List Char) :
    items r (n + 1) (']' :: rest) = some ([], rest) := by
  have hfiller : filler (']' :: rest) = some ((), ']' :: rest) :=
    congrArg (fun cs => some ((), cs)) (dropFiller_itemsText [] rest)
  rw [items, Reader.bind_of_eq _ hfiller, Reader.bind_of_eq _ (Reader.found_cons ']' rest)]
  rfl

lemma length_lt_itemsText (ds : List Data) : ds.length < (itemsText ds).length := by
  induction ds with
  | nil => simp [itemsText]
  | cons d ds ih =>
    simp only [itemsText, List.length_cons, List.length_append]
    omega

lemma nestedValue_bracket (n : ℕ) {cs : List Char} {nodes : List Node}
    (h : items (nestedValue n) cs.length cs = some (nodes, rest)) :
    nestedValue (n + 1) ('[' :: cs) = some (.array nodes, rest) := by
  change arrayRest (nestedValue n) cs = _
  rw [arrayRest, Reader.bind_of_eq _ (Reader.get_apply cs), Reader.bind_of_eq _ h]
  rfl

lemma reads_array {ds : List Data} {n : ℕ} (hr : ∀ x ∈ ds, Reads (nestedValue n) x)
    (hs : ∀ x ∈ ds, StartsValue x.chars) : Reads (nestedValue (n + 1)) (.array ds) := by
  intro rest hrest
  match ds with
  | [] =>
    refine ⟨.array [], ?_, rfl⟩
    rw [Data.chars]
    exact nestedValue_bracket n (items_close _ _ rest)
  | d :: ds =>
    have hlen : ds.length < (d.chars ++ (itemsText ds ++ rest)).length := by
      have := length_lt_itemsText ds
      simp only [List.length_append]
      omega
    obtain ⟨nodes, hnodes, hshown⟩ := items_itemsText hr hs hlen
      ((hs d (by simp)).dropFiller (itemsText ds ++ rest))
    refine ⟨.array nodes, ?_, by rw [Node.shown, hshown]⟩
    rw [Data.chars, List.cons_append, List.append_assoc]
    exact nestedValue_bracket n hnodes

end Arrays

/-! ### Tables -/

section Tables

variable {r : Reader Node} {rest : List Char}

lemma located_of_eq {α : Type} {r : Reader α} {a : α} {cs : List Char}
    (h : r cs = some (a, rest)) : ∃ extent, located r cs = some ((a, extent), rest) := by
  refine ⟨⟨byteLength cs, byteLength rest⟩, ?_⟩
  rw [located, Reader.bind_of_eq _ (Reader.get_apply cs), Reader.bind_of_eq _ h]
  rfl

lemma StartsValue.blanks {text : List Char} (h : StartsValue text) (rest : List Char) :
    blanks (text ++ rest) = some ((), text ++ rest) := by
  obtain ⟨c, cs, rfl, hb, -⟩ := h
  refine Reader.skip_none fun d hd => ?_
  obtain rfl : c = d := by simpa using hd
  exact hb

lemma assignment_of_key {d : Data} (hr : Reads r d) (hs : StartsValue d.chars)
    (hrest : Ends rest) {cs : List Char} {parts : List String}
    (hkey : Toml.key cs = some (parts, '=' :: ' ' :: (d.chars ++ rest))) :
    ∃ extent node, node.shown = d ∧
      assignment r cs = some (⟨parts.dropLast, parts.getLastD "", extent, node⟩, rest) := by
  obtain ⟨node, hread, hshown⟩ := hr rest hrest
  obtain ⟨extent, hlocated⟩ := located_of_eq hread
  have hblank : blanks (' ' :: (d.chars ++ rest)) = some ((), d.chars ++ rest) := hs.blanks rest
  refine ⟨extent, node, hshown, ?_⟩
  rw [assignment, Reader.bind_of_eq _ hkey, Reader.bind_of_eq _ (Reader.exactly_cons '=' _),
    Reader.bind_of_eq _ hblank, Reader.bind_of_eq _ hlocated]
  rfl

/-- The text of an entry of a table. -/
def entryText (e : String × Data) : List Char :=
  keyText e.1.toList ++ (' ' :: '=' :: ' ' :: e.2.chars)

lemma assignment_entryText {e : String × Data} (hr : Reads r e.2) (hs : StartsValue e.2.chars)
    (hrest : Ends rest) :
    ∃ extent node, node.shown = e.2 ∧
      assignment r (entryText e ++ rest) = some (⟨[], e.1, extent, node⟩, rest) := by
  have hkey := key_single (spells_keyText e.1.toList) (' ' :: (e.2.chars ++ rest))
  rw [String.ofList_toList] at hkey
  have htext : entryText e ++ rest =
      keyText e.1.toList ++ ' ' :: '=' :: ' ' :: (e.2.chars ++ rest) := by
    simp [entryText]
  rw [htext]
  exact assignment_of_key hr hs hrest hkey

lemma ends_entriesText (es : List (String × Data)) (rest : List Char) :
    Ends (entriesText es ++ rest) := by
  intro c hc
  cases es with
  | nil =>
    obtain rfl : ' ' = c := by simpa [entriesText] using hc
    simp
  | cons e es =>
    obtain rfl : ',' = c := by simpa [entriesText] using hc
    simp

lemma assignment_blank (r : Reader Node) (cs : List Char) :
    assignment r (' ' :: cs) = assignment r cs := rfl

/-- Assignments of single keys that show given entries. -/
def ShowEntries (as : List Table.Assignment) (es : List (String × Data)) : Prop :=
  List.Forall₂ (fun a e => a.way = [] ∧ a.key = e.1 ∧ a.content.shown = e.2) as es

/-- The assignments of a table are read up to the closing brace. -/
lemma assignments_entriesText {e : String × Data} {es : List (String × Data)}
    (hr : ∀ x ∈ e :: es, Reads r x.2) (hs : ∀ x ∈ e :: es, StartsValue x.2.chars) {n : ℕ}
    (hn : es.length < n) {cs : List Char}
    (hcs : assignment r cs = assignment r (entryText e ++ (entriesText es ++ rest))) :
    ∃ as, assignments r n cs = some (as, rest) ∧ ShowEntries as (e :: es) := by
  induction es generalizing e n cs with
  | nil =>
    obtain ⟨n, rfl⟩ : ∃ m, n = m + 1 := ⟨n - 1, by simp at hn; omega⟩
    obtain ⟨extent, node, hshown, hread⟩ := assignment_entryText (hr e (by simp)) (hs e (by simp))
      (ends_entriesText [] rest)
    refine ⟨[⟨[], e.1, extent, node⟩], ?_, .cons ⟨rfl, rfl, hshown⟩ .nil⟩
    rw [assignments, Reader.bind_of_eq _ (hcs.trans hread), entriesText]
    rfl
  | cons e' es ih =>
    obtain ⟨n, rfl⟩ : ∃ m, n = m + 1 := ⟨n - 1, by omega⟩
    obtain ⟨extent, node, hshown, hread⟩ := assignment_entryText (hr e (by simp)) (hs e (by simp))
      (ends_entriesText (e' :: es) rest)
    have hnext : assignment r (' ' :: (entryText e' ++ (entriesText es ++ rest))) =
        assignment r (entryText e' ++ (entriesText es ++ rest)) := assignment_blank r _
    obtain ⟨as, has, hshows⟩ := ih (fun x hx => hr x (List.mem_cons_of_mem _ hx))
      (fun x hx => hs x (List.mem_cons_of_mem _ hx)) (by simpa using hn) hnext
    refine ⟨⟨[], e.1, extent, node⟩ :: as, ?_, .cons ⟨rfl, rfl, hshown⟩ hshows⟩
    have htext : entriesText (e' :: es) ++ rest =
        ',' :: ' ' :: (entryText e' ++ (entriesText es ++ rest)) := by
      simp [entriesText, entryText]
    have hblank (cs : List Char) : blanks (',' :: cs) = some ((), ',' :: cs) := rfl
    rw [assignments, Reader.bind_of_eq _ (hcs.trans hread), htext,
      Reader.bind_of_eq _ (hblank _), Reader.bind_of_eq _ (Reader.found_cons ',' _), if_pos rfl,
      Reader.bind_of_eq _ has]
    rfl

/-- Values under different single keys are all assigned. -/
lemma assignAll_showEntries {as : List Table.Assignment} {es : List (String × Data)}
    (h : ShowEntries as es) {origin : Origin} (ho : origin ≠ .dotted) (t : Table)
    (hnew : ∀ e ∈ es, t.entry? e.1 = none) (hes : es.Pairwise fun a b => a.1 ≠ b.1) :
    ∃ u, Table.assignAll origin t as = some (t ++ u) ∧ shownEntries u = es := by
  induction h generalizing t with
  | nil => exact ⟨[], by rw [List.append_nil]; rfl, rfl⟩
  | @cons a e as es ha _ ih =>
    obtain ⟨hway, hkey, hshown⟩ := ha
    obtain ⟨hne, hes⟩ := List.pairwise_cons.1 hes
    have hassign : Table.assign origin t a = some (t ++ [⟨a.key, a.extent, a.content⟩]) := by
      have hfree : (t.entry? a.key).isSome = false := by
        rw [hkey, hnew e (by simp)]
        rfl
      rw [Table.assign, hway, Table.within, hfree]
      simp [ho]
    have hnew' : ∀ x ∈ es, Table.entry? (t ++ [⟨a.key, a.extent, a.content⟩]) x.1 = none := by
      intro x hx
      have hax : a.key ≠ x.1 := hkey ▸ hne x hx
      have htx := hnew x (List.mem_cons_of_mem _ hx)
      unfold Table.entry? at htx ⊢
      rw [List.find?_append, htx]
      simp [hax]
    obtain ⟨u, hu, hshows⟩ := ih _ hnew' hes
    refine ⟨⟨a.key, a.extent, a.content⟩ :: u, ?_, ?_⟩
    · rw [Table.assignAll, List.foldlM_cons, hassign]
      change Table.assignAll origin _ as = _
      rw [hu, List.append_assoc]
      rfl
    · rw [shownEntries, hkey, hshown, hshows]

lemma length_lt_entriesText (es : List (String × Data)) : es.length < (entriesText es).length := by
  induction es with
  | nil => simp [entriesText]
  | cons e es ih =>
    simp only [entriesText, List.length_cons, List.length_append]
    omega

lemma nestedValue_brace (n : ℕ) {cs : List Char} {as : List Table.Assignment} {u : Table}
    (hcs : ∀ c ∈ cs.head?, isBlank c = false ∧ c ≠ '\x7d')
    (h : assignments (nestedValue n) cs.length cs = some (as, rest))
    (hu : Table.assignAll .inline [] as = some u) :
    nestedValue (n + 1) ('\x7b' :: ' ' :: cs) = some (.table .inline u, rest) := by
  have hblank : blanks (' ' :: cs) = some ((), cs) := Reader.skip_none fun c hc => (hcs c hc).1
  have hopen : '\x7d' ∉ cs.head? := fun hm => (hcs _ hm).2 rfl
  change bracesRest (nestedValue n) (' ' :: cs) = _
  rw [bracesRest, Reader.bind_of_eq _ hblank, Reader.bind_of_eq _ (Reader.found_of_not_mem hopen),
    if_neg (by decide), Reader.bind_of_eq _ (Reader.get_apply cs), Reader.bind_of_eq _ h, hu]
  rfl

lemma reads_table {es : List (String × Data)} {n : ℕ} (hasc : Ascending es)
    (hr : ∀ x ∈ es, Reads (nestedValue n) x.2) (hs : ∀ x ∈ es, StartsValue x.2.chars) :
    Reads (nestedValue (n + 1)) (.table es) := by
  intro rest hrest
  match es with
  | [] =>
    refine ⟨.table .inline [], ?_, rfl⟩
    rw [Data.chars]
    rfl
  | e :: es =>
    have hlen : es.length < (entryText e ++ (entriesText es ++ rest)).length := by
      have := length_lt_entriesText es
      simp only [List.length_append]
      omega
    obtain ⟨as, has, hshows⟩ := assignments_entriesText hr hs hlen rfl
    have hdistinct : (e :: es).Pairwise fun a b => a.1 ≠ b.1 :=
      hasc.imp fun hab heq => by simp [heq] at hab
    obtain ⟨u, hu, hentries⟩ := assignAll_showEntries hshows
      (show Origin.inline ≠ .dotted by decide) [] (by simp [Table.entry?]) hdistinct
    refine ⟨.table .inline u, ?_, by rw [Node.shown, hentries]⟩
    have htext : (Data.table (e :: es)).chars ++ rest =
        '\x7b' :: ' ' :: (entryText e ++ (entriesText es ++ rest)) := by
      simp [Data.chars, entryText]
    rw [htext]
    have hkey := spells_keyText e.1.toList
    refine nestedValue_brace n (fun c hc => ?_) has hu
    rw [entryText, List.append_assoc] at hc
    refine ⟨hkey.not_blank _ c hc, ?_⟩
    rintro rfl
    exact hkey.not_mem_head (by decide) (by decide) _ hc

end Tables

lemma nestedValue_scalar (n : ℕ) {cs rest : List Char} {s : Scalar}
    (h : scalar cs = some (s, rest)) : nestedValue n cs = some (.scalar s, rest) := by
  have hscalar : (scalar >>= fun s => pure (.scalar s) : Reader Node) cs =
      some (.scalar s, rest) := Reader.bind_of_eq _ h
  cases n with
  | zero => exact hscalar
  | succ n =>
    rw [nestedValue.eq_def]
    dsimp only
    split
    · cases h
    · cases h
    · exact hscalar

/-- **Data that can be written are read from their text.** -/
theorem reads_chars {n : ℕ} {d : Data} (h : d.Writable n) : Reads (nestedValue n) d := by
  induction h with
  | @scalar n s plain =>
    intro rest hrest
    refine ⟨.scalar s, ?_, rfl⟩
    rw [Data.chars]
    exact nestedValue_scalar n (scalar_chars plain hrest)
  | @array n items hitems ih => exact reads_array ih fun d hd => (hitems d hd).startsValue
  | @table n entries hasc hentries ih =>
    exact reads_table hasc ih fun e he => (hentries e he).startsValue

end PackScope.Toml
