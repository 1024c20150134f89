import Mathlib.Algebra.Ring.Nat
import Mathlib.Data.Prod.Lex
import Mathlib.Order.Interval.Set.Defs
import Mathlib.Tactic.Lemma
import Mathlib.Tactic.SplitIfs
import PackScope.Location

/-!
Positions and the lines of a text. The position of an offset lies in the line that it names, as many
bytes behind the start of this line as its column says, and positions are ordered as offsets are.
-/

namespace PackScope

/-! ### Lines -/

/-- The lines of a text in bytes; a line feed stands between each two. -/
def linesOf (text : String) : List (List UInt8) := (utf8Bytes text).splitOn 10

/-- **The offset at which a line of a text starts.** Lines are counted from one, and each takes its
own bytes and the line feed behind them. -/
def lineStart (text : String) (line : ℕ) : ℕ :=
  (((linesOf text).take (line - 1)).map fun bytes => bytes.length + 1).sum

/-- The offset behind the last line feed, searched from the right; zero if there is none. -/
def lastStart (bytes : List UInt8) : ℕ :=
  match bytes.reverse.findIdx? (· == 10) with
  | some behind => bytes.length - behind
  | none => 0

section Lines

variable {bytes first last : List UInt8}

/-- Some bytes are one line, or a line feed stands in front of their last line. -/
lemma last_line (bytes : List UInt8) :
    10 ∉ bytes ∨ ∃ first last, bytes = first ++ 10 :: last ∧ 10 ∉ last := by
  by_cases h : 10 ∈ bytes
  · obtain ⟨last, first, hbytes, hlast⟩ := List.eq_append_cons_of_mem (List.mem_reverse.2 h)
    refine .inr ⟨first.reverse, last.reverse, ?_, List.mem_reverse.not.2 hlast⟩
    rw [← List.reverse_reverse bytes, hbytes, List.reverse_append, List.reverse_cons,
      List.append_assoc, List.singleton_append]
  · exact .inl h

lemma findIdx?_lineFeed (h : 10 ∉ bytes) : bytes.findIdx? (· == 10) = none := by
  rw [List.findIdx?_eq_none_iff]
  rintro byte hbyte
  exact beq_eq_false_iff_ne.2 fun heq => h (heq ▸ hbyte)

lemma lastStart_line (h : 10 ∉ bytes) : lastStart bytes = 0 := by
  rw [lastStart, findIdx?_lineFeed (List.mem_reverse.not.2 h)]

lemma lastStart_behind (h : 10 ∉ last) : lastStart (first ++ 10 :: last) = first.length + 1 := by
  have hfound : (first ++ 10 :: last).reverse.findIdx? (· == 10) = some last.length := by
    rw [List.reverse_append, List.reverse_cons, List.append_assoc, List.findIdx?_append,
      findIdx?_lineFeed (List.mem_reverse.not.2 h), List.singleton_append, List.findIdx?_cons,
      if_pos (beq_self_eq_true _), Option.none_or, Option.map_some, List.length_reverse,
      Nat.zero_add]
  simp only [lastStart, hfound, List.length_append, List.length_cons]
  omega

lemma lastStart_le (bytes : List UInt8) : lastStart bytes ≤ bytes.length := by
  rcases last_line bytes with h | ⟨first, last, rfl, h⟩
  · rw [lastStart_line h]
    exact Nat.zero_le _
  · rw [lastStart_behind h, List.length_append, List.length_cons]
    omega

/-- No line feed stands behind the start of the last line. -/
lemma getElem?_lastStart {i : ℕ} (h : lastStart bytes ≤ i) : bytes[i]? ≠ some 10 := by
  rcases last_line bytes with hbytes | ⟨first, last, rfl, hlast⟩
  · exact fun hi => hbytes (List.mem_of_getElem? hi)
  · rw [lastStart_behind hlast] at h
    intro hi
    rw [List.getElem?_append_right (by omega), List.getElem?_cons,
      if_neg (by omega : i - first.length ≠ 0)] at hi
    exact hlast (List.mem_of_getElem? hi)

lemma length_splitOn (bytes : List UInt8) : (bytes.splitOn 10).length = bytes.count 10 + 1 := by
  induction bytes with
  | nil => rfl
  | cons byte bytes ih =>
    rw [List.splitOn_cons_eq_if_modifyHead, List.count_cons]
    split_ifs
    · rw [List.length_cons, ih]
    · rw [List.length_modifyHead, ih]

/-- The lines of some bytes, each with one more for what stands behind it. -/
lemma sum_splitOn (bytes : List UInt8) :
    ((bytes.splitOn 10).map fun line => line.length + 1).sum = bytes.length + 1 := by
  induction bytes with
  | nil => rfl
  | cons byte bytes ih =>
    rw [List.splitOn_cons_eq_if_modifyHead, List.length_cons]
    split_ifs
    · rw [List.map_cons, List.sum_cons, ih, List.length_nil]
      omega
    · obtain ⟨line, lines, hlines⟩ := List.exists_cons_of_ne_nil (List.splitOn_ne_nil 10 bytes)
      rw [hlines, List.map_cons, List.sum_cons] at ih
      rw [hlines, List.modifyHead_cons, List.map_cons, List.sum_cons, List.length_cons]
      omega

/-- **The last line of some bytes starts where the line behind so many line feeds does**, whatever
follows. -/
lemma lastStart_eq (bytes rest : List UInt8) : lastStart bytes =
    ((((bytes ++ rest).splitOn 10).take (bytes.count 10)).map fun line => line.length + 1).sum := by
  rcases last_line bytes with h | ⟨first, last, rfl, h⟩
  · rw [lastStart_line h, List.count_eq_zero_of_not_mem h, List.take_zero]
    rfl
  · have hcount : (first ++ 10 :: last).count 10 = (first.splitOn 10).length := by
      rw [List.count_append, List.count_cons_self, List.count_eq_zero_of_not_mem h, length_splitOn]
    rw [lastStart_behind h, hcount, List.append_assoc, List.cons_append,
      List.splitOn_append_cons_self, List.take_left, sum_splitOn]

end Lines

/-! ### Positions -/

namespace Position

/-- A position as its line, its column and its byte, in the order in which they are compared. -/
def triple (p : Position) : ℕ ×ₗ ℕ ×ₗ ℕ := toLex (p.line, toLex (p.column, p.byte))

lemma triple_injective : Function.Injective triple := by
  rintro ⟨line, column, byte⟩ ⟨line', column', byte'⟩ h
  cases h
  rfl

/-- Positions are compared by line, then by column, then by byte. -/
instance : LinearOrder Position := LinearOrder.lift' triple triple_injective

lemma le_iff {p q : Position} : p ≤ q ↔
    p.line < q.line ∨ p.line = q.line ∧
      (p.column < q.column ∨ p.column = q.column ∧ p.byte ≤ q.byte) := by
  change p.triple ≤ q.triple ↔ _
  rw [triple, triple, Prod.Lex.toLex_le_toLex, Prod.Lex.toLex_le_toLex]

/-- **The position behind some bytes by two scans**: their line feeds are counted, and the last one
is searched from the right. -/
def behind (bytes : List UInt8) : Position where
  line := bytes.count 10 + 1
  column := bytes.length - lastStart bytes + 1
  byte := bytes.length

section Walk

variable {p : Position} {bytes : List UInt8}

lemma byte_advance (p : Position) (byte : UInt8) : (p.advance byte).byte = p.byte + 1 := by
  unfold advance
  split_ifs
  · rfl
  · rfl

lemma line_advance (p : Position) (byte : UInt8) :
    (p.advance byte).line = p.line + if byte = 10 then 1 else 0 := by
  unfold advance
  split_ifs
  · rfl
  · rfl

lemma walk_eq_foldl (p : Position) (n : ℕ) (bytes : List UInt8) :
    p.walk n bytes = (bytes.take n).foldl advance p := by
  induction bytes generalizing p n with
  | nil =>
    cases n with
    | zero => rfl
    | succ n => rfl
  | cons byte bytes ih =>
    cases n with
    | zero => rfl
    | succ n => exact ih (p.advance byte) n

/-- Over the rest of a line, only the column and the byte change. -/
lemma foldl_advance_line (h : 10 ∉ bytes) :
    bytes.foldl advance p = ⟨p.line, p.column + bytes.length, p.byte + bytes.length⟩ := by
  induction bytes generalizing p with
  | nil => rfl
  | cons byte bytes ih =>
    rw [List.mem_cons, not_or] at h
    rw [List.foldl_cons, ih h.2, advance, if_neg (Ne.symm h.1), List.length_cons]
    simp only [Position.mk.injEq, true_and]
    omega

lemma line_foldl_advance : (bytes.foldl advance p).line = p.line + bytes.count 10 := by
  induction bytes generalizing p with
  | nil => rfl
  | cons byte bytes ih =>
    rw [List.foldl_cons, ih, line_advance, List.count_cons]
    simp only [beq_iff_eq]
    omega

lemma byte_foldl_advance : (bytes.foldl advance p).byte = p.byte + bytes.length := by
  induction bytes generalizing p with
  | nil => rfl
  | cons byte bytes ih =>
    rw [List.foldl_cons, ih, byte_advance, List.length_cons]
    omega

lemma byte_walk (p : Position) (n : ℕ) (bytes : List UInt8) :
    (p.walk n bytes).byte = p.byte + min n bytes.length := by
  rw [walk_eq_foldl, byte_foldl_advance, List.length_take]

/-- **One walk over some bytes finds what the two scans find.** -/
lemma foldl_advance (bytes : List UInt8) : bytes.foldl advance {} = behind bytes := by
  rcases last_line bytes with h | ⟨first, last, rfl, h⟩
  · rw [foldl_advance_line h, behind, List.count_eq_zero_of_not_mem h, lastStart_line h]
    simp only [Position.mk.injEq, true_and]
    omega
  · rw [List.foldl_append, List.foldl_cons, foldl_advance_line h, advance, if_pos rfl, behind,
      lastStart_behind h, List.count_append, List.count_cons_self,
      List.count_eq_zero_of_not_mem h, line_foldl_advance, byte_foldl_advance, List.length_append,
      List.length_cons]
    simp only [Position.mk.injEq]
    omega

end Walk

/-- **Whether a position is that of an offset in a text.** The offset is cut at the end of the text;
the line is one of the text and starts as many bytes before as the column says, and no line feed
stands between. -/
structure IsAt (p : Position) (text : String) (offset : ℕ) : Prop where
  byte_eq : p.byte = min offset text.utf8ByteSize
  line_pos : 0 < p.line
  line_le : p.line ≤ (linesOf text).length
  column_pos : 0 < p.column
  column_le : p.column - 1 ≤ p.byte
  start_eq : p.byte - (p.column - 1) = lineStart text p.line
  no_lineFeed : ∀ i, lineStart text p.line ≤ i → i < p.byte → (utf8Bytes text)[i]? ≠ some 10

section Offsets

variable (text : String) {a b : ℕ}

lemma ofOffset_eq (offset : ℕ) :
    ofOffset text offset = behind ((utf8Bytes text).take offset) := by
  rw [ofOffset, walk_eq_foldl, foldl_advance]

lemma lineStart_behind (offset : ℕ) :
    lineStart text (behind ((utf8Bytes text).take offset)).line =
      lastStart ((utf8Bytes text).take offset) := by
  rw [lastStart_eq _ ((utf8Bytes text).drop offset), List.take_append_drop]
  rfl

lemma isAt_ofOffset (offset : ℕ) : (ofOffset text offset).IsAt text offset := by
  have hle := lastStart_le ((utf8Bytes text).take offset)
  rw [ofOffset_eq]
  refine ⟨List.length_take, Nat.succ_pos _, ?_, Nat.succ_pos _, ?_, ?_, ?_⟩
  · rw [linesOf, length_splitOn]
    exact Nat.succ_le_succ ((List.take_sublist _ _).count_le 10)
  · exact (Nat.add_sub_cancel ..).trans_le (Nat.sub_le ..)
  · rw [lineStart_behind]
    simp only [behind]
    omega
  · intro i hi hbyte hget
    rw [lineStart_behind] at hi
    rw [← List.getElem?_take_of_lt (hbyte.trans_le (List.length_take_le ..))] at hget
    exact getElem?_lastStart hi hget

/-- A position lies behind the start of its line by its column. -/
lemma byte_ofOffset_eq (offset : ℕ) : (ofOffset text offset).byte + 1 =
    lineStart text (ofOffset text offset).line + (ofOffset text offset).column := by
  obtain ⟨-, -, -, hpos, hle, hstart, -⟩ := isAt_ofOffset text offset
  omega

lemma byte_ofOffset_le (h : a ≤ b) : (ofOffset text a).byte ≤ (ofOffset text b).byte := by
  rw [(isAt_ofOffset text a).byte_eq, (isAt_ofOffset text b).byte_eq]
  omega

lemma line_ofOffset_le (h : a ≤ b) : (ofOffset text a).line ≤ (ofOffset text b).line := by
  rw [ofOffset_eq, ofOffset_eq]
  exact Nat.succ_le_succ ((List.take_sublist_take_left h).count_le 10)

lemma ofOffset_mono : Monotone (ofOffset text) := by
  intro a b h
  have hline := line_ofOffset_le text h
  have hbyte := byte_ofOffset_le text h
  have ha := byte_ofOffset_eq text a
  have hb := byte_ofOffset_eq text b
  rcases hline.lt_or_eq with hlt | heq
  · exact le_iff.2 (.inl hlt)
  · rw [heq] at ha
    exact le_iff.2 (.inr ⟨heq, by omega⟩)

lemma ofOffset_strictMono :
    StrictMonoOn (ofOffset text) (Set.Iic text.utf8ByteSize) := by
  intro a ha b hb hab
  refine lt_of_le_of_ne (ofOffset_mono text hab.le) fun heq => ?_
  have hbyte := congrArg byte heq
  rw [(isAt_ofOffset text a).byte_eq, (isAt_ofOffset text b).byte_eq, min_eq_left ha,
    min_eq_left hb] at hbyte
  exact hab.ne hbyte

end Offsets

/-- **Positions are those of their offsets, and are ordered as these are.** One walk over a text
finds what counting its line feeds and searching the last one finds; line and column determine the
byte; and a range between ascending offsets does not end before its start. -/
theorem ofOffset_faithful (text : String) :
    (∀ offset, ofOffset text offset = behind ((utf8Bytes text).take offset) ∧
      lastStart ((utf8Bytes text).take offset) ≤ (ofOffset text offset).byte ∧
      (ofOffset text offset).IsAt text offset) ∧
    (∀ a b, (ofOffset text a).line = (ofOffset text b).line →
      (ofOffset text a).column = (ofOffset text b).column →
      (ofOffset text a).byte = (ofOffset text b).byte) ∧
    Monotone (ofOffset text) ∧ StrictMonoOn (ofOffset text) (Set.Iic text.utf8ByteSize) ∧
    ∀ filename start stop, start ≤ stop →
      (Range.ofSpan filename text start stop).start ≤
        (Range.ofSpan filename text start stop).stop := by
  refine ⟨fun offset => ⟨ofOffset_eq text offset, ?_, isAt_ofOffset text offset⟩,
    fun a b hline hcolumn => ?_, ofOffset_mono text, ofOffset_strictMono text,
    fun filename start stop h => ofOffset_mono text h⟩
  · rw [ofOffset_eq]
    exact lastStart_le _
  · have ha := byte_ofOffset_eq text a
    have hb := byte_ofOffset_eq text b
    rw [hline, hcolumn] at ha
    omega

theorem ofOffset_faithful_umlaut :
    ofOffset "ä\n\nb" 1 = ⟨1, 2, 1⟩ ∧ ofOffset "ä\n\nb" 9 = ⟨3, 2, 5⟩ ∧
      lineStart "ä\n\nb" 3 = 4 ∧ (ofOffset "ä\n\nb" 9).IsAt "ä\n\nb" 9 ∧
      ofOffset "ä\n\nb" 1 < ofOffset "ä\n\nb" 2 ∧
      (Range.ofSpan "a" "ä\n\nb" 2 9).start ≤ (Range.ofSpan "a" "ä\n\nb" 2 9).stop := by
  obtain ⟨hat, -, -, hstrict, hrange⟩ := ofOffset_faithful "ä\n\nb"
  have hlt : ofOffset "ä\n\nb" 1 < ofOffset "ä\n\nb" 2 :=
    hstrict (Set.mem_Iic.2 (by decide)) (Set.mem_Iic.2 (by decide)) (by decide)
  exact ⟨by decide, by decide, by decide, (hat 9).2.2, hlt, hrange "a" 2 9 (by decide)⟩

end Position

end PackScope
