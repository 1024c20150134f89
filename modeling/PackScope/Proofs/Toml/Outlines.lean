import Mathlib.Data.List.DropRight
import PackScope.Proofs.Toml.Places

/-!
The places of a whole document. Its lines are read one after another, so the values of its
assignments and its headers stand one behind the other, and every entry of its tree has its place in
the text.
-/

namespace PackScope.Toml

open Reader

variable {whole : List Char}

/-! ### Lines -/

/-- **Whether headers and values stand in a text in the order of its lines**, within its last so
many bytes. -/
inductive LinesPlaced (whole : List Char) : ℕ → List Line → Prop
  | nil {left : ℕ} : LinesPlaced whole left []
  | empty {left : ℕ} {ls : List Line} (next : LinesPlaced whole left ls) :
    LinesPlaced whole left (.empty :: ls)
  | header {left : ℕ} {way : List String} {key : String} {repeated : Bool} {extent : Extent}
    {ls : List Line} (start : extent.fromStart ≤ left) (lt : extent.afterEnd < extent.fromStart)
    (next : LinesPlaced whole extent.afterEnd ls) :
    LinesPlaced whole left (.header way key repeated extent :: ls)
  | assignment {left : ℕ} {a : Table.Assignment} {ls : List Line}
    (start : a.extent.fromStart ≤ left) (at_place : ReadAt whole a.extent a.content)
    (next : LinesPlaced whole a.extent.afterEnd ls) :
    LinesPlaced whole left (.assignment a :: ls)

lemma LinesPlaced.mono {left left' : ℕ} {ls : List Line} (h : left ≤ left')
    (hls : LinesPlaced whole left ls) : LinesPlaced whole left' ls := by
  induction hls with
  | nil => exact .nil
  | empty _ ih => exact .empty (ih h)
  | header start lt next _ => exact .header (start.trans h) lt next
  | assignment start at_place next _ => exact .assignment (start.trans h) at_place next

lemma forward_restOfLine : Forward restOfLine := by
  refine forward_blanks.bind fun _ => Forward.bind ?_ fun _ => ?_
  · intro cs a rest h
    unfold comment at h
    split at h
    · cases h
      exact (List.dropWhile_suffix _).trans (List.suffix_cons ..)
    · cases h
      exact List.suffix_rfl
  · intro cs a rest h
    unfold lineEnd at h
    split at h
    · cases h
      exact List.suffix_rfl
    · unfold lineBreak at h
      split at h
      · cases h
        exact List.suffix_cons ..
      · cases h
        exact (List.suffix_cons ..).trans (List.suffix_cons ..)
      · cases h

/-- The brackets of a header take characters. -/
lemma suffix_of_brackets {cs rest : List Char} {p : Bool × List String}
    (h : brackets cs = some (p, rest)) : rest <:+ cs ∧ byteLength rest < byteLength cs := by
  obtain ⟨_, mid, hopen, h⟩ := bind_eq_some h
  have htail : Forward (do
      let repeated ← found '['
      let parts ← key
      exactly ']'
      if repeated then exactly ']'
      return (repeated, parts) : Reader (Bool × List String)) := by
    refine (Forward.found '[').bind fun repeated => steady_key.forward.bind fun parts => ?_
    refine (Forward.exactly ']').bind fun _ => .ite _ ?_ (.pure _)
    exact (Forward.exactly ']').bind fun _ => .pure _
  have hrest : rest <:+ mid := htail h
  rw [eq_cons_of_exactly hopen, byteLength_cons]
  have hlt := byteLength_le hrest
  have hpos := Char.utf8Size_pos '['
  exact ⟨hrest.trans (List.suffix_cons ..), by omega⟩

lemma restOfLine_dropBlanks (cs : List Char) :
    restOfLine (cs.dropWhile isBlank) = restOfLine cs := by
  rw [restOfLine, bind_of_eq _ (blanks_apply _), bind_of_eq _ (blanks_apply _),
    List.dropWhile_idempotent]

/-- **What a line is**: nothing, a header, or an assignment, with the end of the line behind it. -/
lemma line_cases {cs rest : List Char} {l : Line} (h : line cs = some (l, rest)) :
    (l = .empty ∧ restOfLine cs = some ((), rest)) ∨
    (∃ p extent mid, located brackets (cs.dropWhile isBlank) = some ((p, extent), mid) ∧
      restOfLine mid = some ((), rest) ∧
      l = .header p.2.dropLast (p.2.getLastD "") p.1 extent) ∨
    ∃ a mid, assignment value (cs.dropWhile isBlank) = some (a, mid) ∧
      restOfLine mid = some ((), rest) ∧ l = .assignment a := by
  obtain ⟨_, _, ⟨⟩, h⟩ := bind_eq_some h
  obtain ⟨_, _, ⟨⟩, h⟩ := bind_eq_some h
  rw [← restOfLine_dropBlanks]
  generalize cs.dropWhile isBlank = ds at h
  dsimp only at h
  -- What comes first tells which kind of line it is.
  split at h
  next =>
    obtain ⟨⟨p, extent⟩, mid, hbrackets, h⟩ := bind_eq_some h
    obtain ⟨_, _, hend, h⟩ := bind_eq_some h
    cases h
    exact .inr (.inl ⟨p, extent, mid, hbrackets, hend, rfl⟩)
  iterate 4
    next =>
      obtain ⟨_, _, hend, h⟩ := bind_eq_some h
      cases h
      exact .inl ⟨rfl, hend⟩
  next =>
    obtain ⟨a, mid, ha, h⟩ := bind_eq_some h
    obtain ⟨_, _, hend, h⟩ := bind_eq_some h
    cases h
    exact .inr (.inr ⟨a, mid, ha, hend, rfl⟩)

/-- A line says nothing, or a header or a value stands in it. -/
lemma placed_of_line {cs rest : List Char} {l : Line} (hcs : cs <:+ whole)
    (h : line cs = some (l, rest)) : rest <:+ cs ∧ ∀ ls, LinesPlaced whole (byteLength rest) ls →
      LinesPlaced whole (byteLength cs) (l :: ls) := by
  have hblanks := forward_blanks (blanks_apply cs)
  rcases line_cases h with ⟨rfl, hend⟩ | ⟨p, extent, mid, hbrackets, hend, rfl⟩ |
    ⟨a, mid, ha, hend, rfl⟩
  · have hrest := forward_restOfLine hend
    exact ⟨hrest, fun ls hls => .empty (hls.mono (byteLength_le hrest))⟩
  · obtain ⟨hbrackets, rfl⟩ := eq_of_located hbrackets
    obtain ⟨hmid, hlt⟩ := suffix_of_brackets hbrackets
    have hrest := forward_restOfLine hend
    exact ⟨hrest.trans (hmid.trans hblanks), fun ls hls =>
      .header (byteLength_le hblanks) hlt (hls.mono (byteLength_le hrest))⟩
  · obtain ⟨value, hvalue, hread, hextent⟩ := eq_of_assignment ha
    have hrest := forward_restOfLine hend
    have hat : ReadAt whole a.extent a.content :=
      ⟨depthLimit, le_rfl, value, mid, hvalue.trans (hblanks.trans hcs), hread, hextent⟩
    have hmid := (forward_assignment (forward_nestedValue depthLimit) ha).trans hblanks
    refine ⟨hrest.trans hmid, fun ls hls => .assignment ?_ hat (hls.mono ?_)⟩
    · rw [hextent]
      exact byteLength_le (hvalue.trans hblanks)
    · rw [hextent]
      exact byteLength_le hrest

/-- **The lines of a text have their places in it**, one behind the other. -/
theorem placed_of_lines {n : ℕ} {cs rest : List Char} {ls : List Line} (hcs : cs <:+ whole)
    (h : lines n cs = some (ls, rest)) : LinesPlaced whole (byteLength cs) ls := by
  induction n generalizing cs ls with
  | zero =>
    obtain ⟨_, _, -, h⟩ := bind_eq_some h
    cases h
    exact .nil
  | succ n ih =>
    obtain ⟨_, _, ⟨⟩, h⟩ := bind_eq_some h
    split_ifs at h
    · cases h
      exact .nil
    · obtain ⟨l, mid, hl, h⟩ := bind_eq_some h
      obtain ⟨ls, _, hls, h⟩ := bind_eq_some h
      cases h
      obtain ⟨hmid, hplaced⟩ := placed_of_line hcs hl
      exact hplaced _ (ih (hmid.trans hcs) hls)

/-! ### Outlines -/

/-- Whether the values of assignments stand in a text one behind the other, within its last so many
bytes. -/
def AssignmentsPlaced (whole : List Char) : ℕ → List Table.Assignment → Prop
  | _, [] => True
  | left, a :: as => a.extent.fromStart ≤ left ∧ ReadAt whole a.extent a.content ∧
    AssignmentsPlaced whole a.extent.afterEnd as

/-- The number of bytes behind the last of some assignments. -/
def leftAfter : ℕ → List Table.Assignment → ℕ
  | left, [] => left
  | _, a :: as => leftAfter a.extent.afterEnd as

/-- Whether sections stand in a text one behind the other, within its last so many bytes. -/
def SectionsPlaced (whole : List Char) : ℕ → List Table.Section → Prop
  | _, [] => True
  | left, s :: ss => s.extent.fromStart ≤ left ∧ s.extent.afterEnd < s.extent.fromStart ∧
    AssignmentsPlaced whole s.extent.afterEnd s.body ∧
    SectionsPlaced whole (leftAfter s.extent.afterEnd s.body) ss

/-- **Whether the parts of an outline stand in a text one behind the other.** -/
def Outline.Placed (whole : List Char) (left : ℕ) (outline : Outline) : Prop :=
  AssignmentsPlaced whole left outline.root ∧
    SectionsPlaced whole (leftAfter left outline.root) outline.sections

lemma placed_ofLines {left : ℕ} {ls : List Line} (h : LinesPlaced whole left ls) :
    (Outline.ofLines ls).Placed whole left := by
  induction h with
  | nil => exact ⟨trivial, trivial⟩
  | empty _ ih => exact ih
  | header start lt _ ih => exact ⟨trivial, start, lt, ih⟩
  | assignment start at_place _ ih => exact ⟨⟨start, at_place, ih.1⟩, ih.2⟩

/-- **The outline of a text has its places in it.** -/
theorem placed_of_outline {cs : List Char} {outline : Outline} (h : Outline.read? cs = some outline) :
    outline.Placed cs (byteLength cs) := by
  have hmark : withoutMark cs <:+ cs := by
    unfold withoutMark
    split
    · exact List.suffix_cons ..
    · exact List.suffix_rfl
  obtain ⟨ls, hls, h⟩ := Option.bind_eq_some_iff.1 h
  cases h
  unfold readAll at hls
  split at hls
  next hread =>
    cases hls
    exact placed_ofLines ((placed_of_lines hmark hread).mono (byteLength_le hmark))
  next => cases hls

/-! ### Trees -/

lemma leftAfter_le {left : ℕ} {as : List Table.Assignment} (h : AssignmentsPlaced whole left as) :
    leftAfter left as ≤ left := by
  induction as generalizing left with
  | nil => exact le_rfl
  | cons a as ih =>
    obtain ⟨hstart, hat, has⟩ := h
    exact (ih has).trans (hat.lt.le.trans hstart)

lemma sound_of_readAt {a : Table.Assignment} {left : ℕ} (h : ReadAt whole a.extent a.content)
    (hleft : left ≤ a.extent.afterEnd) : a.Sound (Entry.Placed whole left) := by
  refine ⟨h.entry hleft, ?_⟩
  obtain ⟨n, hn, before, after, hbefore, hread, hextent⟩ := h
  refine (sound_of_nestedValue hn hbefore hread).mono fun _ => Entry.Placed.mono ?_
  rw [hextent] at hleft
  exact hleft

lemma AssignmentsPlaced.sound {left : ℕ} {as : List Table.Assignment}
    (h : AssignmentsPlaced whole left as) :
    ∀ a ∈ as, a.Sound (Entry.Placed whole (leftAfter left as)) := by
  induction as generalizing left with
  | nil => exact fun a ha => absurd ha List.not_mem_nil
  | cons a as ih =>
    obtain ⟨hstart, hat, has⟩ := h
    exact List.forall_mem_cons.2 ⟨sound_of_readAt hat (leftAfter_le has), ih has⟩

lemma afterEnd_whole (s : Table.Section) :
    s.whole.afterEnd = leftAfter s.extent.afterEnd s.body ∧
      s.whole.fromStart = s.extent.fromStart := by
  have hlast (left : ℕ) (as : List Table.Assignment) :
      leftAfter left as = (as.getLast?.elim left fun a => a.extent.afterEnd) := by
    induction as generalizing left with
    | nil => rfl
    | cons a as ih =>
      rw [leftAfter, ih]
      cases as with
      | nil => rfl
      | cons b bs =>
        rw [List.getLast?_cons_cons, List.getLast?_cons]
        rfl
  unfold Table.Section.whole
  rw [hlast]
  cases s.body.getLast? with
  | none => exact ⟨rfl, rfl⟩
  | some a => exact ⟨rfl, rfl⟩

/-- The entries that a section makes have their places. -/
lemma sound_of_section {s : Table.Section} {left : ℕ} (hstart : s.extent.fromStart ≤ left)
    (hleft : left ≤ byteLength whole) (hlt : s.extent.afterEnd < s.extent.fromStart)
    (h : AssignmentsPlaced whole s.extent.afterEnd s.body) :
    s.Sound (Entry.Placed whole (leftAfter s.extent.afterEnd s.body)) := by
  obtain ⟨hend, hfrom⟩ := afterEnd_whole s
  have hle := leftAfter_le h
  have hwithin : leftAfter s.extent.afterEnd s.body ≤ s.whole.afterEnd ∧
      s.whole.afterEnd < s.whole.fromStart ∧ s.whole.fromStart ≤ byteLength whole := by
    omega
  -- What has a place of its own, and is not written as one value, needs no more than that.
  have hentry {key : String} {x : Extent} {content : Node} (himplicit : content.isImplicit = false)
      (hwritten : content.isWritten = false)
      (hx : leftAfter s.extent.afterEnd s.body ≤ x.afterEnd ∧ x.afterEnd < x.fromStart ∧
        x.fromStart ≤ byteLength whole) :
      Entry.Placed whole (leftAfter s.extent.afterEnd s.body) ⟨key, x, content⟩ :=
    ⟨iff_of_false (fun e => by cases e) (by simp [himplicit]), fun y hy => Option.some.inj hy ▸ hx,
      fun y _ h => by simp [hwritten] at h⟩
  refine ⟨fun t => hentry rfl rfl hwithin, fun elements => hentry rfl rfl hwithin,
    fun {extent elements} elements' he => hentry rfl rfl ?_, h.sound⟩
  match extent, he with
  | none, he => exact absurd (he.extent_eq_none.1 rfl) (by simp [Node.isImplicit])
  | some x, he =>
    obtain ⟨hxleft, hxlt, hxwhole⟩ := he.within x rfl
    exact ⟨hwithin.1, by simp only [Option.getD_some, Extent.through]; omega, hxwhole⟩

/-- Assignments one behind the other keep the places of a tree. -/
lemma sound_of_assignAll {left : ℕ} {as : List Table.Assignment}
    (h : AssignmentsPlaced whole left as) {origin : Origin} {t t' : Table}
    (ht : t.Sound (Entry.Placed whole left)) (hall : Table.assignAll origin t as = some t') :
    t'.Sound (Entry.Placed whole (leftAfter left as)) :=
  (ht.mono fun _ => Entry.Placed.mono (leftAfter_le h)).assignAll (stable_placed ..) h.sound hall

/-- Sections one behind the other keep the places of a tree. -/
lemma sound_of_sections {left : ℕ} {ss : List Table.Section} (h : SectionsPlaced whole left ss)
    (hleft : left ≤ byteLength whole) {t t' : Table} (ht : t.Sound (Entry.Placed whole left))
    (hall : ss.foldlM Table.define t = some t') : t'.Sound (Entry.Placed whole 0) := by
  induction ss generalizing left t with
  | nil =>
    cases hall
    exact ht.mono fun _ => Entry.Placed.mono left.zero_le
  | cons s ss ih =>
    obtain ⟨hstart, hlt, hbody, hss⟩ := h
    obtain ⟨u, hu, hall⟩ := Option.bind_eq_some_iff.1 hall
    have hle : leftAfter s.extent.afterEnd s.body ≤ left :=
      (leftAfter_le hbody).trans (hlt.le.trans hstart)
    have ht := ht.mono fun _ => Entry.Placed.mono hle
    exact ih hss (hle.trans hleft)
      (ht.define (stable_placed ..) (sound_of_section hstart hleft hlt hbody) hu) hall

/-- **In the tree of a text every table has different keys**, and every entry has its place in the
text. -/
theorem sound_of_read {text : String} {root : Table} (h : Table.read? text = some root) :
    root.Sound (Entry.Placed text.toList 0) := by
  obtain ⟨outline, houtline, h⟩ := Option.bind_eq_some_iff.1 h
  obtain ⟨hroot, hsections⟩ := placed_of_outline houtline
  obtain ⟨t, ht, h⟩ := Option.bind_eq_some_iff.1 h
  exact sound_of_sections hsections (leftAfter_le hroot) (sound_of_assignAll hroot .nil ht) h

end PackScope.Toml
