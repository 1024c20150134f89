import PackScope.Proofs.Toml.Silent

/-!
Texts inside comments. A text may be written after a comment mark with no effect on what follows it
exactly if it ends in a comment and says nothing in between; and with a mark in front of each of its
lines exactly if it has no control characters but tabs and line breaks.
-/

namespace PackScope.Toml

/-! ### Texts behind one comment mark -/

/-- Blanks and line breaks. -/
inductive IsSpace : List Char → Prop
  | nil : IsSpace []
  | blank {c : Char} {cs : List Char} (isBlank : isBlank c = true) (rest : IsSpace cs) :
    IsSpace (c :: cs)
  | lineFeed {cs : List Char} (rest : IsSpace cs) : IsSpace ('\n' :: cs)
  | carriageReturn {cs : List Char} (rest : IsSpace cs) : IsSpace ('\r' :: '\n' :: cs)

/-- **Whether a text that is written in a comment ends in a comment**, with nothing but blanks and
line breaks between the comments in it. -/
inductive StaysComment : List Char → Prop
  | text {cs : List Char} (chars : ∀ c ∈ cs, isCommentChar c = true) : StaysComment cs
  | next {cs space rest : List Char} (chars : ∀ c ∈ cs, isCommentChar c = true)
    (isSpace : IsSpace space) (stays : StaysComment rest) :
    StaysComment (cs ++ (space ++ '#' :: rest))

section Stays

variable {c : Char} {cs rest : List Char} {inComment : Bool}

lemma dropFiller_append_text (h : ∀ c ∈ cs, isCommentChar c = true) (rest : List Char) :
    dropFiller true (cs ++ rest) = dropFiller true rest := by
  induction cs with
  | nil => rfl
  | cons c cs ih =>
    rw [List.forall_mem_cons] at h
    rw [List.cons_append, dropFiller_text h.1, ih h.2]

lemma IsSpace.dropFiller_mark (h : IsSpace cs) (inComment : Bool) (rest : List Char) :
    dropFiller inComment (cs ++ '#' :: rest) = dropFiller true rest := by
  induction h generalizing inComment with
  | nil =>
    cases inComment with
    | false => exact Toml.dropFiller_mark rest
    | true => exact dropFiller_text rfl rest
  | blank isBlank _ ih =>
    cases inComment with
    | false => rw [List.cons_append, dropFiller_of_blank isBlank, ih]
    | true => rw [List.cons_append, dropFiller_text (isCommentChar_of_blank isBlank), ih]
  | lineFeed _ ih => rw [List.cons_append, dropFiller_lineFeed, ih]
  | carriageReturn _ ih => rw [List.cons_append, List.cons_append, dropFiller_return, ih]

/-- What follows a text that stays a comment is in a comment. -/
lemma StaysComment.dropFiller (h : StaysComment cs) (rest : List Char) :
    dropFiller true (cs ++ rest) = dropFiller true rest := by
  induction h with
  | text chars => exact dropFiller_append_text chars rest
  | next chars isSpace _ ih =>
    rw [List.append_assoc, List.append_assoc, dropFiller_append_text chars, List.cons_append,
      isSpace.dropFiller_mark, ih]

lemma StaysComment.cons (hc : isCommentChar c = true) (h : StaysComment cs) :
    StaysComment (c :: cs) := by
  cases h with
  | text chars => exact .text (List.forall_mem_cons.2 ⟨hc, chars⟩)
  | next chars isSpace stays =>
    rw [← List.cons_append]
    exact .next (List.forall_mem_cons.2 ⟨hc, chars⟩) isSpace stays

/-- Whether a text leads into a comment: from inside one or, over blanks and line breaks, into its
first one. -/
def LeadsToComment (inComment : Bool) (cs : List Char) : Prop :=
  if inComment then StaysComment cs
  else ∃ space rest, cs = space ++ '#' :: rest ∧ IsSpace space ∧ StaysComment rest

/-- In front of a text that leads into a comment may stand what keeps blanks and line breaks so. -/
lemma LeadsToComment.behind (front : List Char)
    (hfront : ∀ space, IsSpace space → IsSpace (front ++ space)) (h : LeadsToComment false cs)
    (inComment : Bool) : LeadsToComment inComment (front ++ cs) := by
  obtain ⟨space, rest, rfl, hspace, hrest⟩ := h
  rw [← List.append_assoc]
  cases inComment with
  | false => exact ⟨front ++ space, rest, rfl, hfront space hspace, hrest⟩
  | true =>
    rw [← List.nil_append (front ++ space ++ '#' :: rest)]
    exact .next (fun c hc => absurd hc List.not_mem_nil) (hfront space hspace) hrest

/-- Where filler goes on behind a quote, the text in front of the quote leads into a comment. -/
lemma leadsToComment_of_dropFiller (h : dropFiller inComment (cs ++ '"' :: rest) = []) :
    LeadsToComment inComment cs := by
  induction hn : cs.length using Nat.strong_induction_on generalizing inComment cs with
  | _ n ih =>
    cases cs with
    | nil =>
      cases inComment with
      | false =>
        rw [List.nil_append, dropFiller_stop rfl (.inr ⟨rfl, rfl, by decide⟩)] at h
        cases h
      | true => exact .text fun c hc => absurd hc List.not_mem_nil
    | cons c cs =>
      rw [List.length_cons] at hn
      rw [List.cons_append] at h
      by_cases hbreak : lineBreak (c :: (cs ++ '"' :: rest)) = none
      · cases inComment with
        | true =>
          by_cases hc : isCommentChar c = true
          · rw [dropFiller_text hc] at h
            exact (ih cs.length (by omega) h rfl).cons hc
          · rw [dropFiller_stop hbreak (.inl (Bool.eq_false_iff.2 hc))] at h
            cases h
        | false =>
          by_cases hblank : isBlank c = true
          · rw [dropFiller_of_blank hblank] at h
            exact .behind [c] (fun _ => .blank hblank) (ih cs.length (by omega) h rfl) _
          by_cases hmark : c = '#'
          · rw [hmark, dropFiller_mark] at h
            exact ⟨[], cs, by rw [hmark]; rfl, .nil, ih cs.length (by omega) h rfl⟩
          · rw [dropFiller_stop hbreak (.inr ⟨rfl, Bool.eq_false_iff.2 hblank, hmark⟩)] at h
            cases h
      · obtain ⟨p, hp⟩ := Option.ne_none_iff_exists'.1 hbreak
        unfold lineBreak at hp
        split at hp
        next tail htail =>
          obtain ⟨rfl, rfl⟩ := List.cons.inj htail
          rw [dropFiller_lineFeed] at h
          exact .behind ['\n'] (fun _ => .lineFeed) (ih cs.length (by omega) h rfl) _
        next tail htail =>
          obtain ⟨rfl, hcs⟩ := List.cons.inj htail
          cases cs with
          | nil => cases hcs
          | cons d cs =>
            obtain rfl : d = '\n' := (List.cons.inj hcs).1
            rw [List.length_cons] at hn
            rw [List.cons_append, dropFiller_return] at h
            exact .behind ['\r', '\n'] (fun _ => .carriageReturn) (ih cs.length (by omega) h rfl) _
        next => cases hp

end Stays

/-! ### Texts with a mark on each line -/

/-- Whether a character leaves the comment it stands in as it is or ends it with a line: no control
character but the tab, the line feed, and the carriage return where a line feed follows or the text
ends. -/
def fitsComment (c : Char) (rest : List Char) : Bool :=
  isCommentChar c || c = '\n' || (c = '\r' && rest.head?.all (· = '\n'))

/-- **Whether a text fits into comments**, each of its lines behind a comment mark. -/
def fitsComments : List Char → Bool
  | [] => true
  | c :: rest => fitsComment c rest && fitsComments rest

/-- A text with a comment mark in front of each of its lines but the first. -/
def marked (cs : List Char) : List Char :=
  cs.flatMap fun c => if c = '\n' then "\n#   ".toList else [c]

/-- Whether a text starts with a control character that stands in no comment and ends no line. -/
def StartsControl (cs : List Char) : Prop :=
  ∃ c rest, cs = c :: rest ∧ isCommentChar c = false ∧ lineBreak (c :: rest) = none

section Marked

variable {c : Char} {cs : List Char}

lemma marked_lineFeed (cs : List Char) :
    marked ('\n' :: cs) = '\n' :: '#' :: ' ' :: ' ' :: ' ' :: marked cs := rfl

lemma marked_cons (h : c ≠ '\n') (cs : List Char) : marked (c :: cs) = c :: marked cs := by
  rw [marked, List.flatMap_cons, if_neg h]
  rfl

/-- What stands behind a carriage return that ends a line starts with a line feed. -/
lemma exists_marked_eq (h : cs.head?.all (· = '\n') = true) (rest : List Char) :
    ∃ tail, marked cs ++ '\n' :: rest = '\n' :: tail := by
  match cs with
  | [] => exact ⟨rest, rfl⟩
  | d :: cs =>
    obtain rfl : d = '\n' := by simpa using h
    exact ⟨_, rfl⟩

lemma dropFiller_marked_cons (h : fitsComment c cs = true) (rest : List Char) :
    dropFiller true (marked (c :: cs) ++ '\n' :: rest) =
      dropFiller true (marked cs ++ '\n' :: rest) := by
  rw [fitsComment, Bool.or_eq_true, Bool.or_eq_true, Bool.and_eq_true, decide_eq_true_eq,
    decide_eq_true_eq] at h
  rcases h with (hc | rfl) | ⟨rfl, hhead⟩
  · rw [marked_cons (ne_lineFeed_of_commentChar hc).1, List.cons_append, dropFiller_text hc]
  · have hspace : ∀ c ∈ [' ', ' ', ' '], isCommentChar c = true := List.all_eq_true.1 (by decide)
    rw [marked_lineFeed, List.cons_append, dropFiller_lineFeed, List.cons_append, dropFiller_mark]
    exact dropFiller_append_text hspace _
  · obtain ⟨tail, htail⟩ := exists_marked_eq hhead rest
    rw [marked_cons (by decide), List.cons_append, htail, dropFiller_return, dropFiller_lineFeed]

/-- **A text that fits into comments leaves what follows them as it is.** -/
lemma dropFiller_marked (h : fitsComments cs = true) (rest : List Char) :
    dropFiller true (marked cs ++ '\n' :: rest) = dropFiller false rest := by
  induction cs with
  | nil => exact dropFiller_lineFeed true rest
  | cons c cs ih =>
    rw [fitsComments, Bool.and_eq_true] at h
    rw [dropFiller_marked_cons h.1, ih h.2]

lemma startsControl_of_not_fits (h : fitsComment c cs = false) (rest : List Char) :
    StartsControl (dropFiller true (marked (c :: cs) ++ '\n' :: rest)) := by
  rw [fitsComment, Bool.or_eq_false_iff, Bool.or_eq_false_iff, Bool.and_eq_false_iff,
    decide_eq_false_iff_not, decide_eq_false_iff_not] at h
  obtain ⟨⟨hc, hline⟩, hreturn⟩ := h
  have hbreak : lineBreak (c :: (marked cs ++ '\n' :: rest)) = none := by
    unfold lineBreak
    split
    next e => exact absurd (List.cons.inj e).1 hline
    next e =>
      obtain ⟨rfl, htail⟩ := List.cons.inj e
      have hhead := hreturn.resolve_left (not_not_intro rfl)
      match cs with
      | [] => cases hhead
      | d :: cs =>
        have hd : d ≠ '\n' := by simpa using hhead
        rw [marked_cons hd] at htail
        exact absurd (List.cons.inj htail).1 hd
    next => rfl
  rw [marked_cons hline, List.cons_append, dropFiller_stop hbreak (.inl hc)]
  exact ⟨c, _, rfl, hc, hbreak⟩

/-- **A text that does not fit into comments breaks one by a control character.** -/
lemma startsControl_marked (h : fitsComments cs = false) (rest : List Char) :
    StartsControl (dropFiller true (marked cs ++ '\n' :: rest)) := by
  induction cs with
  | nil => cases h
  | cons c cs ih =>
    by_cases hc : fitsComment c cs = true
    · rw [fitsComments, hc, Bool.true_and] at h
      rw [dropFiller_marked_cons hc]
      exact ih h
    · exact startsControl_of_not_fits (Bool.eq_false_iff.2 hc) rest

/-- No document goes on with a control character. -/
lemma ofText?_of_startsControl (h : StartsControl (dropFiller false cs)) :
    Outline.ofText? cs = none := by
  obtain ⟨c, rest, htext, hc, hbreak⟩ := h
  rw [← ofText?_dropFiller, htext]
  exact ofText?_of_none (List.cons_ne_nil c rest) (line_control hc hbreak)

end Marked

end PackScope.Toml
