import Mathlib.Data.List.Basic
import PackScope.LegacyFile
import PackScope.Proofs.Json.Reading

/-!
Legacy files read back. An object of two levels is read from its text in either layout, if the
values below the two levels can be read back.
-/

namespace PackScope.LegacyFile

open Json DataReader

variable {α : Type} {r : DataReader α} {form : α → Json} {cs : List Char}

/-- **An object is read back** for every reader that reads back its values. -/
lemma reads_objectOf {es : List (String × α)} (h : ∀ e ∈ es, Reads r (form e.2) e.2) :
    Reads (objectOf r) (.object (formEntries form es)) es := by
  intro s level gap rest hgap _
  obtain ⟨body, hbody, hread⟩ := exists_objectBody s level h
  have hblanks : lexeme blanks (gap ++ '\x7b' :: (body ++ rest)) =
      .ok ((), '\x7b' :: (body ++ rest)) :=
    blanks_append hgap (endsBlanks_cons (by decide) _)
  rw [hbody, List.cons_append, objectOf, bind_of_eq _ hblanks]
  exact hread rest

/-- The JSON form of a file. -/
def fileForm (packs : List (String × List (String × Json))) : Json :=
  .object (formEntries .object packs)

/-- The two levels of a file are read to the end of its text. -/
lemma packs_spaced {ps : List (String × List (String × Json))}
    (h : ∀ p ∈ ps, ∀ e ∈ p.2, e.2.Readable valueDepth) (s : Spacing) :
    packs ((fileForm ps).spaced s 0) = .ok (ps, []) := by
  have hvars : ∀ p ∈ ps, Reads (objectOf (nestedValue valueDepth)) (.object p.2) p.2 := by
    intro p hp
    have hreads := @reads_objectOf _ _ id p.2 fun e he => (h p hp e he).reads
    rwa [formEntries_id] at hreads
  have hpacks := reads_objectOf hvars s 0 [] [] (List.forall_mem_nil _) fun c hc => by cases hc
  rw [List.append_nil, List.nil_append] at hpacks
  have hblanks : lexeme blanks [] = .ok ((), []) := rfl
  rw [packs, fileForm, bind_of_eq _ hpacks, bind_of_eq _ hblanks]
  rfl

/-- **A file is read back** from either text of its JSON form. -/
lemma read_fileForm (filename : String) {ps : List (String × List (String × Json))}
    (h : ∀ p ∈ ps, ∀ e ∈ p.2, e.2.Readable valueDepth) :
    ∀ text ∈ [(fileForm ps).text, (fileForm ps).prettyText],
      read filename text = .ok (setOf filename ps) := by
  have hread (s : Spacing) :
      read filename (.ofList ((fileForm ps).spaced s 0)) = .ok (setOf filename ps) := by
    have hpacks := packs_spaced h s
    rw [read, String.toList_ofList]
    change ((packs ((fileForm ps).spaced s 0)).map Prod.fst).map (setOf filename) = _
    rw [hpacks]
    rfl
  intro text htext
  rcases List.mem_pair.1 htext with rfl | rfl
  · rw [Json.text, compact_eq 0]
    exact hread .tight
  · rw [prettyText, prettyAt_eq 0]
    exact hread .lines

end PackScope.LegacyFile
