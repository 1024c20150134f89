import PackScope.Proofs.OverrideFile.Blocks
import PackScope.Proofs.Toml.SimpleKeys

/-!
The keys that ids are assigned under. An id that is no bare key is written as a string value, and
the form of such a value is a key exactly if it is on one line. In a longer form it still tells ids
apart, but where a key is expected only two of its quotes are taken, for an empty key, and the file
that it is assigned in is refused.
-/

namespace PackScope

namespace Toml

lemma isBareKey_stringText (cs : List Char) : isBareKey (stringText cs) = false := by
  obtain ⟨c, text, e, hc⟩ := exists_stringText_cons cs
  rw [e]
  rcases hc with rfl | rfl
  · rfl
  · rfl

/-- Strings are told apart by their value forms. -/
lemma stringText_injective : Function.Injective stringText := by
  have hquote : NoQuote [] := fun c hc => by cases hc
  have hread (cs : List Char) : anyString (stringText cs) = some (cs, []) := by
    rw [← List.append_nil (stringText cs), anyString_stringText hquote]
  intro cs cs' h
  have hsame := hread cs
  rw [h, hread cs'] at hsame
  exact (Prod.mk.inj (Option.some.inj hsame)).1.symm

end Toml

namespace Variable

open Toml (FitsLine IsKeyOf SimpleKey isBareKey keyPart)

section Keys

variable {pack name : String} {cs rest : List Char}

lemma simpleKey_assignedKey (h : FitsLine name.toList) :
    SimpleKey (assignedKey name.toList) name.toList :=
  Toml.spells_iff.1 (onOneLine_iff.2 h).spells

lemma assignedKey_tripled (h : ¬ FitsLine cs) :
    ∃ q tail, (q = '"' ∨ q = '\'') ∧ assignedKey cs = q :: q :: q :: tail := by
  rw [assignedKey, if_neg fun hbare => h (Toml.fitsLine_of_isBareKey hbare)]
  exact Toml.stringText_tripled h

/-- **Different ids have different keys**, on however many lines. -/
lemma assignedKey_injective : Function.Injective assignedKey := by
  intro cs cs' h
  unfold assignedKey at h
  split_ifs at h with hbare hbare' hbare'
  · exact h
  · rw [h, Toml.isBareKey_stringText] at hbare
    cases hbare
  · rw [← h, Toml.isBareKey_stringText] at hbare'
    cases hbare'
  · exact Toml.stringText_injective h

/-- Of the keys of an assignment the first one that is on several lines is cut off behind an empty
key, and a quote is left behind. -/
lemma exists_key_quote (h : ¬ (FitsLine pack.toList ∧ FitsLine name.toList)) (rest : List Char) :
    ∃ parts q tail, (q = '"' ∨ q = '\'') ∧
      Toml.key (assignedKey pack.toList ++ '.' :: (assignedKey name.toList ++ rest)) =
        some (parts, q :: tail) := by
  by_cases hpack : FitsLine pack.toList
  · obtain ⟨q, tail, hq, e⟩ := assignedKey_tripled fun hname => h ⟨hpack, hname⟩
    have hspells := (onOneLine_iff.2 hpack).spells
    rw [e]
    exact ⟨_, q, tail ++ rest, hq, Toml.key_point_tripled hspells hq (tail ++ rest)⟩
  · obtain ⟨q, tail, hq, e⟩ := assignedKey_tripled hpack
    rw [e]
    exact ⟨_, q, _, hq, Toml.key_tripled hq _⟩

/-- **Both ids of an assignment are read back** exactly if both are written on one line. -/
lemma key_assignedKeys_iff :
    Toml.key (assignedKey pack.toList ++ '.' :: (assignedKey name.toList ++ ' ' :: '=' :: rest)) =
      some ([pack, name], '=' :: rest) ↔ FitsLine pack.toList ∧ FitsLine name.toList := by
  constructor
  · intro hread
    by_contra h
    obtain ⟨parts, q, tail, hq, hread'⟩ := exists_key_quote h (' ' :: '=' :: rest)
    rw [hread'] at hread
    obtain rfl : q = '=' := (List.cons.inj (Prod.mk.inj (Option.some.inj hread)).2).1
    rcases hq with hq | hq <;> cases hq
  · rintro ⟨hpack, hname⟩
    have hread := Toml.key_pair (onOneLine_iff.2 hpack).spells (onOneLine_iff.2 hname).spells rest
    rwa [String.ofList_toList, String.ofList_toList] at hread

end Keys

/-- **The key of an id is a key that stands for it exactly if the characters of the id fit on one
line.** If they do not, what is read where the key is expected is an empty key, with a quote left
behind; so both ids of an assignment are read back exactly if both fit. In each case the key is of
no other id. -/
theorem assignedKey_isKeyOf_iff (name : String) :
    (IsKeyOf (assignedKey name.toList) name ↔ FitsLine name.toList) ∧
    (¬ FitsLine name.toList → ∀ rest, ∃ q tail, (q = '"' ∨ q = '\'') ∧
      keyPart (assignedKey name.toList ++ rest) = some ("", q :: tail)) ∧
    (∀ pack rest, Toml.key (assignedKey pack.toList ++
        '.' :: (assignedKey name.toList ++ ' ' :: '=' :: rest)) =
          some ([pack, name], '=' :: rest) ↔ FitsLine pack.toList ∧ FitsLine name.toList) ∧
    ∀ other : String, assignedKey other.toList = assignedKey name.toList → other = name := by
  refine ⟨⟨fun h => ?_, fun h => Toml.isKeyOf_iff.2 (simpleKey_assignedKey h)⟩, fun h rest => ?_,
    fun pack rest => key_assignedKeys_iff, fun other h => ?_⟩
  · by_contra hfits
    obtain ⟨q, tail, hq, e⟩ := assignedKey_tripled hfits
    refine Toml.not_simpleKey_tripled hq tail name.toList ?_
    rw [← e]
    exact h.simple
  · obtain ⟨q, tail, hq, e⟩ := assignedKey_tripled h
    rw [e]
    exact ⟨q, tail ++ rest, hq, Toml.keyPart_tripled hq (tail ++ rest)⟩
  · exact String.toList_inj.1 (assignedKey_injective h)

theorem assignedKey_isKeyOf_iff_quotes :
    (IsKeyOf (assignedKey "it's".toList) "it's" ∧ IsKeyOf (assignedKey "'\"\x01".toList) "'\"\x01" ∧
      keyPart (assignedKey "it's".toList ++ ['.']) = some ("it's", ['.'])) ∧
    (¬ FitsLine "'\\".toList ∧ ∃ q tail, (q = '"' ∨ q = '\'') ∧
      keyPart (assignedKey "'\\".toList ++ ['.']) = some ("", q :: tail)) ∧
    assignedKey "'\n".toList ≠ assignedKey "'\\".toList ∧
    Toml.key (assignedKey "".toList ++ '.' :: (assignedKey "it's".toList ++ [' ', '='])) =
      some (["", "it's"], ['=']) := by
  obtain ⟨hplain, -, hboth, -⟩ := assignedKey_isKeyOf_iff "it's"
  obtain ⟨hcontrol, -⟩ := assignedKey_isKeyOf_iff "'\"\x01"
  obtain ⟨-, hlong, -, hown⟩ := assignedKey_isKeyOf_iff "'\\"
  have hfits : ¬ FitsLine "'\\".toList := by decide
  refine ⟨⟨hplain.2 (by decide), hcontrol.2 (by decide), ?_⟩, ⟨hfits, hlong hfits ['.']⟩, ?_, ?_⟩
  · exact (hplain.2 (by decide)).reads ['.'] (Toml.endsKey_point [])
  · exact fun h => absurd (hown "'\n" h) (by decide)
  · exact (hboth "" []).2 (by decide)

/-! ### Files with keys on several lines -/

section Files

variable {v : Variable} {pack : PackId} {d : Toml.Data}

lemma exists_startsKey (cs : List Char) :
    ∃ c tail, assignedKey cs = c :: tail ∧ Toml.StartsKey c := by
  by_cases h : isBareKey cs = true
  · rw [assignedKey, if_pos h]
    exact Toml.Spells.exists_cons (.inl ⟨rfl, h⟩)
  · obtain ⟨q, tail, e, hq⟩ := Toml.exists_stringText_cons cs
    rw [assignedKey, if_neg h]
    exact ⟨q, tail, e, .inr hq⟩

lemma line_assignment_eq_none (hd : v.value.toToml? = some d)
    (h : ¬ (FitsLine pack.text.toList ∧ FitsLine v.name.text.toList)) (rest : List Char) :
    Toml.line (v.assignment pack ++ rest) = none := by
  obtain ⟨parts, q, tail, hq, hkey⟩ := exists_key_quote h (" = ".toList ++ d.chars ++ '\n' :: rest)
  have htext : v.assignment pack ++ rest = assignedKey pack.text.toList ++
      '.' :: (assignedKey v.name.text.toList ++ (" = ".toList ++ d.chars ++ '\n' :: rest)) := by
    rw [Variable.assignment, hd]
    simp [line]
  have hequals : '=' ∉ (q :: tail).head? := by
    rcases hq with rfl | rfl
    · simp
    · simp
  have hassigned : Toml.assignment Toml.value (v.assignment pack ++ rest) = none := by
    rw [htext, Toml.assignment, Reader.bind_of_eq _ hkey]
    exact Reader.bind_of_none _ (Reader.exactly_none hequals)
  obtain ⟨c, tail', e, hc⟩ := exists_startsKey pack.text.toList
  rw [htext, e] at hassigned ⊢
  rw [List.cons_append, Toml.line_of_startsKey hc]
  exact Reader.bind_of_none _ hassigned

end Files

/-- **A block with an id that has no key is refused**, if only its comments say nothing. -/
theorem read_block_of_not_fitsLine (v : Variable) (pack : PackId)
    (hw : v.value.isWritable = true) (hlabel : Toml.StaysComment (v.label pack))
    (h : ¬ (FitsLine pack.text.toList ∧ FitsLine v.name.text.toList)) (filename : String) :
    OverrideFile.read filename (v.block pack) = .error .malformed := by
  obtain ⟨d, hd⟩ := Option.isSome_iff_exists.1 hw
  have hroot : Toml.Outline.ofText? (v.blockChars pack) = none := by
    by_cases hfits : v.DescriptionFits
    · have hne : v.assignment pack ++ ['\n'] ≠ [] := by simp
      rw [← Toml.ofText?_dropFiller, blockChars_eq, dropFiller_header hlabel hfits,
        Toml.ofText?_dropFiller, Toml.ofText?_of_none hne (line_assignment_eq_none hd h ['\n'])]
    · rw [Toml.ofText?_of_startsControl]
      rw [blockChars_eq]
      exact startsControl_header hlabel hfits _
  rw [OverrideFile.read, block, Toml.read?_ofList (v.not_marked_blockChars pack), hroot]
  rfl

/-- A variable whose name has quotes of both kinds. -/
def quotesOfBothKinds : Variable := { name := ⟨"'\""⟩, value := .integer 1 }

/-- **Not every id has a key**: with quotes of both kinds it is written in triple quotes, and with a
line feed on two lines. -/
theorem assignedKey_leaves_line :
    (assignedKey "'\"".toList = "\"\"\"'\"\"\"\"".toList ∧
      (∀ key, ¬ SimpleKey (assignedKey "'\"".toList) key) ∧
      ¬ IsKeyOf (assignedKey "'\"".toList) "'\"" ∧
      OverrideFile.read "reload.toml" (quotesOfBothKinds.block ⟨"a"⟩) = .error .malformed) ∧
    '\n' ∈ assignedKey "a\n#b".toList := by
  have htripled (key : List Char) : ¬ SimpleKey (assignedKey "'\"".toList) key :=
    Toml.not_simpleKey_tripled (.inl rfl) ['\'', '"', '"', '"', '"'] key
  have hlabel : Toml.StaysComment (quotesOfBothKinds.label ⟨"a"⟩) :=
    .text (List.all_eq_true.1 (by decide))
  refine ⟨⟨by decide, htripled, fun h => htripled _ h.simple, ?_⟩, by decide⟩
  exact read_block_of_not_fitsLine quotesOfBothKinds ⟨"a"⟩ rfl hlabel (by decide) "reload.toml"

end Variable

end PackScope
