import PackScope.Proofs.OverrideFile.Denotation

/-!
Override files that spell the same data in different ways. If both are spelled out, both are read
for what the data say, so they are read alike.
-/

namespace PackScope.OverrideFile

open Toml (Table)

/-- **Two files that spell the same data are read alike if both are spelled out**, and they are
accepted if there are only tables at their top level; and a file is read for what its data say
exactly if it is spelled out. -/
theorem read_alike {text text' : String} {root root' : Table} (h : Table.read? text = some root)
    (h' : Table.read? text' = some root') (hdata : root.denoted = root'.denoted)
    (filename filename' : String) :
    (root.IsSpelledOut → root'.IsSpelledOut →
      said? filename text = said? filename' text' ∧
        ((∀ d ∈ root, d.content.shown.isTable = true) → (said? filename text).isSome = true)) ∧
      (said? filename text = VariableSet.ofData? root.denoted ↔ root.IsSpelledOut) := by
  refine ⟨fun hs hs' => ⟨?_, fun htables => ?_⟩, said?_iff h filename⟩
  · rw [(said?_iff h filename).2 hs, (said?_iff h' filename').2 hs', hdata]
  · rw [(said?_iff h filename).2 hs, ofData?_denoted (Toml.sound_of_read h).keys_ne,
      if_pos htables, Option.isSome_some]

/-- A table below a header, and its tree. -/
def headerText : String := "[app.db]\nuser = 1\n"

/-- The tree of a table below a header. -/
def headerTree : Table :=
  [⟨"app", none, .table .implied [⟨"db", some ⟨18, 1⟩, .table .header
    [⟨"user", some ⟨2, 1⟩, .scalar (.integer 1)⟩]⟩]⟩]

/-- The same table in braces. -/
def bracesText : String := "app.db = \x7b user = 1 \x7d\n"

/-- The tree of a table in braces. -/
def bracesTree : Table :=
  [⟨"app", none, .table .dotted [⟨"db", some ⟨13, 1⟩, .table .inline
    [⟨"user", some ⟨4, 3⟩, .scalar (.integer 1)⟩]⟩]⟩]

/-- The same table as a dotted key makes it. -/
def dottedText : String := "app.db.user = 1\n"

/-- The tree of a table that a dotted key makes. -/
def dottedTree : Table :=
  [⟨"app", none, .table .dotted [⟨"db", none, .table .dotted
    [⟨"user", some ⟨2, 1⟩, .scalar (.integer 1)⟩]⟩]⟩]

theorem read_alike_braces :
    Table.read? headerText = some headerTree ∧ Table.read? bracesText = some bracesTree ∧
      headerTree.denoted = bracesTree.denoted ∧ headerTree.IsSpelledOut ∧
      bracesTree.IsSpelledOut ∧ said? "a.toml" headerText = said? "b.toml" bracesText ∧
      (said? "a.toml" headerText).isSome = true := by
  have hheader : Table.read? headerText = some headerTree := by decide +kernel
  have hbraces : Table.read? bracesText = some bracesTree := by decide +kernel
  have hdata : headerTree.denoted = bracesTree.denoted := rfl
  have hs : headerTree.IsSpelledOut := fun _ => by decide
  have hs' : bracesTree.IsSpelledOut := fun _ => by decide
  obtain ⟨halike, htables⟩ := (read_alike hheader hbraces hdata "a.toml" "b.toml").1 hs hs'
  exact ⟨hheader, hbraces, hdata, hs, hs', halike, htables (by decide)⟩

/-- **A table that only a dotted key makes is refused**, where its data are accepted in another
spelling. -/
theorem read_tells_spellings :
    ∃ root root', Table.read? dottedText = some root ∧ Table.read? headerText = some root' ∧
      root.denoted = root'.denoted ∧ (∀ d ∈ root, d.content.shown.isTable = true) ∧
      said? "a.toml" dottedText = none ∧ (said? "a.toml" headerText).isSome = true := by
  refine ⟨dottedTree, headerTree, ?_, ?_, rfl, ?_, ?_, ?_⟩
  · decide +kernel
  · decide +kernel
  · decide
  · decide +kernel
  · decide +kernel

end PackScope.OverrideFile
