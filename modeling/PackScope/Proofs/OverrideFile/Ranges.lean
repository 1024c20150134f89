import PackScope.Proofs.Location.Positions
import PackScope.Proofs.OverrideFile.Declarations
import PackScope.Proofs.OverrideFile.RoundTrip
import PackScope.Proofs.Text.ByteOrder
import PackScope.Proofs.Toml.Unplaced

/-!
The ranges of the variables of an override file. A range covers a part of the file, and the range of
a value that is written as such covers the text of this value: put behind another key it is read as
an equal value, and no two such ranges overlap.
-/

namespace PackScope

open Toml (Entry Node Table ReadAt byteLength byteLength_append)

/-! ### Bytes -/

section Bytes

lemma byteLength_eq (cs : List Char) :
    byteLength cs = (cs.flatMap String.utf8EncodeChar).length := by
  induction cs with
  | nil => rfl
  | cons c cs ih =>
    rw [Toml.byteLength_cons, ih, List.flatMap_cons, List.length_append,
      String.length_utf8EncodeChar]

lemma length_utf8Bytes (text : String) : (utf8Bytes text).length = byteLength text.toList := by
  rw [utf8Bytes_eq, byteLength_eq]

end Bytes

/-- The bytes of a text that a range covers. -/
def Range.bytesOf (range : Range) (text : String) : List UInt8 :=
  ((utf8Bytes text).take range.stop.byte).drop range.start.byte

/-- The ends of a range that is cut out of a text lie in the text. -/
lemma Extent.range_ends (extent : Extent) (filename text : String) :
    (extent.range filename (utf8Bytes text)).start =
        .ofOffset text (byteLength text.toList - extent.fromStart) ∧
      (extent.range filename (utf8Bytes text)).stop =
        .ofOffset text (byteLength text.toList - extent.afterEnd) := by
  rw [← length_utf8Bytes]
  exact ⟨rfl, rfl⟩

lemma Position.byte_ofOffset {text : String} {n : ℕ} (h : n ≤ byteLength text.toList) :
    (Position.ofOffset text n).byte = n := by
  rw [ofOffset, byte_walk, length_utf8Bytes, Nat.min_eq_left h, Nat.zero_add]

lemma Extent.bytes_range (extent : Extent) (filename text : String) :
    (extent.range filename (utf8Bytes text)).start.byte =
        byteLength text.toList - extent.fromStart ∧
      (extent.range filename (utf8Bytes text)).stop.byte =
        byteLength text.toList - extent.afterEnd := by
  obtain ⟨hstart, hstop⟩ := extent.range_ends filename text
  rw [hstart, hstop]
  exact ⟨Position.byte_ofOffset (Nat.sub_le ..), Position.byte_ofOffset (Nat.sub_le ..)⟩

/-- What stands at a place of a text is what the range of the place covers. -/
lemma bytesOf_range {text : String} {front slice after : List Char}
    (h : text.toList = front ++ (slice ++ after)) (filename : String) :
    (Extent.range ⟨byteLength (slice ++ after), byteLength after⟩ filename
      (utf8Bytes text)).bytesOf text = slice.flatMap String.utf8EncodeChar := by
  obtain ⟨hstart, hstop⟩ :=
    Extent.bytes_range ⟨byteLength (slice ++ after), byteLength after⟩ filename text
  have hstart' : byteLength text.toList - byteLength (slice ++ after) =
      (front.flatMap String.utf8EncodeChar).length := by
    rw [h, byteLength_append, ← byteLength_eq]
    omega
  have hstop' : byteLength text.toList - byteLength after =
      (front.flatMap String.utf8EncodeChar ++ slice.flatMap String.utf8EncodeChar).length := by
    rw [h, byteLength_append, byteLength_append, List.length_append, ← byteLength_eq,
      ← byteLength_eq]
    omega
  rw [Range.bytesOf, hstart, hstop, hstart', hstop', utf8Bytes_eq, h, List.flatMap_append,
    List.flatMap_append, ← List.append_assoc, List.take_left, List.drop_left]

/-! ### Values behind another key -/

namespace OverrideFile

variable {filename text : String} {pack : PackId} {key : VariableId} {v : Variable}

/-- A line that assigns a value under two keys. -/
lemma line_of_value {cs : List Char} {node : Node}
    (h : Toml.value (cs ++ ['\n']) = some (node, ['\n'])) : ∃ extent,
      Toml.line ("p.v = ".toList ++ (cs ++ ['\n'])) =
        some (.assignment ⟨["p"], "v", extent, node⟩, []) := by
  have hstarts := Toml.startsValue_of_nestedValue h
  have hblank : Toml.blanks (' ' :: (cs ++ ['\n'])) = some ((), cs ++ ['\n']) := by
    have hblanks := hstarts.blanks []
    rw [List.append_nil] at hblanks
    exact hblanks
  have hp : Toml.Spells ['p'] ['p'] := .inl ⟨rfl, by decide⟩
  have hv : Toml.Spells ['v'] ['v'] := .inl ⟨rfl, by decide⟩
  have hkey := Toml.key_pair hp hv (' ' :: (cs ++ ['\n']))
  obtain ⟨extent, hlocated⟩ := Toml.located_of_eq h
  refine ⟨extent, Toml.line_of_assignment hp ?_⟩
  refine (Reader.bind_of_eq _ hkey).trans ?_
  rw [Reader.bind_of_eq _ (Reader.exactly_cons '=' _), Reader.bind_of_eq _ hblank,
    Reader.bind_of_eq _ hlocated]
  rfl

/-- The tree of a text with one assignment under two keys. -/
lemma read?_of_value {cs : List Char} {node : Node}
    (h : Toml.value (cs ++ ['\n']) = some (node, ['\n'])) : ∃ extent : Extent,
      Table.read? ("p.v = " ++ String.ofList cs ++ "\n") =
        some [⟨"p", none, .table .dotted [⟨"v", extent, node⟩]⟩] := by
  obtain ⟨extent, hline⟩ := line_of_value h
  refine ⟨extent, ?_⟩
  have htext : ("p.v = " ++ String.ofList cs ++ "\n").toList =
      "p.v = ".toList ++ (cs ++ ['\n']) := by
    simp
  have hlines : Toml.lines ("p.v = ".toList ++ (cs ++ ['\n'])).length
      ("p.v = ".toList ++ (cs ++ ['\n'])) =
        some ([.assignment ⟨["p"], "v", extent, node⟩], []) := by
    obtain ⟨n, hn⟩ : ∃ n, ("p.v = ".toList ++ (cs ++ ['\n'])).length = n + 1 := ⟨_, rfl⟩
    rw [hn, Toml.lines, Reader.bind_of_eq _ (Reader.get_apply _), if_neg (by simp),
      Reader.bind_of_eq _ hline, Reader.bind_of_eq _ (Toml.lines_nil n)]
    rfl
  have houtline : Toml.Outline.read? ("p.v = ".toList ++ (cs ++ ['\n'])) =
      some ⟨[⟨["p"], "v", extent, node⟩], []⟩ := by
    have hmark : Toml.withoutMark ("p.v = ".toList ++ (cs ++ ['\n'])) =
        "p.v = ".toList ++ (cs ++ ['\n']) := rfl
    rw [Toml.Outline.read?, hmark, Reader.readAll_of_eq hlines]
    rfl
  rw [Table.read?, htext, houtline]
  rfl

/-- A document of one variable is read as the set of it. -/
lemma read_of_value {cs : List Char} {node : Node} {data : Toml.Data}
    (h : Toml.value (cs ++ ['\n']) = some (node, ['\n'])) (hdata : node.data = .ok data)
    (file : String) : ∃ set, read file ("p.v = " ++ String.ofList cs ++ "\n") = .ok set ∧
      set.forgetRanges = .single "p" "v" (.ofToml data) := by
  obtain ⟨extent, hroot⟩ := read?_of_value h
  generalize "p.v = " ++ String.ofList cs ++ "\n" = whole at hroot ⊢
  obtain ⟨v, hv, hforget⟩ : ∃ v, variableOf file (utf8Bytes whole) ⟨"v", extent, node⟩ = .ok v ∧
      v.forgetRange = { name := ⟨"v"⟩, value := .ofToml data } :=
    ⟨_, variableOf_eq_ok.2 ⟨extent, data, rfl, hdata, rfl⟩, rfl⟩
  have hname : v.name = ⟨"v"⟩ := congrArg Variable.name hforget
  have hpack : packVariables file (utf8Bytes whole) [⟨"v", extent, node⟩] =
      .ok (.ofList [(v.name, v)]) :=
    bind_eq_ok.2 ⟨_, mapM_cons_ok.2 ⟨_, namedVariable_eq_ok.2 ⟨v, hv, rfl⟩, _, rfl, rfl⟩, rfl⟩
  refine ⟨.ofList [(⟨"p"⟩, .ofList [(v.name, v)])], ?_, ?_⟩
  · rw [read, hroot]
    exact bind_eq_ok.2
      ⟨_, mapM_cons_ok.2 ⟨_, namedPack_eq_ok.2 ⟨_, _, rfl, _, hpack, rfl⟩, _, rfl, rfl⟩, rfl⟩
  · rw [hname]
    exact congrArg
      (fun w => (KeyMap.ofList [(⟨"p"⟩, KeyMap.ofList [(⟨"v"⟩, w)])] : VariableSet)) hforget

/-! ### The ranges of a file -/

/-- **Whether a file has a value at an address that is written as one value**: a value without
parts, an array, or a table in braces. -/
def WrittenAt (text : String) (pack : PackId) (key : VariableId) : Prop :=
  ((Table.read? text).bind fun root => (root.at? pack.text key.text).map fun e =>
    e.content.isWritten) = some true

instance : Decidable (WrittenAt text pack key) := inferInstanceAs (Decidable (_ = _))

lemma WrittenAt.of_at? {root : Table} {e : Entry Node} (h : WrittenAt text pack key)
    (hroot : Table.read? text = some root) (he : root.at? pack.text key.text = some e) :
    e.content.isWritten = true := by
  rw [WrittenAt, hroot, Option.bind_some, he, Option.map_some] at h
  exact Option.some.inj h

/-- The place of a declaration. -/
lemma Declares.exists_place (h : Declares filename text pack key v) :
    ∃ root e extent data, Table.read? text = some root ∧ root.at? pack.text key.text = some e ∧
      e.extent = some extent ∧ e.content.data = .ok data ∧ v.value = .ofToml data ∧
      v.range = extent.range filename (utf8Bytes text) ∧ e.Placed text.toList 0 := by
  obtain ⟨root, e, hroot, he, hv⟩ := h
  obtain ⟨extent, data, hextent, hdata, rfl⟩ := variableOf_eq_ok.1 hv
  obtain ⟨d, origin, t, hd, hcontent, hat⟩ := Toml.exists_of_at? he
  have hsound := (Toml.sound_of_read hroot).contents d (Toml.mem_of_entry_eq hd).1
  rw [hcontent, Toml.sound_table] at hsound
  exact ⟨root, e, extent, data, hroot, he, hextent, hdata, rfl, rfl,
    hsound.entries e (Toml.mem_of_entry_eq hat).1⟩

/-- The range of a declaration covers a part of the file. -/
lemma Declares.range_within (h : Declares filename text pack key v) :
    v.range.start.byte < v.range.stop.byte ∧ v.range.stop.byte ≤ (utf8Bytes text).length ∧
      v.range.start = .ofOffset text v.range.start.byte ∧
      v.range.stop = .ofOffset text v.range.stop.byte := by
  obtain ⟨root, e, extent, data, -, -, hextent, -, -, hrange, hplaced⟩ := h.exists_place
  obtain ⟨-, hlt, hle⟩ := hplaced.within extent hextent
  obtain ⟨hstart, hstop⟩ := extent.range_ends filename text
  obtain ⟨hstart', hstop'⟩ := extent.bytes_range filename text
  rw [hrange, hstart', hstop', length_utf8Bytes]
  exact ⟨by omega, by omega, hstart, hstop⟩

/-- **The range of a value that is written as such covers a text of the value**, which is read
behind another key. -/
lemma Declares.reads_again (h : Declares filename text pack key v)
    (hwritten : WrittenAt text pack key) (file : String) :
    ∃ slice, utf8Bytes slice = v.range.bytesOf text ∧ ∃ set,
      read file ("p.v = " ++ slice ++ "\n") = .ok set ∧
        set.forgetRanges = .single "p" "v" v.value := by
  obtain ⟨root, e, extent, data, hroot, he, hextent, hdata, hvalue, hrange, hplaced⟩ :=
    h.exists_place
  obtain ⟨n, hn, before, after, ⟨front, hfront⟩, hread, rfl⟩ :=
    hplaced.written extent hextent (hwritten.of_at? hroot he)
  obtain ⟨slice, rfl, hslice⟩ := Toml.steady_nestedValue hn hread
  obtain ⟨node, hnode, hunplaced⟩ := hslice _ (.lineFeed after)
  have hdata' : node.data = .ok data := by
    rw [← Toml.data_unplaced, ← hunplaced, Toml.data_unplaced, hdata]
  refine ⟨.ofList slice, ?_, ?_⟩
  · rw [hrange, bytesOf_range hfront.symm, utf8Bytes_eq, String.toList_ofList]
  · rw [hvalue]
    exact read_of_value hnode hdata' file

/-- The ranges of values at two addresses that are written as such do not overlap. -/
lemma Declares.apart {pack' : PackId} {key' : VariableId} {v' : Variable}
    (h : Declares filename text pack key v) (h' : Declares filename text pack' key' v')
    (hne : (pack, key) ≠ (pack', key')) (hwritten : WrittenAt text pack key)
    (hwritten' : WrittenAt text pack' key') :
    v.range.stop.byte ≤ v'.range.start.byte ∨ v'.range.stop.byte ≤ v.range.start.byte := by
  obtain ⟨root, e, extent, _, hroot, he, hextent, -, -, hrange, hplaced⟩ := h.exists_place
  obtain ⟨root', e', extent', _, hroot', he', hextent', -, -, hrange', hplaced'⟩ := h'.exists_place
  obtain rfl : root = root' := Option.some.inj (hroot.symm.trans hroot')
  have haddress : pack.text ≠ pack'.text ∨ key.text ≠ key'.text := by
    by_contra! heq
    exact hne (Prod.ext (congrArg PackId.mk heq.1) (congrArg VariableId.mk heq.2))
  have hapart := Toml.apart_of_at? hroot he he' haddress (hwritten.of_at? hroot he)
    (hwritten'.of_at? hroot he') hextent hextent'
  obtain ⟨hstart, hstop⟩ := extent.bytes_range filename text
  obtain ⟨hstart', hstop'⟩ := extent'.bytes_range filename text
  rw [hrange, hrange', hstart, hstop, hstart', hstop']
  rcases hapart with hapart | hapart
  · left
    omega
  · right
    omega

/-- **The range of every variable of a file points at its value.** It covers a part of the file;
where the value is written as such, its text is read behind another key as an equal value, and no
two ranges of such values overlap. -/
theorem ranges_of_read {set : VariableSet} (h : read filename text = .ok set) :
    (∀ pack key v, set.lookup? pack key = some v →
      (v.range.start.byte < v.range.stop.byte ∧ v.range.stop.byte ≤ (utf8Bytes text).length ∧
        v.range.start = .ofOffset text v.range.start.byte ∧
        v.range.stop = .ofOffset text v.range.stop.byte) ∧
      (WrittenAt text pack key → ∀ file, ∃ slice, utf8Bytes slice = v.range.bytesOf text ∧ ∃ again,
        read file ("p.v = " ++ slice ++ "\n") = .ok again ∧
          again.forgetRanges = .single "p" "v" v.value)) ∧
    ∀ pack key v pack' key' v', set.lookup? pack key = some v →
      set.lookup? pack' key' = some v' → (pack, key) ≠ (pack', key') →
      WrittenAt text pack key → WrittenAt text pack' key' →
        v.range.stop.byte ≤ v'.range.start.byte ∨ v'.range.stop.byte ≤ v.range.start.byte := by
  refine ⟨fun pack key v hv => ?_, fun pack key v pack' key' v' hv hv' hne hwritten hwritten' => ?_⟩
  · have hdeclared := declares_of_read h hv
    exact ⟨hdeclared.range_within, hdeclared.reads_again⟩
  · exact (declares_of_read h hv).apart (declares_of_read h hv') hne hwritten hwritten'

/-- A file with a value inside a table in braces and one behind a dotted key. -/
def twoValuesText : String := "a = \x7b b = [1, 2] \x7d\nc.d = 'x'\n"

/-- The list of the file. -/
def firstOfTwo : Variable where
  name := ⟨"b"⟩
  value := .list [.integer 1, .integer 2]
  range := ⟨"a.toml", ⟨1, 11, 10⟩, ⟨1, 17, 16⟩⟩

/-- The text of the file. -/
def secondOfTwo : Variable where
  name := ⟨"d"⟩
  value := .string "x"
  range := ⟨"a.toml", ⟨2, 7, 25⟩, ⟨2, 10, 28⟩⟩

/-- What the file holds. -/
def twoValues : VariableSet :=
  VariableSet.put (.put .empty ⟨"a"⟩ ⟨"b"⟩ firstOfTwo) ⟨"c"⟩ ⟨"d"⟩ secondOfTwo

theorem ranges_of_read_twoValues :
    read "a.toml" twoValuesText = .ok twoValues ∧
      twoValues.lookup? ⟨"a"⟩ ⟨"b"⟩ = some firstOfTwo ∧
      twoValues.lookup? ⟨"c"⟩ ⟨"d"⟩ = some secondOfTwo ∧
      WrittenAt twoValuesText ⟨"a"⟩ ⟨"b"⟩ ∧ WrittenAt twoValuesText ⟨"c"⟩ ⟨"d"⟩ ∧
      (∃ slice, utf8Bytes slice = firstOfTwo.range.bytesOf twoValuesText ∧ ∃ again,
        read "again.toml" ("p.v = " ++ slice ++ "\n") = .ok again ∧
          again.forgetRanges = .single "p" "v" firstOfTwo.value) ∧
      (firstOfTwo.range.stop.byte ≤ secondOfTwo.range.start.byte ∨
        secondOfTwo.range.stop.byte ≤ firstOfTwo.range.start.byte) := by
  have hread : read "a.toml" twoValuesText = .ok twoValues := by decide +kernel
  have hfirst : WrittenAt twoValuesText ⟨"a"⟩ ⟨"b"⟩ := by decide +kernel
  have hsecond : WrittenAt twoValuesText ⟨"c"⟩ ⟨"d"⟩ := by decide +kernel
  obtain ⟨hvalues, hapart⟩ := ranges_of_read hread
  exact ⟨hread, rfl, rfl, hfirst, hsecond, (hvalues _ _ _ rfl).2 hfirst _,
    hapart _ _ _ _ _ _ rfl rfl (by decide) hfirst hsecond⟩

end OverrideFile

end PackScope
