import PackScope.Proofs.Command.Merging
import PackScope.Proofs.Command.Writing
import PackScope.Proofs.Scope.Rendering

/-!
What commands leave behind. A command that cannot use one of its files reports the first of these
and does nothing else. Any other command does all of its work, and only errors among the reports on
variables make it fail after that.
-/

namespace PackScope

namespace Command

/-! ### Inputs -/

/-- A file that a command reads, by what it is expected to hold. -/
inductive Input where
  | manifest (path : String)
  | overrides (path : String)
  | legacy (path : String)

/-- The failure that comes of an error. -/
def failure? {ε α : Type} (ofError : ε → Failure) : Except ε α → Option Failure
  | .ok _ => none
  | .error e => some (ofError e)

lemma failure?_ne {ε α : Type} {ofError : ε → Failure} {f : Failure} (h : ∀ e, ofError e ≠ f)
    {result : Except ε α} : failure? ofError result ≠ some f := by
  cases result with
  | ok a => rintro ⟨⟩
  | error e => exact fun hf => h e (Option.some.inj hf)

namespace Input

/-- The path of an input. -/
def path : Input → String
  | manifest path | overrides path | legacy path => path

/-- The failure of a command that finds no text at the path of an input. -/
def unreadable (fault : FileFault) : Input → Failure
  | manifest path => if fault.isAbsence then .noManifest path else .manifestFile fault
  | overrides path | legacy path => .file path fault

/-- The failure of a command that rejects the text of an input, if it does. -/
def rejection? (text : String) : Input → Option Failure
  | manifest _ => failure? .manifest (Manifest.read text)
  | overrides path => failure? (.overrideFile path) (OverrideFile.read path text)
  | legacy path => failure? (.legacyFile path) (LegacyFile.read path text)

/-- **Why an input is refused**: there is no text at its path, or the text is rejected. -/
def refusal? (files : Files) (input : Input) : Option Failure :=
  match files.read input.path with
  | .error fault => some (input.unreadable fault)
  | .ok text => input.rejection? text

/-- No input is refused for the arguments of the command. -/
lemma refusal?_ne_misuse {files : Files} {input : Input} {f : Failure}
    (h : input.refusal? files = some f) : f ≠ .misuse := by
  rintro rfl
  unfold refusal? at h
  split at h
  · cases input with
    | manifest path =>
      have hfault := Option.some.inj h
      rw [unreadable] at hfault
      split_ifs at hfault
    | overrides path => cases h
    | legacy path => cases h
  · unfold rejection? at h
    split at h
    · exact failure?_ne (by rintro _ ⟨⟩) h
    · exact failure?_ne (by rintro _ ⟨⟩) h
    · exact failure?_ne (by rintro _ ⟨⟩) h

end Input

/-- The inputs of a command, in the order in which it reads them. -/
def sources : Command → List Input
  | varfile paths _ => paths.map .overrides
  | context manifest paths => .manifest manifest :: paths.map .overrides
  | flattenLegacy path => [.legacy path]
  | flatten paths => paths.map .overrides

/-- **Why the first of the inputs is refused that is refused at all.** -/
def refusal? (files : Files) (c : Command) : Option Failure :=
  c.sources.findSome? (·.refusal? files)

/-- Whether there is a manifest at a path. -/
def HoldsManifest (files : Files) (path : String) (m : Manifest) : Prop :=
  ∃ text, files.read path = .ok text ∧ Manifest.read text = .ok m

/-- Whether there is a legacy file at a path, and some variables are read from it. -/
def HoldsLegacy (files : Files) (path : String) (set : LegacySet) : Prop :=
  ∃ text, files.read path = .ok text ∧ LegacyFile.read path text = .ok set

/-- Whether a set is that of the override files at some paths, each layered over those before it. -/
def Merges (files : Files) (paths : List String) (set : VariableSet) : Prop :=
  ∃ sets, List.Forall₂ (Holds files) paths sets ∧ set = .layers sets

/-! ### Reading inputs in order -/

/-- **Whether a result comes of reading inputs in order**: it is the failure of the first input that
is refused, and it has a given property if none is. -/
structure Reads {α : Type} (files : Files) (inputs : List Input) (result : Except Failure α)
    (P : Except Failure α → Prop) : Prop where
  refused : ∀ f, inputs.findSome? (·.refusal? files) = some f → result = .error f
  accepted : inputs.findSome? (·.refusal? files) = none → P result

/-- Whether a result is a success, and what it gives has some property. -/
def Gives {α : Type} (P : α → Prop) (result : Except Failure α) : Prop := ∃ a, result = .ok a ∧ P a

section Reads

variable {α β ε : Type} {files : Files} {inputs others : List Input} {x : Except Failure α}

lemma Reads.of_some {P : Except Failure α → Prop} {f : Failure}
    (h : inputs.findSome? (·.refusal? files) = some f) : Reads files inputs (.error f) P where
  refused _ hf := congrArg _ (Option.some.inj (h.symm.trans hf))
  accepted hnone := by cases h.symm.trans hnone

lemma Reads.of_none {P : Except Failure α → Prop}
    (h : inputs.findSome? (·.refusal? files) = none) (hx : P x) : Reads files inputs x P where
  refused _ hf := by cases h.symm.trans hf
  accepted _ := hx

lemma Reads.nil {P : Except Failure α → Prop} (hx : P x) : Reads files [] x P :=
  .of_none rfl hx

lemma Reads.mono {P Q : Except Failure α → Prop} (hx : Reads files inputs x P)
    (h : P x → Q x) : Reads files inputs x Q :=
  ⟨hx.refused, fun hnone => h (hx.accepted hnone)⟩

/-- **Inputs are read one after another**, and none after one that is refused. -/
lemma Reads.bind {P : α → Prop} {Q : Except Failure β → Prop} {g : α → Except Failure β}
    (hx : Reads files inputs x (Gives P)) (hg : ∀ a, P a → Reads files others (g a) Q) :
    Reads files (inputs ++ others) (x >>= g) Q := by
  cases hfirst : inputs.findSome? (·.refusal? files) with
  | some f =>
    have hall : (inputs ++ others).findSome? (·.refusal? files) = some f := by
      rw [List.findSome?_append, hfirst, Option.some_or]
    rw [hx.refused f hfirst]
    exact .of_some hall
  | none =>
    have hall : (inputs ++ others).findSome? (·.refusal? files) =
        others.findSome? (·.refusal? files) := by
      rw [List.findSome?_append, hfirst, Option.none_or]
    obtain ⟨a, rfl, ha⟩ := hx.accepted hfirst
    obtain ⟨hrefused, haccepted⟩ := hg a ha
    rw [← hall] at hrefused haccepted
    exact ⟨hrefused, haccepted⟩

lemma Reads.map {P : α → Prop} {Q : β → Prop} {g : α → β} (hx : Reads files inputs x (Gives P))
    (hg : ∀ a, P a → Q (g a)) : Reads files inputs (x >>= fun a => pure (g a)) (Gives Q) := by
  have hbind : Reads files (inputs ++ []) (x >>= fun a => pure (g a)) (Gives Q) :=
    hx.bind fun a ha => .nil ⟨g a, rfl, hg a ha⟩
  rwa [List.append_nil] at hbind

/-- **An input is read** by reading its text and then what the text holds. -/
lemma reads_input (input : Input) {parse : String → Except ε α} {ofError : ε → Failure}
    (h : ∀ text, input.rejection? text = failure? ofError (parse text)) :
    Reads files [input]
      (do
        let text ← (files.read input.path).mapError (input.unreadable ·)
        (parse text).mapError ofError)
      (Gives fun a => ∃ text, files.read input.path = .ok text ∧ parse text = .ok a) := by
  have hone : [input].findSome? (·.refusal? files) = input.refusal? files := by simp
  unfold Input.refusal? at hone
  cases hread : files.read input.path with
  | error fault =>
    simp only [hread] at hone
    exact .of_some hone
  | ok text =>
    simp only [hread, h] at hone
    change Reads files [input] ((parse text).mapError ofError) _
    cases hparse : parse text with
    | error e =>
      rw [hparse] at hone
      exact .of_some hone
    | ok a =>
      rw [hparse] at hone
      exact .of_none hone ⟨a, rfl, text, rfl, hparse⟩

lemma reads_manifest (path : String) :
    Reads files [.manifest path] (readManifest files path) (Gives (HoldsManifest files path)) :=
  reads_input (.manifest path) fun _ => rfl

lemma reads_overrides (path : String) :
    Reads files [.overrides path] (readOverrides files path) (Gives (Holds files path)) :=
  reads_input (.overrides path) fun _ => rfl

lemma reads_legacy (path : String) :
    Reads files [.legacy path] (readLegacy files path) (Gives (HoldsLegacy files path)) :=
  reads_input (.legacy path) fun _ => rfl

/-- **Override files are read one after another**, and layered. -/
lemma reads_layers (paths : List String) :
    Reads files (paths.map .overrides) (readLayers files paths) (Gives (Merges files paths)) := by
  -- Each file is layered over those before it, so the induction is over any set to start from.
  suffices hbase : ∀ base : VariableSet, Reads files (paths.map .overrides)
      (paths.foldlM (fun set path => do return set.overlay (← readOverrides files path)) base)
      (Gives fun set => ∃ sets, List.Forall₂ (Holds files) paths sets ∧
        set = sets.foldl VariableSet.overlay base) from hbase .empty
  induction paths with
  | nil => exact fun base => .nil ⟨base, rfl, [], .nil, rfl⟩
  | cons path paths ih =>
    intro base
    rw [List.foldlM_cons, List.map_cons, ← List.singleton_append]
    refine ((reads_overrides path).map (Q := fun set => ∃ upper, Holds files path upper ∧
      set = base.overlay upper) fun upper hupper => ⟨upper, hupper, rfl⟩).bind ?_
    rintro _ ⟨upper, hupper, rfl⟩
    refine (ih (base.overlay upper)).mono fun hset => ?_
    obtain ⟨set, hread, sets, hsets, hset⟩ := hset
    exact ⟨set, hread, upper :: sets, .cons hupper hsets, hset⟩

end Reads

end Command

/-! ### Outcomes -/

/-- **Whether a run only reports a failure.** -/
structure Outcome.Refuses (o : Outcome) (f : Failure) : Prop where
  stdout_eq : o.stdout = ""
  written_eq : o.written = none
  reports_eq : o.reports = []
  failure_eq : o.failure = some f
  status_eq : o.status = 1

/-- **Whether a run gives a text** and nothing else, on its output or in a file. -/
structure Outcome.Emits (o : Outcome) (text : String) (output : Option String) : Prop where
  stdout_eq : o.stdout = if output = none then text else ""
  written_eq : o.written = output.map fun path => (path, text)
  reports_eq : o.reports = []
  failure_eq : o.failure = none
  status_eq : o.status = 0

/-- **Whether a run prints JSON data**, writes no file, and fails exactly if one of the reports is
an error. -/
structure Outcome.Prints (o : Outcome) (json : Json) (reports : Diagnostics) : Prop where
  stdout_eq : o.stdout = json.prettyText ++ "\n"
  written_eq : o.written = none
  reports_eq : o.reports = reports
  status_eq : o.status = if ∃ d ∈ reports, d.severity = .error then 1 else 0

/-- Whether a run prints the flat map of a store, with all variables that have a JSON form. -/
structure Store.FlatPrinted (store : Store) (o : Outcome) : Prop where
  prints : o.Prints store.flat store.flatFailures
  complete : ∀ pack key, store.flat.at? [pack, key] =
    (store.lookup? pack key).bind fun v => v.value.toJson.toOption

/-- Whether a run prints the scope of a pack, with all variables that have a JSON form of all packs
that are shown. -/
structure Store.ScopePrinted (store : Store) (p : Pack) (o : Outcome) : Prop where
  prints : o.Prints (store.scope p).1.toJson (store.scope p).2
  complete : ∀ way q, p.follow? way = some q → ∀ key,
    (store.scope p).1.toJson.at? (way ++ [currentKey, "vars", key]) =
      (store.lookup? q.path.text key).bind fun v => v.value.toJson.toOption

namespace Outcome

lemma prints_printing (json : Json) (reports : Diagnostics) :
    (printing json reports).Prints json reports := by
  refine ⟨rfl, rfl, rfl, ?_⟩
  have herrors : reports.hasErrors = true ↔ ∃ d ∈ reports, d.severity = .error := by
    simp [Diagnostics.hasErrors, Diagnostic.isError]
  unfold status printing
  by_cases h : reports.hasErrors = true
  · rw [if_pos (herrors.1 h), if_pos h]
  · rw [if_neg (mt herrors.2 h), if_neg h]

lemma refuses_failed {f : Failure} (h : f ≠ .misuse) : (failed f).Refuses f := by
  refine ⟨rfl, rfl, rfl, rfl, ?_⟩
  cases f with
  | misuse => exact absurd rfl h
  | _ => rfl

end Outcome

namespace Command

/-- The file that the result of a command is written to, if it is not printed. -/
def output? : Command → Option String
  | varfile _ output => output
  | _ => none

/-- **Whether a run does all the work of a command** on files that are read. -/
def CompletedBy (files : Files) (o : Outcome) : Command → Prop
  | varfile paths output => ∃ set, Merges files paths set ∧ o.Emits (Store.unified set).dump output
  | context manifest paths => ∃ m set, HoldsManifest files manifest m ∧ Merges files paths set ∧
      (Store.unified set).ScopePrinted m.toPack o
  | flattenLegacy path => ∃ set, HoldsLegacy files path set ∧ (Store.legacy set).FlatPrinted o
  | flatten paths => ∃ set, Merges files paths set ∧ (Store.unified set).FlatPrinted o

section Perform

variable {files : Files}

/-- A command reads its inputs in order, and then does all of its work. -/
lemma reads_perform (c : Command) : Reads files c.sources (c.perform files) fun result =>
    (∀ path, c.output? = some path → files.writeFault? path = none) →
      Gives (fun o => c.CompletedBy files o) result := by
  cases c with
  | varfile paths output =>
    change Reads files (paths.map .overrides)
      (readLayers files paths >>= fun set => emit files (.unified set) output) _
    rw [← List.append_nil (paths.map _)]
    refine (reads_layers paths).bind fun set hset => .nil fun hwrite => ?_
    cases output with
    | none => exact ⟨_, rfl, set, hset, rfl, rfl, rfl, rfl, rfl⟩
    | some path =>
      have hpath : files.writeFault? path = none := hwrite path rfl
      refine ⟨{ written := some (path, (Store.unified set).dump) }, ?_, set, hset,
        rfl, rfl, rfl, rfl, rfl⟩
      rw [emit, hpath]
  | context manifest paths =>
    change Reads files ([.manifest manifest] ++ paths.map .overrides) _ _
    refine (reads_manifest manifest).bind fun m hm => ?_
    refine ((reads_layers paths).map fun set hset => ?_).mono fun hdone _ => hdone
    exact ⟨m, set, hm, hset, Outcome.prints_printing _ _, fun way q hq =>
      Scope.at?_vars (Store.unified set) hq⟩
  | flattenLegacy path =>
    refine ((reads_legacy path).map fun set hset => ?_).mono fun hdone _ => hdone
    exact ⟨set, hset, Outcome.prints_printing _ _, Store.at?_flat _⟩
  | flatten paths =>
    refine ((reads_layers paths).map fun set hset => ?_).mono fun hdone _ => hdone
    exact ⟨set, hset, Outcome.prints_printing _ _, Store.at?_flat _⟩

lemma refusal?_ne_misuse {c : Command} {f : Failure} (h : c.refusal? files = some f) :
    f ≠ .misuse := by
  obtain ⟨input, -, h⟩ := List.exists_of_findSome?_eq_some h
  exact input.refusal?_ne_misuse h

lemma run_of_refusal? {c : Command} {f : Failure} (h : c.refusal? files = some f) :
    c.run files = .failed f := by
  rw [run, (reads_perform c).refused f h]

/-- **Whether a command writes its result to a path**: no input is refused, and the path is that of
its output and can be written. -/
structure Writes (files : Files) (c : Command) (path : String) : Prop where
  refusal?_eq : c.refusal? files = none
  output?_eq : c.output? = some path
  writeFault?_eq : files.writeFault? path = none

/-- A text is emitted to a file only if that is the output and can be written. -/
lemma written_of_emit {store : Store} {output : Option String} {o : Outcome} {path text : String}
    (h : emit files store output = .ok o) (hwritten : o.written = some (path, text)) :
    output = some path ∧ files.writeFault? path = none := by
  cases output with
  | none =>
    cases h
    cases hwritten
  | some path' =>
    rw [emit] at h
    cases hfault : files.writeFault? path' with
    | some fault =>
      rw [hfault] at h
      cases h
    | none =>
      rw [hfault] at h
      cases h
      cases hwritten
      exact ⟨rfl, hfault⟩

/-- What is written is the result of a command that can write it. -/
lemma writes_of_written {c : Command} {path text : String}
    (h : (c.run files).written = some (path, text)) : c.Writes files path := by
  have hrefusal : c.refusal? files = none := by
    refine Option.eq_none_iff_forall_ne_some.2 fun f hf => ?_
    rw [run_of_refusal? hf] at h
    cases h
  suffices houtput : c.output? = some path ∧ files.writeFault? path = none from
    ⟨hrefusal, houtput.1, houtput.2⟩
  unfold run at h
  cases hperform : c.perform files with
  | error f =>
    rw [hperform] at h
    cases h
  | ok o =>
    rw [hperform] at h
    cases c with
    | varfile paths output =>
      obtain ⟨set, -, hemit⟩ := bind_eq_ok.1 hperform
      exact written_of_emit hemit h
    | context manifest paths =>
      obtain ⟨m, -, hperform⟩ := bind_eq_ok.1 hperform
      obtain ⟨set, -, hperform⟩ := bind_eq_ok.1 hperform
      cases hperform
      cases h
    | flattenLegacy file =>
      obtain ⟨set, -, hperform⟩ := bind_eq_ok.1 hperform
      cases hperform
      cases h
    | flatten paths =>
      obtain ⟨set, -, hperform⟩ := bind_eq_ok.1 hperform
      cases hperform
      cases h

end Perform

/-- **What a run of a command comes to.** If an input is refused, the run reports the first one and
does nothing else; otherwise it does all of the work, if its output can be written. A tree of files
stays as it is unless the command writes its output, for which it needs all of its inputs; then only
the output changes, and it holds the whole text afterwards. -/
structure AllOrNothing (c : Command) (files : Files) (o : Outcome) : Prop where
  refused : ∀ f, c.refusal? files = some f → o.Refuses f
  completed : c.refusal? files = none →
    (∀ path, c.output? = some path → files.writeFault? path = none) → c.CompletedBy files o
  kept : ∀ t : FileTree, t.toFiles = files → (∀ path, ¬ c.Writes files path) → t.after o = t
  rewritten : ∀ t : FileTree, t.toFiles = files → ∀ path text, o.written = some (path, text) →
    t.Rewrites (t.after o) path text

/-- **A command does all of its work or nothing**, and its exit status tells which. Of several
inputs that are refused the first one in the order of reading is reported, and reports on variables
do not keep the result from being printed whole. -/
theorem run_allOrNothing {args : List String} {c : Command} (h : Arguments.read args = .command c)
    (files : Files) : c.AllOrNothing files ((Arguments.read args).run files) := by
  rw [h]
  refine ⟨fun f hf => ?_, fun hnone hwrite => ?_, fun t _ hnot => ?_,
    fun t ht path text hwritten => ?_⟩
  · rw [Request.run, run_of_refusal? hf]
    exact Outcome.refuses_failed (refusal?_ne_misuse hf)
  · obtain ⟨o, ho, hdone⟩ := (reads_perform c).accepted hnone hwrite
    have hrun : c.run files = o := by
      rw [run, ho]
    rw [Request.run, hrun]
    exact hdone
  · refine FileTree.after_eq_self (Option.eq_none_iff_forall_ne_some.2 fun written hwritten => ?_)
    exact hnot written.1 (writes_of_written hwritten)
  · subst ht
    exact FileTree.rewrites_after hwritten (writes_of_written hwritten).writeFault?_eq

/-- A directory with one override file. -/
def workTree : FileTree where
  files := [(["work", "a"], "a.b = 1\n".toUTF8)]
  current := ["work"]

/-- The variable of the file. -/
def workSet : VariableSet :=
  VariableSet.put .empty ⟨"a"⟩ ⟨"b"⟩
    { name := ⟨"b"⟩, value := .integer 1, range := ⟨"a", ⟨1, 7, 6⟩, ⟨1, 8, 7⟩⟩ }

lemma parts_letter : ∀ path ∈ ["a", "b"], FileTree.parts path = .ok ⟨false, [path], false⟩ := by
  intro path hpath
  have hsplit : path.splitOn "/" = [path] := by
    rcases List.mem_pair.1 hpath with rfl | rfl
    · rw [String.splitOn, String.splitOnAux, String.splitOnAux]
      decide +kernel
    · rw [String.splitOn, String.splitOnAux, String.splitOnAux]
      decide +kernel
  rw [FileTree.parts, PathParts.ofText, hsplit]
  rcases List.mem_pair.1 hpath with rfl | rfl
  · decide +kernel
  · decide +kernel

lemma read_workTree : workTree.read "a" = .ok "a.b = 1\n" := by
  have hsource : workTree.source "a" = .ok ["work", "a"] := by
    rw [FileTree.source, parts_letter "a" (by simp)]
    rfl
  have hfile : workTree.file? ["work", "a"] = some "a.b = 1\n".toUTF8 := rfl
  refine bind_eq_ok.2 ⟨_, hsource, ?_⟩
  rw [hfile]
  dsimp only
  rw [FileTree.fromUTF8?_toUTF8]
  rfl

lemma read_workText : OverrideFile.read "a" "a.b = 1\n" = .ok workSet := by decide +kernel

lemma eq_of_merges {set : VariableSet} (h : Merges workTree.toFiles ["a"] set) : set = workSet := by
  obtain ⟨sets, hsets, rfl⟩ := h
  obtain ⟨set, _, ⟨text, htext, hread⟩, hrest, rfl⟩ := List.forall₂_cons_left_iff.1 hsets
  obtain rfl := List.forall₂_nil_left_iff.1 hrest
  obtain rfl := Except.ok.inj (htext.symm.trans read_workTree)
  obtain rfl := Except.ok.inj (hread.symm.trans read_workText)
  exact VariableSet.overlay_empty _

lemma refusal?_present : (Input.overrides "a").refusal? workTree.toFiles = none := by
  have hread : workTree.toFiles.read (Input.overrides "a").path = .ok "a.b = 1\n" := read_workTree
  rw [Input.refusal?, hread]
  dsimp only [Input.rejection?]
  rw [read_workText]
  rfl

lemma refusal?_absent :
    (Input.overrides "b").refusal? workTree.toFiles = some (.file "b" .missing) := by
  have hread : workTree.toFiles.read (Input.overrides "b").path = .error .missing := by
    change workTree.read "b" = _
    rw [FileTree.read, FileTree.source, parts_letter "b" (by simp)]
    rfl
  rw [Input.refusal?, hread]
  rfl

theorem run_allOrNothing_ontoInput :
    (∃ o, o = (Arguments.read ["varfile", "a", "-o", "a"]).run workTree.toFiles ∧
      o.stdout = "" ∧ o.status = 0 ∧
      (workTree.after o).read "a" = .ok "# variable \"a.b\"\na.b = 1\n\n") ∧
    ∃ o, o = (Arguments.read ["varfile", "a", "b", "-o", "a"]).run workTree.toFiles ∧
      o.Refuses (.file "b" .missing) ∧ workTree.after o = workTree := by
  constructor
  · have hargs : Arguments.read ["varfile", "a", "-o", "a"] =
        .command (.varfile ["a"] (some "a")) := by decide +kernel
    have hnone : (varfile ["a"] (some "a")).refusal? workTree.toFiles = none := by
      simp [refusal?, sources, refusal?_present]
    have hwrite : workTree.writeFault? "a" = none := by
      rw [FileTree.writeFault?, FileTree.target, parts_letter "a" (by simp)]
      rfl
    have hrun := run_allOrNothing hargs workTree.toFiles
    obtain ⟨set, hset, hemits⟩ := hrun.completed hnone (by rintro _ ⟨⟩; exact hwrite)
    obtain rfl := eq_of_merges hset
    refine ⟨_, rfl, hemits.stdout_eq, hemits.status_eq, ?_⟩
    exact (hrun.rewritten workTree rfl _ _ hemits.written_eq).read_eq
  · have hargs : Arguments.read ["varfile", "a", "b", "-o", "a"] =
        .command (.varfile ["a", "b"] (some "a")) := by decide +kernel
    have hsome : (varfile ["a", "b"] (some "a")).refusal? workTree.toFiles =
        some (.file "b" .missing) := by
      simp [refusal?, sources, refusal?_present, refusal?_absent]
    have hrun := run_allOrNothing hargs workTree.toFiles
    refine ⟨_, rfl, hrun.refused _ hsome, hrun.kept workTree rfl fun path hwrites => ?_⟩
    cases hsome.symm.trans hwrites.refusal?_eq

end Command

end PackScope
