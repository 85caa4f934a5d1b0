import ProtocolGen.Package.Generate
import ProtocolGen.Proofs.Sequencing
import ProtocolGen.Proofs.Source.Lines
import ProtocolGen.Proofs.Source.NullCharacters

/-!
# What a run keeps

All modules of a package are collected in one buffer, which is emptied by each flush, so the text of
a module is that of its own edits. Under a path that one module has alone, its text is all that is
kept, and all that a persister is given.
-/

set_option autoImplicit false

namespace ProtocolGen.Package

open ProtocolGen.Source

/-! ## Files under a path -/

section Files

variable {Content : Type} {path : Path} {files : List (Path × Content)}

/-- The files under a path. -/
def filesAt (path : Path) (files : List (Path × Content)) : List (Path × Content) :=
  files.filter fun file => file.1 = path

theorem filesAt_map {Other : Type} (transform : Content → Other) :
    filesAt path (files.map fun file => (file.1, transform file.2)) =
      (filesAt path files).map fun file => (file.1, transform file.2) := by
  rw [filesAt, filesAt, List.filter_map]
  rfl

theorem filesAt_putFile_of_ne {other : Path} (content : Content) (elsewhere : other ≠ path) :
    filesAt path (putFile other content files) = filesAt path files := by
  induction files with
  | nil => simp [filesAt, putFile, elsewhere]
  | cons known files ih =>
    by_cases same : known.1 = other
    · simp [filesAt, putFile, same, elsewhere]
    · rw [putFile, if_neg same]
      unfold filesAt at ih ⊢
      rw [List.filter_cons, List.filter_cons, ih]

theorem filesAt_putFile_self (content : Content) (free : filesAt path files = []) :
    filesAt path (putFile path content files) = [(path, content)] := by
  induction files with
  | nil => simp [filesAt, putFile]
  | cons known files ih =>
    have freeOfAll : ∀ file ∈ known :: files, file.1 ≠ path := by
      simpa [filesAt, List.filter_eq_nil_iff] using free
    rw [List.forall_mem_cons] at freeOfAll
    have freeOfRest : filesAt path files = [] := by
      simpa [filesAt, List.filter_eq_nil_iff] using freeOfAll.2
    rw [putFile, if_neg freeOfAll.1, filesAt, List.filter_cons, if_neg (by simpa using freeOfAll.1)]
    exact ih freeOfRest

end Files

/-! ## Flushing a module -/

/-- The text that is kept of a module that nothing else is collected with, if any is. -/
def keptText? (formatter : Formatter) (runtimeModule : String) (edits : List Edit) :
    Option String :=
  let buffer := (Buffer.new runtimeModule).applyAll edits
  if buffer.hasContent then
    match formatter buffer.render with
    | .ok formatted => some formatted
    | .error _ => some buffer.render
  else none

theorem exists_keptText {formatter : Formatter} {runtimeModule : String} {edits : List Edit}
    (declares : .declare ∈ edits) : ∃ text, keptText? formatter runtimeModule edits = some text := by
  unfold keptText?
  dsimp only
  rw [if_pos (Buffer.hasContent_of_declare _ declares)]
  split <;> exact ⟨_, rfl⟩

theorem keptText?_nil (formatter : Formatter) (runtimeModule : String) :
    keptText? formatter runtimeModule [] = none := rfl

/-- A buffer with a declaration on whose text a formatter breaks down. -/
def BreaksDown (formatter : Formatter) (buffer : Buffer) : Prop :=
  buffer.hasContent ∧ ∃ words, formatter buffer.render = .error (.broken words)

/-! ### Lines of kept texts -/

/-- A line of a module that does not end with a blank is kept, whether the formatter takes the text or
rejects it. -/
theorem mem_linesOf_keptText {runtimeModule text line : String} {edits : List Edit}
    (kept : keptText? format runtimeModule edits = some text) (solid : IsSolid line.toList)
    (rendered : line.toList ∈ linesOf ((Buffer.new runtimeModule).applyAll edits).render.toList) :
    line.toList ∈ linesOf text.toList := by
  unfold keptText? at kept
  dsimp only at kept
  split at kept
  · split at kept
    · next formatted made =>
      rw [← Option.some.inj kept, toList_of_format made]
      exact solid.mem_linesOf_normalise rendered
    · rw [← Option.some.inj kept]
      exact rendered
  · simp at kept

theorem mem_linesOf_keptText_of_line {runtimeModule text line : String} {edits : List Edit}
    {indent : Nat} (kept : keptText? format runtimeModule edits = some text)
    (member : .line line indent ∈ edits) (solid : IsSolid (Buffer.indented line indent).toList) :
    (Buffer.indented line indent).toList ∈ linesOf text.toList := by
  have inBody := Buffer.indented_mem_lines_of_line (Buffer.new runtimeModule) member
  exact mem_linesOf_keptText kept solid (Buffer.mem_linesOf_render_of_mem_lines solid inBody)

/-! ### Flushes -/

def putKept (formatter : Formatter) (runtimeModule : String) (path : Path) (edits : List Edit)
    (files : List (Path × String)) : List (Path × String) :=
  match keptText? formatter runtimeModule edits with
  | some text => putFile path text files
  | none => files

section Staging

variable {formatter : Formatter} {runtimeModule : String}

/-- What a flush does when it ends: the formatter stands the text, the text that is kept, if any, is
put under the path, and the path is noted. -/
structure Flushed (formatter : Formatter) (runtimeModule : String) (path : Path)
    (edits : List Edit) (stage next : Stage) : Prop where
  stands : ¬ BreaksDown formatter ((Buffer.new runtimeModule).applyAll edits)
  files : next.files = putKept formatter runtimeModule path edits stage.files
  written : next.written =
    stage.written ++ (keptText? formatter runtimeModule edits).toList.map fun _ => path

theorem Flushed.of_flush {stage next : Stage} {edits : List Edit} {path : Path} {buffer : Buffer}
    {kept : Bool} (flushed : stage.flush formatter ((Buffer.new runtimeModule).applyAll edits) path =
      .ok (buffer, next, kept)) :
    buffer = Buffer.new runtimeModule ∧ Flushed formatter runtimeModule path edits stage next := by
  unfold Stage.flush at flushed
  rw [Buffer.clear_applyAll_new] at flushed
  dsimp only at flushed
  split at flushed
  · next empty =>
    have nothing : keptText? formatter runtimeModule edits = none := by
      rw [keptText?, if_neg (by simpa using empty)]
    cases flushed
    refine ⟨rfl, fun breaks => ?_, by rw [putKept, nothing], by simp [nothing]⟩
    simp [breaks.1] at empty
  · next full =>
    have content : ((Buffer.new runtimeModule).applyAll edits).hasContent := by simpa using full
    split at flushed
    · next formatted made =>
      have text : keptText? formatter runtimeModule edits = some formatted := by
        rw [keptText?, if_pos content, made]
      cases flushed
      refine ⟨rfl, fun breaks => ?_, by rw [putKept, text]; rfl, by simp [text, Stage.keep]⟩
      obtain ⟨-, words, broken⟩ := breaks
      cases made.symm.trans broken
    · next reason rejected =>
      have text : keptText? formatter runtimeModule edits =
          some ((Buffer.new runtimeModule).applyAll edits).render := by
        rw [keptText?, if_pos content, rejected]
      cases flushed
      refine ⟨rfl, fun breaks => ?_, by rw [putKept, text]; rfl, by simp [text, Stage.keep]⟩
      obtain ⟨-, words, broken⟩ := breaks
      cases rejected.symm.trans broken
    · cases flushed

theorem exists_flush_of_stands {buffer : Buffer} (stands : ¬ BreaksDown formatter buffer)
    (stage : Stage) (path : Path) :
    ∃ next kept, stage.flush formatter buffer path = .ok (buffer.clear, next, kept) := by
  unfold Stage.flush
  split
  · exact ⟨_, _, rfl⟩
  · next full =>
    dsimp only
    split
    · exact ⟨_, _, rfl⟩
    · exact ⟨_, _, rfl⟩
    · next fault notRejected broken =>
      cases fault with
      | rejected reason => exact absurd rfl (notRejected reason)
      | broken words => exact absurd ⟨by simpa using full, words, broken⟩ stands

theorem stagePlanned_cons_ok {planned : PlannedModule} {rest : List PlannedModule}
    {stage reached : Stage}
    (staged : (stagePlanned formatter (Buffer.new runtimeModule) stage (planned :: rest)).result =
      .ok reached) :
    ∃ edits next, planned.edits = .ok edits ∧
      Flushed formatter runtimeModule planned.path edits stage next ∧
        (stagePlanned formatter (Buffer.new runtimeModule) next rest).result = .ok reached := by
  rw [stagePlanned] at staged
  cases made : planned.edits with
  | error failure =>
    rw [made] at staged
    cases staged
  | ok edits =>
    rw [made] at staged
    dsimp only at staged
    split at staged
    · cases staged
    · next buffer next kept flush =>
      obtain ⟨rfl, flushed⟩ := Flushed.of_flush flush
      exact ⟨edits, next, rfl, flushed, staged⟩

/-- A module that can be flushed: its code is there, and the formatter stands its text. -/
def Stageable (formatter : Formatter) (runtimeModule : String) (planned : PlannedModule) : Prop :=
  ∃ edits, planned.edits = .ok edits ∧
    ¬ BreaksDown formatter ((Buffer.new runtimeModule).applyAll edits)

theorem exists_stagePlanned_eq_ok_iff {plan : List PlannedModule} {stage : Stage} :
    (∃ reached, (stagePlanned formatter (Buffer.new runtimeModule) stage plan).result =
      .ok reached) ↔ ∀ planned ∈ plan, Stageable formatter runtimeModule planned := by
  induction plan generalizing stage with
  | nil => simp [stagePlanned]
  | cons planned rest ih =>
    rw [List.forall_mem_cons]
    constructor
    · intro staged
      obtain ⟨reached, staged⟩ := staged
      obtain ⟨edits, next, made, flushed, remaining⟩ := stagePlanned_cons_ok staged
      exact ⟨⟨edits, made, flushed.stands⟩, ih.mp ⟨reached, remaining⟩⟩
    · intro stageable
      obtain ⟨⟨edits, made, stands⟩, others⟩ := stageable
      obtain ⟨next, kept, flush⟩ := exists_flush_of_stands stands stage planned.path
      rw [Buffer.clear_applyAll_new] at flush
      rw [stagePlanned, made]
      dsimp only
      rw [flush]
      exact ih.mpr others

theorem filesAt_stagePlanned_of_ne {path : Path} {plan : List PlannedModule}
    {stage reached : Stage} (elsewhere : ∀ planned ∈ plan, planned.path ≠ path)
    (staged : (stagePlanned formatter (Buffer.new runtimeModule) stage plan).result = .ok reached) :
    filesAt path reached.files = filesAt path stage.files := by
  induction plan generalizing stage with
  | nil =>
    cases staged
    rfl
  | cons planned rest ih =>
    rw [List.forall_mem_cons] at elsewhere
    obtain ⟨edits, next, -, flushed, remaining⟩ := stagePlanned_cons_ok staged
    rw [ih elsewhere.2 remaining, flushed.files, putKept]
    split
    · exact filesAt_putFile_of_ne _ elsewhere.1
    · rfl

/-- The text of a module, if any, is kept under its path when no other module has that path. -/
theorem filesAt_stagePlanned {planned : PlannedModule} {before after : List PlannedModule}
    {stage reached : Stage} (alone : ∀ other ∈ before ++ after, other.path ≠ planned.path)
    (free : filesAt planned.path stage.files = [])
    (staged : (stagePlanned formatter (Buffer.new runtimeModule) stage
      (before ++ planned :: after)).result = .ok reached) :
    ∃ edits, planned.edits = .ok edits ∧ filesAt planned.path reached.files =
      (keptText? formatter runtimeModule edits).toList.map fun text => (planned.path, text) := by
  -- On the modules that come before: they leave the path free, those after it leave it alone.
  induction before generalizing stage with
  | nil =>
    obtain ⟨edits, next, made, flushed, remaining⟩ := stagePlanned_cons_ok staged
    refine ⟨edits, made, ?_⟩
    rw [filesAt_stagePlanned_of_ne alone remaining, flushed.files, putKept]
    cases keptText? formatter runtimeModule edits with
    | none => exact free
    | some text => exact filesAt_putFile_self text free
  | cons other before ih =>
    rw [List.cons_append, List.forall_mem_cons] at alone
    obtain ⟨_, next, -, flushed, remaining⟩ := stagePlanned_cons_ok staged
    refine ih alone.2 ?_ remaining
    rw [flushed.files, putKept]
    split
    · rw [filesAt_putFile_of_ne _ alone.1, free]
    · exact free

end Staging

/-! ## What a persister is given -/

/-- A persister that also remembers what it has written. -/
def Persister.recording {State : Type} (persister : Persister State) :
    Persister (State × List (Path × ByteArray)) where
  write := fun (state, written) path bytes =>
    match persister.write state path bytes with
    | (state, none) => ((state, written ++ [(path, bytes)]), none)
    | (state, some fault) => ((state, written), some fault)

def taker : Persister Unit := ⟨fun _ _ _ => ((), none)⟩

section Persisting

variable {State : Type} {persister : Persister State} {state after : State}
  {written recorded files : List (Path × ByteArray)}

theorem persistAll_recording
    (persisted : persistAll persister.recording (state, written) files =
      ((after, recorded), none)) : recorded = written ++ files := by
  induction files generalizing state written with
  | nil =>
    cases persisted
    rw [List.append_nil]
  | cons file files ih =>
    obtain ⟨path, bytes⟩ := file
    rw [persistAll] at persisted
    cases wrote : persister.write state path bytes with
    | mk next fault =>
      cases fault with
      | some fault =>
        simp only [Persister.recording, wrote] at persisted
        cases persisted
      | none =>
        simp only [Persister.recording, wrote] at persisted
        rw [ih persisted, List.append_assoc, List.singleton_append]

theorem stage_eq_ok_iff {formatter : Formatter} {settings : Settings} {domains : List Domain}
    {index : Types.TypeIndex} {reached : Stage} :
    (stage formatter settings domains).result = .ok (index, reached) ↔
      Types.classify domains = .ok index ∧
        (stagePlanned formatter (Buffer.new settings.runtimeModule) Stage.empty
          (plan index settings domains)).result = .ok reached := by
  unfold stage
  cases accepted : Types.classify domains with
  | error refusal => simp
  | ok found =>
    rw [map_eq_ok_iff]
    constructor
    · intro staged
      obtain ⟨_, rendered, same⟩ := staged
      cases same
      exact ⟨rfl, rendered⟩
    · intro parts
      obtain ⟨same, rendered⟩ := parts
      cases same
      exact ⟨reached, rendered, rfl⟩

section Generating

variable {formatter : Formatter} {settings : Settings} {domains : List Domain}
  {index : Types.TypeIndex} {reached : Stage}

theorem generate_of_stage_error {failure : Failure}
    (failed : (stage formatter settings domains).result = .error failure) :
    generate formatter persister settings domains state =
      (state, ⟨(stage formatter settings domains).events, .error failure⟩) := by
  unfold generate
  dsimp only
  rw [failed]

/-- Behind the stage a run is what the persister makes of the staged files. -/
theorem generate_of_stage_ok
    (staged : (stage formatter settings domains).result = .ok (index, reached)) :
    (generate formatter persister settings domains state).1 =
        (persistAll persister state reached.writes).1 ∧
      (generate formatter persister settings domains state).2.result =
        match (persistAll persister state reached.writes).2 with
        | none => .ok reached
        | some fault => .error (.file fault) := by
  unfold generate
  dsimp only
  rw [staged]
  dsimp only
  cases persistAll persister state reached.writes with
  | mk after fault => cases fault <;> exact ⟨rfl, rfl⟩

theorem generate_eq_ok {events : List Log.Event}
    (generated : generate formatter persister settings domains state =
      (after, ⟨events, .ok reached⟩)) :
    ∃ index, Types.classify domains = .ok index ∧
      (stagePlanned formatter (Buffer.new settings.runtimeModule) Stage.empty
        (plan index settings domains)).result = .ok reached ∧
      persistAll persister state reached.writes = (after, none) := by
  unfold generate at generated
  dsimp only at generated
  split at generated
  · cases generated
  · next index staged result =>
    split at generated
    · cases generated
    · next after persisted =>
      cases generated
      obtain ⟨accepted, rendered⟩ := stage_eq_ok_iff.mp result
      exact ⟨index, accepted, rendered, persisted⟩

/-- What a persister has taken under the path that a planned module has alone is the text that is kept
of the module, if any is. -/
theorem filesAt_written {planned : PlannedModule} {before after : List PlannedModule}
    {start finish : State} {taken : List (Path × ByteArray)}
    (alone : ∀ other ∈ before ++ after, other.path ≠ planned.path)
    (staged : (stagePlanned formatter (Buffer.new settings.runtimeModule) Stage.empty
      (before ++ planned :: after)).result = .ok reached)
    (persisted : persistAll persister.recording (start, []) reached.writes =
      ((finish, taken), none)) :
    ∃ edits, planned.edits = .ok edits ∧ filesAt planned.path taken =
      (keptText? formatter settings.runtimeModule edits).toList.map fun text =>
        (planned.path, text.toUTF8) := by
  obtain ⟨edits, made, files⟩ := filesAt_stagePlanned alone rfl staged
  refine ⟨edits, made, ?_⟩
  rw [persistAll_recording persisted, List.nil_append, Stage.writes, filesAt_map, files,
    List.map_map]
  simp only [Function.comp_def]

end Generating

theorem persistAll_taker (files recorded : List (Path × ByteArray)) :
    (persistAll taker.recording ((), recorded) files).2 = none := by
  induction files generalizing recorded with
  | nil => rfl
  | cons file files ih => exact ih _

theorem exists_run_of_isOk {run : State × Outcome Stage}
    (ends : run.2.result.isOk) : ∃ after events reached, run = (after, ⟨events, .ok reached⟩) := by
  obtain ⟨after, events, result⟩ := run
  obtain ⟨reached, rfl⟩ := exists_eq_ok_of_isOk ends
  exact ⟨after, events, reached, rfl⟩

/-- Where the types are accepted and every module can be flushed, a run ends well. -/
theorem exists_run_of_stageable {formatter : Formatter} {settings : Settings} {domains : List Domain}
    {index : Types.TypeIndex} (accepted : Types.classify domains = .ok index)
    (stageable : ∀ planned ∈ plan index settings domains,
      Stageable formatter settings.runtimeModule planned) :
    ∃ written events reached, generate formatter taker.recording settings domains ((), []) =
      (((), written), ⟨events, .ok reached⟩) := by
  obtain ⟨reached, rendered⟩ := exists_stagePlanned_eq_ok_iff.mpr stageable
  have staged := stage_eq_ok_iff.mpr ⟨accepted, rendered⟩
  have ran : (generate formatter taker.recording settings domains ((), [])).2.result =
      .ok reached := by
    rw [(generate_of_stage_ok staged).2, persistAll_taker]
  obtain ⟨⟨⟨⟩, written⟩, events, final, run⟩ := exists_run_of_isOk (by rw [ran]; rfl)
  exact ⟨written, events, final, run⟩

/-- A formatter that keeps each text as it is stops no run. -/
theorem exists_run_of_codes {settings : Settings} {domains : List Domain} {index : Types.TypeIndex}
    (accepted : Types.classify domains = .ok index)
    (codes : (plan index settings domains).all fun planned => planned.edits.isOk) :
    ∃ written events reached, generate .ok taker.recording settings domains ((), []) =
      (((), written), ⟨events, .ok reached⟩) := by
  refine exists_run_of_stageable accepted fun planned member => ?_
  obtain ⟨edits, made⟩ := exists_eq_ok_of_isOk (List.all_eq_true.mp codes planned member)
  refine ⟨edits, made, ?_⟩
  rintro ⟨-, words, broken⟩
  cases broken

end Persisting

end ProtocolGen.Package
