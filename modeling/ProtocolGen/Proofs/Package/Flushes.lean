import Mathlib.Data.List.DropRight
import ProtocolGen.Proofs.Package.Staging

/-!
# Flushes of one buffer

One buffer serves one module after the other. Whatever has been called before, a flush keeps what a new
buffer keeps after the edits since the buffer was last emptied, which clearing does and every flush that
comes to its end. A flush on which the formatter breaks down leaves everything as it was: flushes are
taken step by step, so that it is seen what has been done by then.
-/

set_option autoImplicit false

namespace ProtocolGen.Package

open ProtocolGen.Source

/-! ## Flushes in steps -/

/-- A buffer with the stage that it is flushed into. -/
structure Bench where
  buffer : Buffer
  stage : Stage

def Bench.new (runtimeModule : String) : Bench := ⟨Buffer.new runtimeModule, Stage.empty⟩

/-- Steps on a bench. What they have done stays done when a later one fails. -/
abbrev BenchM := EStateM FormatFault Bench

namespace BenchM

def report (event : Log.Event) : BenchM Unit :=
  modify fun bench =>
    { bench with stage := { bench.stage with events := bench.stage.events ++ [event] } }

def emptyBuffer : BenchM Unit := modify fun bench => { bench with buffer := bench.buffer.clear }

def persist (path : Path) (text : String) : BenchM Unit :=
  modify fun bench =>
    { bench with
      stage := { bench.stage with
        files := putFile path text bench.stage.files
        written := bench.stage.written ++ [path] } }

/-- The text to keep: the formatted one, or the text itself when the formatter rejects it. -/
def finalText (formatter : Formatter) (path : Path) (text : String) : BenchM String :=
  match formatter text with
  | .ok formatted => pure formatted
  | .error (.rejected reason) => do
    report (unformattedEvent path reason)
    pure text
  | .error fault => throw fault

def skip (path : Path) : BenchM (Option Path) := do
  report (skippingEvent path)
  emptyBuffer
  return none

def keep (formatter : Formatter) (path : Path) (text : String) : BenchM (Option Path) := do
  let final ← finalText formatter path text
  report (writingEvent path)
  persist path final
  emptyBuffer
  return some path

/-- A flush step by step, with the path when something is kept. -/
def flush (formatter : Formatter) (path : Path) : BenchM (Option Path) := do
  let bench ← get
  if bench.buffer.hasContent then keep formatter path bench.buffer.render else skip path

/-- The steps come to what a flush is at once, and none of them has changed anything when it fails. -/
theorem flush_eq (formatter : Formatter) (path : Path) (bench : Bench) :
    flush formatter path bench =
      match bench.stage.flush formatter bench.buffer path with
      | .ok (buffer, stage, kept) => .ok (if kept then some path else none) ⟨buffer, stage⟩
      | .error fault => .error fault bench := by
  have begun : flush formatter path bench =
      (if bench.buffer.hasContent then keep formatter path bench.buffer.render else skip path) bench :=
    rfl
  rw [begun, Stage.flush]
  cases bench.buffer.hasContent with
  | false => rfl
  | true =>
    dsimp only [reduceIte, Bool.not_true]
    rw [keep, finalText]
    cases formatter bench.buffer.render with
    | ok text =>
      dsimp only
      rw [Stage.keep, List.append_nil]
      rfl
    | error fault => cases fault <;> rfl

end BenchM

/-! ## Calls -/

inductive Call where
  | edit (edit : Edit)
  | clear
  | flush (formatter : Formatter) (path : Path)

/-- What a call gives: of a flush, the path that a text was kept under, if one was. -/
inductive CallResult where
  | done
  | kept (path : Path)
  | skipped
  | failed (fault : FormatFault)
  deriving DecidableEq

def Bench.call (bench : Bench) : Call → Bench × CallResult
  | .edit edit => ({ bench with buffer := bench.buffer.apply edit }, .done)
  | .clear => ({ bench with buffer := bench.buffer.clear }, .done)
  | .flush formatter path =>
    match BenchM.flush formatter path bench with
    | .ok (some kept) after => (after, .kept kept)
    | .ok none after => (after, .skipped)
    | .error fault after => (after, .failed fault)

/-- Calls with what they gave, in the order they were made in. -/
abbrev History := List (Call × CallResult)

/-- The bench after one more call, and the history with it. -/
def Bench.record (state : Bench × History) (call : Call) : Bench × History :=
  ((state.1.call call).1, state.2 ++ [(call, (state.1.call call).2)])

/-- The bench after calls that begin with a new buffer and nothing kept, and their history. -/
def runCalls (runtimeModule : String) (calls : List Call) : Bench × History :=
  calls.foldl Bench.record (Bench.new runtimeModule, [])

/-- Whether a call has emptied the buffer. -/
def isReset : Call × CallResult → Bool
  | (.clear, _) => true
  | (.flush _ _, .kept _) => true
  | (.flush _ _, .skipped) => true
  | _ => false

def editOf? : Call × CallResult → Option Edit
  | (.edit edit, _) => some edit
  | _ => none

/-- The edits behind the last call that has emptied the buffer, if one has. -/
def editsSinceReset (history : History) : List Edit :=
  (history.rtakeWhile fun made => !isReset made).filterMap editOf?

theorem runCalls_concat (runtimeModule : String) (calls : List Call) (call : Call) :
    runCalls runtimeModule (calls ++ [call]) = Bench.record (runCalls runtimeModule calls) call :=
  List.foldl_concat _ _ _ _

theorem editsSinceReset_concat_of_reset {made : Call × CallResult} (history : History)
    (reset : isReset made) : editsSinceReset (history ++ [made]) = [] := by
  rw [editsSinceReset, List.rtakeWhile_concat_neg _ _ _ (by simpa using reset), List.filterMap_nil]

theorem editsSinceReset_concat {made : Call × CallResult} (history : History)
    (goesOn : ¬ isReset made) :
    editsSinceReset (history ++ [made]) = editsSinceReset history ++ (editOf? made).toList := by
  rw [editsSinceReset, List.rtakeWhile_concat_pos _ _ _ (by simpa using goesOn),
    List.filterMap_append, editsSinceReset]
  cases given : editOf? made <;> simp [given]

/-! ## What a flush does -/

/-- The ways a flush of a buffer ends, by what a new buffer holds after the edits. -/
inductive FlushEnds (runtimeModule : String) (edits : List Edit) (formatter : Formatter) (path : Path)
    (before after : Bench) : CallResult → Prop where
  | skipped (undeclared : .declare ∉ edits) (files : after.stage.writes = before.stage.writes)
      (emptied : after.buffer = Buffer.new runtimeModule) :
      FlushEnds runtimeModule edits formatter path before after .skipped
  | formatted {text : String} (declared : .declare ∈ edits)
      (accepted : formatter ((Buffer.new runtimeModule).applyAll edits).render = .ok text)
      (files : after.stage.writes = putFile path text.toUTF8 before.stage.writes)
      (emptied : after.buffer = Buffer.new runtimeModule) :
      FlushEnds runtimeModule edits formatter path before after (.kept path)
  | unformatted {reason : String} (declared : .declare ∈ edits)
      (rejected : formatter ((Buffer.new runtimeModule).applyAll edits).render =
        .error (.rejected reason))
      (files : after.stage.writes =
        putFile path ((Buffer.new runtimeModule).applyAll edits).render.toUTF8 before.stage.writes)
      (emptied : after.buffer = Buffer.new runtimeModule) :
      FlushEnds runtimeModule edits formatter path before after (.kept path)
  | failed {words : String} (declared : .declare ∈ edits)
      (broken : formatter ((Buffer.new runtimeModule).applyAll edits).render =
        .error (.broken words))
      (unchanged : after = before) :
      FlushEnds runtimeModule edits formatter path before after (.failed (.broken words))

theorem map_putFile {Content Other : Type} (transform : Content → Other) (path : Path)
    (content : Content) (files : List (Path × Content)) :
    (putFile path content files).map (fun file => (file.1, transform file.2)) =
      putFile path (transform content) (files.map fun file => (file.1, transform file.2)) := by
  induction files with
  | nil => rfl
  | cons known files ih =>
    by_cases same : known.1 = path
    · simp [putFile, same]
    · simp [putFile, same, ih]

theorem writes_keep (stage : Stage) (path : Path) (text : String) (events : List Log.Event) :
    (stage.keep path text events).writes = putFile path text.toUTF8 stage.writes :=
  map_putFile String.toUTF8 path text stage.files

/-- A flush of a buffer that is as a new one after some edits. -/
theorem flushEnds_call {runtimeModule : String} {edits : List Edit} {bench : Bench}
    (holds : bench.buffer = (Buffer.new runtimeModule).applyAll edits) (formatter : Formatter)
    (path : Path) :
    FlushEnds runtimeModule edits formatter path bench (bench.call (.flush formatter path)).1
      (bench.call (.flush formatter path)).2 := by
  obtain ⟨buffer, stage⟩ := bench
  dsimp only at holds
  subst holds
  have content : ((Buffer.new runtimeModule).applyAll edits).hasContent ↔ .declare ∈ edits :=
    Buffer.hasContent_applyAll_new_iff
  have emptied := Buffer.clear_applyAll_new runtimeModule edits
  rw [Bench.call, BenchM.flush_eq, Stage.flush, emptied]
  by_cases declared : .declare ∈ edits
  · rw [content.mpr declared]
    dsimp only
    cases made : formatter ((Buffer.new runtimeModule).applyAll edits).render with
    | ok text => exact .formatted declared made (writes_keep _ _ _ _) rfl
    | error fault =>
      cases fault with
      | rejected reason => exact .unformatted declared made (writes_keep _ _ _ _) rfl
      | broken words => exact .failed declared made rfl
  · rw [eq_false_of_ne_true (mt content.mp declared)]
    exact .skipped declared rfl rfl

/-! ## Runs of calls -/

/-- One call keeps the buffer as a new one after the edits since the buffer was last emptied. -/
theorem buffer_record {runtimeModule : String} {state : Bench × History}
    (holds : state.1.buffer = (Buffer.new runtimeModule).applyAll (editsSinceReset state.2))
    (call : Call) :
    (Bench.record state call).1.buffer =
      (Buffer.new runtimeModule).applyAll (editsSinceReset (Bench.record state call).2) := by
  obtain ⟨bench, history⟩ := state
  cases call with
  | edit edit =>
    have goesOn : ¬ isReset (Call.edit edit, (bench.call (.edit edit)).2) := Bool.false_ne_true
    have later : bench.buffer.apply edit =
        (Buffer.new runtimeModule).applyAll (editsSinceReset history ++ [edit]) := by
      rw [holds, Buffer.applyAll, Buffer.applyAll, List.foldl_concat]
    rw [Bench.record, editsSinceReset_concat history goesOn]
    exact later
  | clear =>
    rw [Bench.record, editsSinceReset_concat_of_reset history rfl]
    dsimp only [Bench.call]
    rw [holds, Buffer.clear_applyAll_new]
    rfl
  | flush formatter path =>
    have ends := flushEnds_call holds formatter path
    rw [Bench.record]
    dsimp only at ends ⊢
    generalize bench.call (.flush formatter path) = given at ends ⊢
    obtain ⟨after, result⟩ := given
    cases ends with
    | skipped _ _ emptied | formatted _ _ _ emptied | unformatted _ _ _ emptied =>
      rw [editsSinceReset_concat_of_reset history rfl]
      exact emptied
    | failed _ _ unchanged =>
      have goesOn (fault : FormatFault) : ¬ isReset (.flush formatter path, .failed fault) :=
        Bool.false_ne_true
      rw [editsSinceReset_concat history (goesOn _), unchanged]
      exact holds.trans (congrArg _ (List.append_nil _).symm)

/-- Whatever has been called, the buffer is as a new one after the edits since it was last emptied. -/
theorem buffer_runCalls (runtimeModule : String) (calls : List Call) :
    (runCalls runtimeModule calls).1.buffer =
      (Buffer.new runtimeModule).applyAll (editsSinceReset (runCalls runtimeModule calls).2) := by
  induction calls using List.reverseRecOn with
  | nil => rfl
  | append_singleton calls call ih =>
    rw [runCalls_concat]
    exact buffer_record ih call

/-- Two flushes after the same edits give the same, and keep the same bytes under the path. -/
theorem FlushEnds.same {runtimeModule : String} {edits : List Edit} {formatter : Formatter}
    {path : Path} {before after other next : Bench} {result otherResult : CallResult}
    (ends : FlushEnds runtimeModule edits formatter path before after result)
    (otherEnds : FlushEnds runtimeModule edits formatter path other next otherResult) :
    result = otherResult ∧ ∀ kept, result = .kept kept →
      ∃ bytes, next.stage.writes = putFile kept bytes other.stage.writes ∧
        after.stage.writes = putFile kept bytes before.stage.writes := by
  cases ends with
  | skipped undeclared =>
    cases otherEnds with
    | skipped => exact ⟨rfl, nofun⟩
    | formatted declared | unformatted declared | failed declared =>
      exact absurd declared undeclared
  | formatted declared accepted files =>
    cases otherEnds with
    | skipped undeclared => exact absurd declared undeclared
    | formatted _ same otherFiles =>
      cases accepted.symm.trans same
      refine ⟨rfl, fun kept given => ?_⟩
      cases given
      exact ⟨_, otherFiles, files⟩
    | unformatted _ rejected => cases accepted.symm.trans rejected
    | failed _ broken => cases accepted.symm.trans broken
  | unformatted declared rejected files =>
    cases otherEnds with
    | skipped undeclared => exact absurd declared undeclared
    | formatted _ accepted => cases rejected.symm.trans accepted
    | unformatted _ _ otherFiles =>
      refine ⟨rfl, fun kept given => ?_⟩
      cases given
      exact ⟨_, otherFiles, files⟩
    | failed _ broken => cases rejected.symm.trans broken
  | failed declared broken =>
    cases otherEnds with
    | skipped undeclared => exact absurd declared undeclared
    | formatted _ accepted => cases broken.symm.trans accepted
    | unformatted _ rejected => cases broken.symm.trans rejected
    | failed _ same =>
      cases broken.symm.trans same
      exact ⟨rfl, nofun⟩

/-- After any calls a flush ends in one of four ways, which depend on the edits since the buffer was last
emptied alone, and gives what a flush of a new buffer gives after those edits. Where it keeps a text, the
bytes under the path are those that the new buffer keeps there. -/
theorem flushes_are_isolated (runtimeModule : String) (calls : List Call) (formatter : Formatter)
    (path : Path) :
    let reached := (runCalls runtimeModule calls).1
    let edits := editsSinceReset (runCalls runtimeModule calls).2
    let flushed := reached.call (.flush formatter path)
    let alone : Bench := ⟨(Buffer.new runtimeModule).applyAll edits, Stage.empty⟩
    FlushEnds runtimeModule edits formatter path reached flushed.1 flushed.2 ∧
      flushed.2 = (alone.call (.flush formatter path)).2 ∧
      ∀ kept, flushed.2 = .kept kept →
        ∃ bytes, (alone.call (.flush formatter path)).1.stage.writes = [(kept, bytes)] ∧
          flushed.1.stage.writes = putFile kept bytes reached.stage.writes := by
  intro reached edits flushed alone
  have ends := flushEnds_call (buffer_runCalls runtimeModule calls) formatter path
  have aloneEnds : FlushEnds runtimeModule edits formatter path alone _ _ :=
    flushEnds_call rfl formatter path
  exact ⟨ends, ends.same aloneEnds⟩

def brokenFormatter : Formatter := fun _ => .error (.broken "out of order")

def lenientFormatter : Formatter := .ok

def reedPath : Path := Path.ofString "cdp/reed.py"

/-- A module with an import that is kept, and then one on which a formatter has broken down once. -/
def reedCalls : List Call :=
  [.edit .declare, .edit (.require "os" []), .flush lenientFormatter (Path.ofString "cdp/bell.py"),
    .edit .declare, .edit (.line "pitch = 1" 0), .flush brokenFormatter reedPath,
    .edit (.line "stop = 2" 0)]

def reedBench : Bench := (runCalls "cdpgen.runtime" reedCalls).1

def reedEdits : List Edit := [.declare, .line "pitch = 1" 0, .line "stop = 2" 0]

def reedAlone : Bench := ⟨(Buffer.new "cdpgen.runtime").applyAll reedEdits, Stage.empty⟩

theorem editsSinceReset_reedCalls :
    editsSinceReset (runCalls "cdpgen.runtime" reedCalls).2 = reedEdits := rfl

/-- The edits before the flush that broke down are kept with those behind it, the import is not. -/
theorem reed_is_isolated :
    (reedBench.call (.flush lenientFormatter reedPath)).2 = .kept reedPath ∧
      ∃ bytes,
        (reedAlone.call (.flush lenientFormatter reedPath)).1.stage.writes = [(reedPath, bytes)] ∧
        (reedBench.call (.flush lenientFormatter reedPath)).1.stage.writes =
          putFile reedPath bytes reedBench.stage.writes := by
  have kept : (reedBench.call (.flush lenientFormatter reedPath)).2 = .kept reedPath := rfl
  obtain ⟨-, -, same⟩ := flushes_are_isolated "cdpgen.runtime" reedCalls lenientFormatter reedPath
  rw [editsSinceReset_reedCalls, ← reedAlone, ← reedBench] at same
  exact ⟨kept, same reedPath kept⟩

end ProtocolGen.Package
