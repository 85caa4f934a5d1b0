import ProtocolGen.CommandLine.Run
import ProtocolGen.Proofs.Package.FormatFaults

/-!
# Checking and writing

A run with the check flag leaves its tree alone and reports what the same run without it would change.
Once files are written, and the inputs of the run are not among them, there is nothing left to change.
-/

set_option autoImplicit false

namespace ProtocolGen.CommandLine

open ProtocolGen.Package

/-! ## The check flag -/

def Request.checking (request : Request) : Request := { request with check := true }

theorem checking_withValue (request : Request) (flag : Flag) (value : String) :
    (request.withValue flag value).checking = request.checking.withValue flag value := by
  cases flag <;> rfl

theorem checking_withFlag (request : Request) (flag : Flag) :
    (request.withFlag flag).checking = request.checking.withFlag flag := by
  cases flag <;> rfl

def Demand.checking : Demand → Demand
  | .run request => .run request.checking
  | other => other

/-- Asking for the check first changes nothing else about what arguments ask for. -/
theorem demandFrom_checking (request : Request) (unused : List String) (arguments : List Argument) :
    demandFrom request.checking unused arguments =
      (demandFrom request unused arguments).map Demand.checking := by
  have documents (request : Request) : request.checking.documents = request.documents := rfl
  fun_induction demandFrom request unused arguments with
  | case1 request unused missing => simp [demandFrom, documents, missing, Except.map]
  | case2 request unused given used =>
    rw [demandFrom, documents, if_neg given, if_pos used]
    rfl
  | case3 request unused given notUsed =>
    rw [demandFrom, documents, if_neg given, if_neg notUsed]
    rfl
  | case4 request unused text rest ih | case5 request unused text rest ih =>
    rw [demandFrom, ih]
  | case6 request unused rest ih => rw [demandFrom, ih]
  | case7 request unused letters rest value refused | case8 request unused letters rest refused =>
    rw [demandFrom, refused]
    rfl
  | case9 | case10 => rfl
  | case11 request unused flag value rest takes ih =>
    rw [demandFrom, if_pos takes, ← checking_withValue, ih]
  | case12 request unused flag value rest takes =>
    rw [demandFrom, if_neg takes]
    rfl
  | case13 request unused flag value rest notHelp notVersion takes ih =>
    rw [demandFrom, if_pos takes, ← checking_withValue, ih]
    · exact notHelp
    · exact notVersion
  | case14 request unused flag value rest notHelp notVersion takes ih =>
    rw [demandFrom, if_neg takes, ← checking_withFlag, ih]
    · exact notHelp
    · exact notVersion
  | case15 request unused flag rest notHelp notVersion notPlain takes =>
    rw [demandFrom, if_pos takes]
    · rfl
    · exact notHelp
    · exact notVersion
    · exact notPlain
  | case16 request unused flag rest notHelp notVersion notPlain takes ih =>
    rw [demandFrom, if_neg takes, ← checking_withFlag, ih]
    · exact notHelp
    · exact notVersion
    · exact notPlain

theorem demandFrom_check (request : Request) (unused : List String) (arguments : List Argument) :
    demandFrom request unused (.flag .check none :: arguments) =
      demandFrom request.checking unused arguments := by
  cases arguments with
  | nil => rfl
  | cons first rest => cases first <;> rfl

/-- The check flag may stand before all other arguments. -/
theorem demand_check {texts : List String} {request : Request}
    (accepted : demand texts = .ok (.run request)) :
    demand ("--check" :: texts) = .ok (.run request.checking) := by
  obtain ⟨arguments, classified, asked⟩ := bind_eq_ok_iff.mp accepted
  have first : classifyText "--check" = .ok (.flag .check none) := rfl
  have classifiedAll : classifyAll ("--check" :: texts) = .ok (.flag .check none :: arguments) := by
    rw [classifyAll, if_neg (by decide), first, classified]
    rfl
  rw [demand, classifiedAll]
  change demandFrom Request.empty [] (.flag .check none :: arguments) = _
  rw [demandFrom_check, demandFrom_checking, asked]
  rfl

/-! ## What a run reads -/

section Reads

variable {tree later : FileTree}

theorem loadDraft_of_reads {file : Option Path} {draft : Draft}
    (reads : ∀ path ∈ file, ∀ bytes, tree.read path = .ok bytes → later.read path = .ok bytes)
    (loaded : Settings.loadDraft tree file = .ok draft) : Settings.loadDraft later file = .ok draft := by
  cases file with
  | none => exact loaded
  | some path =>
    rw [Settings.loadDraft] at loaded ⊢
    cases found : tree.read path with
    | error fault =>
      rw [found] at loaded
      dsimp only at loaded
      split at loaded <;> cases loaded
    | ok bytes =>
      rw [found] at loaded
      rw [reads path rfl bytes found]
      exact loaded

theorem load_of_reads {path : Path} {protocol : Document.Protocol}
    (reads : ∀ bytes, tree.read path = .ok bytes → later.read path = .ok bytes)
    (loaded : Document.load tree path = .ok protocol) : Document.load later path = .ok protocol := by
  rw [Document.load] at loaded ⊢
  cases found : tree.read path with
  | error fault =>
    rw [found] at loaded
    dsimp only at loaded
    split at loaded <;> cases loaded
  | ok bytes =>
    rw [found] at loaded
    rw [reads bytes found]
    exact loaded

/-- A run depends on the tree only by what it reads of its inputs. -/
theorem prepare_of_reads {request : Request} {prepared : Settings × List Domain}
    (reads : ∀ path ∈ request.settingsFile.toList ++ request.documents, ∀ bytes,
      tree.read path = .ok bytes → later.read path = .ok bytes)
    (ready : prepare tree request = .ok prepared) : prepare later request = .ok prepared := by
  rw [List.forall_mem_append] at reads
  obtain ⟨draft, drafted, rest⟩ := bind_eq_ok_iff.mp ready
  obtain ⟨settings, valid, rest⟩ := bind_eq_ok_iff.mp rest
  obtain ⟨domains, loaded, finished⟩ := bind_eq_ok_iff.mp rest
  obtain ⟨protocols, each, merged⟩ := bind_eq_ok_iff.mp loaded
  have draftedLater : Settings.loadDraft later request.settingsFile = .ok draft :=
    loadDraft_of_reads (fun path given => reads.1 path (by simpa using given)) drafted
  have eachLater : request.documents.mapM (Document.load later) = .ok protocols :=
    mapM_eq_ok_of_imp (fun path member protocol => load_of_reads (reads.2 path member)) each
  have loadedLater : Document.loadDomains later request.documents = .ok domains := by
    rw [Document.loadDomains, eachLater]
    exact merged
  refine bind_eq_ok_iff.mpr ⟨draft, draftedLater, bind_eq_ok_iff.mpr ⟨settings, valid, ?_⟩⟩
  exact bind_eq_ok_iff.mpr ⟨domains, loadedLater, finished⟩

theorem exists_validate_of_prepare {request : Request} {settings : Settings} {domains : List Domain}
    (ready : prepare tree request = .ok (settings, domains)) :
    ∃ draft : Draft, draft.validate = .ok settings := by
  obtain ⟨draft, -, rest⟩ := bind_eq_ok_iff.mp ready
  obtain ⟨found, valid, rest⟩ := bind_eq_ok_iff.mp rest
  obtain ⟨_, -, finished⟩ := bind_eq_ok_iff.mp rest
  cases finished
  cases checked : (draft.merge request.overrides).validate with
  | error fault =>
    rw [checked] at valid
    cases valid
  | ok settings =>
    rw [checked] at valid
    cases valid
    exact ⟨_, checked⟩

end Reads

/-! ## Reports -/

section Reports

variable {tree later : FileTree} {reporting : Log.Reporting} {settings : Settings}
  {domains : List Domain} {index : Types.TypeIndex} {reached : Stage}

theorem ending_failing_ne_zero (reporting : Log.Reporting) (events : List Log.Event)
    (failure : Failure) : (Report.failing reporting events failure).ending ≠ .ok 0 := by
  unfold Report.failing
  split <;> simp

theorem ending_failing_file (reporting : Log.Reporting) (events : List Log.Event) (fault : FileFault) :
    (Report.failing reporting events (.file fault)).ending = .error (.file fault) := rfl

theorem write_of_stage_error {failure : Failure}
    (failed : (Package.stage Source.format settings domains).result = .error failure) :
    (write tree reporting settings domains).1 = tree ∧
      (write tree reporting settings domains).2.ending ≠ .ok 0 := by
  unfold write
  rw [generate_of_stage_error failed]
  exact ⟨rfl, ending_failing_ne_zero _ _ _⟩

theorem write_of_stage_ok (tree : FileTree) (reporting : Log.Reporting)
    (staged : (Package.stage Source.format settings domains).result = .ok (index, reached)) :
    (write tree reporting settings domains).1 = (persistAll .fileTree tree reached.writes).1 ∧
      (write tree reporting settings domains).2.ending =
        match (persistAll .fileTree tree reached.writes).2 with
        | none => .ok 0
        | some fault => .error (.file fault) := by
  have ran : _ = (persistAll .fileTree tree reached.writes).1 ∧ _ := generate_of_stage_ok staged
  unfold write
  cases made : generate Source.format .fileTree settings domains tree with
  | mk last outcome =>
    rw [made] at ran
    obtain ⟨after, result⟩ := ran
    dsimp only at after result ⊢
    rw [result]
    cases (persistAll .fileTree tree reached.writes).2 with
    | none => exact ⟨after, rfl⟩
    | some fault => exact ⟨after, ending_failing_file _ _ fault⟩

/-- A run that writes and ends well has written all files of its stage. -/
theorem exists_persistAll_of_write (ended : (write tree reporting settings domains).2.ending = .ok 0) :
    ∃ index reached, (Package.stage Source.format settings domains).result = .ok (index, reached) ∧
      persistAll .fileTree tree reached.writes = ((write tree reporting settings domains).1, none) := by
  cases staged : (Package.stage Source.format settings domains).result with
  | error failure => exact absurd ended (write_of_stage_error staged).2
  | ok found =>
    obtain ⟨index, reached⟩ := found
    obtain ⟨after, ending⟩ := write_of_stage_ok tree reporting staged
    rw [ended] at ending
    cases persisted : persistAll .fileTree tree reached.writes with
    | mk last fault =>
      rw [persisted] at after ending
      cases fault with
      | none => exact ⟨index, reached, rfl, by rw [persisted, after]⟩
      | some fault => cases ending

theorem write_of_persistAll
    (staged : (Package.stage Source.format settings domains).result = .ok (index, reached))
    (persisted : persistAll .fileTree tree reached.writes = (later, none)) :
    (write tree reporting settings domains).1 = later ∧
      (write tree reporting settings domains).2.ending = .ok 0 := by
  have wrote := write_of_stage_ok tree reporting staged
  rwa [persisted] at wrote

/-- A run that ends with status one has not come to its writes. -/
theorem write_of_ending_one (ended : (write tree reporting settings domains).2.ending = .ok 1) :
    (write tree reporting settings domains).1 = tree := by
  cases staged : (Package.stage Source.format settings domains).result with
  | error failure => exact (write_of_stage_error staged).1
  | ok found =>
    obtain ⟨index, reached⟩ := found
    obtain ⟨-, ending⟩ := write_of_stage_ok tree reporting staged
    rw [ended] at ending
    split at ending <;> cases ending

/-- What a check says of a run that takes a tree to a later one by writing files: whether it changes
anything, and otherwise the paths of the files that are not there, in the order of the writes. -/
structure Foretells (tree later : FileTree) (files : List (Path × ByteArray)) (report : Report) :
    Prop where
  ending : report.ending = .ok 0 ↔ tree.Same later
  stale : ¬ tree.Same later → report.ending = .ok 1 ∧ report.complaint =
    staleHead ++ String.join ((missing tree files).map fun path => "  " ++ path.toString ++ "\n")

theorem foretells_check {draft : Draft} (valid : draft.validate = .ok settings)
    (staged : (Package.stage Source.format settings domains).result = .ok (index, reached))
    (persisted : persistAll .fileTree tree reached.writes = (later, none)) :
    Foretells tree later reached.writes (check tree reporting settings domains) := by
  have result : (generateStage Source.format settings domains).result = .ok reached := by
    rw [result_generateStage, staged]
    rfl
  have unchanged : tree.Same later ↔ missing tree reached.writes = [] :=
    (same_iff_holds (apart_writes valid staged) persisted).trans missing_eq_nil_iff.symm
  rw [check]
  dsimp only
  rw [result]
  dsimp only
  rw [staleFiles_of_persistAll persisted]
  refine ⟨?_, fun changed => ?_⟩
  · rw [unchanged]
    cases missing tree reached.writes <;> simp
  · rw [unchanged] at changed
    cases found : missing tree reached.writes with
    | nil => exact absurd found changed
    | cons path paths => exact ⟨rfl, rfl⟩

end Reports

/-! ## Runs -/

section Runs

variable {tree later : FileTree} {texts checked : List String} {request : Request}
  {settings : Settings} {domains : List Domain}

theorem run_eq (accepted : demand texts = .ok (.run request)) :
    run tree texts = runRequest tree request := by
  rw [run, accepted]

theorem run_of_prepare (accepted : demand texts = .ok (.run request)) (writes : request.check = false)
    (ready : prepare tree request = .ok (settings, domains)) :
    run tree texts = write tree request.reporting settings domains := by
  rw [run_eq accepted, runRequest, ready]
  dsimp only
  rw [writes, if_neg Bool.false_ne_true]

theorem check_of_prepare (accepted : demand checked = .ok (.run request.checking))
    (ready : prepare tree request = .ok (settings, domains)) :
    run tree checked = (tree, check tree request.reporting settings domains) := by
  have same : prepare tree request.checking = .ok (settings, domains) := ready
  rw [run_eq accepted, runRequest, same]
  rfl

theorem exists_prepare_of_ending (accepted : demand texts = .ok (.run request))
    (ended : (run tree texts).2.ending = .ok 0) :
    ∃ settings domains, prepare tree request = .ok (settings, domains) := by
  rw [run_eq accepted, runRequest] at ended
  cases ready : prepare tree request with
  | error failure =>
    rw [ready] at ended
    exact absurd ended (ending_failing_ne_zero _ _ _)
  | ok prepared => exact ⟨prepared.1, prepared.2, rfl⟩

/-- A run that checks or that ends with status one leaves the tree alone. -/
theorem run_leaves_tree (accepted : demand texts = .ok (.run request))
    (without : (run tree texts).2.ending = .ok 1 ∨ request.check) : (run tree texts).1 = tree := by
  rw [run_eq accepted, runRequest] at without ⊢
  split
  · rfl
  · next settings domains ready =>
    split
    · rfl
    · next writes =>
      rw [ready] at without
      dsimp only at without
      rw [if_neg writes] at without
      exact write_of_ending_one (without.resolve_right writes)

end Runs

/-- Checking and writing agree. A run that checks or ends with status one leaves the tree alone. Where a
run that writes ends well, the same run with the check flag says whether it changes anything and lists
the files that it changes; and where no input leads to one of the files, the run changes nothing when it
is repeated, and the check says so. -/
theorem check_agrees_with_write (tree : FileTree) {texts : List String} {request : Request}
    (accepted : demand texts = .ok (.run request)) :
    ((run tree texts).2.ending = .ok 1 ∨ request.check → (run tree texts).1 = tree) ∧
    demand ("--check" :: texts) = .ok (.run request.checking) ∧
    (request.check = false → (run tree texts).2.ending = .ok 0 →
      ∃ settings domains index reached,
        prepare tree request = .ok (settings, domains) ∧
        (Package.stage Source.format settings domains).result = .ok (index, reached) ∧
        persistAll .fileTree tree reached.writes = ((run tree texts).1, none) ∧
        ∀ checked, demand checked = .ok (.run request.checking) →
          Foretells tree (run tree texts).1 reached.writes (run tree checked).2 ∧
          ((∀ input ∈ inputPaths texts, ∀ location,
              (run tree texts).1.resolve input = .ok location →
                location ∉ locations (run tree texts).1 reached.writes) →
            (run (run tree texts).1 texts).2.ending = .ok 0 ∧
            (run tree texts).1.Same (run (run tree texts).1 texts).1 ∧
            (run (run tree texts).1 checked).2.ending = .ok 0)) := by
  refine ⟨run_leaves_tree accepted, demand_check accepted, fun writes ended => ?_⟩
  obtain ⟨settings, domains, ready⟩ := exists_prepare_of_ending accepted ended
  obtain ⟨draft, valid⟩ := exists_validate_of_prepare ready
  have wrote : run tree texts = write tree request.reporting settings domains :=
    run_of_prepare accepted writes ready
  rw [wrote] at ended ⊢
  obtain ⟨index, reached, staged, persisted⟩ := exists_persistAll_of_write ended
  generalize (write tree request.reporting settings domains).1 = later at persisted ⊢
  refine ⟨settings, domains, index, reached, ready, staged, persisted, fun checked asked => ⟨?_, ?_⟩⟩
  · rw [check_of_prepare asked ready]
    exact foretells_check valid staged persisted
  · intro elsewhere
    have inputs : inputPaths texts = request.settingsFile.toList ++ request.documents := by
      rw [inputPaths, accepted]
    have written := written_of_persistAll persisted
    have readyLater : prepare later request = .ok (settings, domains) := by
      refine prepare_of_reads (fun path member bytes held => ?_) ready
      obtain ⟨location, leads, stands⟩ := FileTree.read_eq_ok_iff.mp held
      have leadsLater := written.resolve_ok leads
      have other := elsewhere path (inputs ▸ member) location leadsLater
      exact FileTree.read_eq_ok_iff.mpr ⟨location, leadsLater, written.file_of_not_mem other stands⟩
    have holds := holds_of_persistAll (apart_writes valid staged) persisted
    obtain ⟨last, again, same⟩ := persistAll_of_holds holds
    rw [run_of_prepare accepted writes readyLater, check_of_prepare asked readyLater]
    obtain ⟨reaches, endsAgain⟩ := write_of_persistAll staged again
    exact ⟨endsAgain, reaches ▸ same, (foretells_check valid staged again).ending.mpr same⟩

section Dial

def dialDocument : String := "\x7b\"domains\": [\x7b\"domain\": \"Dial\"\x7d]\x7d"

/-- A working directory with a document and an empty package. -/
def dialTree : FileTree :=
  ⟨["work"], [(["work", "dial.json"], .file dialDocument.toUTF8), (["work", "cdp"], .directory)]⟩

def dialRequest : Request := { Request.empty with documents := [⟨"", ["dial.json"]⟩] }

def bareDial : Domain := ⟨"Dial", none, false, false, [], [], []⟩

def dialData : Data :=
  .table [Document.entry "domains" (.list [.table [Document.textEntry "domain" "Dial"]])]

theorem load_dialTree :
    (Document.load dialTree ⟨"", ["dial.json"]⟩).map Document.Protocol.domains = .ok [bareDial] := by
  have data : Json.read (Text.ofChars (Text.unifyLineEnds dialDocument.toList)) = .ok dialData := by
    rw [dialDocument, Text.toList_literal]
    rfl
  have reads : Document.ReadsJson dialTree ⟨"", ["dial.json"]⟩ (.ok dialData) :=
    data ▸ .of_text rfl rfl
  rw [reads.load_eq]
  decide +kernel

theorem prepare_dialTree : prepare dialTree dialRequest = .ok (Settings.default, [bareDial]) := by
  have valid : (Draft.default.merge dialRequest.overrides).validate = .ok Settings.default :=
    Package.validate_default
  obtain ⟨protocol, loaded, same⟩ := map_eq_ok_iff.mp load_dialTree
  have merged : Document.merge [protocol] = .ok [bareDial] := by
    rw [Document.merge, List.flatMap_singleton, same]
    simp [Document.mergeDomains, Document.repeatedFrom]
  have domains : Document.loadDomains dialTree dialRequest.documents = .ok [bareDial] := by
    have protocols : dialRequest.documents.mapM (Document.load dialTree) = .ok [protocol] :=
      mapM_eq_ok_iff.mpr (.cons loaded .nil)
    rw [Document.loadDomains, protocols]
    change (Document.merge [protocol]).mapError _ = _
    rw [merged]
    rfl
  refine bind_eq_ok_iff.mpr ⟨Draft.default, rfl, bind_eq_ok_iff.mpr ⟨Settings.default, ?_, ?_⟩⟩
  · rw [valid]
    rfl
  · exact bind_eq_ok_iff.mpr ⟨_, domains, rfl⟩

theorem exists_stage_bareDial : ∃ reached,
    (stage Source.format Settings.default [bareDial]).result = .ok (⟨[]⟩, reached) :=
  exists_stage_of_shown hasPlainNames_default rfl rfl (by decide)

theorem places_dialTree : ∀ path ∈ layout Settings.default [bareDial],
    (dialTree.resolve path).isOk ∧ ¬ dialTree.isDirectory path ∧ ¬ (dialTree.read path).isOk ∧
      dialTree.resolve path ≠ .ok ["work", "dial.json"] := by
  decide

theorem dial_check_agrees :
    demand ["--proto", "dial.json"] = .ok (.run dialRequest) ∧
    ∃ written, (run dialTree ["--proto", "dial.json"]).1 = written ∧
      (run dialTree ["--proto", "dial.json"]).2.ending = .ok 0 ∧
      (run dialTree ["--check", "--proto", "dial.json"]).2.ending = .ok 1 ∧
      (run written ["--check", "--proto", "dial.json"]).2.ending = .ok 0 := by
  have accepted : demand ["--proto", "dial.json"] = .ok (.run dialRequest) := rfl
  obtain ⟨reached, staged⟩ := exists_stage_bareDial
  obtain ⟨⟨paths, -⟩, -⟩ := writesLayout_of_stage staged
  have places : ∀ file ∈ reached.writes, _ := fun file member =>
    places_dialTree file.1 (List.mem_eraseDups.mp (paths ▸ List.mem_map_of_mem member))
  obtain ⟨later, persisted⟩ := exists_persistAll fun file member =>
    ⟨(places file member).1, (places file member).2.1⟩
  have ended : (run dialTree ["--proto", "dial.json"]).2.ending = .ok 0 := by
    rw [run_of_prepare accepted rfl prepare_dialTree]
    exact (write_of_persistAll staged persisted).2
  obtain ⟨-, asked, agrees⟩ := check_agrees_with_write dialTree accepted
  obtain ⟨settings, domains, index, again, ready, stagedAgain, persisted, agrees⟩ := agrees rfl ended
  cases ready.symm.trans prepare_dialTree
  cases staged.symm.trans stagedAgain
  obtain ⟨foretells, repeats⟩ := agrees _ asked
  refine ⟨accepted, _, rfl, ended, (foretells.stale fun same => ?_).1, (repeats ?_).2.2⟩
  · obtain ⟨draft, valid⟩ := exists_validate_of_prepare ready
    have first : moduleFile Settings.default.packageDirectory packageModule ∈
        reached.writes.map Prod.fst := by
      rw [paths]
      exact List.mem_eraseDups.mpr List.mem_cons_self
    obtain ⟨file, inWrites, -⟩ := List.mem_map.mp first
    have held := holds_of_persistAll (apart_writes valid staged) persisted file inWrites
    rw [Holds, same.read_eq] at held
    exact (places file inWrites).2.2.1 (by rw [held]; rfl)
  · intro input member location leads inside
    have written := written_of_persistAll persisted
    have here : input = ⟨"", ["dial.json"]⟩ := by
      rw [inputPaths, accepted] at member
      simpa [dialRequest, Request.empty] using member
    have resolved : dialTree.resolve ⟨"", ["dial.json"]⟩ = .ok ["work", "dial.json"] := rfl
    rw [here, written.resolve_ok resolved] at leads
    cases leads
    obtain ⟨file, inWrites, fileLeads⟩ := mem_locations_iff.mp inside
    obtain ⟨ok, -, -, elsewhere⟩ := places file inWrites
    obtain ⟨place, resolves⟩ := exists_eq_ok_of_isOk ok
    cases (written.resolve_ok resolves).symm.trans fileLeads
    exact elsewhere resolves

end Dial

end ProtocolGen.CommandLine
