import ProtocolGen.Proofs.Documentation.Code

/-!
# Documentation is inert

Protocols that differ in nothing but documentation are classified alike and give the same modules, when
docstrings and comments are not written.
-/

set_option autoImplicit false

namespace ProtocolGen.Package

open ProtocolGen.Types ProtocolGen.Emission ProtocolGen.Source

/-- A buffer after an edit, where docstrings and comments write nothing. -/
def applyCode (buffer : Buffer) (edit : Edit) : Buffer :=
  if isDocumentation edit then buffer else buffer.apply edit

def applyAllCode (buffer : Buffer) (edits : List Edit) : Buffer := edits.foldl applyCode buffer

theorem applyAllCode_eq (buffer : Buffer) (edits : List Edit) :
    applyAllCode buffer edits = buffer.applyAll (code edits) := by
  induction edits generalizing buffer with
  | nil => rfl
  | cons edit edits ih =>
    rw [applyAllCode, List.foldl_cons, applyCode, code, List.filter_cons]
    cases isDocumentation edit with
    | false => exact ih (buffer.apply edit)
    | true => exact ih buffer

/-- The path of a module, and what is collected of it when docstrings and comments are not. -/
def collectedCode (runtimeModule : String) (planned : PlannedModule) :
    Path × Except Types.Failure Buffer :=
  (planned.path, planned.edits.map (applyAllCode (Buffer.new runtimeModule)))

theorem collectedCode_congr {runtimeModule : String} {path : Path}
    {edits others : Except Types.Failure (List Edit)} (same : edits.map code = others.map code) :
    collectedCode runtimeModule ⟨path, edits⟩ = collectedCode runtimeModule ⟨path, others⟩ := by
  have collected (made : Except Types.Failure (List Edit)) :
      made.map (applyAllCode (Buffer.new runtimeModule)) =
        (made.map code).map (Buffer.new runtimeModule).applyAll := by
    cases made with
    | error failure => rfl
    | ok edits => exact congrArg Except.ok (applyAllCode_eq _ edits)
  rw [collectedCode, collectedCode, collected, collected, same]

section Plan

variable (index : TypeIndex) (settings : Settings) (domains : List Domain)

theorem typedDomains_undocumented :
    (typedDomains (domains.map Domain.undocumented)).map (fun domain =>
      Naming.moduleName domain.name) =
    (typedDomains domains).map fun domain => Naming.moduleName domain.name := by
  have typed (domain : Domain) : domain.undocumented.types.isEmpty = domain.types.isEmpty :=
    List.isEmpty_map
  rw [typedDomains, typedDomains, List.filter_map, List.map_map]
  simp only [Function.comp_def, typed, Domain.name_undocumented]

theorem collected_leadingModules :
    (leadingModules index.undocumented settings (domains.map Domain.undocumented)).map
        (collectedCode settings.runtimeModule) =
      (leadingModules index settings domains).map (collectedCode settings.runtimeModule) := by
  rw [leadingModules, leadingModules]
  simp only [List.map_cons, List.map_nil, collectedCode_congr (code_clientEdits index _ _ domains)]

theorem collected_closingModules :
    (closingModules index.undocumented settings (domains.map Domain.undocumented)).map
        (collectedCode settings.runtimeModule) =
      (closingModules index settings domains).map (collectedCode settings.runtimeModule) := by
  rw [closingModules, closingModules]
  simp only [typedDomains_undocumented, List.map_cons, List.map_nil,
    collectedCode_congr (code_commandsEdits index _ domains),
    collectedCode_congr (code_eventsEdits index _ domains)]

theorem collected_typesModule (domain : Domain) :
    collectedCode settings.runtimeModule
        (typesModule index.undocumented settings domain.undocumented) =
      collectedCode settings.runtimeModule (typesModule index settings domain) := by
  rw [typesModule, typesModule, Domain.name_undocumented]
  exact collectedCode_congr (code_typesEdits index settings.runtimeModule domain)

/-- The modules of a protocol without documentation have the code of those of the protocol. -/
theorem plan_undocumented :
    (plan index.undocumented settings (domains.map Domain.undocumented)).map
        (collectedCode settings.runtimeModule) =
      (plan index settings domains).map (collectedCode settings.runtimeModule) := by
  rw [plan, plan, List.map_append, List.map_append, List.map_append, List.map_append,
    collected_leadingModules, collected_closingModules, List.map_map, List.map_map, List.map_map]
  simp only [Function.comp_def, collected_typesModule]

end Plan

/-- Documentation is inert. Protocols that differ in nothing but documentation are refused for the same
cause or have the same kinds of types with the same marks, and then all their modules, collected
without docstrings and comments, have the same lines, imports and heading, and content or none. -/
theorem documentation_is_inert {domains others : List Domain}
    (differ : DifferInDocumentation domains others) :
    (classify domains).map TypeIndex.undocumented = (classify others).map TypeIndex.undocumented ∧
      ∀ index otherIndex, classify domains = .ok index → classify others = .ok otherIndex →
        ∀ settings : Settings,
          (plan index settings domains).map (collectedCode settings.runtimeModule) =
            (plan otherIndex settings others).map (collectedCode settings.runtimeModule) := by
  have classified :
      (classify domains).map TypeIndex.undocumented =
        (classify others).map TypeIndex.undocumented := by
    rw [← classify_undocumented, ← classify_undocumented, differ]
  refine ⟨classified, fun index otherIndex accepted otherAccepted settings => ?_⟩
  have sameIndex : index.undocumented = otherIndex.undocumented := by
    rw [accepted, otherAccepted] at classified
    exact Except.ok.inj classified
  calc (plan index settings domains).map (collectedCode settings.runtimeModule)
      = (plan index.undocumented settings (domains.map Domain.undocumented)).map
          (collectedCode settings.runtimeModule) := (plan_undocumented index settings domains).symm
    _ = (plan otherIndex.undocumented settings (others.map Domain.undocumented)).map
          (collectedCode settings.runtimeModule) := by rw [sameIndex, differ]
    _ = (plan otherIndex settings others).map (collectedCode settings.runtimeModule) :=
      plan_undocumented otherIndex settings others

/-- A door, with the words that its state takes given or not. -/
def door (description : Option String) (words : Option (List String)) : Domain :=
  let state : Property :=
    ⟨.plain ⟨description, some "string", none, words⟩, "state", true, words.isSome, false⟩
  { name := "Door", description := description, experimental := words.isSome, deprecated := false
    types := [⟨.plain ⟨description, some "object", none, none⟩, "Leaf", some [state], false, false⟩]
    commands := [⟨"open", description, [state], [], false, words.isSome⟩], events := [] }

/-- What a door says of itself does not reach its code. -/
theorem door_documentation_inert :
    ∃ index otherIndex, classify [door (some "Swings.") (some ["ajar", "shut"])] = .ok index ∧
      classify [door none none] = .ok otherIndex ∧
      (plan index Settings.default [door (some "Swings.") (some ["ajar", "shut"])]).map
          (collectedCode Settings.default.runtimeModule) =
        (plan otherIndex Settings.default [door none none]).map
          (collectedCode Settings.default.runtimeModule) := by
  obtain ⟨index, accepted⟩ := exists_eq_ok_of_isOk
    (show (classify [door (some "Swings.") (some ["ajar", "shut"])]).isOk by decide +kernel)
  obtain ⟨otherIndex, otherAccepted⟩ := exists_eq_ok_of_isOk
    (show (classify [door none none]).isOk by decide +kernel)
  have differ : DifferInDocumentation [door (some "Swings.") (some ["ajar", "shut"])]
      [door none none] := by rfl
  exact ⟨index, otherIndex, accepted, otherAccepted,
    (documentation_is_inert differ).2 index otherIndex accepted otherAccepted Settings.default⟩

end ProtocolGen.Package
