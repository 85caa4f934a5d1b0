import ProtocolGen.Package.Plan

/-!
# Code of planned modules

A plan with code has six kinds of modules, each under its own path: that of the package, the client, the
types of a domain, that of the types package, the commands and the events. What holds of the code of
every module is shown of each kind.
-/

set_option autoImplicit false

namespace ProtocolGen.Package

open ProtocolGen.Types ProtocolGen.Emission ProtocolGen.Source

variable {index : TypeIndex} {settings : Settings} {domains : List Domain}

/-- The path and the code of a planned module, by what the module is for. -/
inductive PlannedCode (index : TypeIndex) (settings : Settings) (domains : List Domain) :
    Path → List Edit → Prop where
  | package : PlannedCode index settings domains
      (moduleFile settings.packageDirectory packageModule) packageEdits
  | client {edits : List Edit}
      (made : clientEdits index settings.runtimeModule (typesPackageName settings) domains = .ok edits) :
      PlannedCode index settings domains (moduleFile settings.packageDirectory "client") edits
  | types (domain : Domain) {edits : List Edit} (member : domain ∈ domains)
      (made : typesEdits index settings.runtimeModule domain = .ok edits) :
      PlannedCode index settings domains
        (moduleFile settings.typesDirectory (Naming.moduleName domain.name)) edits
  | typesPackage : PlannedCode index settings domains
      (moduleFile settings.typesDirectory packageModule)
      (typesPackageEdits ((typedDomains domains).map fun domain => Naming.moduleName domain.name))
  | commands {edits : List Edit}
      (made : commandsEdits index (typesPackageName settings) domains = .ok edits) :
      PlannedCode index settings domains (moduleFile settings.packageDirectory "commands") edits
  | events {edits : List Edit}
      (made : eventsEdits index (typesPackageName settings) domains = .ok edits) :
      PlannedCode index settings domains (moduleFile settings.packageDirectory "events") edits

theorem plannedCode_of_mem_plan {path : Path} {edits : List Edit}
    (planned : ⟨path, .ok edits⟩ ∈ plan index settings domains) :
    PlannedCode index settings domains path edits := by
  rw [plan, List.mem_append, List.mem_append] at planned
  rcases planned with (leading | types) | closing
  · simp only [leadingModules, List.mem_cons, List.not_mem_nil, or_false,
      PlannedModule.mk.injEq] at leading
    rcases leading with ⟨rfl, code⟩ | ⟨rfl, made⟩
    · rw [Except.ok.inj code]
      exact .package
    · exact .client made.symm
  · obtain ⟨domain, member, same⟩ := List.mem_map.mp types
    obtain ⟨rfl, made⟩ := PlannedModule.mk.inj same
    exact .types domain member made
  · simp only [closingModules, List.mem_cons, List.not_mem_nil, or_false,
      PlannedModule.mk.injEq] at closing
    rcases closing with ⟨rfl, code⟩ | ⟨rfl, made⟩ | ⟨rfl, made⟩
    · rw [Except.ok.inj code]
      exact .typesPackage
    · exact .commands made.symm
    · exact .events made.symm

end ProtocolGen.Package
