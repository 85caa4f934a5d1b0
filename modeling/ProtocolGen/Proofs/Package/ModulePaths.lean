import ProtocolGen.Package.Plan
import ProtocolGen.Proofs.Naming.Identifiers
import ProtocolGen.Proofs.Sequencing
import ProtocolGen.Proofs.Text.Splitting

/-!
# Paths of modules

Where the modules of a package lie. Names that hold no slash are single parts of paths, so the modules
beside the types package never lie in it, and two types modules share a path only when they share a
name.
-/

set_option autoImplicit false

namespace ProtocolGen

namespace Path

/-- A text that is one part of a path. -/
structure IsPart (text : String) : Prop where
  noSlash : '/' ∉ text.toList
  notEmpty : text ≠ ""
  notDot : text ≠ "."

theorem ofString_of_isPart {text : String} (part : IsPart text) : ofString text = ⟨"", [text]⟩ := by
  have relative : text.toList.takeWhile (· == '/') = [] := by
    cases chars : text.toList with
    | nil => rfl
    | cons first rest =>
      have other : first ≠ '/' := fun same => part.noSlash (by rw [chars, same]; exact .head _)
      rw [List.takeWhile_cons_of_neg (by simpa using other)]
  have notEmpty : text.toList ≠ [] := by simpa using part.notEmpty
  have notDot : text.toList ≠ ['.'] := fun same =>
    part.notDot (String.toList_inj.mp same)
  rw [ofString, Text.splitOn_of_not_mem part.noSlash]
  simp [relative, notEmpty, notDot, rootOf]

theorem join_of_isPart (path : Path) {text : String} (part : IsPart text) :
    path.join text = ⟨path.root, path.parts ++ [text]⟩ := by
  rw [join, ofString_of_isPart part]
  rfl

theorem isPart_of_isIdentifier {text : String} (identifier : Text.isIdentifier text.toList) :
    IsPart text := by
  have start : ¬ Text.isIdentifierStart '/' := by decide
  have continued : ¬ Text.isIdentifierContinue '/' := by decide
  refine ⟨fun slash => ?_, ?_, ?_⟩
  · cases chars : text.toList with
    | nil => simp [chars] at slash
    | cons first rest =>
      rw [chars, Text.isIdentifier, Bool.and_eq_true, List.all_eq_true] at identifier
      rcases List.mem_cons.mp (chars ▸ slash) with rfl | inRest
      · exact start identifier.1
      · exact continued (identifier.2 _ inRest)
  · rintro rfl
    exact absurd identifier (by decide)
  · rintro rfl
    exact absurd identifier (by decide)

theorem isPart_moduleName (domain : String) : IsPart (Naming.moduleName domain ++ ".py") := by
  have chars : (Naming.moduleName domain ++ ".py").toList =
      (Naming.moduleName domain).toList ++ ['.', 'p', 'y'] := by
    rw [String.toList_append]
    rfl
  refine ⟨fun slash => ?_, fun empty => ?_, fun dot => ?_⟩
  · rw [chars] at slash
    rcases List.mem_append.mp slash with inside | atEnd
    · exact absurd (Naming.isNameChar_of_mem_moduleName inside) (by decide)
    · exact absurd atEnd (by decide)
  · rw [empty] at chars
    simp at chars
  · have lengths := congrArg List.length chars
    rw [dot, List.length_append] at lengths
    exact absurd lengths (by simp)

end Path

namespace Package

/-- Two modules of one directory share a path only when they share a name. -/
theorem moduleFile_inj {directory : Path} {module other : String}
    (part : Path.IsPart (module ++ ".py")) (otherPart : Path.IsPart (other ++ ".py"))
    (same : moduleFile directory module = moduleFile directory other) : module = other := by
  rw [moduleFile, moduleFile, Path.join_of_isPart _ part, Path.join_of_isPart _ otherPart] at same
  simpa using same

/-- Modules of different names never share a path, whatever their directories are. -/
theorem moduleFile_ne_of_names {directory otherDirectory : Path} {module other : String}
    (part : Path.IsPart (module ++ ".py")) (otherPart : Path.IsPart (other ++ ".py"))
    (different : module ≠ other) : moduleFile directory module ≠ moduleFile otherDirectory other := by
  intro same
  have lasts := congrArg (fun path => path.parts.getLast?) same
  simp only [moduleFile, Path.join_of_isPart _ part, Path.join_of_isPart _ otherPart,
    List.getLast?_concat, Option.some.injEq] at lasts
  exact different (by simpa using lasts)

theorem moduleFile_ne_of_directories {settings : Settings} {module other : String}
    (typesPart : Path.IsPart settings.typesPackage) (part : Path.IsPart (module ++ ".py"))
    (otherPart : Path.IsPart (other ++ ".py")) :
    moduleFile settings.packageDirectory other ≠ moduleFile settings.typesDirectory module := by
  intro same
  have lengths := congrArg (fun path => path.parts.length) same
  simp only [moduleFile, Settings.typesDirectory, Path.join_of_isPart _ part,
    Path.join_of_isPart _ otherPart, Path.join_of_isPart _ typesPart, List.length_append,
    List.length_singleton] at lengths
  omega

theorem moduleName_ne_packageModule (domain : String) :
    packageModule ≠ Naming.moduleName domain := by
  intro same
  have plain := Naming.beginsPlainly_moduleName domain
  rw [← same] at plain
  exact Naming.BeginsPlainly.not_two_low_lines plain

theorem isIdentifier_of_identifier {setting text : String} {value : Data}
    (checked : Draft.identifier setting value = .ok text) : Text.isIdentifier text.toList := by
  unfold Draft.identifier at checked
  split at checked
  · split at checked
    · split at checked
      · cases checked
        assumption
      · cases checked
    · cases checked
  · cases checked

theorem validate_default : Draft.default.validate = .ok Settings.default := rfl

theorem isPart_typesPackage {draft : Draft} {settings : Settings}
    (valid : draft.validate = .ok settings) : Path.IsPart settings.typesPackage := by
  obtain ⟨_, -, rest⟩ := bind_eq_ok_iff.mp valid
  obtain ⟨typesPackage, checked, rest⟩ := bind_eq_ok_iff.mp rest
  obtain ⟨_, -, finished⟩ := bind_eq_ok_iff.mp rest
  cases finished
  exact Path.isPart_of_isIdentifier (isIdentifier_of_identifier checked)

section Plan

variable {index : Types.TypeIndex} {settings : Settings} {domains : List Domain} {domain : Domain}

theorem path_typesModule : (typesModule index settings domain).path =
    moduleFile settings.typesDirectory (Naming.moduleName domain.name) := by
  rw [typesModule]

variable (typesPart : Path.IsPart settings.typesPackage)

include typesPart

theorem path_ne_of_mem_leading_or_closing {planned : PlannedModule}
    (member : planned ∈ leadingModules index settings domains ∨
      planned ∈ closingModules index settings domains) :
    planned.path ≠ (typesModule index settings domain).path := by
  have modulePart := Path.isPart_moduleName domain.name
  have beside (name : String) (part : Path.IsPart (name ++ ".py")) :
      moduleFile settings.packageDirectory name ≠ (typesModule index settings domain).path := by
    rw [path_typesModule]
    exact moduleFile_ne_of_directories typesPart modulePart part
  -- The one other module in the types package has a name that no domain's module can have.
  have own : moduleFile settings.typesDirectory packageModule ≠
      (typesModule index settings domain).path := by
    have part : Path.IsPart (packageModule ++ ".py") := ⟨by decide, by decide, by decide⟩
    rw [path_typesModule]
    intro same
    have names : packageModule = Naming.moduleName domain.name :=
      moduleFile_inj part modulePart same
    exact moduleName_ne_packageModule domain.name names
  simp only [leadingModules, closingModules, List.mem_cons, List.not_mem_nil, or_false] at member
  rcases member with (rfl | rfl) | (rfl | rfl | rfl)
  · exact beside packageModule ⟨by decide, by decide, by decide⟩
  · exact beside "client" ⟨by decide, by decide, by decide⟩
  · exact own
  · exact beside "commands" ⟨by decide, by decide, by decide⟩
  · exact beside "events" ⟨by decide, by decide, by decide⟩

/-- The types module of a domain is planned once, and no other module has its path. -/
theorem plan_eq_append (distinct : domains.Nodup) (member : domain ∈ domains)
    (alone : ∀ other ∈ domains,
      Naming.moduleName other.name = Naming.moduleName domain.name → other = domain) :
    ∃ before after, plan index settings domains =
        before ++ typesModule index settings domain :: after ∧
      ∀ planned ∈ before ++ after, planned.path ≠ (typesModule index settings domain).path := by
  obtain ⟨first, last, rfl⟩ := List.append_of_mem member
  have others : ∀ other ∈ first ++ last,
      (typesModule index settings other).path ≠ (typesModule index settings domain).path := by
    intro other inOthers same
    rw [path_typesModule, path_typesModule] at same
    have names := moduleFile_inj (Path.isPart_moduleName other.name)
      (Path.isPart_moduleName domain.name) same
    have inDomains : other ∈ first ++ domain :: last :=
      ((List.sublist_cons_self domain last).append_left first).subset inOthers
    rw [alone other inDomains names] at inOthers
    exact (List.nodup_cons.mp (List.perm_middle.nodup_iff.mp distinct)).1 inOthers
  refine ⟨leadingModules index settings (first ++ domain :: last) ++
      first.map (typesModule index settings),
    last.map (typesModule index settings) ++
      closingModules index settings (first ++ domain :: last), ?_, ?_⟩
  · simp only [plan, List.map_append, List.map_cons, List.append_assoc, List.cons_append]
  · intro planned inPlan
    simp only [List.append_assoc, List.mem_append, List.mem_map] at inPlan
    rcases inPlan with leading | ⟨other, inFirst, rfl⟩ | ⟨other, inLast, rfl⟩ | closing
    · exact path_ne_of_mem_leading_or_closing typesPart (.inl leading)
    · exact others other (List.mem_append_left _ inFirst)
    · exact others other (List.mem_append_right _ inLast)
    · exact path_ne_of_mem_leading_or_closing typesPart (.inr closing)

end Plan

/-! ## Modules beside the types package -/

/-- A planned module that is planned once and whose path no other module has. -/
def StandsAlone (planned : PlannedModule) (modules : List PlannedModule) : Prop :=
  ∃ before after, modules = before ++ planned :: after ∧
    ∀ other ∈ before ++ after, other.path ≠ planned.path

theorem StandsAlone.eq_of_path {planned other : PlannedModule} {modules : List PlannedModule}
    (alone : StandsAlone planned modules) (member : other ∈ modules)
    (same : other.path = planned.path) : other = planned := by
  obtain ⟨before, after, rfl, others⟩ := alone
  rcases List.mem_append.mp member with inBefore | behind
  · exact absurd same (others other (List.mem_append_left _ inBefore))
  · rcases List.mem_cons.mp behind with rfl | inAfter
    · rfl
    · exact absurd same (others other (List.mem_append_right _ inAfter))

section Beside

variable (index : Types.TypeIndex) (settings : Settings) (domains : List Domain)

def fixedModules : List String := [packageModule, "client", "commands", "events"]

theorem isPart_fixedModule {name : String} (fixed : name ∈ fixedModules) :
    Path.IsPart (name ++ ".py") := by
  simp only [fixedModules, List.mem_cons, List.not_mem_nil, or_false] at fixed
  rcases fixed with rfl | rfl | rfl | rfl
  all_goals exact ⟨by decide, by decide, by decide⟩

theorem fixed_ne_typesModule {name : String} (reserved : name ∈ Naming.reservedModules)
    (fixed : name ∈ fixedModules) (domain : Domain) :
    (typesModule index settings domain).path ≠ moduleFile settings.packageDirectory name := by
  rw [path_typesModule]
  refine moduleFile_ne_of_names (Path.isPart_moduleName domain.name) (isPart_fixedModule fixed) ?_
  rintro rfl
  exact Naming.moduleName_not_mem_reservedModules domain.name reserved

theorem fixed_ne_fixed {directory otherDirectory : Path} {name other : String}
    (fixed : name ∈ fixedModules) (otherFixed : other ∈ fixedModules) (different : name ≠ other) :
    moduleFile directory name ≠ moduleFile otherDirectory other :=
  moduleFile_ne_of_names (isPart_fixedModule fixed) (isPart_fixedModule otherFixed) different

theorem standsAlone_client : StandsAlone
    ⟨moduleFile settings.packageDirectory "client",
      Emission.clientEdits index settings.runtimeModule (typesPackageName settings) domains⟩
    (plan index settings domains) := by
  refine ⟨[⟨moduleFile settings.packageDirectory packageModule, .ok packageEdits⟩],
    domains.map (typesModule index settings) ++ closingModules index settings domains, rfl, ?_⟩
  simp only [closingModules, List.forall_mem_append, List.forall_mem_cons, List.forall_mem_map]
  exact ⟨⟨fixed_ne_fixed (by decide) (by decide) (by decide), by simp⟩,
    fun domain _ => fixed_ne_typesModule index settings (by decide) (by decide) domain,
    fixed_ne_fixed (by decide) (by decide) (by decide),
    fixed_ne_fixed (by decide) (by decide) (by decide),
    fixed_ne_fixed (by decide) (by decide) (by decide), by simp⟩

theorem standsAlone_commands : StandsAlone
    ⟨moduleFile settings.packageDirectory "commands",
      Emission.commandsEdits index (typesPackageName settings) domains⟩
    (plan index settings domains) := by
  refine ⟨leadingModules index settings domains ++ domains.map (typesModule index settings) ++
      (closingModules index settings domains).take 1,
    (closingModules index settings domains).drop 2, by rw [List.append_assoc]; rfl, ?_⟩
  simp only [leadingModules, closingModules, List.forall_mem_append, List.forall_mem_cons,
    List.forall_mem_map, List.take_succ_cons, List.take_zero, List.drop_succ_cons, List.drop_zero]
  exact ⟨⟨⟨⟨fixed_ne_fixed (by decide) (by decide) (by decide),
        fixed_ne_fixed (by decide) (by decide) (by decide), by simp⟩,
      fun domain _ => fixed_ne_typesModule index settings (by decide) (by decide) domain⟩,
      fixed_ne_fixed (by decide) (by decide) (by decide), by simp⟩,
    fixed_ne_fixed (by decide) (by decide) (by decide), by simp⟩

theorem standsAlone_events : StandsAlone
    ⟨moduleFile settings.packageDirectory "events",
      Emission.eventsEdits index (typesPackageName settings) domains⟩
    (plan index settings domains) := by
  refine ⟨leadingModules index settings domains ++ domains.map (typesModule index settings) ++
      (closingModules index settings domains).take 2, [], by rw [List.append_assoc]; rfl, ?_⟩
  simp only [leadingModules, closingModules, List.append_nil, List.forall_mem_append,
    List.forall_mem_cons, List.forall_mem_map, List.take_succ_cons, List.take_zero]
  exact ⟨⟨⟨fixed_ne_fixed (by decide) (by decide) (by decide),
        fixed_ne_fixed (by decide) (by decide) (by decide), by simp⟩,
      fun domain _ => fixed_ne_typesModule index settings (by decide) (by decide) domain⟩,
    fixed_ne_fixed (by decide) (by decide) (by decide),
    fixed_ne_fixed (by decide) (by decide) (by decide), by simp⟩

end Beside

end Package

end ProtocolGen
