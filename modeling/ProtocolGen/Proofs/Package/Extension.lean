import ProtocolGen.Proofs.Emission.Definitions
import ProtocolGen.Proofs.Naming.Spelling
import ProtocolGen.Proofs.Package.ModulePaths
import ProtocolGen.Proofs.Package.Staging
import ProtocolGen.Proofs.Types.Extension

/-!
# Packages of more domains

Adding domains to a package leaves the types modules that are there as they are: their code is made
from entries of the index that stay, it is collected in a buffer that holds nothing else, and no other
module lies at their paths.
-/

set_option autoImplicit false

namespace ProtocolGen.Package

open ProtocolGen.Types ProtocolGen.Emission ProtocolGen.Source

/-! ## The code of a types module -/

section Code

variable {index wider : TypeIndex} (within : index.Within wider) (closed : index.Closed)
  (unique : (index.types.map TypeInfo.key).Nodup)

include within closed unique

theorem fieldsOf_of_within {scope : Scope} {domain owner : String} {properties : List Property}
    {fields : List Field} (made : fieldsOf index scope domain owner properties = .ok fields) :
    fieldsOf wider scope domain owner properties = .ok fields := by
  refine mapM_eq_ok_of_imp ?_ made
  intro property _ field made
  obtain ⟨ref, resolved, finished⟩ := bind_eq_ok_iff.mp made
  cases finished
  have known (declared : Declared) (names : ref.declared? = some declared) :=
    TypeIndex.declares_of_resolve resolved names
  rw [within.resolve_eq_ok closed unique resolved, fieldOf, ← within.needsIndirection_eq known]
  rfl

theorem declarationEdits_of_within {runtimeModule domain : String} {declaration : TypeDeclaration}
    {edits : List Edit} (declared : index.declares (keyOf domain declaration.id))
    (made : declarationEdits index runtimeModule domain declaration = .ok edits) :
    declarationEdits wider runtimeModule domain declaration = .ok edits := by
  obtain ⟨info, found⟩ := TypeIndex.exists_find?_of_declares declared
  unfold declarationEdits at made ⊢
  rw [found] at made
  rw [within _ info found]
  dsimp only at made ⊢
  split at made
  · obtain ⟨fields, given, finished⟩ := bind_eq_ok_iff.mp made
    exact bind_eq_ok_iff.mpr ⟨fields, fieldsOf_of_within within closed unique given, finished⟩
  · exact made
  · exact made
  · obtain ⟨target, resolved, finished⟩ := bind_eq_ok_iff.mp made
    exact bind_eq_ok_iff.mpr ⟨target, within.resolve_eq_ok closed unique resolved, finished⟩

theorem typesEdits_of_within {runtimeModule : String} {domain : Domain} {edits : List Edit}
    (declared : ∀ declaration ∈ domain.types, index.declares (keyOf domain.name declaration.id))
    (made : typesEdits index runtimeModule domain = .ok edits) :
    typesEdits wider runtimeModule domain = .ok edits := by
  unfold typesEdits at made ⊢
  split at made
  · next untyped => rwa [if_pos untyped]
  · next typed =>
    obtain ⟨bodies, rendered, finished⟩ := bind_eq_ok_iff.mp made
    rw [if_neg typed]
    refine bind_eq_ok_iff.mpr ⟨bodies, mapM_eq_ok_of_imp ?_ rendered, finished⟩
    intro declaration member body
    exact declarationEdits_of_within within closed unique (declared declaration member)

end Code

/-! ## The bytes of a types module -/

/-- A run that ends well writes the text that a domain's own code makes to the path of its types
module, and nothing else there. -/
theorem filesAt_typesModule {State : Type} {formatter : Formatter} {persister : Persister State}
    {settings : Settings} {domains : List Domain} {domain : Domain} {before after : State}
    {written : List (Path × ByteArray)} {events : List Log.Event} {reached : Stage}
    (typesPart : Path.IsPart settings.typesPackage) (distinct : domains.Nodup)
    (member : domain ∈ domains)
    (alone : ∀ other ∈ domains,
      Naming.moduleName other.name = Naming.moduleName domain.name → other = domain)
    (generated : generate formatter persister.recording settings domains (before, []) =
      ((after, written), ⟨events, .ok reached⟩)) :
    ∃ index edits, classify domains = .ok index ∧
      typesEdits index settings.runtimeModule domain = .ok edits ∧
      filesAt (moduleFile settings.typesDirectory (Naming.moduleName domain.name)) written =
        (keptText? formatter settings.runtimeModule edits).toList.map fun text =>
          (moduleFile settings.typesDirectory (Naming.moduleName domain.name), text.toUTF8) := by
  obtain ⟨index, accepted, staged, persisted⟩ := generate_eq_ok generated
  obtain ⟨front, back, planned, others⟩ := plan_eq_append typesPart distinct member alone
  rw [planned] at staged
  obtain ⟨edits, made, files⟩ := filesAt_written others staged persisted
  rw [path_typesModule] at files
  exact ⟨index, edits, accepted, made, files⟩

/-- Adding domains that declare no key that is there leaves the bytes of a types module as they are,
whatever takes the files, unless an added domain has a module of the same name. -/
theorem typesModule_bytes_of_extension {draft : Draft} {settings : Settings}
    {domains extended : List Domain} {domain : Domain} {formatter : Formatter}
    {State Other : Type} {persister : Persister State} {otherPersister : Persister Other}
    {before after : State} {otherBefore otherAfter : Other}
    {written otherWritten : List (Path × ByteArray)} {events otherEvents : List Log.Event}
    {reached otherReached : Stage}
    (valid : draft.validate = .ok settings) (extension : DomainExtension domains extended)
    (member : domain ∈ domains) (typed : domain.types ≠ [])
    (alone : ∀ other ∈ extended,
      Naming.moduleName other.name = Naming.moduleName domain.name → other = domain)
    (generated : generate formatter persister.recording settings domains (before, []) =
      ((after, written), ⟨events, .ok reached⟩))
    (generatedExtended :
      generate formatter otherPersister.recording settings extended (otherBefore, []) =
        ((otherAfter, otherWritten), ⟨otherEvents, .ok otherReached⟩)) :
    let path := moduleFile settings.typesDirectory (Naming.moduleName domain.name)
    ∃ bytes, filesAt path written = [(path, bytes)] ∧ filesAt path otherWritten = [(path, bytes)] := by
  have typesPart := isPart_typesPackage valid
  obtain ⟨index, edits, accepted, made, files⟩ :=
    filesAt_typesModule typesPart extension.sorted.nodup member
      (fun other inDomains => alone other (extension.contained inDomains)) generated
  obtain ⟨wider, otherEdits, acceptedExtended, otherMade, otherFiles⟩ :=
    filesAt_typesModule typesPart extension.sortedExtended.nodup (extension.contained member)
      alone generatedExtended
  have classified := Classified.of_classify accepted
  have declared (declaration : TypeDeclaration) (inTypes : declaration ∈ domain.types) :
      index.declares (keyOf domain.name declaration.id) :=
    classified.declares_iff.mpr (List.mem_map.mpr
      ⟨(domain.name, declaration), mem_declarationsOf_iff.mpr ⟨domain, member, rfl, inTypes⟩, rfl⟩)
  have sameEdits := typesEdits_of_within (extension.within accepted acceptedExtended)
    (.of_classify accepted) classified.unique declared made
  cases sameEdits.symm.trans otherMade
  obtain ⟨text, kept⟩ : ∃ text, keptText? formatter settings.runtimeModule edits = some text :=
    exists_keptText (declare_mem_typesEdits typed made)
  rw [kept] at files otherFiles
  exact ⟨text.toUTF8, files, otherFiles⟩

def lampState : TypeDeclaration :=
  ⟨.plain ⟨none, some "string", none, some ["on", "off"]⟩, "State", none, false, false⟩

/-- A domain with a type of its own. -/
def lamp : Domain := ⟨"Lamp", none, false, false, [lampState], [], []⟩

def chainStates : TypeDeclaration :=
  ⟨.withItems ⟨none, some "array", none, none⟩ (.plain ⟨none, none, some "Lamp.State", none⟩),
    "States", none, false, false⟩

/-- A domain that refers to a type of another one. -/
def lightChain : Domain := ⟨"Chain", none, false, false, [chainStates], [], []⟩

def lampInfo : TypeInfo := ⟨"Lamp", "State", .enumeration, true, lampState⟩

def chainInfo : TypeInfo := ⟨"Chain", "States", .alias, true, chainStates⟩

/-- The types module of lamps stays when chains of lamps are added before them. -/
theorem lamp_bytes_of_chain :
    ∃ bytes written otherWritten events otherEvents reached otherReached,
      generate .ok taker.recording Settings.default [lamp] ((), []) =
        (((), written), ⟨events, .ok reached⟩) ∧
      generate .ok taker.recording Settings.default [lightChain, lamp] ((), []) =
        (((), otherWritten), ⟨otherEvents, .ok otherReached⟩) ∧
      filesAt (moduleFile Settings.default.typesDirectory (Naming.moduleName "Lamp")) written =
        [(moduleFile Settings.default.typesDirectory (Naming.moduleName "Lamp"), bytes)] ∧
      filesAt (moduleFile Settings.default.typesDirectory (Naming.moduleName "Lamp")) otherWritten =
        [(moduleFile Settings.default.typesDirectory (Naming.moduleName "Lamp"), bytes)] := by
  have accepted : classify [lamp] = .ok ⟨[lampInfo]⟩ :=
    classify_of_unreferring [⟨"Lamp", lampState, .enumeration, rfl⟩] rfl rfl (by decide)
  have acceptedExtended : classify [lightChain, lamp] = .ok ⟨[chainInfo, lampInfo]⟩ := by
    decide +kernel
  obtain ⟨written, events, reached, generated⟩ := exists_run_of_codes accepted rfl
  obtain ⟨otherWritten, otherEvents, otherReached, generatedExtended⟩ :=
    exists_run_of_codes acceptedExtended rfl
  have extension : DomainExtension [lamp] [lightChain, lamp] :=
    ⟨List.pairwise_singleton _ _, List.pairwise_pair.mpr (by decide), by simp, by decide⟩
  have apart : Naming.moduleName "Chain" ≠ Naming.moduleName "Lamp" := by
    rw [Ne, Naming.moduleName_inj_of_words (by decide) (by decide)]
    decide
  have alone : ∀ other ∈ [lightChain, lamp],
      Naming.moduleName other.name = Naming.moduleName lamp.name → other = lamp := by
    rw [List.forall_mem_cons, List.forall_mem_singleton]
    exact ⟨fun same => absurd same apart, fun _ => rfl⟩
  obtain ⟨bytes, files, otherFiles⟩ := typesModule_bytes_of_extension validate_default extension
    (List.mem_singleton_self lamp) (List.cons_ne_nil _ _) alone generated generatedExtended
  exact ⟨bytes, written, otherWritten, events, otherEvents, reached, otherReached, generated,
    generatedExtended, files, otherFiles⟩

end ProtocolGen.Package
