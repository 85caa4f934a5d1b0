import Mathlib.Logic.Relation
import ProtocolGen.Proofs.Types.Resolution

/-!
# Chains of aliases

An alias leads to the declared type that its reference or the innermost of its items names. Resolving
expands one alias after the other, so it ends where the chain of aliases does. A chain that does not
end comes back to an alias that it has passed, and since references alone never do, an array alias is
on the way round.
-/

set_option autoImplicit false

namespace ProtocolGen.Types

open Relation (TransGen ReflTransGen)

/-- The key that a classified type leads to. Only aliases lead anywhere. -/
def TypeInfo.next? (info : TypeInfo) : Option String :=
  if info.kind = .alias then namedKey? info.domain info.declaration.expression else none

/-- An alias leads to the type that it names. -/
def TypeIndex.Leads (index : TypeIndex) (key next : String) : Prop :=
  ∃ info, index.find? key = some info ∧ info.next? = some next

/-- From a key, aliases lead to one that leads back to itself. -/
def TypeIndex.EntersCycle (index : TypeIndex) (key : String) : Prop :=
  ∃ repeated, ReflTransGen index.Leads key repeated ∧ TransGen index.Leads repeated repeated

/-- An alias of an array, which is no reference, stands under a key. -/
def TypeIndex.IsArrayAlias (index : TypeIndex) (key : String) : Prop :=
  ∃ info, index.find? key = some info ∧ info.kind = .alias ∧
    info.declaration.expression.reference? = none ∧
      info.declaration.expression.type = some "array"

/-- The way from a key along aliases to a type that leads nowhere, with the aliases on it. -/
inductive AliasChain (index : TypeIndex) : String → List String → Prop where
  | named {key : String} {info : TypeInfo} :
      index.find? key = some info → info.kind ≠ .alias → AliasChain index key []
  | last {key : String} {info : TypeInfo} :
      index.find? key = some info → info.kind = .alias → info.next? = none →
      AliasChain index key [key]
  | step {key next : String} {info : TypeInfo} {keys : List String} :
      index.find? key = some info → info.next? = some next → AliasChain index next keys →
      AliasChain index key (key :: keys)

theorem TypeInfo.next?_eq_some {info : TypeInfo} {next : String}
    (leads : info.next? = some next) :
    info.kind = .alias ∧ namedKey? info.domain info.declaration.expression = some next := by
  unfold next? at leads
  split at leads
  · next kind => exact ⟨kind, leads⟩
  · cases leads

variable {index : TypeIndex} {key : String}

theorem TypeIndex.Leads.unique {next other : String} (leads : index.Leads key next)
    (leadsOther : index.Leads key other) : next = other := by
  obtain ⟨info, found, named⟩ := leads
  obtain ⟨otherInfo, otherFound, otherNamed⟩ := leadsOther
  cases Option.some.inj (found.symm.trans otherFound)
  exact Option.some.inj (named.symm.trans otherNamed)

theorem transGen_next {next : String} (leads : index.Leads key next)
    (round : TransGen index.Leads key key) : TransGen index.Leads next next := by
  obtain ⟨other, first, rest⟩ := TransGen.head'_iff.mp round
  obtain rfl := leads.unique first
  exact TransGen.tail' rest leads

theorem TypeIndex.EntersCycle.next (enters : index.EntersCycle key) :
    ∃ next, index.Leads key next ∧ index.EntersCycle next := by
  obtain ⟨start, reached, round⟩ := enters
  rcases ReflTransGen.cases_head reached with rfl | ⟨next, leads, rest⟩
  · obtain ⟨next, leads, -⟩ := TransGen.head'_iff.mp round
    exact ⟨next, leads, next, .refl, transGen_next leads round⟩
  · exact ⟨next, leads, start, rest, round⟩

namespace AliasChain

variable {keys : List String}

theorem rest {next : String} (chain : AliasChain index key keys) (leads : index.Leads key next) :
    ∃ others, AliasChain index next others ∧ keys = key :: others := by
  obtain ⟨info, found, named⟩ := leads
  cases chain with
  | named other notAlias =>
    cases Option.some.inj (found.symm.trans other)
    exact absurd (TypeInfo.next?_eq_some named).1 notAlias
  | last other _ unnamed =>
    cases Option.some.inj (found.symm.trans other)
    cases unnamed.symm.trans named
  | step other otherNamed chain =>
    cases Option.some.inj (found.symm.trans other)
    cases Option.some.inj (named.symm.trans otherNamed)
    exact ⟨_, chain, rfl⟩

theorem not_transGen (chain : AliasChain index key keys) : ¬ TransGen index.Leads key key := by
  induction chain with
  | named found notAlias =>
    intro round
    obtain ⟨next, leads, -⟩ := TransGen.head'_iff.mp round
    obtain ⟨_, -, impossible⟩ := (AliasChain.named found notAlias).rest leads
    cases impossible
  | last found kind unnamed =>
    intro round
    obtain ⟨next, ⟨info, other, named⟩, -⟩ := TransGen.head'_iff.mp round
    cases Option.some.inj (found.symm.trans other)
    cases unnamed.symm.trans named
  | step found named _ ih => exact fun round => ih (transGen_next ⟨_, found, named⟩ round)

theorem not_entersCycle (chain : AliasChain index key keys) : ¬ index.EntersCycle key := by
  intro enters
  obtain ⟨repeated, reached, round⟩ := enters
  induction reached using ReflTransGen.head_induction_on generalizing keys with
  | refl => exact chain.not_transGen round
  | head leads _ ih =>
    obtain ⟨_, others, -⟩ := chain.rest leads
    exact ih others

theorem reaches_of_mem (chain : AliasChain index key keys) {member : String}
    (on : member ∈ keys) : ReflTransGen index.Leads key member ∧
      member ∈ index.types.map TypeInfo.key := by
  induction chain with
  | named => cases on
  | last found _ _ =>
    obtain rfl := List.mem_singleton.mp on
    exact ⟨.refl, List.mem_map.mpr ⟨_, TypeIndex.mem_of_find? found, TypeIndex.key_of_find? found⟩⟩
  | step found named _ ih =>
    rcases List.mem_cons.mp on with rfl | later
    · exact ⟨.refl, List.mem_map.mpr ⟨_, TypeIndex.mem_of_find? found, TypeIndex.key_of_find? found⟩⟩
    · exact ⟨.head ⟨_, found, named⟩ (ih later).1, (ih later).2⟩

theorem nodup (chain : AliasChain index key keys) : keys.Nodup := by
  induction chain with
  | named => exact List.nodup_nil
  | last => simp
  | step found named chain ih =>
    refine List.nodup_cons.mpr ⟨fun back => ?_, ih⟩
    have round := TransGen.head' ⟨_, found, named⟩ (chain.reaches_of_mem back).1
    exact (AliasChain.step found named chain).not_transGen round

theorem length_le (chain : AliasChain index key keys) : keys.length ≤ index.expansions := by
  have within : keys ⊆ index.types.map TypeInfo.key := fun _ on => (chain.reaches_of_mem on).2
  have bound := chain.nodup.length_le_of_subset within
  rwa [List.length_map] at bound

end AliasChain

/-- In a closed index a chain comes to an end unless it enters a cycle. The trail holds keys that
lead to the one that is followed, each of them once, so it never grows longer than the index. -/
theorem chain_or_entersCycle_of_trail {key : String} (closed : index.Closed) (trail : List String)
    (declared : index.declares key) (distinct : trail.Nodup)
    (reaching : ∀ member ∈ trail, index.declares member ∧ TransGen index.Leads member key) :
    (∃ keys, AliasChain index key keys) ∨ index.EntersCycle key := by
  by_cases repeated : key ∈ trail
  · exact .inr ⟨key, .refl, (reaching key repeated).2⟩
  obtain ⟨info, found⟩ := TypeIndex.exists_find?_of_declares declared
  by_cases notAlias : info.kind ≠ .alias
  · exact .inl ⟨_, .named found notAlias⟩
  have kind : info.kind = .alias := not_not.mp notAlias
  cases named : info.next? with
  | none => exact .inl ⟨_, .last found kind named⟩
  | some next =>
    have leads : index.Leads key next := ⟨info, found, named⟩
    have nextDeclared : index.declares next :=
      (closed key info found kind).declared_of_namedKey? (TypeInfo.next?_eq_some named).2
    -- The trail gets longer, but it holds keys of the index only, each of them once.
    have longer : (key :: trail).Nodup := List.nodup_cons.mpr ⟨repeated, distinct⟩
    have within : key :: trail ⊆ index.types.map TypeInfo.key :=
      List.cons_subset.mpr ⟨TypeIndex.declares_iff_mem.mp declared, fun member on =>
        TypeIndex.declares_iff_mem.mp (reaching member on).1⟩
    have bound := longer.length_le_of_subset within
    rcases chain_or_entersCycle_of_trail closed (key :: trail) nextDeclared longer (by
      rw [List.forall_mem_cons]
      exact ⟨⟨declared, .single leads⟩, fun member on =>
        ⟨(reaching member on).1, (reaching member on).2.tail leads⟩⟩) with
      ⟨keys, chain⟩ | ⟨start, reached, round⟩
    · exact .inl ⟨_, .step found named chain⟩
    · exact .inr ⟨start, .head leads reached, round⟩
termination_by index.types.length - trail.length
decreasing_by
  simp only [List.length_cons, List.length_map] at *
  omega

theorem exists_chain_iff (closed : index.Closed) (declared : index.declares key) :
    (∃ keys, AliasChain index key keys) ↔ ¬ index.EntersCycle key := by
  constructor
  · intro ends
    obtain ⟨keys, chain⟩ := ends
    exact chain.not_entersCycle
  · exact (chain_or_entersCycle_of_trail closed [] declared List.nodup_nil (by simp)).resolve_right

/-! ## Cycles -/

theorem exists_array_on_cycle {sources : Sources} {keys : List String}
    {last : String × TypeDeclaration}
    (content : ∀ key info, index.find? key = some info →
      sources key = some (info.domain, info.declaration))
    (chain : ReferenceChain sources key keys last) (round : TransGen index.Leads key key) :
    ∃ member, index.IsArrayAlias member ∧ ReflTransGen index.Leads key member ∧
      ReflTransGen index.Leads member key := by
  induction chain with
  | done stands unreferring =>
    obtain ⟨next, ⟨info, found, named⟩, -⟩ := TransGen.head'_iff.mp round
    cases Option.some.inj (stands.symm.trans (content _ _ found))
    obtain ⟨kind, namedKey⟩ := TypeInfo.next?_eq_some named
    have array : info.declaration.expression.type = some "array" := by
      by_contra other
      rw [namedKey?, namedReference?_eq, unreferring, Option.none_or, if_neg other] at namedKey
      cases namedKey
    exact ⟨_, ⟨info, found, kind, unreferring, array⟩, .refl, .refl⟩
  | @step key reference _ _ _ stands refers _ ih =>
    obtain ⟨next, leads, back⟩ := TransGen.head'_iff.mp round
    obtain ⟨info, found, named⟩ := leads
    cases Option.some.inj (stands.symm.trans (content _ _ found))
    have target : qualify info.domain reference = next := by
      have namedKey := (TypeInfo.next?_eq_some named).2
      rw [namedKey?, namedReference?_of_reference refers] at namedKey
      exact Option.some.inj namedKey
    rw [target] at ih
    obtain ⟨member, array, onward, returning⟩ := ih (transGen_next ⟨info, found, named⟩ round)
    exact ⟨member, array, .head ⟨info, found, named⟩ onward, returning.trans back⟩

theorem exists_array_on_cycle_of_classify {domains : List Domain}
    (accepted : classify domains = .ok index) (key : String)
    (round : TransGen index.Leads key key) :
    ∃ member, index.IsArrayAlias member ∧ ReflTransGen index.Leads key member ∧
      ReflTransGen index.Leads member key := by
  have classified := Classified.of_classify accepted
  obtain ⟨_, ⟨info, found, -⟩, -⟩ := TransGen.head'_iff.mp round
  obtain ⟨_, _, chain, -⟩ := (classified.entry found).direct
  exact exists_array_on_cycle (fun _ _ found => (classified.entry found).source) chain round

/-! ## Resolving along a chain -/

theorem nameType_of_not_alias {info : TypeInfo} (notAlias : info.kind ≠ .alias) :
    ∃ ref, ∀ meaning, nameType info meaning = .ok ref := by
  unfold nameType
  dsimp only
  split
  · exact ⟨_, fun _ => rfl⟩
  · exact ⟨_, fun _ => rfl⟩
  · exact ⟨_, fun _ => rfl⟩
  · next kind => exact absurd kind notAlias

theorem resolveKeyWithin_of_not_alias {info : TypeInfo} (found : index.find? key = some info)
    (notAlias : info.kind ≠ .alias) :
    ∃ ref, ∀ expansions domain part,
      resolveKeyWithin index expansions domain part key = .ok ref := by
  obtain ⟨ref, named⟩ := nameType_of_not_alias notAlias
  exact ⟨ref, fun expansions domain part => by rw [resolveKeyWithin, found]; exact named _⟩

theorem resolveKeyWithin_zero {info : TypeInfo} (found : index.find? key = some info)
    (kind : info.kind = .alias) (domain part : String) :
    resolveKeyWithin index 0 domain part key = .error .endless := by
  rw [resolveKeyWithin, found]
  simp only [nameType, kind]
  rfl

theorem resolveKeyWithin_succ {info : TypeInfo} (found : index.find? key = some info)
    (kind : info.kind = .alias) (expansions : Nat) (domain part : String) :
    resolveKeyWithin index (expansions + 1) domain part key =
      (resolveExpression (fun key => resolveKeyWithin index expansions info.domain key key)
        info.domain none info.declaration.expression).map
        (.alias ⟨info.domain, info.key, Naming.className info.id⟩) := by
  rw [resolveKeyWithin, found]
  simp only [nameType, kind]

section Closed

variable (closed : index.Closed)

include closed

theorem resolveKeyWithin_of_unnamed {info : TypeInfo} (found : index.find? key = some info)
    (kind : info.kind = .alias) (unnamed : info.next? = none) :
    ∃ ref, ∀ expansions domain part,
      resolveKeyWithin index (expansions + 1) domain part key = .ok ref := by
  rw [TypeInfo.next?, if_pos kind] at unnamed
  obtain ⟨ref, resolved⟩ := (closed key info found kind).resolves_alone unnamed
  exact ⟨_, fun expansions domain part => by
    rw [resolveKeyWithin_succ found kind, resolved, Except.map]⟩

theorem resolveKeyWithin_of_named {info : TypeInfo} {next : String}
    (found : index.find? key = some info) (named : info.next? = some next) :
    ∃ wrap : TypeRef → TypeRef, ∀ expansions domain part,
      resolveKeyWithin index (expansions + 1) domain part key =
        (resolveKeyWithin index expansions info.domain next next).map wrap := by
  obtain ⟨kind, namedKey⟩ := TypeInfo.next?_eq_some named
  obtain ⟨wrap, resolved⟩ := (closed key info found kind).resolves_by_key namedKey
  refine ⟨.alias ⟨info.domain, info.key, Naming.className info.id⟩ ∘ wrap,
    fun expansions domain part => ?_⟩
  rw [resolveKeyWithin_succ found kind, resolved]
  cases resolveKeyWithin index expansions info.domain next next <;> rfl

/-- A key resolves within as many expansions as there are aliases on its chain, and not within
fewer. -/
theorem AliasChain.resolves {keys : List String} (chain : AliasChain index key keys) :
    ∃ ref, ∀ expansions domain part, resolveKeyWithin index expansions domain part key =
      if keys.length ≤ expansions then .ok ref else .error .endless := by
  induction chain with
  | named found notAlias =>
    obtain ⟨ref, resolved⟩ := resolveKeyWithin_of_not_alias found notAlias
    exact ⟨ref, fun expansions domain part => by
      rw [resolved, List.length_nil, if_pos (Nat.zero_le _)]⟩
  | last found kind unnamed =>
    obtain ⟨ref, resolved⟩ := resolveKeyWithin_of_unnamed closed found kind unnamed
    refine ⟨ref, fun expansions domain part => ?_⟩
    cases expansions with
    | zero => exact resolveKeyWithin_zero found kind domain part
    | succ expansions => rw [resolved, if_pos (by simp)]
  | step found named _ ih =>
    obtain ⟨ref, onward⟩ := ih
    obtain ⟨wrap, resolved⟩ := resolveKeyWithin_of_named closed found named
    refine ⟨wrap ref, fun expansions domain part => ?_⟩
    cases expansions with
    | zero => exact resolveKeyWithin_zero found (TypeInfo.next?_eq_some named).1 domain part
    | succ expansions =>
      rw [resolved, onward]
      simp only [List.length_cons, Nat.add_le_add_iff_right]
      split <;> rfl

/-- A key that enters a cycle takes more than any number of expansions. -/
theorem resolveKeyWithin_of_entersCycle (enters : index.EntersCycle key) (expansions : Nat)
    (domain part : String) :
    resolveKeyWithin index expansions domain part key = .error .endless := by
  induction expansions generalizing key domain part with
  | zero =>
    obtain ⟨next, ⟨info, found, named⟩, -⟩ := enters.next
    exact resolveKeyWithin_zero found (TypeInfo.next?_eq_some named).1 domain part
  | succ expansions ih =>
    obtain ⟨next, ⟨info, found, named⟩, entersNext⟩ := enters.next
    obtain ⟨wrap, resolved⟩ := resolveKeyWithin_of_named closed found named
    rw [resolved, ih entersNext]
    rfl

end Closed

/-! ## The two phases -/

/-- The type that an expression names enters a cycle. -/
def TypeIndex.LeadsIntoCycle (index : TypeIndex) (domain : String) (expression : TypeExpression) :
    Prop :=
  ∃ key, namedKey? domain expression = some key ∧ index.EntersCycle key

/-- No number of alias expansions is enough to resolve an expression. -/
def TypeIndex.Endless (index : TypeIndex) (domain : String) (owner : Option String)
    (expression : TypeExpression) : Prop :=
  ∀ expansions, index.resolveWithin expansions domain owner expression = .error .endless

/-- The three ways for the resolution of an expression to go. -/
inductive Resolution (index : TypeIndex) (domain : String) (owner : Option String)
    (expression : TypeExpression) : Prop where
  | refused {refusal : Refusal} :
      ¬ Grounded (fun key => index.declares key) domain expression →
      (∀ expansions,
        index.resolveWithin expansions domain owner expression = .error (.refused refusal)) →
      Resolution index domain owner expression
  | resolved {ref : TypeRef} :
      Grounded (fun key => index.declares key) domain expression →
      ¬ index.LeadsIntoCycle domain expression →
      (∀ expansions, index.expansions ≤ expansions →
        index.resolveWithin expansions domain owner expression = .ok ref) →
      Resolution index domain owner expression
  | endless :
      Grounded (fun key => index.declares key) domain expression →
      index.LeadsIntoCycle domain expression → index.Endless domain owner expression →
      Resolution index domain owner expression

theorem resolveKeyWithin_of_undeclared (undeclared : ¬ index.declares key) (expansions : Nat)
    (domain part : String) :
    resolveKeyWithin index expansions domain part key =
      .error (.refused ⟨domain, part, .unknownReference key⟩) := by
  have missing : index.find? key = none := by simpa [TypeIndex.declares] using undeclared
  rw [resolveKeyWithin, missing]

theorem Resolution.of_closed (closed : index.Closed) (domain : String) (owner : Option String)
    (expression : TypeExpression) : Resolution index domain owner expression := by
  by_cases grounded : Grounded (fun key => index.declares key) domain expression
  · cases named : namedKey? domain expression with
    | none =>
      obtain ⟨ref, resolved⟩ := grounded.resolves_alone named
      refine .resolved grounded ?_ fun expansions _ => resolved _ owner
      intro leads
      obtain ⟨key, some, -⟩ := leads
      cases named.symm.trans some
    | some key =>
      have declared := grounded.declared_of_namedKey? named
      obtain ⟨wrap, resolved⟩ := grounded.resolves_by_key named
      by_cases enters : index.EntersCycle key
      · refine .endless grounded ⟨key, named, enters⟩ fun expansions => ?_
        rw [TypeIndex.resolveWithin, resolved, resolveKeyWithin_of_entersCycle closed enters]
        rfl
      · obtain ⟨keys, chain⟩ := (exists_chain_iff closed declared).mpr enters
        obtain ⟨ref, ends⟩ := chain.resolves closed
        refine @Resolution.resolved _ _ _ _ (wrap ref) grounded ?_ fun expansions enough => ?_
        · intro leads
          obtain ⟨other, alsoNamed, entersOther⟩ := leads
          cases Option.some.inj (named.symm.trans alsoNamed)
          exact enters entersOther
        · rw [TypeIndex.resolveWithin, resolved, ends, if_pos (Nat.le_trans chain.length_le enough)]
          rfl
  · obtain ⟨refusal, refused⟩ := refused_of_not_grounded (fun key =>
      ⟨domain, if expression.reference?.isSome then owner.getD key else key, .unknownReference key⟩)
      owner grounded
    exact .refused grounded fun expansions =>
      refused _ fun key undeclared => resolveKeyWithin_of_undeclared undeclared _ _ _

/-- The resolution of an expression agrees with the check of it. It is refused exactly when the check
refuses, and otherwise it ends unless the aliases that the expression leads to enter a cycle. As many
expansions as there are types decide which, and every cycle takes an array alias. -/
theorem resolve_agrees_with_check {domains : List Domain} {index : TypeIndex}
    (accepted : classify domains = .ok index) (domain part : String) (owner : Option String)
    (expression : TypeExpression) :
    ((∃ refusal, index.resolve domain owner expression = .error (.refused refusal)) ↔
        ∃ refusal, checkExpression index.declares domain part expression = .error refusal) ∧
      ((∃ ref, index.resolve domain owner expression = .ok ref) ↔
        checkExpression index.declares domain part expression = .ok () ∧
          ¬ index.LeadsIntoCycle domain expression) ∧
      (index.Endless domain owner expression ↔
        checkExpression index.declares domain part expression = .ok () ∧
          index.LeadsIntoCycle domain expression) ∧
      (index.resolve domain owner expression = .error .endless ↔
        index.Endless domain owner expression) ∧
      (∀ expansions, index.expansions ≤ expansions →
        index.resolveWithin expansions domain owner expression =
          index.resolve domain owner expression) ∧
      ∀ key, TransGen index.Leads key key → ∃ member, index.IsArrayAlias member ∧
        ReflTransGen index.Leads key member ∧ ReflTransGen index.Leads member key := by
  have accepts : checkExpression index.declares domain part expression = .ok () ↔
      Grounded (fun key => index.declares key) domain expression := checkExpression_eq_ok_iff
  have refuses : (∃ refusal, checkExpression index.declares domain part expression = .error refusal) ↔
      ¬ Grounded (fun key => index.declares key) domain expression := by
    rw [exists_error_iff_not_exists_ok, ← accepts]
    exact not_congr ⟨fun ⟨⟨⟩, passed⟩ => passed, fun passed => ⟨(), passed⟩⟩
  have cycles := exists_array_on_cycle_of_classify accepted
  rw [accepts, refuses]
  cases Resolution.of_closed (.of_classify accepted) domain owner expression with
  | refused ungrounded resolved =>
    have settled : index.resolve domain owner expression = .error (.refused _) :=
      resolved index.expansions
    have ends : ¬ index.Endless domain owner expression := fun endless => by
      cases settled.symm.trans (endless index.expansions)
    exact ⟨by simp [settled, ungrounded], by simp [settled, ungrounded], by simp [ends, ungrounded],
      by simp [settled, ends], fun _ _ => (resolved _).trans settled.symm, cycles⟩
  | resolved grounded ending resolved =>
    have settled : index.resolve domain owner expression = .ok _ := resolved _ (Nat.le_refl _)
    have ends : ¬ index.Endless domain owner expression := fun endless => by
      cases settled.symm.trans (endless index.expansions)
    exact ⟨by simp [settled, grounded], by simp [settled, grounded, ending], by simp [ends, ending],
      by simp [settled, ends], fun _ enough => (resolved _ enough).trans settled.symm, cycles⟩
  | endless grounded enters endless =>
    have settled : index.resolve domain owner expression = .error .endless :=
      endless index.expansions
    exact ⟨by simp [settled, grounded], by simp [settled, enters], by simp [endless, grounded, enters],
      by simp [settled, endless], fun _ _ => (endless _).trans settled.symm, cycles⟩

def toRow : TypeExpression := .plain ⟨none, none, some "Row", none⟩

/-- A row of a grid stands for its rows. -/
def row : TypeDeclaration := ⟨.plain ⟨none, none, some "Rows", none⟩, "Row", none, false, false⟩

/-- The rows of a grid are an array of them. -/
def rows : TypeDeclaration :=
  ⟨.withItems ⟨none, some "array", none, none⟩ toRow, "Rows", none, false, false⟩

/-- A domain with a type that refers to an array of itself. -/
def grid : Domain := ⟨"Grid", none, false, false, [row, rows], [], []⟩

/-- A type that refers to an array of itself is accepted, and resolves without end. -/
theorem resolve_row_endless : ∃ index, classify [grid] = .ok index ∧
    checkExpression index.declares "Grid" "?" toRow = .ok () ∧
      index.LeadsIntoCycle "Grid" toRow ∧ index.Endless "Grid" none toRow := by
  have accepted : classify [grid] =
      .ok ⟨[⟨"Grid", "Row", .alias, true, row⟩, ⟨"Grid", "Rows", .alias, true, rows⟩]⟩ := by
    decide +kernel
  obtain ⟨-, -, endless_iff, resolve_iff, -⟩ :=
    resolve_agrees_with_check accepted "Grid" "?" none toRow
  have endless := resolve_iff.mp rfl
  exact ⟨_, accepted, (endless_iff.mp endless).1, (endless_iff.mp endless).2, endless⟩

end ProtocolGen.Types
