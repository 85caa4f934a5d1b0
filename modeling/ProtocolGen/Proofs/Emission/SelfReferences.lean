import ProtocolGen.Proofs.Emission.Fields
import ProtocolGen.Proofs.Types.Indirection

/-!
# Records that lead to themselves

A property may come back to the record that it belongs to, at once or by way of aliases, of any domain.
Its field is indirect when the property is optional, or when it names the record itself: an alias on
the way hides that a required field holds a whole record of its own class, which then no first one can
be made of.
-/

set_option autoImplicit false

namespace ProtocolGen.Types

/-- Only a reference leads to a record. -/
theorem reference_of_target_record {resolveKey : String → Except Failure TypeRef} {domain : String}
    {owner : Option String} {expression : TypeExpression} {ref : TypeRef} {declared : Declared}
    (resolved : resolveExpression resolveKey domain owner expression = .ok ref)
    (target : ref.target = .record declared) :
    ∃ reference, expression.reference? = some reference ∧
      resolveKey (qualify domain reference) = .ok ref := by
  rw [resolveExpression_eq] at resolved
  split at resolved
  · next reference refers => exact ⟨reference, refers, resolved⟩
  · split at resolved
    · split at resolved
      · obtain ⟨item, -, rfl⟩ := map_eq_ok_iff.mp resolved
        cases target
      · cases resolved
    · cases resolved
      cases target
    · cases resolved
      cases target
    · split at resolved
      · cases resolved
        cases target
      · cases resolved

section Chains

variable {domains : List Domain} {index : TypeIndex} {expansions : Nat}
  {domain part key own : String} {info known : TypeInfo} {ref : TypeRef}
  (classified : Classified domains index) (found : index.find? own = some info)

include classified found

theorem chain_of_record (there : index.find? key = some known) (notAlias : known.kind ≠ .alias)
    (resolved : resolveKeyWithin index expansions domain part key = .ok ref)
    (target : ref.target = .record info.declared) :
    key = own ∧ ref = .record info.declared ∧
      ReferenceChain (lastDeclaration? domains) key [key] (info.domain, info.declaration) := by
  have named : ref = .record info.declared ∧ known.declared = info.declared := by
    rw [resolveKeyWithin, there] at resolved
    unfold nameType at resolved
    dsimp only at resolved
    split at resolved
    · cases resolved
      exact ⟨target, TypeRef.record.inj target⟩
    · cases resolved
      cases target
    · cases resolved
      cases target
    · next kind => exact absurd kind notAlias
  have same : key = own := by
    rw [← TypeIndex.key_of_find? there, ← TypeIndex.key_of_find? found]
    exact congrArg Declared.key named.2
  have entry := classified.entry there
  obtain rfl : known = info := entry.unique (classified.entry (same ▸ found))
  exact ⟨same, named.1, .done entry.source (entry.unreferring_of_not_alias notAlias)⟩

/-- A key that leads to a record has a chain of references to the declaration of the record, and is
resolved to the record itself when there is nothing else on the chain. -/
theorem exists_chain_of_target_record
    (resolved : resolveKeyWithin index expansions domain part key = .ok ref)
    (target : ref.target = .record info.declared) :
    ∃ keys, ReferenceChain (lastDeclaration? domains) key keys (info.domain, info.declaration) ∧
      (ref = .record info.declared ↔ keys = [own]) := by
  -- The induction is on the expansions: each alias on the way takes one of them.
  induction expansions generalizing domain part key ref with
  | zero =>
    obtain ⟨known, there, -⟩ := shows_of_resolveKeyWithin classified resolved
    have notAlias : known.kind ≠ .alias := fun kind => by
      rw [resolveKeyWithin_zero there kind] at resolved
      cases resolved
    obtain ⟨rfl, direct, chain⟩ := chain_of_record classified found there notAlias resolved target
    exact ⟨_, chain, iff_of_true direct rfl⟩
  | succ expansions ih =>
    obtain ⟨known, there, -⟩ := shows_of_resolveKeyWithin classified resolved
    by_cases kind : known.kind = .alias
    · rw [resolveKeyWithin_succ there kind] at resolved
      obtain ⟨meaning, meant, rfl⟩ := map_eq_ok_iff.mp resolved
      obtain ⟨reference, refers, onward⟩ := reference_of_target_record meant target
      obtain ⟨keys, chain, -⟩ := ih onward target
      refine ⟨key :: keys, .step (classified.entry there).source refers chain, ?_⟩
      refine iff_of_false (fun same => by cases same) fun same => ?_
      rw [(List.cons.inj same).2] at chain
      cases chain
    · obtain ⟨rfl, direct, chain⟩ := chain_of_record classified found there kind resolved target
      exact ⟨_, chain, iff_of_true direct rfl⟩

/-- A chain of references that ends at a record leads there. -/
theorem target_of_chain {keys : List String} {last : String × TypeDeclaration}
    (chain : ReferenceChain (lastDeclaration? domains) key keys last)
    (ends : last = (info.domain, info.declaration)) (record : info.kind = .record)
    (resolved : resolveKeyWithin index expansions domain part key = .ok ref) :
    ref.target = .record info.declared := by
  induction chain generalizing expansions domain part ref with
  | done source _ =>
    subst ends
    have own_eq := lastDeclaration?_key (classified.entry found).source
    obtain rfl := (lastDeclaration?_key source).2.symm.trans own_eq.2
    rw [resolveKeyWithin, found] at resolved
    simp only [nameType, record] at resolved
    cases resolved
    rfl
  | step source refers _ ih =>
    obtain ⟨known, there, -⟩ := shows_of_resolveKeyWithin classified resolved
    have entry := classified.entry there
    cases Option.some.inj (source.symm.trans entry.source)
    have kind : known.kind = .alias := by
      by_contra notAlias
      rw [entry.unreferring_of_not_alias notAlias] at refers
      cases refers
    cases expansions with
    | zero =>
      rw [resolveKeyWithin_zero there kind] at resolved
      cases resolved
    | succ expansions =>
      rw [resolveKeyWithin_succ there kind] at resolved
      obtain ⟨meaning, meant, rfl⟩ := map_eq_ok_iff.mp resolved
      rw [resolveExpression_eq, refers] at meant
      have reached : meaning.target = .record info.declared := ih ends meant
      exact reached

end Chains

/-- An expression of a domain is a reference that leads to a declaration, on a chain of keys. -/
def LeadsTo (domains : List Domain) (domain : String) (expression : TypeExpression)
    (keys : List String) (last : String × TypeDeclaration) : Prop :=
  ∃ reference, expression.reference? = some reference ∧
    ReferenceChain (lastDeclaration? domains) (qualify domain reference) keys last

theorem LeadsTo.unique {domains : List Domain} {domain : String} {expression : TypeExpression}
    {keys others : List String} {last : String × TypeDeclaration}
    (leads : LeadsTo domains domain expression keys last)
    (other : LeadsTo domains domain expression others last) : keys = others := by
  obtain ⟨reference, refers, chain⟩ := leads
  obtain ⟨_, same, otherChain⟩ := other
  cases Option.some.inj (refers.symm.trans same)
  exact (chain.unique otherChain).1

end ProtocolGen.Types

namespace ProtocolGen.Emission

open ProtocolGen.Types

theorem annotation_own {info : TypeInfo} :
    annotation (some info.domain) false (.record info.declared) = Naming.className info.id := by
  simp [ annotation, quotedIf, qualifiedName, isOwn, TypeInfo.declared]

/-- The field of a property that leads to a record, in the class of the record itself. -/
theorem indirect_of_self {domains : List Domain} {index : TypeIndex} {info : TypeInfo}
    {property : Property} {ref : TypeRef} (classified : Classified domains index)
    (resolved : index.resolve info.domain (some property.name) property.expression = .ok ref)
    (target : ref.target = .record info.declared) :
    (fieldOf index (some info.domain) (Naming.className info.id) property ref).indirect ↔
      property.optional ∨ ref = .record info.declared := by
  have bare : index.needsIndirection ref = true := by
    rw [needsIndirection_of_resolveWithin classified resolved, target]
    rfl
  simp only [fieldOf, bare, Bool.and_true, Bool.or_eq_true, Bool.and_eq_true, decide_eq_true_eq]
  refine or_congr_right ⟨fun named => ?_, ?_⟩
  · cases ref with
    | record declared => exact target
    | primitive | any | map | array | enumeration | raw => cases target
    | _ declared meaning => cases named.1
  · rintro rfl
    exact ⟨rfl, annotation_own⟩

/-- The properties that lead to a record are those whose chain of references ends at its declaration. In
the class of the record itself, the field of such a property is indirect when the property is optional
or the chain has no alias on it. -/
theorem self_reference_is_indirect_iff {domains : List Domain} {index : TypeIndex} {own : String}
    {info : TypeInfo} {properties : List Property} {fields : List Field}
    (accepted : classify domains = .ok index) (found : index.find? own = some info)
    (record : info.kind = .record)
    (made : fieldsOf index (some info.domain) info.domain (Naming.className info.id) properties =
      .ok fields) :
    ∀ field ∈ fields,
      (field.ref.target = .record info.declared ↔ ∃ keys,
        LeadsTo domains info.domain field.property.expression keys (info.domain, info.declaration)) ∧
      ∀ keys,
        LeadsTo domains info.domain field.property.expression keys (info.domain, info.declaration) →
          (field.indirect ↔ field.property.optional ∨ keys = [own]) := by
  intro field member
  have classified := Classified.of_classify accepted
  obtain ⟨property, ref, resolved, rfl⟩ := exists_fieldOf_of_mem made member
  have leads {keys : List String} (way : LeadsTo domains info.domain property.expression keys
      (info.domain, info.declaration)) : ref.target = .record info.declared := by
    obtain ⟨reference, refers, chain⟩ := way
    rw [TypeIndex.resolve, TypeIndex.resolveWithin, resolveExpression_eq, refers] at resolved
    exact target_of_chain classified found chain rfl record resolved
  have way (target : ref.target = .record info.declared) : ∃ keys,
      LeadsTo domains info.domain property.expression keys (info.domain, info.declaration) ∧
        (ref = .record info.declared ↔ keys = [own]) := by
    obtain ⟨reference, refers, onward⟩ := reference_of_target_record resolved target
    obtain ⟨keys, chain, direct⟩ := exists_chain_of_target_record classified found onward target
    exact ⟨keys, ⟨reference, refers, chain⟩, direct⟩
  refine ⟨⟨fun target => ?_, fun somewhere => ?_⟩, fun keys led => ?_⟩
  · obtain ⟨keys, led, -⟩ := way target
    exact ⟨keys, led⟩
  · obtain ⟨keys, led⟩ := somewhere
    exact leads led
  · obtain ⟨others, other, direct⟩ := way (leads led)
    obtain rfl := led.unique other
    rw [indirect_of_self classified resolved (leads led), direct]
    rfl

def referenceProperty (name reference : String) (optional : Bool) : Property :=
  ⟨.plain ⟨none, none, some reference, none⟩, name, optional, false, false⟩

def nodeProperties : List Property :=
  [referenceProperty "left" "Node" false, referenceProperty "spare" "Link" true,
    referenceProperty "next" "Link" false]

def node : TypeDeclaration :=
  ⟨.plain ⟨none, some "object", none, none⟩, "Node", some nodeProperties, false, false⟩

/-- A node leads to itself at once and by way of a link, which is an alias of one in another domain. -/
def ring : Domain :=
  ⟨"Ring", none, false, false, [node, referring "Rope.Tie" "Link"], [], []⟩

def rope : Domain := ⟨"Rope", none, false, false, [referring "Ring.Node" "Tie"], [], []⟩

def ringIndex : TypeIndex :=
  ⟨[⟨"Ring", "Node", .record, false, node⟩,
    ⟨"Ring", "Link", .alias, false, referring "Rope.Tie" "Link"⟩,
    ⟨"Rope", "Tie", .alias, false, referring "Ring.Node" "Tie"⟩]⟩

theorem classify_ring : classify [ring, rope] = .ok ringIndex := by decide +kernel

theorem lastDeclaration?_node : lastDeclaration? [ring, rope] "Ring.Node" = some ("Ring", node) := rfl

theorem leadsTo_link {optional : Bool} {name : String} :
    LeadsTo [ring, rope] "Ring" (referenceProperty name "Link" optional).expression
      ["Ring.Link", "Rope.Tie", "Ring.Node"] ("Ring", node) := by
  have link : lastDeclaration? [ring, rope] "Ring.Link" =
      some ("Ring", referring "Rope.Tie" "Link") := rfl
  have tie : lastDeclaration? [ring, rope] "Rope.Tie" =
      some ("Rope", referring "Ring.Node" "Tie") := rfl
  exact ⟨"Link", rfl, .step link rfl (.step tie rfl (.done lastDeclaration?_node rfl))⟩

theorem leadsTo_node {optional : Bool} {name : String} :
    LeadsTo [ring, rope] "Ring" (referenceProperty name "Node" optional).expression ["Ring.Node"]
      ("Ring", node) :=
  ⟨"Node", rfl, .done lastDeclaration?_node rfl⟩

/-- The required node and the optional link are indirect, and the required link is not. -/
theorem ring_links_are_indirect_iff_optional : classify [ring, rope] = .ok ringIndex ∧
    ∃ left spare next,
      fieldsOf ringIndex (some "Ring") "Ring" "Node" nodeProperties = .ok [left, spare, next] ∧
      (∀ field ∈ [left, spare, next],
        field.ref.target = .record ⟨"Ring", "Ring.Node", "Node"⟩) ∧
      left.indirect ∧ spare.indirect ∧ ¬ next.indirect := by
  have found : ringIndex.find? "Ring.Node" = some ⟨"Ring", "Node", .record, false, node⟩ := rfl
  obtain ⟨left, spare, next, made, properties⟩ : ∃ left spare next,
      fieldsOf ringIndex (some "Ring") "Ring" "Node" nodeProperties = .ok [left, spare, next] ∧
        [left, spare, next].map Field.property = nodeProperties :=
    ⟨_, _, _, rfl, rfl⟩
  obtain ⟨leftIs, spareIs, nextIs⟩ : left.property = referenceProperty "left" "Node" false ∧
      spare.property = referenceProperty "spare" "Link" true ∧
      next.property = referenceProperty "next" "Link" false := by
    simpa [nodeProperties] using properties
  have leftLeads := leftIs ▸ @leadsTo_node false "left"
  have spareLeads := spareIs ▸ @leadsTo_link true "spare"
  have nextLeads := nextIs ▸ @leadsTo_link false "next"
  have each := self_reference_is_indirect_iff classify_ring found rfl made
  simp only [List.forall_mem_cons] at each
  obtain ⟨⟨leftTarget, leftIff⟩, ⟨spareTarget, spareIff⟩, ⟨nextTarget, nextIff⟩, -⟩ := each
  refine ⟨classify_ring, left, spare, next, made, ?_, (leftIff _ leftLeads).mpr (.inr rfl),
    (spareIff _ spareLeads).mpr (.inl (by rw [spareIs]; rfl)), fun indirect => ?_⟩
  · simp only [List.forall_mem_cons]
    exact ⟨leftTarget.mpr ⟨_, leftLeads⟩, spareTarget.mpr ⟨_, spareLeads⟩,
      nextTarget.mpr ⟨_, nextLeads⟩, by simp⟩
  · have either := (nextIff _ nextLeads).mp indirect
    rw [nextIs] at either
    revert either
    decide

/-- A node holds the next one by value: its field leads to the node and has neither a default nor a way
to be `None`. -/
theorem ring_node_holds_node : classify [ring, rope] = .ok ringIndex ∧
    ∃ field, (fieldsOf ringIndex (some "Ring") "Ring" "Node" nodeProperties).map List.getLast? =
        .ok (some field) ∧
      field.ref.target = .record ⟨"Ring", "Ring.Node", "Node"⟩ ∧ field.indirect = false ∧
      field.default? (some "Ring") = none ∧ field.annotation (some "Ring") = "Link" := by
  exact ⟨classify_ring, _, rfl, rfl, rfl, rfl, rfl⟩

end ProtocolGen.Emission
