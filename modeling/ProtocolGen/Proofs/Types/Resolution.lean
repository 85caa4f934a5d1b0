import ProtocolGen.Proofs.Types.Classification
import ProtocolGen.Types.Reference

/-!
# Where an expression leads

An expression is a type of its own or comes, by way of the items of arrays, to one declared type. What
it resolves to is then made from what that type resolves to, in one way for all types. An accepted
index is closed: whatever its aliases lead to has an entry.
-/

set_option autoImplicit false

namespace ProtocolGen.Types

/-! ## Entries of an index -/

namespace TypeIndex

def declares (index : TypeIndex) (key : String) : Bool := (index.find? key).isSome

variable {index : TypeIndex} {key : String} {info : TypeInfo}

theorem mem_of_find? (found : index.find? key = some info) : info ∈ index.types :=
  List.mem_of_find?_eq_some found

theorem key_of_find? (found : index.find? key = some info) : info.key = key := by
  simpa using List.find?_some found

theorem declares_iff_mem : index.declares key ↔ key ∈ index.types.map TypeInfo.key := by
  simp [declares, find?, List.find?_isSome, List.mem_map]

theorem exists_find?_of_declares (declared : index.declares key) :
    ∃ info, index.find? key = some info :=
  Option.isSome_iff_exists.mp declared

end TypeIndex

/-- An entry has the content of the last declaration under its key, and is marked by the end of the
chain of references from there. -/
structure Entry (domains : List Domain) (key : String) (info : TypeInfo) : Prop where
  source : lastDeclaration? domains key = some (info.domain, info.declaration)
  id : info.id = info.declaration.id
  kind : kindOf info.domain info.declaration = .ok info.kind
  direct : ∃ keys last, ReferenceChain (lastDeclaration? domains) key keys last ∧
    info.direct = isDirectEnd last

theorem Entry.unique {domains : List Domain} {key : String} {info other : TypeInfo}
    (entry : Entry domains key info) (otherEntry : Entry domains key other) : info = other := by
  obtain ⟨source, id, kind, keys, last, chain, direct⟩ := entry
  obtain ⟨otherSource, otherId, otherKind, otherKeys, otherLast, otherChain, otherDirect⟩ := otherEntry
  obtain ⟨domain, declaration⟩ := Prod.mk.inj (Option.some.inj (source.symm.trans otherSource))
  have sameKind := Except.ok.inj (kind.symm.trans (by rw [domain, declaration, otherKind]))
  have sameLast := (chain.unique otherChain).2
  cases info
  cases other
  simp_all

section Classified

variable {domains : List Domain} {index : TypeIndex} (classified : Classified domains index)

include classified

theorem Classified.declares_iff {key : String} :
    index.declares key ↔ key ∈ declaredKeys domains := by
  rw [TypeIndex.declares_iff_mem, classified.keys, List.mem_eraseDups]

theorem Classified.entry {key : String} {info : TypeInfo} (found : index.find? key = some info) :
    Entry domains key info := by
  obtain ⟨source, id, kind⟩ := classified.content info (TypeIndex.mem_of_find? found)
  have direct := classified.direct info (TypeIndex.mem_of_find? found)
  rw [TypeIndex.key_of_find? found] at source direct
  exact ⟨source, id, kind, direct⟩

end Classified

/-- Whatever an alias leads to has an entry. -/
def TypeIndex.Closed (index : TypeIndex) : Prop :=
  ∀ key info, index.find? key = some info → info.kind = .alias →
    Grounded (fun key => index.declares key) info.domain info.declaration.expression

/-- The type word of an alias that is no reference needs no declaration, or it is an array. -/
theorem type_of_kindOf_alias {domain : String} {declaration : TypeDeclaration}
    (kind : kindOf domain declaration = .ok .alias)
    (unreferring : declaration.expression.reference? = none) :
    declaration.expression.type = some "array" ∨
      ∃ word ∈ plainWords, declaration.expression.type = some word := by
  unfold kindOf at kind
  simp only [unreferring, Option.isSome_none, Bool.false_eq_true, if_false] at kind
  split at kind
  · split at kind <;> simp at kind
  · split at kind
    · split at kind <;> simp at kind
    · next type => exact .inl type
    · next type => exact .inr ⟨"any", by decide, type⟩
    · next _ _ _ _ =>
      split at kind
      · next primitive =>
        obtain ⟨word, primitive, type⟩ := isSome_ofWord?_iff.mp primitive
        exact .inr ⟨word, mem_plainWords_iff.mpr (.inl primitive), type⟩
      · cases kind

/-- An accepted index is closed. -/
theorem TypeIndex.Closed.of_classify {domains : List Domain} {index : TypeIndex}
    (accepted : classify domains = .ok index) : index.Closed := by
  intro key info found kind
  have classified := Classified.of_classify accepted
  obtain ⟨source, -, kindEq, _, _, chain, -⟩ := classified.entry found
  have grounds : ∀ other, other ∈ declaredKeys domains → index.declares other :=
    fun _ => classified.declares_iff.mpr
  cases refers : info.declaration.expression.reference? with
  | some reference =>
    have target : (lastDeclaration? domains (qualify info.domain reference)).isSome := by
      cases chain with
      | done other unreferring =>
        cases Option.some.inj (source.symm.trans other)
        cases refers.symm.trans unreferring
      | step other otherRefers rest =>
        cases Option.some.inj (source.symm.trans other)
        cases Option.some.inj (refers.symm.trans otherRefers)
        exact rest.sources_isSome
    exact .reference refers (grounds _ (lastDeclaration?_isSome_iff.mp target))
  | none =>
    rw [kind] at kindEq
    rcases type_of_kindOf_alias kindEq refers with array | ⟨word, plain, type⟩
    · obtain ⟨domain, inDomains, name, declared⟩ :=
        mem_declarationsOf_iff.mp (lastDeclaration?_key source).1
      have used : Uses domain info.declaration.expression := .array declared array refers
      rw [← name]
      exact ((Acceptable.of_classify accepted).grounded domain inDomains _ used).mono grounds
    · exact .word refers type plain

/-! ## The type that an expression names -/

/-- The reference that an expression comes to through the items of arrays. -/
def namedReference? : TypeExpression → Option String
  | .plain facets => facets.reference.filter (· != "")
  | .withItems facets items =>
    (facets.reference.filter (· != "")).or
      (if facets.type = some "array" then namedReference? items else none)

/-- The key of the type that an expression of a domain comes to. -/
def namedKey? (domain : String) (expression : TypeExpression) : Option String :=
  (namedReference? expression).map (qualify domain)

variable {declared : String → Prop} {domain : String} {expression : TypeExpression}

theorem namedReference?_eq (expression : TypeExpression) :
    namedReference? expression = expression.reference?.or
      (if expression.type = some "array" then expression.items?.bind namedReference? else none) := by
  cases expression with
  | plain facets =>
    simp only [TypeExpression.items?, Option.bind_none, ite_self, Option.or_none]
    rfl
  | withItems facets items => rfl

theorem namedReference?_of_reference {reference : String}
    (refers : expression.reference? = some reference) :
    namedReference? expression = some reference := by
  rw [namedReference?_eq, refers, Option.some_or]

theorem namedReference?_of_array {items : TypeExpression}
    (unreferring : expression.reference? = none) (array : expression.type = some "array")
    (made : expression.items? = some items) :
    namedReference? expression = namedReference? items := by
  rw [namedReference?_eq, unreferring, Option.none_or, if_pos array, made, Option.bind_some]

theorem namedReference?_of_word {word : String} (unreferring : expression.reference? = none)
    (type : expression.type = some word) (plain : word ∈ plainWords) :
    namedReference? expression = none := by
  have other : expression.type ≠ some "array" := by
    intro array
    cases Option.some.inj (array.symm.trans type)
    exact absurd plain (by decide)
  rw [namedReference?_eq, unreferring, Option.none_or, if_neg other]

/-- An expression that leads to something known names a known type, if any. -/
theorem Grounded.declared_of_namedKey? {key : String}
    (grounded : Grounded declared domain expression)
    (named : namedKey? domain expression = some key) : declared key := by
  induction grounded with
  | reference refers known =>
    rw [namedKey?, namedReference?_of_reference refers] at named
    exact Option.some.inj named ▸ known
  | word unreferring type plain =>
    rw [namedKey?, namedReference?_of_word unreferring type plain] at named
    cases named
  | array unreferring type made _ ih =>
    rw [namedKey?, namedReference?_of_array unreferring type made] at named
    exact ih named

/-! ## What an expression resolves to -/

theorem resolveExpression_eq (resolveKey : String → Except Failure TypeRef) (domain : String)
    (owner : Option String) (expression : TypeExpression) :
    resolveExpression resolveKey domain owner expression =
      match expression.reference? with
      | some reference => resolveKey (qualify domain reference)
      | none =>
        match expression.type with
        | some "array" =>
          match expression.items? with
          | some items => (resolveExpression resolveKey domain none items).map .array
          | none => .error (.refused ⟨domain, owner.getD "?", .arrayWithoutItems⟩)
        | some "any" => .ok .any
        | some "object" => .ok .map
        | type =>
          match type.bind Primitive.ofWord? with
          | some primitive => .ok (.primitive primitive)
          | none => .error (.refused ⟨domain, owner.getD "?", .unknownType type⟩) := by
  cases expression <;> rfl

/-- An expression that names no type resolves to the same whatever keys resolve to. -/
theorem Grounded.resolves_alone (grounded : Grounded declared domain expression)
    (unnamed : namedKey? domain expression = none) :
    ∃ ref, ∀ resolveKey owner,
      resolveExpression resolveKey domain owner expression = .ok ref := by
  induction grounded with
  | reference refers _ =>
    rw [namedKey?, namedReference?_of_reference refers] at unnamed
    cases unnamed
  | word unreferring type plain =>
    simp only [plainWords, List.mem_cons, List.not_mem_nil, or_false] at plain
    rcases plain with rfl | rfl | rfl | rfl | rfl | rfl <;>
      exact ⟨_, fun _ _ => by rw [resolveExpression_eq, unreferring, type]; rfl⟩
  | array unreferring type made _ ih =>
    rw [namedKey?, namedReference?_of_array unreferring type made] at unnamed
    obtain ⟨ref, resolved⟩ := ih unnamed
    refine ⟨.array ref, fun resolveKey owner => ?_⟩
    rw [resolveExpression_eq, unreferring, type, made]
    simp only [resolved]
    rfl

/-- An expression that names a type resolves to something made from what that type resolves to. -/
theorem Grounded.resolves_by_key {key : String} (grounded : Grounded declared domain expression)
    (named : namedKey? domain expression = some key) :
    ∃ wrap : TypeRef → TypeRef, ∀ resolveKey owner,
      resolveExpression resolveKey domain owner expression = (resolveKey key).map wrap := by
  induction grounded with
  | reference refers _ =>
    rw [namedKey?, namedReference?_of_reference refers] at named
    cases named
    refine ⟨id, fun resolveKey owner => ?_⟩
    rw [resolveExpression_eq, refers, Except.map_id, id]
  | word unreferring type plain =>
    rw [namedKey?, namedReference?_of_word unreferring type plain] at named
    cases named
  | array unreferring type made _ ih =>
    rw [namedKey?, namedReference?_of_array unreferring type made] at named
    obtain ⟨wrap, resolved⟩ := ih named
    refine ⟨.array ∘ wrap, fun resolveKey owner => ?_⟩
    rw [resolveExpression_eq, unreferring, type, made]
    simp only [resolved]
    cases resolveKey key <;> rfl

theorem Grounded.resolveExpression_congr {resolveKey other : String → Except Failure TypeRef}
    (grounded : Grounded declared domain expression)
    (same : ∀ key, declared key → resolveKey key = other key) (owner : Option String) :
    resolveExpression resolveKey domain owner expression =
      resolveExpression other domain owner expression := by
  cases named : namedKey? domain expression with
  | none =>
    obtain ⟨ref, resolved⟩ := grounded.resolves_alone named
    rw [resolved, resolved]
  | some key =>
    obtain ⟨wrap, resolved⟩ := grounded.resolves_by_key named
    rw [resolved, resolved, same key (grounded.declared_of_namedKey? named)]

/-- Keys that are not declared are refused, each for a cause of its own. -/
def RefusesUnknown (declared : String → Prop) (unknown : String → Refusal)
    (resolveKey : String → Except Failure TypeRef) : Prop :=
  ∀ key, ¬ declared key → resolveKey key = .error (.refused (unknown key))

def Refused (declared : String → Prop) (unknown : String → Refusal) (domain : String)
    (owner : Option String) (expression : TypeExpression) : Prop :=
  ∃ refusal, ∀ resolveKey, RefusesUnknown declared unknown resolveKey →
    resolveExpression resolveKey domain owner expression = .error (.refused refusal)

theorem refused_of_items {unknown : String → Refusal} (owner : Option String)
    (ungrounded : ¬ Grounded declared domain expression)
    (ofItems : ∀ items, expression.items? = some items → ¬ Grounded declared domain items →
      Refused declared unknown domain none items) :
    Refused declared unknown domain owner expression := by
  rw [grounded_iff] at ungrounded
  cases refers : expression.reference? with
  | some reference =>
    rw [refers] at ungrounded
    refine ⟨unknown (qualify domain reference), fun resolveKey refuses => ?_⟩
    rw [resolveExpression_eq, refers]
    exact refuses _ ungrounded
  | none =>
    simp only [refers, not_or, not_exists, not_and] at ungrounded
    obtain ⟨noArray, noWord⟩ := ungrounded
    by_cases array : expression.type = some "array"
    · cases made : expression.items? with
      | none =>
        refine ⟨⟨domain, owner.getD "?", .arrayWithoutItems⟩, fun resolveKey _ => ?_⟩
        rw [resolveExpression_eq, refers, array, made]
        rfl
      | some items =>
        obtain ⟨refusal, refused⟩ := ofItems items made (noArray array items made)
        refine ⟨refusal, fun resolveKey refuses => ?_⟩
        rw [resolveExpression_eq, refers, array, made]
        simp only [refused resolveKey refuses]
        rfl
    · have noPrimitive : expression.type.bind Primitive.ofWord? = none := by
        rw [← Option.not_isSome_iff_eq_none, isSome_ofWord?_iff]
        intro typed
        obtain ⟨word, primitive, type⟩ := typed
        exact noWord word (mem_plainWords_iff.mpr (.inl primitive)) type
      refine ⟨⟨domain, owner.getD "?", .unknownType expression.type⟩, fun resolveKey _ => ?_⟩
      rw [resolveExpression_eq, refers]
      dsimp only
      split
      · next type => exact absurd type array
      · next type => exact absurd type (noWord "any" (by decide))
      · next type => exact absurd type (noWord "object" (by decide))
      · rw [noPrimitive]

/-- An expression that leads to nothing known is refused once unknown keys are. -/
theorem refused_of_not_grounded (unknown : String → Refusal) (owner : Option String)
    (ungrounded : ¬ Grounded declared domain expression) :
    Refused declared unknown domain owner expression := by
  induction expression generalizing owner with
  | plain facets => exact refused_of_items owner ungrounded fun items made => nomatch made
  | withItems facets items ih =>
    refine refused_of_items owner ungrounded fun others made others_ungrounded => ?_
    cases made
    exact ih none others_ungrounded

end ProtocolGen.Types
