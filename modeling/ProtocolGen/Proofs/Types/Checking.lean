import ProtocolGen.Proofs.Types.Declarations

/-!
# What the checks accept

Which declarations have a kind, and which expressions pass the check of what they lead to.
-/

set_option autoImplicit false

namespace ProtocolGen.Types

/-! ## Declarations that have a kind -/

/-- The type words of declarations that have neither a reference nor labels. -/
def declarableWords : List String :=
  ["object", "string", "integer", "number", "boolean", "array", "any"]

/-- A declaration is a reference, or a list of labels for a string, or has one of a few words. -/
inductive Declarable (declaration : TypeDeclaration) : Prop where
  | reference : declaration.expression.reference?.isSome → Declarable declaration
  | labels :
      declaration.expression.labels?.isSome → declaration.expression.type = some "string" →
      Declarable declaration
  | word {word : String} :
      declaration.expression.labels? = none → declaration.expression.type = some word →
      word ∈ declarableWords → Declarable declaration

def primitiveWords : List String := ["string", "integer", "number", "boolean"]

theorem mem_declarableWords_iff {word : String} :
    word ∈ declarableWords ↔
      word = "object" ∨ word ∈ primitiveWords ∨ word = "array" ∨ word = "any" := by
  simp [declarableWords, primitiveWords, or_assoc]

theorem isSome_ofWord?_iff {type : Option String} :
    (type.bind Primitive.ofWord?).isSome ↔ ∃ word ∈ primitiveWords, type = some word := by
  cases type with
  | none => simp
  | some word =>
    rw [Option.bind_some]
    unfold Primitive.ofWord?
    split <;> simp_all [primitiveWords]

/-- Without a reference and without labels, only the type word counts. -/
theorem declarable_iff_of_unmarked {declaration : TypeDeclaration}
    (unreferring : declaration.expression.reference? = none)
    (unlabelled : declaration.expression.labels? = none) :
    Declarable declaration ↔
      ∃ word ∈ declarableWords, declaration.expression.type = some word := by
  constructor
  · intro declarable
    cases declarable with
    | reference refers => simp [unreferring] at refers
    | labels labelled _ => simp [unlabelled] at labelled
    | word _ type known => exact ⟨_, known, type⟩
  · intro typed
    obtain ⟨word, known, type⟩ := typed
    exact .word unlabelled type known

theorem exists_kindOf_eq_ok_iff {domain : String} {declaration : TypeDeclaration} :
    (∃ kind, kindOf domain declaration = .ok kind) ↔ Declarable declaration := by
  unfold kindOf
  dsimp only
  by_cases referring : declaration.expression.reference?.isSome
  · rw [if_pos referring]
    exact ⟨fun _ => .reference referring, fun _ => ⟨.alias, rfl⟩⟩
  rw [if_neg referring]
  by_cases labelled : declaration.expression.labels?.isSome
  · rw [if_pos labelled]
    by_cases string : declaration.expression.type = some "string"
    · rw [if_pos string]
      exact ⟨fun _ => .labels labelled string, fun _ => ⟨.enumeration, rfl⟩⟩
    · rw [if_neg string]
      constructor
      · intro made
        obtain ⟨_, impossible⟩ := made
        cases impossible
      · intro declarable
        cases declarable with
        | reference refers => exact absurd refers referring
        | labels _ isString => exact absurd isString string
        | word unlabelled _ _ => simp [unlabelled] at labelled
  rw [if_neg labelled,
    declarable_iff_of_unmarked (by simpa using referring) (by simpa using labelled)]
  split
  · next type => simp [type, declarableWords]
  · next type => simp [type, declarableWords]
  · next type => simp [type, declarableWords]
  · next _ notObject notArray notAny =>
    have primitives : (declaration.expression.type.bind Primitive.ofWord?).isSome ↔
        ∃ word ∈ declarableWords, declaration.expression.type = some word := by
      rw [isSome_ofWord?_iff]
      constructor
      · intro typed
        obtain ⟨word, primitive, type⟩ := typed
        exact ⟨word, mem_declarableWords_iff.mpr (.inr (.inl primitive)), type⟩
      · intro typed
        obtain ⟨word, known, type⟩ := typed
        rcases mem_declarableWords_iff.mp known with rfl | primitive | rfl | rfl
        · exact absurd type notObject
        · exact ⟨word, primitive, type⟩
        · exact absurd type notArray
        · exact absurd type notAny
    rw [← primitives]
    split <;> simp_all

/-! ## Expressions that lead to something known -/

/-- The type words of expressions that need nothing else. -/
def plainWords : List String := ["string", "integer", "number", "boolean", "any", "object"]

theorem mem_plainWords_iff {word : String} :
    word ∈ plainWords ↔ word ∈ primitiveWords ∨ word = "any" ∨ word = "object" := by
  simp [plainWords, primitiveWords, or_assoc]

/-- Followed through the items of arrays, an expression comes to a reference to a declared key or to
a type that needs no declaration. A reference counts before any type word. -/
inductive Grounded (declared : String → Prop) (domain : String) : TypeExpression → Prop where
  | reference {expression : TypeExpression} {reference : String} :
      expression.reference? = some reference → declared (qualify domain reference) →
      Grounded declared domain expression
  | word {expression : TypeExpression} {word : String} :
      expression.reference? = none → expression.type = some word → word ∈ plainWords →
      Grounded declared domain expression
  | array {expression items : TypeExpression} :
      expression.reference? = none → expression.type = some "array" →
      expression.items? = some items → Grounded declared domain items →
      Grounded declared domain expression

/-- The expressions that a domain uses: its properties of every kind, and its arrays. -/
inductive Uses (domain : Domain) : TypeExpression → Prop where
  | array {declaration : TypeDeclaration} :
      declaration ∈ domain.types → declaration.expression.type = some "array" →
      declaration.expression.reference? = none → Uses domain declaration.expression
  | property {declaration : TypeDeclaration} {property : Property} :
      declaration ∈ domain.types → property ∈ declaration.propertyList →
      Uses domain property.expression
  | parameter {command : Command} {property : Property} :
      command ∈ domain.commands → property ∈ command.parameters → Uses domain property.expression
  | returned {command : Command} {property : Property} :
      command ∈ domain.commands → property ∈ command.returns → Uses domain property.expression
  | eventParameter {event : Event} {property : Property} :
      event ∈ domain.events → property ∈ event.parameters → Uses domain property.expression

theorem grounded_iff {declared : String → Prop} {domain : String} {expression : TypeExpression} :
    Grounded declared domain expression ↔
      match expression.reference? with
      | some reference => declared (qualify domain reference)
      | none =>
        expression.type = some "array" ∧
            (∃ items, expression.items? = some items ∧ Grounded declared domain items) ∨
          ∃ word ∈ plainWords, expression.type = some word := by
  constructor
  · intro grounded
    cases grounded with
    | reference refers known => simpa only [refers] using known
    | word unreferring type plain => simpa only [unreferring] using .inr ⟨_, plain, type⟩
    | array unreferring type made items =>
      simpa only [unreferring] using .inl ⟨type, _, made, items⟩
  · cases refers : expression.reference? with
    | some reference => exact fun known => .reference refers known
    | none =>
      intro leads
      rcases leads with ⟨type, items, made, grounded⟩ | ⟨word, plain, type⟩
      · exact .array refers type made grounded
      · exact .word refers type plain

section Expressions

variable {known : String → Bool} {domain part : String}

theorem checkFacets_eq_ok_iff {facets : Facets} {ofItems : Except Refusal Unit} :
    checkExpression.checkFacets known domain part facets ofItems = .ok () ↔
      match facets.reference.filter (· != "") with
      | some reference => known (qualify domain reference) = true
      | none =>
        facets.type = some "array" ∧ ofItems = .ok () ∨
          ∃ word ∈ plainWords, facets.type = some word := by
  unfold checkExpression.checkFacets
  cases facets.reference.filter (· != "") with
  | some reference => by_cases found : known (qualify domain reference) <;> simp [found]
  | none =>
    dsimp only
    split
    · next type => simp [type, plainWords]
    · next type => simp [type, plainWords]
    · next type => simp [type, plainWords]
    · next _ notArray notAny notObject =>
      have primitives : (facets.type.bind Primitive.ofWord?).isSome ↔
          ∃ word ∈ plainWords, facets.type = some word := by
        rw [isSome_ofWord?_iff]
        constructor
        · intro typed
          obtain ⟨word, primitive, type⟩ := typed
          exact ⟨word, mem_plainWords_iff.mpr (.inl primitive), type⟩
        · intro typed
          obtain ⟨word, plain, type⟩ := typed
          rcases mem_plainWords_iff.mp plain with primitive | rfl | rfl
          · exact ⟨word, primitive, type⟩
          · exact absurd type notAny
          · exact absurd type notObject
      have noArray : facets.type ≠ some "array" := notArray
      rw [← primitives]
      split
      · next primitive => simp [primitive]
      · next other => simp [other, noArray]

/-- An expression passes the check exactly when it leads to something known. -/
theorem checkExpression_eq_ok_iff {expression : TypeExpression} :
    checkExpression known domain part expression = .ok () ↔
      Grounded (fun key => known key = true) domain expression := by
  induction expression with
  | plain facets =>
    rw [checkExpression, checkFacets_eq_ok_iff, grounded_iff]
    simp [TypeExpression.reference?, TypeExpression.facets, TypeExpression.type,
      TypeExpression.items?]
  | withItems facets items ih =>
    rw [checkExpression, grounded_iff, checkFacets_eq_ok_iff, ih]
    simp [TypeExpression.reference?, TypeExpression.facets, TypeExpression.type,
      TypeExpression.items?]

end Expressions

theorem Grounded.mono {declared other : String → Prop} {domain : String}
    {expression : TypeExpression} (implied : ∀ key, declared key → other key)
    (grounded : Grounded declared domain expression) : Grounded other domain expression := by
  induction grounded with
  | reference refers known => exact .reference refers (implied _ known)
  | word unreferring type plain => exact .word unreferring type plain
  | array unreferring type made _ ih => exact .array unreferring type made ih

theorem mem_namedProperties_iff {owner : String} {properties : List Property}
    {part : String} {expression : TypeExpression} :
    (part, expression) ∈ namedProperties owner properties ↔
      ∃ property ∈ properties, owner ++ "." ++ property.name = part ∧
        property.expression = expression := by
  simp [namedProperties]

theorem exists_mem_domainExpressions_iff {domain : Domain} {expression : TypeExpression} :
    (∃ part, (part, expression) ∈ domainExpressions domain) ↔ Uses domain expression := by
  simp only [domainExpressions, declarationExpressions, List.mem_append, List.mem_flatMap,
    mem_namedProperties_iff]
  constructor
  · intro checked
    obtain ⟨part, (⟨declaration, declared, own | ⟨property, member, -, rfl⟩⟩ |
      ⟨command, given, property, member | member, -, rfl⟩) |
      ⟨event, given, property, member, -, rfl⟩⟩ := checked
    · split at own
      · next array =>
        obtain ⟨rfl, rfl⟩ : part = declaration.id ∧ expression = declaration.expression := by
          simpa using own
        simp only [Bool.and_eq_true, decide_eq_true_eq, Option.isNone_iff_eq_none] at array
        exact .array declared array.1 array.2
      · cases own
    · exact .property declared member
    · exact .parameter given member
    · exact .returned given member
    · exact .eventParameter given member
  · intro used
    cases used with
    | array declared array unreferring =>
      exact ⟨_, .inl (.inl ⟨_, declared, .inl (by simp [array, unreferring]; rfl)⟩)⟩
    | property declared member =>
      exact ⟨_, .inl (.inl ⟨_, declared, .inr ⟨_, member, rfl, rfl⟩⟩)⟩
    | parameter given member => exact ⟨_, .inl (.inr ⟨_, given, _, .inl member, rfl, rfl⟩)⟩
    | returned given member => exact ⟨_, .inl (.inr ⟨_, given, _, .inr member, rfl, rfl⟩)⟩
    | eventParameter given member => exact ⟨_, .inr ⟨_, given, _, member, rfl, rfl⟩⟩

end ProtocolGen.Types
