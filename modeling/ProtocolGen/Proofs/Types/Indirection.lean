import ProtocolGen.Proofs.Types.DeclaredNames

/-!
# Types without an empty state

The index marks a declared type as direct by the end of its chain of references. A resolved type shows
the same by the type that its aliases stand for: a primitive or a record has no empty state of its own,
and every other type has one. Following references and expanding aliases agree, since both come to the
same declaration as long as it only refers, and a declaration that does not refer settles both.
-/

set_option autoImplicit false

namespace ProtocolGen.Types

/-! ## Marks of declared types -/

/-- The chain of references from a key ends at an enumeration, at an unread payload, or at an alias of
arrays or of any value. -/
def EndsDirect (domains : List Domain) (key : String) : Prop :=
  ∃ keys domain declaration kind,
    ReferenceChain (lastDeclaration? domains) key keys (domain, declaration) ∧
      kindOf domain declaration = .ok kind ∧
      (kind = .enumeration ∨ kind = .raw ∨ kind = .alias ∧
        (declaration.expression.type = some "array" ∨ declaration.expression.type = some "any"))

theorem DeclaredKind.isDirect_iff {type : Option String} {kind : DeclaredKind} :
    kind.isDirect type ↔ kind = .enumeration ∨ kind = .raw ∨
      kind = .alias ∧ (type = some "array" ∨ type = some "any") := by
  cases kind <;> simp [DeclaredKind.isDirect, isDirectWord]

theorem isDirectEnd_iff {source : String × TypeDeclaration} :
    isDirectEnd source ↔ ∃ kind, kindOf source.1 source.2 = .ok kind ∧
      kind.isDirect source.2.expression.type := by
  unfold isDirectEnd
  cases kindOf source.1 source.2 <;> simp

section Entries

variable {domains : List Domain} {key : String} {info : TypeInfo} (entry : Entry domains key info)

include entry

theorem Entry.direct_iff : info.direct ↔ EndsDirect domains key := by
  obtain ⟨keys, ⟨domain, declaration⟩, chain, direct⟩ := entry.direct
  rw [direct, isDirectEnd_iff]
  constructor
  · intro ends
    obtain ⟨kind, kind_eq, isDirect⟩ := ends
    exact ⟨keys, domain, declaration, kind, chain, kind_eq, DeclaredKind.isDirect_iff.mp isDirect⟩
  · intro ends
    obtain ⟨others, otherDomain, otherDeclaration, kind, other, kind_eq, isDirect⟩ := ends
    cases (chain.unique other).2
    exact ⟨kind, kind_eq, DeclaredKind.isDirect_iff.mpr isDirect⟩

/-- A declaration that does not refer settles its own mark. -/
theorem Entry.direct_of_unreferring (unreferring : info.declaration.expression.reference? = none) :
    info.direct = info.kind.isDirect info.declaration.expression.type := by
  obtain ⟨keys, last, chain, direct⟩ := entry.direct
  have last_eq := (chain.unique (.done entry.source unreferring)).2
  rw [direct, last_eq, isDirectEnd, entry.kind]

/-- A declaration that refers has the mark of what it refers to. -/
theorem Entry.direct_of_reference {reference : String} {target : TypeInfo}
    (refers : info.declaration.expression.reference? = some reference)
    (targetEntry : Entry domains (qualify info.domain reference) target) :
    info.direct = target.direct := by
  obtain ⟨keys, last, chain, direct⟩ := entry.direct
  obtain ⟨targetKeys, targetLast, targetChain, targetDirect⟩ := targetEntry.direct
  have last_eq := (chain.unique (.step entry.source refers targetChain)).2
  rw [direct, targetDirect, last_eq]

theorem Entry.unreferring_of_not_alias (notAlias : info.kind ≠ .alias) :
    info.declaration.expression.reference? = none := by
  let shape : Shape := ⟨info.domain, info.declaration, info.kind, entry.kind⟩
  have shaped : shape.declaration.expression.reference? = none :=
    Shape.reference?_eq_none notAlias
  exact shaped

end Entries

/-- An alias that does not refer is none of a table. -/
theorem type_ne_object_of_kindOf_alias {domain : String} {declaration : TypeDeclaration}
    (kind : kindOf domain declaration = .ok .alias)
    (unreferring : declaration.expression.reference? = none) :
    declaration.expression.type ≠ some "object" := by
  intro object
  unfold kindOf at kind
  simp only [unreferring, object, Option.isSome_none, Bool.false_eq_true, if_false] at kind
  split at kind
  · simp at kind
  · split at kind <;> cases kind

/-! ## Marks of resolved types -/

/-- Whether a type has no empty state of its own. -/
def TypeRef.isBare : TypeRef → Bool
  | .primitive _ | .record _ => true
  | _ => false

theorem TypeRef.isBare_iff {ref : TypeRef} : ref.isBare ↔
    (∃ primitive, ref = .primitive primitive) ∨ ∃ declared, ref = .record declared := by
  cases ref <;> simp [TypeRef.isBare]

theorem TypeRef.target_ne_alias (ref : TypeRef) (declared : Declared) (meaning : TypeRef) :
    ref.target ≠ .alias declared meaning := by
  fun_induction TypeRef.target ref with
  | case1 _ _ ih => exact ih
  | case2 other notAlias => exact fun same => notAlias declared meaning same

/-- A resolved key bears the name of its entry, and shows the mark of it. -/
structure Shows (info : TypeInfo) (ref : TypeRef) : Prop where
  named : ref.declared? = some info.declared
  bare : ref.target.isBare = !info.direct

/-- An expression that does not refer shows by itself whether its type has an empty state. -/
theorem isBare_of_unreferring {resolveKey : String → Except Failure TypeRef} {domain : String}
    {owner : Option String} {expression : TypeExpression} {ref : TypeRef}
    (unreferring : expression.reference? = none)
    (resolved : resolveExpression resolveKey domain owner expression = .ok ref) :
    ref.target.isBare = !(isDirectWord expression.type || expression.type = some "object") := by
  rw [resolveExpression_eq, unreferring] at resolved
  dsimp only at resolved
  split at resolved
  · next array =>
    split at resolved
    · obtain ⟨item, -, rfl⟩ := map_eq_ok_iff.mp resolved
      rw [array]
      rfl
    · cases resolved
  · next any =>
    cases resolved
    rw [any]
    rfl
  · next object =>
    cases resolved
    rw [object]
    rfl
  · next notArray notAny notObject =>
    split at resolved
    · cases resolved
      have others : isDirectWord expression.type = false := by
        simp only [isDirectWord, Bool.or_eq_false_iff, decide_eq_false_iff_not]
        exact ⟨notArray, notAny⟩
      rw [others, decide_eq_false notObject]
      rfl
    · cases resolved

section Resolved

variable {domains : List Domain} {index : TypeIndex} {expansions : Nat} {domain part key : String}
  {info : TypeInfo} {ref : TypeRef}

theorem shows_of_not_alias (entry : Entry domains key info) (found : index.find? key = some info)
    (notAlias : info.kind ≠ .alias)
    (resolved : resolveKeyWithin index expansions domain part key = .ok ref) : Shows info ref := by
  have direct := entry.direct_of_unreferring (entry.unreferring_of_not_alias notAlias)
  rw [resolveKeyWithin, found] at resolved
  unfold nameType at resolved
  dsimp only at resolved
  split at resolved
  · next kind =>
    cases resolved
    exact ⟨rfl, by rw [direct, kind]; rfl⟩
  · next kind =>
    cases resolved
    exact ⟨rfl, by rw [direct, kind]; rfl⟩
  · next kind =>
    cases resolved
    exact ⟨rfl, by rw [direct, kind]; rfl⟩
  · next kind => exact absurd kind notAlias

variable (classified : Classified domains index)

include classified

/-- What a key resolves to shows the mark of its entry, however many aliases are expanded. -/
theorem shows_of_resolveKeyWithin
    (resolved : resolveKeyWithin index expansions domain part key = .ok ref) :
    ∃ info, index.find? key = some info ∧ Shows info ref := by
  induction expansions generalizing domain part key ref with
  | zero =>
    cases found : index.find? key with
    | none =>
      rw [resolveKeyWithin, found] at resolved
      cases resolved
    | some info =>
      refine ⟨info, rfl, shows_of_not_alias (classified.entry found) found ?_ resolved⟩
      intro kind
      rw [resolveKeyWithin_zero found kind] at resolved
      cases resolved
  | succ expansions ih =>
    cases found : index.find? key with
    | none =>
      rw [resolveKeyWithin, found] at resolved
      cases resolved
    | some info =>
      refine ⟨info, rfl, ?_⟩
      have entry := classified.entry found
      by_cases kind : info.kind = .alias
      · rw [resolveKeyWithin_succ found kind] at resolved
        obtain ⟨meaning, meant, rfl⟩ := map_eq_ok_iff.mp resolved
        refine ⟨rfl, ?_⟩
        cases refers : info.declaration.expression.reference? with
        | some reference =>
          -- The alias means what it refers to, which has the same chain but for the first key.
          rw [resolveExpression_eq, refers] at meant
          obtain ⟨target, targetFound, shows⟩ := ih meant
          rw [entry.direct_of_reference refers (classified.entry targetFound)]
          exact shows.bare
        | none =>
          have kindEq := kind ▸ entry.kind
          have notObject := type_ne_object_of_kindOf_alias kindEq refers
          have bare := isBare_of_unreferring refers meant
          rw [decide_eq_false notObject, Bool.or_false] at bare
          rw [entry.direct_of_unreferring refers, kind]
          exact bare
      · exact shows_of_not_alias entry found kind resolved

omit classified in
theorem needsIndirection_of_shows (found : index.find? key = some info) (shows : Shows info ref) :
    index.needsIndirection ref = ref.target.isBare := by
  have declared : index.find? info.declared.key = some info := by
    rw [TypeInfo.declared, TypeIndex.key_of_find? found]
    exact found
  simp only [TypeIndex.needsIndirection, shows.named, declared, shows.bare]

theorem needsIndirection_of_resolveKeyWithin
    (resolved : resolveKeyWithin index expansions domain part key = .ok ref) :
    index.needsIndirection ref = ref.target.isBare := by
  obtain ⟨info, found, shows⟩ := shows_of_resolveKeyWithin classified resolved
  exact needsIndirection_of_shows found shows

theorem needsIndirection_of_resolveWithin {owner : Option String} {expression : TypeExpression}
    (resolved : index.resolveWithin expansions domain owner expression = .ok ref) :
    index.needsIndirection ref = ref.target.isBare := by
  rw [TypeIndex.resolveWithin, resolveExpression_eq] at resolved
  split at resolved
  · exact needsIndirection_of_resolveKeyWithin classified resolved
  · split at resolved
    · split at resolved
      · obtain ⟨item, -, rfl⟩ := map_eq_ok_iff.mp resolved
        rfl
      · cases resolved
    · cases resolved
      rfl
    · cases resolved
      rfl
    · split at resolved
      · cases resolved
        rfl
      · cases resolved

end Resolved

/-- A resolved type has its aliases followed to the end, and an optional value of it needs a state of
its own for absence just when it is a primitive or a record there. -/
structure IndirectionAgrees (index : TypeIndex) (ref : TypeRef) : Prop where
  followed : ∀ declared meaning, ref.target ≠ .alias declared meaning
  indirect : index.needsIndirection ref ↔
    (∃ primitive, ref.target = .primitive primitive) ∨ ∃ declared, ref.target = .record declared

theorem IndirectionAgrees.of_eq {index : TypeIndex} {ref : TypeRef}
    (same : index.needsIndirection ref = ref.target.isBare) : IndirectionAgrees index ref :=
  ⟨ref.target_ne_alias, by rw [same, TypeRef.isBare_iff]⟩

/-- The marks of an accepted index are those of the ends of reference chains, and whatever is resolved
with it needs an indirection by the type that its aliases stand for, within any number of
expansions. -/
theorem phases_agree_on_indirection {domains : List Domain} {index : TypeIndex}
    (accepted : classify domains = .ok index) :
    (∀ info ∈ index.types, info.direct ↔ EndsDirect domains info.key) ∧
      (∀ expansions domain owner expression ref,
        index.resolveWithin expansions domain owner expression = .ok ref →
          IndirectionAgrees index ref) ∧
      ∀ expansions domain part key ref,
        resolveKeyWithin index expansions domain part key = .ok ref →
          IndirectionAgrees index ref := by
  have classified := Classified.of_classify accepted
  refine ⟨fun info member => ?_, ?_, ?_⟩
  · obtain ⟨source, id, kind⟩ := classified.content info member
    exact Entry.direct_iff ⟨source, id, kind, classified.direct info member⟩
  · intro expansions domain owner expression ref resolved
    exact .of_eq (needsIndirection_of_resolveWithin classified resolved)
  · intro expansions domain part key ref resolved
    exact .of_eq (needsIndirection_of_resolveKeyWithin classified resolved)

def referring (key id : String) : TypeDeclaration :=
  ⟨.plain ⟨none, none, some key, none⟩, id, none, false, false⟩

def gaugeLevel : TypeDeclaration :=
  ⟨.plain ⟨none, some "number", none, none⟩, "Level", none, false, false⟩

def gaugeReadings : TypeDeclaration :=
  ⟨.withItems ⟨none, some "array", none, none⟩ (.plain ⟨none, none, some "Level", none⟩), "Readings",
    none, false, false⟩

/-- A level is a number, and readings are an array of levels. -/
def gauge : Domain := ⟨"Gauge", none, false, false, [gaugeLevel, gaugeReadings], [], []⟩

/-- A panel refers to both, to one of them by way of a type of its own. -/
def panel : Domain :=
  ⟨"Panel", none, false, false, [referring "Gauge.Readings" "Log", referring "Needle" "Shown",
    referring "Gauge.Level" "Needle"], [], []⟩

def panelIndex : TypeIndex :=
  ⟨[⟨"Gauge", "Level", .alias, false, gaugeLevel⟩, ⟨"Gauge", "Readings", .alias, true, gaugeReadings⟩,
    ⟨"Panel", "Log", .alias, true, referring "Gauge.Readings" "Log"⟩,
    ⟨"Panel", "Shown", .alias, false, referring "Needle" "Shown"⟩,
    ⟨"Panel", "Needle", .alias, false, referring "Gauge.Level" "Needle"⟩]⟩

def toShown : TypeExpression := .plain ⟨none, none, some "Shown", none⟩

/-- The log of a panel ends at an array, and what it shows at a number. -/
theorem panel_shown_is_indirect : classify [gauge, panel] = .ok panelIndex ∧
    EndsDirect [gauge, panel] "Panel.Log" ∧ ¬ EndsDirect [gauge, panel] "Panel.Shown" ∧
      ∃ ref, panelIndex.resolve "Panel" none toShown = .ok ref ∧ panelIndex.needsIndirection ref := by
  have accepted : classify [gauge, panel] = .ok panelIndex := by decide +kernel
  have resolved : panelIndex.resolve "Panel" none toShown = .ok (.alias ⟨"Panel", "Panel.Shown", "Shown"⟩
      (.alias ⟨"Panel", "Panel.Needle", "Needle"⟩
        (.alias ⟨"Gauge", "Gauge.Level", "Level"⟩ (.primitive .number)))) := by decide +kernel
  obtain ⟨marks, expressions, -⟩ := phases_agree_on_indirection accepted
  have log := marks ⟨"Panel", "Log", .alias, true, referring "Gauge.Readings" "Log"⟩ (by decide +kernel)
  have shown := marks ⟨"Panel", "Shown", .alias, false, referring "Needle" "Shown"⟩ (by decide +kernel)
  refine ⟨accepted, log.mp rfl, fun ends => ?_, _, resolved, ?_⟩
  · cases shown.mpr ends
  · exact (expressions _ "Panel" none toShown _ resolved).indirect.mpr (.inl ⟨.number, rfl⟩)

end ProtocolGen.Types
