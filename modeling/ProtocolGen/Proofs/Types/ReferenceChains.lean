import ProtocolGen.Proofs.Types.Declarations

/-!
# Chains of references

A declaration that is a reference leads to another one, and so on. Following references, with all
that is settled on the way kept in a memo, finds out exactly whether a chain comes to an end, and what
stands there.
-/

set_option autoImplicit false

namespace ProtocolGen.Types

abbrev Sources := String → Option (String × TypeDeclaration)

/-- The way from a key along references to a source without one, with the keys on it. -/
inductive ReferenceChain (sources : Sources) :
    String → List String → String × TypeDeclaration → Prop where
  | done {key : String} {source : String × TypeDeclaration} :
      sources key = some source → source.2.expression.reference? = none →
      ReferenceChain sources key [key] source
  | step {key reference : String} {source last : String × TypeDeclaration} {keys : List String} :
      sources key = some source → source.2.expression.reference? = some reference →
      ReferenceChain sources (qualify source.1 reference) keys last →
      ReferenceChain sources key (key :: keys) last

namespace ReferenceChain

variable {sources : Sources} {key : String} {keys : List String}
  {last : String × TypeDeclaration}

theorem unique {otherKeys : List String} {otherLast : String × TypeDeclaration}
    (chain : ReferenceChain sources key keys last)
    (other : ReferenceChain sources key otherKeys otherLast) :
    keys = otherKeys ∧ last = otherLast := by
  induction chain generalizing otherKeys with
  | done found unreferring =>
    cases other with
    | done otherFound _ => exact ⟨rfl, Option.some.inj (found.symm.trans otherFound)⟩
    | step otherFound refers _ =>
      cases Option.some.inj (found.symm.trans otherFound)
      rw [unreferring] at refers
      cases refers
  | step found refers _ ih =>
    cases other with
    | done otherFound unreferring =>
      cases Option.some.inj (found.symm.trans otherFound)
      rw [refers] at unreferring
      cases unreferring
    | step otherFound otherRefers rest =>
      cases Option.some.inj (found.symm.trans otherFound)
      cases Option.some.inj (refers.symm.trans otherRefers)
      obtain ⟨rfl, rfl⟩ := ih rest
      exact ⟨rfl, rfl⟩

theorem rest_of_mem (chain : ReferenceChain sources key keys last) {member : String}
    (on : member ∈ keys) : ∃ rest, ReferenceChain sources member rest last ∧ rest <:+ keys := by
  induction chain with
  | done found unreferring =>
    obtain rfl := List.mem_singleton.mp on
    exact ⟨_, .done found unreferring, List.suffix_refl _⟩
  | step found refers chain ih =>
    rcases List.mem_cons.mp on with rfl | later
    · exact ⟨_, .step found refers chain, List.suffix_refl _⟩
    · obtain ⟨rest, left, shorter⟩ := ih later
      exact ⟨rest, left, shorter.trans (List.suffix_cons _ _)⟩

/-- A way that ends passes no key twice. -/
theorem nodup (chain : ReferenceChain sources key keys last) : keys.Nodup := by
  induction chain with
  | done _ _ => simp
  | step found refers chain ih =>
    refine List.nodup_cons.mpr ⟨fun back => ?_, ih⟩
    obtain ⟨rest, left, shorter⟩ := chain.rest_of_mem back
    have same := (unique left (.step found refers chain)).1
    have := shorter.length_le
    simp only [same, List.length_cons] at this
    omega

theorem sources_isSome (chain : ReferenceChain sources key keys last) : (sources key).isSome := by
  cases chain with
  | done found _ => rw [found]; rfl
  | step found _ _ => rw [found]; rfl

theorem congr {others : Sources} (chain : ReferenceChain sources key keys last)
    (same : ∀ member ∈ keys, others member = sources member) :
    ReferenceChain others key keys last := by
  induction chain with
  | done found unreferring =>
    exact .done ((same _ (List.mem_singleton_self _)).trans found) unreferring
  | step found refers _ ih =>
    exact .step ((same _ List.mem_cons_self).trans found) refers
      (ih fun member on => same member (List.mem_cons_of_mem _ on))

end ReferenceChain

/-- Whether a kind of declaration has an empty state of its own. An alias has one by its word. -/
def DeclaredKind.isDirect (type : Option String) : DeclaredKind → Bool
  | .record => false
  | .enumeration | .raw => true
  | .alias => isDirectWord type

/-- Whether the end of a chain of references is direct. -/
def isDirectEnd (source : String × TypeDeclaration) : Bool :=
  match kindOf source.1 source.2 with
  | .ok kind => kind.isDirect source.2.expression.type
  | .error _ => false

theorem isDirectEnd_source (shape : Shape) :
    isDirectEnd shape.source = shape.kind.isDirect shape.declaration.expression.type := by
  unfold isDirectEnd
  rw [show kindOf shape.source.1 shape.source.2 = .ok shape.kind from shape.kind_eq]
  rfl

theorem Shape.kind_eq_alias {shape : Shape} {reference : String}
    (refers : shape.declaration.expression.reference? = some reference) : shape.kind = .alias := by
  have kind_eq := shape.kind_eq
  unfold kindOf at kind_eq
  simp only [refers, Option.isSome_some, if_true] at kind_eq
  exact (Except.ok.inj kind_eq).symm

theorem Shape.reference?_eq_none {shape : Shape} (other : shape.kind ≠ .alias) :
    shape.declaration.expression.reference? = none := by
  cases refers : shape.declaration.expression.reference? with
  | none => rfl
  | some reference => exact absurd (Shape.kind_eq_alias refers) other

/-! ## Following references with a memo -/

def shapeSources (shapes : List Shape) : Sources := fun key => (findShape? shapes key).map Shape.source

/-- All that a memo says of keys is what stands at the ends of their chains. -/
def MemoSound (shapes : List Shape) (memo : Memo) : Prop :=
  ∀ key direct, memo.lookup key = some direct →
    ∃ keys last, ReferenceChain (shapeSources shapes) key keys last ∧ direct = isDirectEnd last

theorem MemoSound.nil (shapes : List Shape) : MemoSound shapes [] := by
  intro key direct found
  cases found

theorem MemoSound.cons {shapes : List Shape} {memo : Memo} {key : String} {keys : List String}
    {last : String × TypeDeclaration} (sound : MemoSound shapes memo)
    (chain : ReferenceChain (shapeSources shapes) key keys last) :
    MemoSound shapes ((key, isDirectEnd last) :: memo) := by
  intro other direct found
  rw [List.lookup_cons] at found
  split at found
  · next same =>
    obtain rfl := eq_of_beq same
    exact ⟨keys, last, chain, (Option.some.inj found).symm⟩
  · exact sound other direct found

theorem findShape?_key {shapes : List Shape} {key : String} {shape : Shape}
    (found : findShape? shapes key = some shape) : shape.key = key := by
  simpa using List.find?_some found

theorem findShape?_of_mem {shapes : List Shape} (unique : (shapes.map Shape.key).Nodup)
    {shape : Shape} (member : shape ∈ shapes) : findShape? shapes shape.key = some shape := by
  induction shapes with
  | nil => cases member
  | cons known shapes ih =>
    rw [List.map_cons, List.nodup_cons] at unique
    rw [findShape?_cons]
    rcases List.mem_cons.mp member with rfl | later
    · rw [if_pos rfl]
    · have other : known.key ≠ shape.key := fun same =>
        unique.1 (same ▸ List.mem_map_of_mem later)
      rw [if_neg other, ih unique.2 later]

section Following

variable {shapes : List Shape} (unique : (shapes.map Shape.key).Nodup)

include unique in
theorem shapeSources_of_mem {shape : Shape} (member : shape ∈ shapes) :
    shapeSources shapes shape.key = some shape.source := by
  rw [shapeSources, findShape?_of_mem unique member, Option.map_some]

include unique in
theorem settled_by_kind {memo : Memo} {shape : Shape} {direct : Bool} (sound : MemoSound shapes memo)
    (member : shape ∈ shapes) (unreferring : shape.declaration.expression.reference? = none)
    (kind : shape.kind.isDirect shape.declaration.expression.type = direct) :
    MemoSound shapes ((shape.key, direct) :: memo) ∧ ∃ keys last,
      ReferenceChain (shapeSources shapes) shape.key keys last ∧ direct = isDirectEnd last := by
  have chain : ReferenceChain (shapeSources shapes) shape.key [shape.key] shape.source :=
    .done (shapeSources_of_mem unique member) unreferring
  have same : direct = isDirectEnd shape.source := by rw [isDirectEnd_source, kind]
  exact ⟨same ▸ sound.cons chain, _, _, chain, same⟩

include unique in
theorem ReferenceChain.of_target {shape target : Shape} {reference : String} {keys : List String}
    {last : String × TypeDeclaration} (member : shape ∈ shapes)
    (refers : shape.declaration.expression.reference? = some reference)
    (found : findShape? shapes (qualify shape.domain reference) = some target)
    (chain : ReferenceChain (shapeSources shapes) target.key keys last) :
    ReferenceChain (shapeSources shapes) shape.key (shape.key :: keys) last :=
  .step (shapeSources_of_mem unique member) refers (findShape?_key found ▸ chain)

include unique in
/-- What following references settles is so. -/
theorem directOf_sound {memo after : Memo} {trail : List Shape} {shape : Shape}
    {member : shape ∈ shapes} {direct : Bool} (sound : MemoSound shapes memo)
    (settled : directOf shapes memo trail shape member = .ok (direct, after)) :
    MemoSound shapes after ∧ ∃ keys last,
      ReferenceChain (shapeSources shapes) shape.key keys last ∧ direct = isDirectEnd last := by
  fun_induction directOf shapes memo trail shape member generalizing direct after with
  | case1 trail shape member known found =>
    cases settled
    exact ⟨sound, sound shape.key _ found⟩
  | case2 => cases settled
  | case3 trail shape member _ _ kind =>
    cases settled
    exact settled_by_kind unique sound member (Shape.reference?_eq_none (by simp [kind]))
      (by rw [kind]; rfl)
  | case4 trail shape member _ _ kind =>
    cases settled
    exact settled_by_kind unique sound member (Shape.reference?_eq_none (by simp [kind]))
      (by rw [kind]; rfl)
  | case5 trail shape member _ _ kind =>
    cases settled
    exact settled_by_kind unique sound member (Shape.reference?_eq_none (by simp [kind]))
      (by rw [kind]; rfl)
  | case6 trail shape member _ _ kind unreferring =>
    cases settled
    exact settled_by_kind unique sound member unreferring (by rw [kind]; rfl)
  | case7 => cases settled
  | case8 trail shape member _ _ _ reference refers target found _ ih =>
    obtain ⟨⟨value, reached⟩, followed, finished⟩ := map_eq_ok_iff.mp settled
    cases finished
    obtain ⟨reachedSound, keys, last, chain, same⟩ := ih followed
    have longer := ReferenceChain.of_target unique member refers found chain
    exact ⟨same ▸ reachedSound.cons longer, _, _, longer, same⟩

include unique in
theorem ReferenceChain.target_of {shape : Shape} {reference : String} {keys : List String}
    {last : String × TypeDeclaration} (member : shape ∈ shapes)
    (refers : shape.declaration.expression.reference? = some reference)
    (chain : ReferenceChain (shapeSources shapes) shape.key keys last) :
    ∃ rest, keys = shape.key :: rest ∧
      ReferenceChain (shapeSources shapes) (qualify shape.domain reference) rest last := by
  cases chain with
  | done found unreferring =>
    cases Option.some.inj ((shapeSources_of_mem unique member).symm.trans found)
    cases refers.symm.trans unreferring
  | step found otherRefers rest =>
    cases Option.some.inj ((shapeSources_of_mem unique member).symm.trans found)
    cases Option.some.inj (refers.symm.trans otherRefers)
    exact ⟨_, rfl, rest⟩

include unique in
/-- Where a chain comes to an end without passing the trail, following references finds its end,
whatever is settled before. -/
theorem directOf_complete {memo : Memo} {trail : List Shape} {shape : Shape}
    {member : shape ∈ shapes} {keys : List String} {last : String × TypeDeclaration}
    (chain : ReferenceChain (shapeSources shapes) shape.key keys last)
    (apart : ∀ key ∈ keys, key ∉ trail.map Shape.key) :
    ∃ result, directOf shapes memo trail shape member = .ok result := by
  fun_induction directOf shapes memo trail shape member generalizing keys with
  | case1 => exact ⟨_, rfl⟩
  | case2 trail shape member _ repeated =>
    have self : shape.key ∈ keys := by cases chain <;> simp
    exact absurd repeated (apart _ self)
  | case3 => exact ⟨_, rfl⟩
  | case4 => exact ⟨_, rfl⟩
  | case5 => exact ⟨_, rfl⟩
  | case6 => exact ⟨_, rfl⟩
  | case7 trail shape member _ _ _ reference refers missing =>
    obtain ⟨rest, -, onward⟩ := chain.target_of unique member refers
    have present := onward.sources_isSome
    rw [shapeSources, missing] at present
    cases present
  | case8 trail shape member _ _ _ reference refers target found _ ih =>
    obtain ⟨rest, rfl, onward⟩ := chain.target_of unique member refers
    rw [← findShape?_key found] at onward
    -- A chain that ends has no key twice, so the rest of it does not meet the longer trail either.
    have distinct := List.nodup_cons.mp chain.nodup
    obtain ⟨result, followed⟩ := ih onward (by
      intro key on
      rw [List.map_cons, List.mem_cons, not_or]
      exact ⟨fun same => distinct.1 (same ▸ on), apart key (List.mem_cons_of_mem _ on)⟩)
    exact ⟨_, map_eq_ok_iff.mpr ⟨result, followed, rfl⟩⟩

include unique in
theorem classifyShapes_sound {rest : List { shape : Shape // shape ∈ shapes }} {memo : Memo}
    {types : List TypeInfo} (sound : MemoSound shapes memo)
    (classified : classifyShapes shapes rest memo = .ok types) :
    List.Forall₂ (fun shape info => ∃ keys last,
      ReferenceChain (shapeSources shapes) shape.1.key keys last ∧
        info = shape.1.info (isDirectEnd last)) rest types := by
  induction rest generalizing memo types with
  | nil =>
    cases classified
    exact .nil
  | cons shape rest ih =>
    obtain ⟨⟨direct, after⟩, settled, remaining⟩ := bind_eq_ok_iff.mp classified
    obtain ⟨others, remainingOk, finished⟩ := bind_eq_ok_iff.mp remaining
    cases finished
    obtain ⟨afterSound, keys, last, chain, rfl⟩ := directOf_sound unique sound settled
    exact .cons ⟨keys, last, chain, rfl⟩ (ih afterSound remainingOk)

include unique in
theorem classifyShapes_complete {rest : List { shape : Shape // shape ∈ shapes }} {memo : Memo}
    (sound : MemoSound shapes memo)
    (chains : ∀ shape ∈ rest, ∃ keys last,
      ReferenceChain (shapeSources shapes) shape.1.key keys last) :
    ∃ types, classifyShapes shapes rest memo = .ok types := by
  induction rest generalizing memo with
  | nil => exact ⟨[], rfl⟩
  | cons shape rest ih =>
    rw [List.forall_mem_cons] at chains
    obtain ⟨keys, last, chain⟩ := chains.1
    have settles : ∃ result, directOf shapes memo [] shape.1 shape.2 = .ok result :=
      directOf_complete unique chain (by simp)
    obtain ⟨⟨direct, after⟩, settled⟩ := settles
    obtain ⟨types, classified⟩ := ih (directOf_sound unique sound settled).1 chains.2
    exact ⟨_, bind_eq_ok_iff.mpr ⟨_, settled, bind_eq_ok_iff.mpr ⟨types, classified, rfl⟩⟩⟩

end Following

end ProtocolGen.Types
