import Mathlib.Data.List.Forall2

/-!
# Steps that may fail

Sequences of steps that end in a result or a failure: when a sequence ends in a result, and what its
result is made of.
-/

set_option autoImplicit false

namespace ProtocolGen

section Steps

variable {Error Value Result : Type}

theorem bind_eq_ok_iff {source : Except Error Value} {next : Value → Except Error Result}
    {result : Result} :
    (source >>= next) = .ok result ↔ ∃ value, source = .ok value ∧ next value = .ok result := by
  cases source <;> simp [bind, Except.bind]

theorem bind_eq_error_iff {source : Except Error Value} {next : Value → Except Error Result}
    {error : Error} :
    (source >>= next) = .error error ↔
      source = .error error ∨ ∃ value, source = .ok value ∧ next value = .error error := by
  cases source <;> simp [bind, Except.bind]

theorem mapError_eq_error_iff {Other : Type} {source : Except Error Value}
    {transform : Error → Other} {error : Other} :
    source.mapError transform = .error error ↔
      ∃ cause, source = .error cause ∧ transform cause = error := by
  cases source <;> simp [Except.mapError]

theorem map_eq_ok_iff {source : Except Error Value} {transform : Value → Result}
    {result : Result} :
    source.map transform = .ok result ↔ ∃ value, source = .ok value ∧ transform value = result := by
  cases source <;> simp [Except.map]

theorem map_eq_error_iff {source : Except Error Value} {transform : Value → Result} {error : Error} :
    source.map transform = .error error ↔ source = .error error := by
  cases source <;> simp [Except.map]

theorem map_bind {Final : Type} (source : Except Error Value)
    (next : Value → Except Error Result) (transform : Result → Final) :
    (source >>= next).map transform = source >>= fun value => (next value).map transform := by
  cases source <;> rfl

theorem exists_eq_ok_of_isOk {source : Except Error Value} (ends : source.isOk) :
    ∃ value, source = .ok value := by
  cases source with
  | error error => cases ends
  | ok value => exact ⟨value, rfl⟩

theorem exists_error_iff_not_exists_ok {source : Except Error Value} :
    (∃ error, source = .error error) ↔ ¬ ∃ value, source = .ok value := by
  cases source <;> simp

end Steps

section Lists

variable {Error Item Value : Type} {step : Item → Except Error Value}

theorem mapM_eq_ok_iff {items : List Item} {values : List Value} :
    items.mapM step = .ok values ↔
      List.Forall₂ (fun item value => step item = .ok value) items values := by
  induction items generalizing values with
  | nil =>
    rw [List.forall₂_nil_left_iff, List.mapM_nil]
    exact ⟨fun finished => (Except.ok.inj finished).symm, fun empty => by rw [empty]; rfl⟩
  | cons item items ih =>
    simp only [List.mapM_cons, bind_eq_ok_iff, List.forall₂_cons_left_iff, ih]
    constructor
    · intro results
      obtain ⟨value, first, rest, others, finished⟩ := results
      exact ⟨value, rest, first, others, (Except.ok.inj finished).symm⟩
    · intro results
      obtain ⟨value, rest, first, others, rfl⟩ := results
      exact ⟨value, first, rest, others, rfl⟩

theorem exists_mapM_eq_ok_iff {items : List Item} :
    (∃ values, items.mapM step = .ok values) ↔ ∀ item ∈ items, ∃ value, step item = .ok value := by
  induction items with
  | nil => simp [pure, Except.pure]
  | cons item items ih =>
    simp only [List.mapM_cons, bind_eq_ok_iff, List.forall_mem_cons, ← ih]
    constructor
    · intro results
      obtain ⟨_, value, first, rest, others, _⟩ := results
      exact ⟨⟨value, first⟩, rest, others⟩
    · intro results
      obtain ⟨⟨value, first⟩, rest, others⟩ := results
      exact ⟨value :: rest, value, first, rest, others, rfl⟩

/-- A sequence that fails does so at one of its steps. -/
theorem exists_error_of_mapM {items : List Item} {error : Error}
    (failed : items.mapM step = .error error) : ∃ item ∈ items, step item = .error error := by
  induction items with
  | nil => cases failed
  | cons item items ih =>
    simp only [List.mapM_cons, bind_eq_error_iff] at failed
    rcases failed with first | ⟨value, -, others | ⟨values, -, finished⟩⟩
    · exact ⟨item, List.mem_cons_self, first⟩
    · obtain ⟨later, member, failed⟩ := ih others
      exact ⟨later, List.mem_cons_of_mem _ member, failed⟩
    · cases finished

theorem forM_eq_ok_iff {check : Item → Except Error PUnit} {items : List Item} :
    items.forM check = .ok () ↔ ∀ item ∈ items, check item = .ok () := by
  rw [List.forM_eq_forM]
  induction items with
  | nil => simp [pure, Except.pure]
  | cons item items ih =>
    simp only [List.forM_cons, bind_eq_ok_iff, ih, List.forall_mem_cons]
    constructor
    · intro passed
      obtain ⟨⟨⟩, first, others⟩ := passed
      exact ⟨first, others⟩
    · intro passed
      obtain ⟨first, others⟩ := passed
      exact ⟨⟨⟩, first, others⟩

/-- Steps that have all the results of other steps can take their place. -/
theorem mapM_eq_ok_of_imp {items : List Item} {values : List Value}
    {other : Item → Except Error Value}
    (implied : ∀ item ∈ items, ∀ value, step item = .ok value → other item = .ok value)
    (results : items.mapM step = .ok values) : items.mapM other = .ok values := by
  rw [mapM_eq_ok_iff] at results ⊢
  induction results with
  | nil => exact .nil
  | cons first _ ih =>
    rw [List.forall_mem_cons] at implied
    exact .cons (implied.1 _ first) (ih implied.2)

/-- The results of steps, changed one by one, are the results of the changed steps. -/
theorem map_mapM {Final : Type} (transform : Value → Final) (items : List Item) :
    (items.mapM step).map (List.map transform) =
      items.mapM fun item => (step item).map transform := by
  induction items with
  | nil => rfl
  | cons item items ih =>
    simp only [List.mapM_cons, ← ih]
    cases step item with
    | error error => rfl
    | ok value => cases items.mapM step <;> rfl

end Lists

section Pairs

variable {Left Right : Type} {relation : Left → Right → Prop} {lefts : List Left}
  {rights : List Right} (related : List.Forall₂ relation lefts rights)

include related

theorem exists_right_of_mem {left : Left} (member : left ∈ lefts) :
    ∃ right ∈ rights, relation left right := by
  induction related with
  | nil => cases member
  | cons first _ ih =>
    rcases List.mem_cons.mp member with rfl | later
    · exact ⟨_, List.mem_cons_self, first⟩
    · obtain ⟨right, on, holds⟩ := ih later
      exact ⟨right, List.mem_cons_of_mem _ on, holds⟩

theorem exists_left_of_mem {right : Right} (member : right ∈ rights) :
    ∃ left ∈ lefts, relation left right :=
  exists_right_of_mem related.flip member

end Pairs

end ProtocolGen
