import ProtocolGen.Source.Buffer

/-!
# What edits leave of a buffer

Edits never change the module that a buffer takes its runtime from. What is declared once stays
declared, and the lines that are written stay in the body.
-/

set_option autoImplicit false

namespace ProtocolGen.Source.Buffer

@[simp] theorem runtimeModule_apply (buffer : Buffer) (edit : Edit) :
    (buffer.apply edit).runtimeModule = buffer.runtimeModule := by
  cases edit with
  | header docstring =>
    rw [apply]
    split <;> rfl
  | require module names => cases names <;> rfl
  | declare | line | blank | docstring | comment => rfl

theorem hasContent_apply_iff {buffer : Buffer} {edit : Edit} :
    (buffer.apply edit).hasContent ↔ edit = .declare ∨ buffer.hasContent := by
  cases edit with
  | header docstring =>
    rw [apply]
    split <;> simp
  | require module names => cases names <;> simp [apply]
  | declare | line | blank | docstring | comment => simp [apply, addLines]

theorem applyAll_cons (buffer : Buffer) (edit : Edit) (edits : List Edit) :
    buffer.applyAll (edit :: edits) = (buffer.apply edit).applyAll edits := rfl

@[simp] theorem runtimeModule_applyAll (buffer : Buffer) (edits : List Edit) :
    (buffer.applyAll edits).runtimeModule = buffer.runtimeModule := by
  induction edits generalizing buffer with
  | nil => rfl
  | cons edit edits ih => rw [applyAll_cons, ih, runtimeModule_apply]

theorem hasContent_applyAll_iff {buffer : Buffer} {edits : List Edit} :
    (buffer.applyAll edits).hasContent ↔ .declare ∈ edits ∨ buffer.hasContent := by
  induction edits generalizing buffer with
  | nil => simp [applyAll]
  | cons edit edits ih =>
    rw [applyAll_cons, ih, hasContent_apply_iff, List.mem_cons, ← or_assoc, or_comm (a := _ ∈ edits),
      eq_comm]

theorem hasContent_of_declare (buffer : Buffer) {edits : List Edit} (member : .declare ∈ edits) :
    (buffer.applyAll edits).hasContent := by
  rw [hasContent_applyAll_iff]
  exact .inl member

/-- A new buffer holds a declaration when one is made in it. -/
theorem hasContent_applyAll_new_iff {runtimeModule : String} {edits : List Edit} :
    ((new runtimeModule).applyAll edits).hasContent ↔ .declare ∈ edits := by
  rw [hasContent_applyAll_iff]
  exact or_iff_left Bool.false_ne_true

theorem mem_lines_apply {buffer : Buffer} (edit : Edit) {line : String}
    (member : line ∈ buffer.lines) : line ∈ (buffer.apply edit).lines := by
  cases edit with
  | header docstring =>
    rw [apply]
    split <;> exact member
  | require module names => cases names <;> exact member
  | declare => exact member
  | line text indent => exact Array.mem_push_of_mem _ member
  | blank count | docstring texts indent | comment texts indent mark =>
    rw [← Array.mem_toList_iff] at member ⊢
    simp only [apply, addLines, Array.toList_appendList]
    exact List.mem_append_left _ member

theorem mem_lines_applyAll {buffer : Buffer} (edits : List Edit) {line : String}
    (member : line ∈ buffer.lines) : line ∈ (buffer.applyAll edits).lines := by
  induction edits generalizing buffer with
  | nil => exact member
  | cons edit edits ih => exact ih (mem_lines_apply edit member)

theorem indented_mem_lines_of_line (buffer : Buffer) {edits : List Edit} {text : String}
    {indent : Nat} (member : .line text indent ∈ edits) :
    indented text indent ∈ (buffer.applyAll edits).lines := by
  obtain ⟨before, after, rfl⟩ := List.append_of_mem member
  rw [applyAll, List.foldl_append]
  exact mem_lines_applyAll after Array.mem_push_self

theorem toList_indented {text : String} (indent : Nat) (notEmpty : text ≠ "") :
    (indented text indent).toList = indentOf indent ++ text.toList := by
  rw [indented, if_neg (by simpa using notEmpty), String.toList_ofList]

/-- An emptied buffer is as good as a new one. -/
theorem clear_applyAll_new (runtimeModule : String) (edits : List Edit) :
    ((new runtimeModule).applyAll edits).clear = new runtimeModule := by
  rw [clear, runtimeModule_applyAll]
  rfl

end ProtocolGen.Source.Buffer
