import ProtocolGen.Text.Blank

/-!
# Unified line ends

How line ends are unified character by character. A text and what follows it are unified apart when the
text does not end in a carriage return.
-/

set_option autoImplicit false

namespace ProtocolGen.Text

theorem unifyLineEndsFrom_append (done before chars : List Char) :
    unifyLineEndsFrom (done ++ before) chars = before.reverse ++ unifyLineEndsFrom done chars := by
  fun_induction unifyLineEndsFrom done chars with
  | case1 done => rw [unifyLineEndsFrom, List.reverse_append]
  | case2 done rest ih => rw [unifyLineEndsFrom, ← ih, List.cons_append]
  | case3 done rest alone ih =>
    rw [unifyLineEndsFrom, ← ih, List.cons_append]
    exact alone
  | case4 done char rest notPair notReturn ih =>
    rw [unifyLineEndsFrom, ← ih, List.cons_append]
    · exact notPair
    · exact notReturn

theorem unifyLineEndsFrom_eq (done chars : List Char) :
    unifyLineEndsFrom done chars = done.reverse ++ unifyLineEnds chars :=
  unifyLineEndsFrom_append [] done chars

section Equations

variable {char : Char} {rest : List Char}

@[simp] theorem unifyLineEnds_nil : unifyLineEnds [] = [] := rfl

theorem unifyLineEnds_pair : unifyLineEnds ('\r' :: '\n' :: rest) = '\n' :: unifyLineEnds rest :=
  unifyLineEndsFrom_eq ['\n'] rest

theorem unifyLineEnds_return (alone : rest.head? ≠ some '\n') :
    unifyLineEnds ('\r' :: rest) = '\n' :: unifyLineEnds rest := by
  rw [unifyLineEnds, unifyLineEndsFrom, unifyLineEndsFrom_eq]
  · rfl
  · rintro more rfl
    exact alone rfl

theorem unifyLineEnds_cons (other : char ≠ '\r') :
    unifyLineEnds (char :: rest) = char :: unifyLineEnds rest := by
  rw [unifyLineEnds, unifyLineEndsFrom, unifyLineEndsFrom_eq]
  · rfl
  · rintro more rfl
    exact absurd rfl other
  · rintro rfl
    exact absurd rfl other

end Equations

theorem unifyLineEnds_of_not_mem {chars : List Char} (absent : '\r' ∉ chars) :
    unifyLineEnds chars = chars := by
  induction chars with
  | nil => rfl
  | cons char chars ih =>
    rw [List.mem_cons, not_or] at absent
    rw [unifyLineEnds_cons (Ne.symm absent.1), ih absent.2]

theorem unifyLineEnds_append {front back : List Char}
    (apart : front.getLast? = some '\r' → back.head? ≠ some '\n') :
    unifyLineEnds (front ++ back) = unifyLineEnds front ++ unifyLineEnds back := by
  match front with
  | [] => rfl
  | [char] =>
    by_cases ends : char = '\r'
    · subst ends
      rw [List.singleton_append, unifyLineEnds_return (apart rfl), unifyLineEnds_return (by simp)]
      rfl
    · rw [List.singleton_append, unifyLineEnds_cons ends, unifyLineEnds_cons ends]
      rfl
  | char :: next :: front =>
    have tail : unifyLineEnds (next :: front ++ back) =
        unifyLineEnds (next :: front) ++ unifyLineEnds back := by
      refine unifyLineEnds_append fun last => apart ?_
      rw [List.getLast?_cons_cons, last]
    by_cases ends : char = '\r'
    · subst ends
      by_cases feed : next = '\n'
      · subst feed
        rw [List.cons_append, List.cons_append, unifyLineEnds_pair, unifyLineEnds_pair]
        rw [List.cons_append, unifyLineEnds_cons (by decide), unifyLineEnds_cons (by decide)] at tail
        exact tail
      · rw [List.cons_append, List.cons_append, unifyLineEnds_return (by simpa using feed),
          unifyLineEnds_return (by simpa using feed), ← List.cons_append, tail, List.cons_append]
    · rw [List.cons_append, unifyLineEnds_cons ends, unifyLineEnds_cons ends, tail, List.cons_append]

/-- Where a unified text begins with a character that ends no line, the text does. -/
theorem exists_of_unifyLineEnds_eq_cons {char : Char} (other : char ≠ '\n') {chars more : List Char}
    (shape : unifyLineEnds chars = char :: more) :
    ∃ rest, chars = char :: rest ∧ unifyLineEnds rest = more := by
  match chars with
  | [] => cases shape
  | first :: rest =>
    by_cases ends : first = '\r'
    · have feed : ∃ behind, unifyLineEnds (first :: rest) = '\n' :: behind := by
        subst ends
        match rest with
        | [] => exact ⟨[], rfl⟩
        | next :: rest =>
          by_cases pair : next = '\n'
          · subst pair
            exact ⟨_, unifyLineEnds_pair⟩
          · exact ⟨_, unifyLineEnds_return (by simpa using pair)⟩
      obtain ⟨behind, same⟩ := feed
      exact absurd (List.cons.inj (shape.symm.trans same)).1 other
    · rw [unifyLineEnds_cons ends] at shape
      obtain ⟨rfl, same⟩ := List.cons.inj shape
      exact ⟨rest, rfl, same⟩

end ProtocolGen.Text
