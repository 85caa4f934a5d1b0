import Mathlib.Data.List.GetD
import Mathlib.Data.List.Nodup
import ProtocolGen.Proofs.Emission.ClassCode
import ProtocolGen.Proofs.Naming.Members
import ProtocolGen.Wire.Enumeration

/-!
# Enumerations that are written and read

The class of an enumeration gives its labels and its members with their ordinals. On the wire it takes
nothing and its labels, and what it gives back is what it took; a label that stands twice is read as the
first of the two members.
-/

set_option autoImplicit false

namespace ProtocolGen.Wire.Enumeration

open ProtocolGen.Emission ProtocolGen.Source

/-! ## The written class -/

/-- What a line of a class body assigns to a name. -/
def assigned? : Edit → Option (String × String)
  | .line text 1 => marked? " = " text.toList
  | _ => none

def assignments (edits : List Edit) : List (String × String) := edits.filterMap assigned?

/-- Expressions as a tuple. An only one has a comma behind it. -/
def tupleOf : List String → String
  | [value] => "(" ++ value ++ ",)"
  | values => "(" ++ ", ".intercalate values ++ ")"

theorem assigned?_line {name : String} (names : ∀ char ∈ name.toList, Naming.isNameChar char)
    (value : String) : assigned? (.line (name ++ " = " ++ value) 1) = some (name, value) :=
  marked?_of_names names rfl (by decide) value

theorem assignments_members {names : List String} (start : Nat)
    (chars : ∀ name ∈ names, ∀ char ∈ name.toList, Naming.isNameChar char) :
    assignments ((names.zipIdx start).map fun (member, ordinal) =>
      .line (member ++ " = " ++ toString ordinal) 1) =
      (names.zipIdx start).map fun (member, ordinal) => (member, toString ordinal) := by
  rw [assignments, List.filterMap_map]
  refine List.filterMap_eq_map_iff_forall_eq_some.mpr fun entry member => ?_
  exact assigned?_line (chars entry.1 (List.fst_mem_of_mem_zipIdx member)) (toString entry.2)

theorem tupleOf_eq (values : List String) : tupleOf values =
    "(" ++ ", ".intercalate values ++ (if values.length = 1 then "," else "") ++ ")" := by
  match values with
  | [] => rfl
  | [value] => simp [tupleOf, String.append_assoc]
  | first :: second :: others => simp [tupleOf]

/-- The body of a written enumeration assigns its labels and then to each member its ordinal. -/
theorem assignments_enumerationEdits (runtimeModule name : String)
    (documentation labels : List String) :
    assignments (enumerationEdits runtimeModule name documentation labels) =
      ("__labels__", tupleOf (labels.map Text.literalOf)) ::
        (ofLabels name labels).allNames.zipIdx.map fun (member, ordinal) =>
          (member, toString ordinal) := by
  have tuple : "__labels__ = (" ++ ", ".intercalate (labels.map Text.literalOf) ++
      (if labels.length = 1 then "," else "") ++ ")" =
      "__labels__" ++ " = " ++ tupleOf (labels.map Text.literalOf) := by
    rw [tupleOf_eq, List.length_map]
    simp only [← String.append_assoc]
    rfl
  have labelled : assigned? (.line ("__labels__" ++ " = " ++ tupleOf (labels.map Text.literalOf)) 1) =
      some ("__labels__", tupleOf (labels.map Text.literalOf)) :=
    assigned?_line (by decide) _
  have unset : assigned? (.line (Naming.unsetMember ++ " = 0") 1) = some (Naming.unsetMember, "0") :=
    @assigned?_line Naming.unsetMember (by decide) "0"
  have members := assignments_members 1 (Naming.isNameChar_enumMemberNames labels)
  have others : assigned? .declare = none ∧ (∀ count, assigned? (.blank count) = none) ∧
      (∀ text, assigned? (.line text 0) = none) ∧
      (∀ texts indent, assigned? (.docstring texts indent) = none) ∧
      ∀ module names, assigned? (.require module names) = none :=
    ⟨rfl, fun _ => rfl, fun _ => rfl, fun _ _ => rfl, fun _ _ => rfl⟩
  obtain ⟨declare, blank, head, docstring, require⟩ := others
  rw [assignments] at members ⊢
  simp only [enumerationEdits, tuple, List.filterMap_append, List.filterMap_cons, List.filterMap_nil,
    declare, blank, head, docstring, require, labelled, unset, members]
  rfl

/-! ## Values on the wire -/

/-- What an enumeration with some labels takes: nothing, or one of the labels. -/
inductive IsWireValue (labels : List String) : Data → Prop where
  | unset : IsWireValue labels .null
  | label {label : String} (known : label ∈ labels) :
      IsWireValue labels (.text (Text.ofString label))

/-- The value that stands for what a member gives back. -/
def wireData : Option String → Data
  | none => .null
  | some label => .text (Text.ofString label)

/-- A member that goes to the wire and comes back. -/
def Member.reread {enumeration : Enumeration} (member : enumeration.Member) :
    Except EnumerationFault enumeration.Member :=
  member.toWire >>= fun sent => enumeration.fromWire (wireData sent)

/-- The ordinal of the first label that is equal to the one of some ordinal. -/
def firstOrdinal (labels : List String) : Nat → Nat
  | 0 => 0
  | position + 1 => labels.idxOf (labels.getD position "") + 1

section Wire

variable (name : String) {labels : List String}

theorem length_memberNames (labels : List String) :
    (ofLabels name labels).memberNames.length = labels.length :=
  (Naming.namedInTurn_enumMemberNamesFrom [Naming.unsetMember] labels).length_eq

theorem member_eq (ordinal : Nat) (range : ordinal ≤ labels.length) :
    ∃ member, (ofLabels name labels).member ordinal = .ok member ∧ member.val = ordinal := by
  have valid : ordinal < (ofLabels name labels).memberNames.length + 1 := by
    rw [length_memberNames]
    exact Nat.lt_succ_of_le range
  exact ⟨⟨ordinal, valid⟩, dif_pos valid, rfl⟩

theorem ordinalOf?_label (label : String) :
    (ofLabels name labels).ordinalOf? (.text (Text.ofString label)) =
      (labels.idxOf? label).map (· + 1) := by
  have same : (fun known => Text.ofString known == Text.ofString label) = (· == label) := by
    funext known
    rw [Bool.eq_iff_iff, beq_iff_eq, beq_iff_eq, Text.ofString_inj]
  rw [ordinalOf?, ofLabels]
  dsimp only
  rw [same, List.idxOf?]

theorem ordinalOf?_eq_none {data : Data} (other : ¬ IsWireValue labels data) :
    (ofLabels name labels).ordinalOf? data = none := by
  unfold ordinalOf?
  split
  · next text =>
    rw [Option.map_eq_none_iff, List.findIdx?_eq_none_iff]
    intro label known
    rw [beq_eq_false_iff_ne]
    rintro rfl
    exact other (.label known)
  · rfl

theorem fromWire_null (labels : List String) :
    ∃ member, (ofLabels name labels).fromWire .null = .ok member ∧ member.val = 0 :=
  member_eq name 0 (Nat.zero_le _)

theorem fromWire_label {label : String} (known : label ∈ labels) :
    ∃ member, (ofLabels name labels).fromWire (.text (Text.ofString label)) = .ok member ∧
      member.val = labels.idxOf label + 1 := by
  have place := List.idxOf_lt_length_of_mem known
  have first : labels.idxOf? label = some (labels.idxOf label) :=
    List.findIdx?_eq_some_iff_findIdx_eq.mpr ⟨place, rfl⟩
  rw [fromWire, ordinalOf?_label, first]
  · exact member_eq name (labels.idxOf label + 1) place
  · nofun

theorem fromWire_eq_error {data : Data} (other : ¬ IsWireValue labels data) :
    (ofLabels name labels).fromWire data = .error (.unrecognized name data.shown) := by
  have notNull : data ≠ .null := by
    rintro rfl
    exact other .unset
  rw [fromWire]
  · rw [ordinalOf?_eq_none name other]
    rfl
  · exact notNull

variable {name}

theorem val_le (member : (ofLabels name labels).Member) : member.val ≤ labels.length :=
  (Nat.le_of_lt_succ member.isLt).trans_eq (length_memberNames name labels)

theorem toWire_of_zero {member : (ofLabels name labels).Member} (unset : member.val = 0) :
    member.toWire = .ok none := by
  rw [Member.toWire, Member.isSet, unset]
  rfl

theorem toWire_of_label {member : (ofLabels name labels).Member} {position : Nat} {label : String}
    (ordinal : member.val = position + 1) (found : labels[position]? = some label) :
    member.toWire = .ok (some label) := by
  have stands : (ofLabels name labels).labels[member.val - 1]? = some label := by
    rw [ordinal]
    exact found
  rw [Member.toWire, Member.isSet, ordinal, if_pos (bne_iff_ne.mpr (Nat.succ_ne_zero position)),
    Member.label, stands]
  rfl

theorem isSet_iff (member : (ofLabels name labels).Member) : member.isSet ↔ member.val ≠ 0 :=
  bne_iff_ne

theorem isLabelled_iff (member : (ofLabels name labels).Member) :
    member.isLabelled ↔ member.val ≠ 0 := by
  have most := val_le member
  rw [Member.isLabelled, Bool.and_eq_true, decide_eq_true_iff, decide_eq_true_iff,
    ← Nat.one_le_iff_ne_zero]
  exact and_iff_left most

/-- What an enumeration takes it gives back, and it is set for a label only. -/
theorem IsWireValue.sent_back {data : Data} (taken : IsWireValue labels data) :
    ∃ member sent, (ofLabels name labels).fromWire data = .ok member ∧
      member.toWire = .ok sent ∧ wireData sent = data ∧
      (member.isSet ↔ data ≠ .null) ∧ (member.isLabelled ↔ data ≠ .null) := by
  cases taken with
  | unset =>
    obtain ⟨member, found, zero⟩ := fromWire_null name labels
    refine ⟨member, none, found, toWire_of_zero zero, rfl, ?_, ?_⟩
    · simp [isSet_iff, zero]
    · simp [isLabelled_iff, zero]
  | @label label known =>
    obtain ⟨member, found, ordinal⟩ := fromWire_label name known
    have place := List.idxOf_lt_length_of_mem known
    have stands : labels[labels.idxOf label]? = some label := by
      rw [List.getElem?_eq_getElem place, List.getElem_idxOf place]
    refine ⟨member, some label, found, toWire_of_label ordinal stands, rfl, ?_, ?_⟩
    · simp [isSet_iff, ordinal]
    · simp [isLabelled_iff, ordinal]

theorem reread_eq (member : (ofLabels name labels).Member) :
    ∃ again, member.reread = .ok again ∧ again.val = firstOrdinal labels member.val := by
  rw [Member.reread]
  cases ordinal : member.val with
  | zero =>
    rw [toWire_of_zero ordinal]
    exact fromWire_null name labels
  | succ position =>
    have place : position < labels.length := by
      have most := val_le member
      omega
    have stands := List.getElem?_eq_getElem place
    rw [toWire_of_label ordinal stands, firstOrdinal, List.getD_eq_getElem _ _ place]
    exact fromWire_label name (List.getElem_mem place)

/-- Each ordinal is the first one of its label just in case no label stands twice. -/
theorem firstOrdinal_eq_self_iff :
    (∀ ordinal ≤ labels.length, firstOrdinal labels ordinal = ordinal) ↔ labels.Nodup := by
  have first (position : Nat) (place : position < labels.length) :
      firstOrdinal labels (position + 1) = labels.idxOf labels[position] + 1 := by
    rw [firstOrdinal, List.getD_eq_getElem _ _ place]
  constructor
  · intro fixed
    refine List.nodup_iff_injective_get.mpr fun position other same => ?_
    have here := fixed (position + 1) position.isLt
    have there := fixed (other + 1) other.isLt
    rw [first position position.isLt] at here
    rw [first other other.isLt] at there
    rw [List.get_eq_getElem, List.get_eq_getElem] at same
    rw [same] at here
    exact Fin.ext (Nat.succ.inj (here.symm.trans there))
  · intro different ordinal range
    cases ordinal with
    | zero => rfl
    | succ position => rw [first position range, different.idxOf_getElem position range]

theorem reread_self_iff :
    (∀ ordinal ≤ labels.length, ∃ member, (ofLabels name labels).member ordinal = .ok member ∧
      member.reread = .ok member) ↔ labels.Nodup := by
  rw [← firstOrdinal_eq_self_iff]
  refine forall₂_congr fun ordinal range => ?_
  obtain ⟨member, found, value⟩ := member_eq name ordinal range
  obtain ⟨again, reread, first⟩ := reread_eq member
  rw [found, ← value, ← first]
  constructor
  · rintro ⟨other, same, unchanged⟩
    obtain rfl := Except.ok.inj same
    rw [reread] at unchanged
    exact congrArg Fin.val (Except.ok.inj unchanged)
  · intro same
    exact ⟨member, rfl, reread.trans (congrArg _ (Fin.ext same))⟩

end Wire

/-- The written class of an enumeration has its labels and gives zero to the unset member and the
ordinals after it to the members of the labels, all of different names. The enumeration takes nothing
and its labels, gives back what it took, and complains of all other values. A member that goes to the
wire and comes back is the one of the first equal label, so that each comes back as it was just in case
no label stands twice. -/
theorem wire_round_trip (name : String) (labels : List String) :
    (∀ runtimeModule documentation,
      assignments (enumerationEdits runtimeModule name documentation labels) =
        ("__labels__", tupleOf (labels.map Text.literalOf)) ::
          (ofLabels name labels).allNames.zipIdx.map fun (member, ordinal) =>
            (member, toString ordinal)) ∧
    (ofLabels name labels).allNames.Nodup ∧
    (ofLabels name labels).allNames.length = labels.length + 1 ∧
    (∀ data, ¬ IsWireValue labels data →
      (ofLabels name labels).fromWire data = .error (.unrecognized name data.shown)) ∧
    (∀ data, IsWireValue labels data →
      ∃ member sent, (ofLabels name labels).fromWire data = .ok member ∧
        member.toWire = .ok sent ∧ wireData sent = data ∧
        (member.isSet ↔ data ≠ .null) ∧ (member.isLabelled ↔ data ≠ .null)) ∧
    (∀ ordinal ≤ labels.length, ∃ member again,
      (ofLabels name labels).member ordinal = .ok member ∧ member.reread = .ok again ∧
        again.val = firstOrdinal labels ordinal) ∧
    ((∀ ordinal ≤ labels.length, ∃ member, (ofLabels name labels).member ordinal = .ok member ∧
      member.reread = .ok member) ↔ labels.Nodup) := by
  obtain ⟨different, unused⟩ := (Naming.namedInTurn_enumMemberNamesFrom [Naming.unsetMember] labels).nodup
  refine ⟨fun _ _ => assignments_enumerationEdits .., List.nodup_cons.mpr ⟨fun given => ?_, different⟩,
    congrArg Nat.succ (length_memberNames name labels), fun _ => fromWire_eq_error name, fun _ => IsWireValue.sent_back,
    fun ordinal range => ?_, reread_self_iff⟩
  · exact unused _ given List.mem_cons_self
  · obtain ⟨member, found, value⟩ := member_eq name ordinal range
    obtain ⟨again, reread, first⟩ := reread_eq member
    exact ⟨member, again, found, reread, value ▸ first⟩

/-- Of three labels the last one is the first again. -/
theorem third_label_comes_back_as_the_first :
    IsWireValue ["low", "high", "low"] (.text (Text.ofString "low")) ∧
    ¬ IsWireValue ["low", "high", "low"] (.boolean false) ∧
    (ofLabels "Pitch" ["low", "high", "low"]).fromWire (.boolean false) =
      .error (.unrecognized "Pitch" "False") ∧
    (∃ member sent, (ofLabels "Pitch" ["low", "high", "low"]).fromWire (.text (Text.ofString "low")) =
      .ok member ∧ member.toWire = .ok sent ∧ wireData sent = .text (Text.ofString "low") ∧
      (member.isSet ↔ Data.text (Text.ofString "low") ≠ .null) ∧
      (member.isLabelled ↔ Data.text (Text.ofString "low") ≠ .null)) ∧
    (∃ member again, (ofLabels "Pitch" ["low", "high", "low"]).member 3 = .ok member ∧
      member.reread = .ok again ∧ again.val = 1) := by
  obtain ⟨-, -, -, refused, taken, reread, -⟩ := wire_round_trip "Pitch" ["low", "high", "low"]
  have known : IsWireValue ["low", "high", "low"] (.text (Text.ofString "low")) :=
    .label (by decide)
  have other : ¬ IsWireValue ["low", "high", "low"] (.boolean false) := nofun
  exact ⟨known, other, refused _ other, taken _ known, reread 3 (by decide)⟩

end ProtocolGen.Wire.Enumeration
