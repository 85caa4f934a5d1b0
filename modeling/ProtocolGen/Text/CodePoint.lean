/-!
# Code points and text

Decoded text is a list of code points. Almost always each is a character; the one exception is a
surrogate escape without its partner, which a JSON string may contain and which no character
represents.
-/

set_option autoImplicit false

namespace ProtocolGen

/-- A character, or a surrogate that stands without its partner. -/
inductive CodePoint where
  | scalar (char : Char)
  | surrogate (index : Fin 0x800)
  deriving DecidableEq, Repr, Inhabited

namespace CodePoint

def value : CodePoint → Nat
  | .scalar char => char.toNat
  | .surrogate index => 0xD800 + index.val

def ofNat? (number : Nat) : Option CodePoint :=
  if valid : number.isValidChar then
    some (.scalar (Char.ofNatAux number valid))
  else if low : 0xD800 ≤ number ∧ number < 0xE000 then
    some (.surrogate ⟨number - 0xD800, by omega⟩)
  else
    none

/-- The character a code point is, unless it is a lone surrogate. -/
def char? : CodePoint → Option Char
  | .scalar char => some char
  | .surrogate _ => none

end CodePoint

abbrev Text := List CodePoint

namespace Text

def ofChars (chars : List Char) : Text := chars.map .scalar

def ofString (string : String) : Text := ofChars string.toList

def toString? (text : Text) : Option String :=
  (text.mapM CodePoint.char?).map String.ofList

/-- Code-point order, a proper start of a text coming before it. -/
def less : Text → Text → Bool
  | _, [] => false
  | [], _ :: _ => true
  | left :: lefts, right :: rights =>
    left.value < right.value || left.value == right.value && less lefts rights

theorem mapM_char?_ofChars (chars : List Char) :
    (ofChars chars).mapM CodePoint.char? = some chars := by
  induction chars with
  | nil => rfl
  | cons char chars ih => simp_all [ofChars, CodePoint.char?]

theorem toString?_ofString (string : String) : toString? (ofString string) = some string := by
  simp [toString?, ofString, mapM_char?_ofChars]

theorem ofString_inj {left right : String} : ofString left = ofString right ↔ left = right := by
  refine ⟨fun same => ?_, fun same => by rw [same]⟩
  have read := congrArg toString? same
  rwa [toString?_ofString, toString?_ofString, Option.some_inj] at read

end Text

end ProtocolGen
