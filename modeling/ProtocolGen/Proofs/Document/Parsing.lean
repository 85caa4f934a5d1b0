import ProtocolGen.Proofs.Document.KnownMembers
import ProtocolGen.Proofs.Document.References

/-!
# Parsing documents

The shape of documents and the way they are decoded describe one format. What has faults is refused with
their lines, and what has none is parsed to the one protocol that mirrors it, unless a reference in it
cannot be read.
-/

set_option autoImplicit false

namespace ProtocolGen.Document

theorem parse_of_faults {data : Data} (source : String) (faulty : faultLines data ≠ []) :
    parse source data = .error ⟨source, .misshapen (faultLines data)⟩ := by
  rw [parse]
  split
  · next none => exact absurd none faulty
  · rfl

theorem parse_of_obstacles {data : Data} (source : String) (shaped : faultLines data = [])
    (blocked : obstacles data ≠ []) :
    parse source data = .error ⟨source, .undecodable ((obstacles data).map Obstacle.line)⟩ := by
  rw [parse, shaped]
  dsimp only
  split
  · next clear => exact absurd clear blocked
  · rfl

theorem parse_of_clear {data : Data} (source : String) (shaped : faultLines data = [])
    (clear : obstacles data = []) : parse source data = .ok (decode data) := by
  rw [parse, shaped, clear]

theorem faultLines_known_eq_nil_iff (data : Data) :
    faultLines (known (.part .document) data) = [] ↔ faultLines data = [] := by
  have outlined (value : Data) : faultLines value = [] ↔ outlines (faults value) = [] := by
    rw [faultLines, outlines, List.map_eq_nil_iff, List.map_eq_nil_iff]
  rw [outlined, outlined, outlines_faults]

/-- A document without faults is parsed as it is without the members that do not count. -/
theorem parse_known {data : Data} (source : String) (shaped : faultLines data = []) :
    parse source (known (.part .document) data) = parse source data := by
  rw [parse, parse, shaped, (faultLines_known_eq_nil_iff data).mpr shaped, obstacles_known,
    decode_known]

def entry (name : String) (value : Data) : Text × Data := (Text.ofString name, value)

def textEntry (name text : String) : Text × Data := entry name (.text (Text.ofString text))

/-- A document with a type whose items are referred to in the spelling without a mark. -/
def lampDocument : Data :=
  .table [entry "domains" (.list [.table [textEntry "domain" "Lamp",
    entry "types" (.list [.table [textEntry "id" "Bulbs", textEntry "type" "array",
      entry "items" (.table [textEntry "type" "any", textEntry "ref" "Bulb"]),
      textEntry "maker" "unknown"]])]])]

def lampDomain : Domain :=
  let bulbs : TypeExpression :=
    .withItems ⟨none, some "array", none, none⟩ (.plain ⟨none, some "any", some "Bulb", none⟩)
  ⟨"Lamp", none, false, false, [⟨bulbs, "Bulbs", none, false, false⟩], [], []⟩

end ProtocolGen.Document
