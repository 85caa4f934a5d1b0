import ProtocolGen.Log.Event
import ProtocolGen.Text.Literal

/-!
# Log lines on a console

One line for each event: the time, the level and the message in columns, the logger in brackets, and
the fields by name. A text stands bare unless it has a blank, a control character, a quote or an
equals sign.
-/

set_option autoImplicit false

namespace ProtocolGen.Log

def filled (width : Nat) (text : String) : String :=
  text ++ String.ofList (List.replicate (width - text.length) ' ')

def needsQuotes (char : Char) : Bool :=
  char == ' ' || char == '\t' || char == '=' || char == '\r' || char == '\n' || char == '"' ||
    char == '\'' || char.toNat < 0x20 || char.toNat == 0x7F

def Value.shown : Value → String
  | .text word => if word.toList.any needsQuotes then Text.literalOf word else word
  | .number amount => toString amount
  | .texts words => "[" ++ ", ".intercalate (words.map Text.literalOf) ++ "]"

def Event.consoleLine (time : String) (event : Event) : String :=
  let fields := event.fields.mergeSort fun left right => decide (left.1 ≤ right.1)
  let shown := fields.map fun (name, value) => " " ++ name ++ "=" ++ value.shown
  time ++ " [" ++ filled 9 event.level.name ++ "] " ++ filled 30 event.message ++ " [" ++
    event.logger ++ "]" ++ String.join shown

end ProtocolGen.Log
