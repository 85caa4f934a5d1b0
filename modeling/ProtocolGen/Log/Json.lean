import ProtocolGen.Json.Writer
import ProtocolGen.Log.Event

/-!
# Log lines in JSON

One object for each event: its fields, then the message, the level, the logger and the time.
-/

set_option autoImplicit false

namespace ProtocolGen.Log

def Value.data : Value → Data
  | .text word => .text (Text.ofString word)
  | .number amount => .integer amount
  | .texts words => .list (words.map fun word => .text (Text.ofString word))

def Event.data (time : String) (event : Event) : Data :=
  let ends : List (String × Value) := [
    ("event", .text event.message), ("level", .text event.level.name),
    ("logger", .text event.logger), ("timestamp", .text time)]
  Data.tableOf ((event.fields ++ ends).map fun (name, value) => (Text.ofString name, value.data))

def Event.jsonLine (time : String) (event : Event) : String :=
  match Json.written (event.data time) with
  | .ok chars => String.ofList chars
  | .error fault => fault.message

end ProtocolGen.Log
