import ProtocolGen.CommandLine.Flag
import ProtocolGen.Path
import ProtocolGen.Settings
import ProtocolGen.Text.Digit

/-!
# Requests

What the arguments of a command line ask for. Every argument is first taken for a flag, for the
separator behind which there are no flags, or for plain text; only then are plain texts assigned to
the flags before them. A flag may be shortened as long as it can be told from the others, and its
value may be attached with an equals sign.
-/

set_option autoImplicit false

namespace ProtocolGen.CommandLine

inductive Argument where
  | flag (flag : Flag) (attached : Option String)
  /-- The letters behind the one-letter spelling of the help flag. -/
  | letters (letters : List Char)
  /-- A text that looks like a flag and is none. -/
  | unknown (text : String)
  | plain (text : String)
  | separator
  deriving DecidableEq, Repr

inductive Complaint where
  | ambiguous (argument : String) (spellings : List String)
  | missingValue (flag : Flag)
  | unexpectedValue (flag : Flag) (value : String)
  | missingDocuments
  | unrecognized (arguments : List String)
  deriving DecidableEq, Repr

def Complaint.message : Complaint → String
  | .ambiguous argument spellings =>
    "ambiguous option: " ++ argument ++ " could match " ++ ", ".intercalate spellings
  | .missingValue flag => "argument " ++ flag.shown ++ ": expected one argument"
  | .unexpectedValue flag value =>
    "argument " ++ flag.shown ++ ": ignored explicit argument " ++ Text.literalOf value
  | .missingDocuments => "the following arguments are required: --proto"
  | .unrecognized arguments => "unrecognized arguments: " ++ " ".intercalate arguments

/-- Whether a text is a number behind a minus sign. A line end may follow the number, and its digits
may be those of any script. -/
def isNegativeNumber (text : List Char) : Bool :=
  let unsigned := text.drop 1
  let digits := if unsigned.getLast? = some '\n' then unsigned.dropLast else unsigned
  match digits.dropWhile Text.isDecimalDigit with
  | [] => !digits.isEmpty
  | point :: decimals => point == '.' && !decimals.isEmpty && decimals.all Text.isDecimalDigit

/-- The text before the first equals sign, and the text behind it when there is one. -/
def splitAttached (text : String) : String × Option String :=
  let chars := text.toList
  let name := chars.takeWhile (· != '=')
  match chars.drop name.length with
  | _ :: value => (String.ofList name, some (String.ofList value))
  | [] => (text, none)

/-- What a text that begins with a minus sign and is no spelling is taken for. -/
def classifyDashed (text : String) : Except Complaint Argument :=
  let (name, attached) := splitAttached text
  match (if attached.isSome then Flag.spelled? name else none) with
  | some flag => .ok (.flag flag attached)
  | none =>
    match text.toList with
    | '-' :: 'h' :: letters => .ok (.letters letters)
    | chars =>
      let candidates := spellings.filter fun entry =>
        ['-', '-'].isPrefixOf chars && name.toList.isPrefixOf entry.1.toList
      match candidates with
      | [(_, flag)] => .ok (.flag flag attached)
      | [] =>
        if isNegativeNumber chars || chars.contains ' ' then .ok (.plain text)
        else .ok (.unknown text)
      | several => .error (.ambiguous text (several.map (·.1)))

def classifyText (text : String) : Except Complaint Argument :=
  match text.toList with
  | '-' :: _ :: _ =>
    match Flag.spelled? text with
    | some flag => .ok (.flag flag none)
    | none => classifyDashed text
  | _ => .ok (.plain text)

def classifyAll : List String → Except Complaint (List Argument)
  | [] => .ok []
  | text :: texts =>
    if text == "--" then .ok (.separator :: texts.map .plain)
    else do
      let argument ← classifyText text
      let arguments ← classifyAll texts
      pure (argument :: arguments)

structure Request where
  documents : List Path
  destination : Option Path
  package : Option String
  runtimeModule : Option String
  settingsFile : Option Path
  check : Bool
  verbose : Bool
  jsonLog : Bool
  deriving DecidableEq, Repr

namespace Request

def empty : Request := ⟨[], none, none, none, none, false, false, false⟩

def withValue (request : Request) (flag : Flag) (value : String) : Request :=
  match flag with
  | .document => { request with documents := request.documents ++ [Path.ofString value] }
  | .destination => { request with destination := some (Path.ofString value) }
  | .package => { request with package := some value }
  | .runtimeModule => { request with runtimeModule := some value }
  | .settingsFile => { request with settingsFile := some (Path.ofString value) }
  | _ => request

def withFlag (request : Request) (flag : Flag) : Request :=
  match flag with
  | .check => { request with check := true }
  | .verbose => { request with verbose := true }
  | .jsonLog => { request with jsonLog := true }
  | _ => request

def overrides (request : Request) : Overrides where
  package := request.package.map fun name => .text (Text.ofString name)
  destination := request.destination
  runtimeModule := request.runtimeModule.map fun name => .text (Text.ofString name)
  typesPackage := none

end Request

inductive Demand where
  | help
  | version
  | run (request : Request)
  deriving DecidableEq, Repr

/-- The value that letters behind the help flag are refused for. Further help flags may stand there,
and anything after them but a dash or an attached value. -/
def refusedLetters? (letters : List Char) : Option String :=
  match letters.dropWhile (· == 'h') with
  | '=' :: value => some (String.ofList value)
  | '-' :: value => some (String.ofList ('-' :: value))
  | _ => none

/-- What the arguments from the next one on ask for, given the request and the texts without a use
so far. A flag for help or the version ends the matter. -/
def demandFrom (request : Request) (unused : List String) :
    List Argument → Except Complaint Demand
  | [] =>
    if request.documents.isEmpty then .error .missingDocuments
    else if unused.isEmpty then .ok (.run request)
    else .error (.unrecognized unused)
  | .plain text :: rest | .unknown text :: rest => demandFrom request (unused ++ [text]) rest
  | .separator :: rest => demandFrom request (unused ++ ["--"]) rest
  | .letters letters :: _ =>
    match refusedLetters? letters with
    | some value => .error (.unexpectedValue .help value)
    | none => .ok .help
  | .flag .help none :: _ => .ok .help
  | .flag .version none :: _ => .ok .version
  | .flag flag (some value) :: rest =>
    if flag.takesValue then demandFrom (request.withValue flag value) unused rest
    else .error (.unexpectedValue flag value)
  | .flag flag none :: .plain value :: rest =>
    if flag.takesValue then demandFrom (request.withValue flag value) unused rest
    else demandFrom (request.withFlag flag) (unused ++ [value]) rest
  | .flag flag none :: rest =>
    if flag.takesValue then .error (.missingValue flag)
    else demandFrom (request.withFlag flag) unused rest

def demand (texts : List String) : Except Complaint Demand := do
  let arguments ← classifyAll texts
  demandFrom Request.empty [] arguments

end ProtocolGen.CommandLine
