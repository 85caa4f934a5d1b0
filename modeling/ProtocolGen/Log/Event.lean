/-!
# Log events

What a run reports about itself: events of a level, from a named logger, with fields. A logger lets
through events of its own threshold and above; the tool's loggers have one threshold and all others
another.
-/

set_option autoImplicit false

namespace ProtocolGen.Log

inductive Level where
  | debug
  | info
  | warning
  | error
  | critical
  deriving DecidableEq, Repr

def Level.name : Level → String
  | .debug => "debug"
  | .info => "info"
  | .warning => "warning"
  | .error => "error"
  | .critical => "critical"

def Level.number : Level → Nat
  | .debug => 10
  | .info => 20
  | .warning => 30
  | .error => 40
  | .critical => 50

inductive Value where
  | text (text : String)
  | number (number : Int)
  | texts (texts : List String)
  deriving DecidableEq, Repr

structure Event where
  logger : String
  level : Level
  message : String
  fields : List (String × Value)
  deriving DecidableEq, Repr

structure Reporting where
  verbose : Bool
  json : Bool
  deriving DecidableEq, Repr

def toolLogger : String := "cdpgen"

def isToolLogger (logger : String) : Bool :=
  logger == toolLogger || (toolLogger ++ ".").toList.isPrefixOf logger.toList

def rootThreshold : Level := .warning

def Reporting.toolThreshold (reporting : Reporting) : Level :=
  if reporting.verbose then .debug else .warning

def Reporting.admits (reporting : Reporting) (event : Event) : Bool :=
  let threshold := if isToolLogger event.logger then reporting.toolThreshold else rootThreshold
  threshold.number ≤ event.level.number

end ProtocolGen.Log
