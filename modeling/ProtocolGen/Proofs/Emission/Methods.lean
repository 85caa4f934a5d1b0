import ProtocolGen.Emission.ClientModule

/-!
# The two classes of a domain

The client has an abstract class for each domain and a class that carries its methods out. Behind its
set-up the second has a method for each abstract one, with the same head and in the same order.
-/

set_option autoImplicit false

namespace ProtocolGen.Emission

open ProtocolGen.Types ProtocolGen.Source

/-- The heads of methods in the code of one class. -/
def methodHeads (edits : List Edit) : List String :=
  edits.filterMap fun edit =>
    match edit with
    | .line text 1 => if "def ".toList.isPrefixOf text.toList then some text else none
    | _ => none

/-- The heads of abstract methods in the code of one class. -/
def abstractHeads : List Edit → List String
  | .line mark 1 :: .line text 1 :: rest =>
    if mark = "@abstractmethod" then text :: abstractHeads rest
    else abstractHeads (.line text 1 :: rest)
  | _ :: rest => abstractHeads rest
  | [] => []

def setupHead : String := "def __init__(self, conn: Conn) -> None:"

/-- The heads of the methods of a domain's classes. -/
def signatures (domain : Domain) : List String :=
  domain.commands.map (commandSignature domain.name) ++ domain.events.map (eventSignature domain.name)

theorem def_isPrefixOf_commandSignature (domain : String) (command : Command) :
    "def ".toList.isPrefixOf (commandSignature domain command).toList := by
  simp [commandSignature]

theorem def_isPrefixOf_eventSignature (domain : String) (event : Event) :
    "def ".toList.isPrefixOf (eventSignature domain event).toList := by
  simp [eventSignature]

theorem methodHeads_append (edits others : List Edit) :
    methodHeads (edits ++ others) = methodHeads edits ++ methodHeads others :=
  List.filterMap_append

theorem methodHeads_flatMap {Item : Type} {step : Item → List Edit} {head : Item → String}
    (one : ∀ item, methodHeads (step item) = [head item]) (items : List Item) :
    methodHeads (items.flatMap step) = items.map head := by
  induction items with
  | nil => rfl
  | cons item items ih =>
    rw [List.flatMap_cons, methodHeads_append, one, ih, List.map_cons, List.singleton_append]

theorem abstractHeads_flatMap {Item : Type} {step : Item → List Edit} {head : Item → String}
    (one : ∀ item rest, abstractHeads (step item ++ rest) = head item :: abstractHeads rest)
    (items : List Item) (rest : List Edit) :
    abstractHeads (items.flatMap step ++ rest) = items.map head ++ abstractHeads rest := by
  induction items with
  | nil => rfl
  | cons item items ih =>
    rw [List.flatMap_cons, List.append_assoc, one, ih, List.map_cons, List.cons_append]

theorem methodHeads_abstractMethodEdits {signature : String} (documentation : List String)
    (method : "def ".toList.isPrefixOf signature.toList) (module : String) (names : List String) :
    methodHeads (.require module names :: abstractMethodEdits signature documentation) =
      [signature] := by
  have decorator : ("def ".toList.isPrefixOf "@abstractmethod".toList) = false := by decide
  simp only [methodHeads, abstractMethodEdits, List.filterMap_cons, List.filterMap_nil, decorator,
    method, Bool.false_eq_true, if_false, if_true]

theorem methodHeads_capabilityEdits (domain : Domain) :
    methodHeads (capabilityEdits domain) = signatures domain := by
  rw [capabilityEdits, methodHeads_append, methodHeads_append,
    methodHeads_flatMap fun command => methodHeads_abstractMethodEdits _
      (def_isPrefixOf_commandSignature domain.name command) _ _,
    methodHeads_flatMap fun event => methodHeads_abstractMethodEdits _
      (def_isPrefixOf_eventSignature domain.name event) _ _]
  rfl

theorem abstractHeads_abstractMethodEdits (signature : String) (documentation : List String)
    (module : String) (names : List String) (rest : List Edit) :
    abstractHeads (.require module names :: abstractMethodEdits signature documentation ++ rest) =
      signature :: abstractHeads rest := by
  simp [abstractMethodEdits, abstractHeads]

theorem abstractHeads_capabilityEdits (domain : Domain) :
    abstractHeads (capabilityEdits domain) = signatures domain := by
  have commands := abstractHeads_flatMap fun command : Command =>
    abstractHeads_abstractMethodEdits (commandSignature domain.name command)
      (("Command " ++ command.name ++ ".") :: command.describe :: command.notes) "." ["commands"]
  have events := abstractHeads_flatMap fun event : Event =>
    abstractHeads_abstractMethodEdits (eventSignature domain.name event)
      (("Event " ++ event.name ++ ".") :: event.describe :: event.notes) "." ["events"]
  have front (head : String) (texts : List String) (rest : List Edit) :
      abstractHeads ([.blank 2, .line head 0, .docstring texts 1] ++ rest) = abstractHeads rest := by
    simp [abstractHeads]
  have lastEvents := events domain.events []
  rw [List.append_nil, abstractHeads, List.append_nil] at lastEvents
  rw [capabilityEdits, List.append_assoc, front, commands, lastEvents, signatures]

theorem methodHeads_commandMethodEdits (domain : String) (command : Command) :
    methodHeads (commandMethodEdits domain command) = [commandSignature domain command] := by
  have method := def_isPrefixOf_commandSignature domain command
  unfold commandMethodEdits
  dsimp only
  split
  · simp only [methodHeads, List.cons_append, List.nil_append, List.filterMap_cons,
      List.filterMap_nil, method, if_true]
  · simp only [methodHeads, List.cons_append, List.nil_append, List.filterMap_cons,
      List.filterMap_nil, method, if_true]

theorem methodHeads_eventMethodEdits (domain : String) (event : Event) :
    methodHeads (eventMethodEdits domain event) = [eventSignature domain event] := by
  have method := def_isPrefixOf_eventSignature domain event
  simp only [methodHeads, eventMethodEdits, List.filterMap_cons, List.filterMap_nil, method, if_true]

theorem methodHeads_connectedEdits (domain : Domain) :
    methodHeads (connectedEdits domain) = setupHead :: signatures domain := by
  rw [connectedEdits, methodHeads_append, methodHeads_append,
    methodHeads_flatMap (methodHeads_commandMethodEdits domain.name),
    methodHeads_flatMap (methodHeads_eventMethodEdits domain.name)]
  rfl

end ProtocolGen.Emission
