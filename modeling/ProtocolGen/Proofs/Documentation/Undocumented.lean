import ProtocolGen.Emission.Field

/-!
# Protocols without documentation

What is left of a protocol without the parts that only document it: descriptions, the marks of
experimental and deprecated parts, and the labels of expressions. The labels of a declared type are no
documentation, since they make it an enumeration.
-/

set_option autoImplicit false

namespace ProtocolGen

def Facets.undocumented (facets : Facets) : Facets :=
  { facets with description := none, enumeration := none }

namespace TypeExpression

def undocumented : TypeExpression → TypeExpression
  | .plain facets => .plain facets.undocumented
  | .withItems facets items => .withItems facets.undocumented items.undocumented

/-- An expression without descriptions, and with no labels but its own. -/
def undescribed : TypeExpression → TypeExpression
  | .plain facets => .plain { facets with description := none }
  | .withItems facets items => .withItems { facets with description := none } items.undocumented

end TypeExpression

def Property.undocumented (property : Property) : Property :=
  { property with
    expression := property.expression.undocumented, experimental := false, deprecated := false }

def TypeDeclaration.undocumented (declaration : TypeDeclaration) : TypeDeclaration :=
  { declaration with
    expression := declaration.expression.undescribed
    properties := declaration.properties.map (List.map Property.undocumented)
    experimental := false, deprecated := false }

def Command.undocumented (command : Command) : Command :=
  { command with
    description := none
    parameters := command.parameters.map Property.undocumented
    returns := command.returns.map Property.undocumented
    experimental := false, deprecated := false }

def Event.undocumented (event : Event) : Event :=
  { event with
    description := none, parameters := event.parameters.map Property.undocumented
    experimental := false, deprecated := false }

/-- A domain without documentation. -/
def Domain.undocumented (domain : Domain) : Domain :=
  { domain with
    description := none, experimental := false, deprecated := false
    types := domain.types.map TypeDeclaration.undocumented
    commands := domain.commands.map Command.undocumented
    events := domain.events.map Event.undocumented }

/-- Domains that differ in nothing but documentation. -/
def DifferInDocumentation (domains others : List Domain) : Prop :=
  domains.map Domain.undocumented = others.map Domain.undocumented

namespace TypeExpression

@[simp] theorem reference?_undocumented (expression : TypeExpression) :
    expression.undocumented.reference? = expression.reference? := by
  cases expression <;> rfl

@[simp] theorem reference?_undescribed (expression : TypeExpression) :
    expression.undescribed.reference? = expression.reference? := by
  cases expression <;> rfl

@[simp] theorem type_undescribed (expression : TypeExpression) :
    expression.undescribed.type = expression.type := by
  cases expression <;> rfl

@[simp] theorem labels?_undescribed (expression : TypeExpression) :
    expression.undescribed.labels? = expression.labels? := by
  cases expression <;> rfl

@[simp] theorem undocumented_undocumented (expression : TypeExpression) :
    expression.undocumented.undocumented = expression.undocumented := by
  induction expression with
  | plain facets => rfl
  | withItems facets items ih =>
    simp only [undocumented, ih]
    rfl

@[simp] theorem undocumented_undescribed (expression : TypeExpression) :
    expression.undescribed.undocumented = expression.undocumented := by
  cases expression with
  | plain facets => rfl
  | withItems facets items =>
    simp only [undescribed, undocumented, undocumented_undocumented]
    rfl

end TypeExpression

namespace TypeDeclaration

variable (declaration : TypeDeclaration)

@[simp] theorem id_undocumented : declaration.undocumented.id = declaration.id := rfl

@[simp] theorem expression_undocumented :
    declaration.undocumented.expression = declaration.expression.undescribed := rfl

@[simp] theorem propertyList_undocumented :
    declaration.undocumented.propertyList = declaration.propertyList.map Property.undocumented := by
  cases given : declaration.properties <;>
    simp [undocumented, propertyList, given]

end TypeDeclaration

namespace Command

variable (command : Command)

@[simp] theorem name_undocumented : command.undocumented.name = command.name := rfl

@[simp] theorem parameters_undocumented :
    command.undocumented.parameters = command.parameters.map Property.undocumented := rfl

@[simp] theorem returns_undocumented :
    command.undocumented.returns = command.returns.map Property.undocumented := rfl

end Command

namespace Event

variable (event : Event)

@[simp] theorem name_undocumented : event.undocumented.name = event.name := rfl

@[simp] theorem parameters_undocumented :
    event.undocumented.parameters = event.parameters.map Property.undocumented := rfl

end Event

namespace Domain

variable (domain : Domain)

@[simp] theorem name_undocumented : domain.undocumented.name = domain.name := rfl

@[simp] theorem types_undocumented :
    domain.undocumented.types = domain.types.map TypeDeclaration.undocumented := rfl

@[simp] theorem commands_undocumented :
    domain.undocumented.commands = domain.commands.map Command.undocumented := rfl

@[simp] theorem events_undocumented :
    domain.undocumented.events = domain.events.map Event.undocumented := rfl

end Domain

end ProtocolGen
