/-
# The members of a class

Interfaces, nested classes, methods, properties and events, each derived from what the
source of the class's module says. A method knows how many slots its arguments and its
result take. Properties and events find their accessors by name among the methods.
-/
import ManagedHost.Reflection.Layout

namespace ManagedHost

namespace Op

/-- The interfaces of a class. -/
def interfaces (c : ClassHandle) : Op (List ClassHandle) :=
  collect .interfaces c fun _ m refs => each (resolve m) refs

/-- The class of a row that a source lists as nested in the class `c`. -/
def nestedRow (c : ClassHandle) (record : Class) (m : Module) (row : Nat) : Op ClassHandle :=
  match m.classes[row]? with
  | none => fail (.malformed s!"nested type row {row} does not exist")
  | some inner => do
    if (← cls inner).declaring = some c then
      return inner
    else
      fail (.malformed s!"type row {row} is not nested in {record.fullName}")

/-- The classes nested in a class. -/
def nested (c : ClassHandle) : Op (List ClassHandle) :=
  collect .nested c fun record m rows => each (nestedRow c record m) rows

/-- The method that a definition describes. -/
def method (record : Class) (m : Module) (row : Nat) (d : MethodDef) : Op Method := do
  let params ← each (fun p => return { name := p.name, type := ← signature m p.type }) d.params
  let result ← signature m d.result
  let sizes ← each (fun (p : Param) => sizeOf p.type) params
  let resultSize ← sizeOf result
  return {
    owner := record.handle
    module := m.handle
    row
    name := d.name
    qualifiedName := record.fullName ++ "::" ++ d.name
    isStatic := d.isStatic
    isVirtual := d.isVirtual
    isSpecial := d.isSpecial
    params
    result
    implementation := d.implementation
    argSlots := (if d.isStatic then 0 else 1) + Slot.total sizes
    resultSlots := Slot.count resultSize }

/-- The methods of a class. -/
def methods (c : ClassHandle) : Op (List Method) :=
  collect .methods c fun record m defs =>
    each (fun (d, row) => method record m row d) defs.zipIdx

/-- The first method of a class with this name. -/
def methodNamed (c : ClassHandle) (name : String) (ignoreCase : Bool) : Op (Option Method) :=
  return (← methods c).find? fun m => Text.sameName ignoreCase m.name name

/-- The first method of a class with this name and number of parameters. -/
def methodWithArity (c : ClassHandle) (name : String) (arity : Nat) : Op (Option Method) :=
  return (← methods c).find? fun m => m.name == name && m.params.length == arity

/-- The initializer of a class. -/
def typeInitializer (c : ClassHandle) : Op (Option Method) :=
  return (← methods c).find? (·.isTypeInitializer)

/-- The method that an accessor name stands for. -/
def accessor (c : ClassHandle) : Option String → Op (Option Method)
  | none => return none
  | some name => methodNamed c name false

/-- The property of the class `c` that a definition describes. -/
def property (c : ClassHandle) (m : Module) (d : PropertyDef) : Op Property :=
  return {
    owner := c
    name := d.name
    type := ← signature m d.type
    getter := ← accessor c d.getter
    setter := ← accessor c d.setter }

/-- The properties of a class. -/
def properties (c : ClassHandle) : Op (List Property) :=
  collect .properties c fun _ m defs => each (property c m) defs

/-- The event of the class `c` that a definition describes. -/
def event (c : ClassHandle) (d : EventDef) : Op Event :=
  return {
    owner := c
    name := d.name
    add := ← accessor c d.add
    remove := ← accessor c d.remove
    raise := ← accessor c d.raise }

/-- The events of a class. -/
def events (c : ClassHandle) : Op (List Event) :=
  collect .events c fun _ _ defs => each (event c) defs

/-- The first field of a class with this name. -/
def fieldNamed (c : ClassHandle) (name : String) (ignoreCase : Bool) : Op (Option Field) :=
  return (← fields c).find? fun f => Text.sameName ignoreCase f.name name

/-- The first property of a class with this name. -/
def propertyNamed (c : ClassHandle) (name : String) (ignoreCase : Bool) : Op (Option Property) :=
  return (← properties c).find? fun p => Text.sameName ignoreCase p.name name

/-- The first event of a class with this name. -/
def eventNamed (c : ClassHandle) (name : String) (ignoreCase : Bool) : Op (Option Event) :=
  return (← events c).find? fun e => Text.sameName ignoreCase e.name name

end Op

end ManagedHost
