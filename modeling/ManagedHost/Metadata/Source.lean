/-
# Metadata sources

A source answers questions about one module, type by type. Every question about a type is
put by row and may fail. Nothing is assumed about the answers: a source may report a name,
a number of types or an enclosing type that does not fit its other answers.
-/
import ManagedHost.Metadata.Definition
import ManagedHost.Error

namespace ManagedHost

/-- The questions that can be asked about the type of a row. -/
inductive Query where
  | typeDef
  | interfaces
  | nested
  | methods
  | fields
  | properties
  | events
deriving Repr, DecidableEq, Inhabited

/-- The answers of a metadata source. -/
structure Source where
  /-- File name of the module. -/
  moduleName : String
  /-- Name of the assembly. -/
  assemblyName : String
  /-- Number of types. -/
  typeCount : Nat
  /-- The definition of a type. -/
  typeDef : Nat → Except Error TypeDef
  /-- The interfaces a type implements. -/
  interfaces : Nat → Except Error (List TypeRef)
  /-- The rows of the types nested directly in a type. -/
  nested : Nat → Except Error (List Nat)
  /-- The methods of a type. -/
  methods : Nat → Except Error (List MethodDef)
  /-- The fields of a type. -/
  fields : Nat → Except Error (List FieldDef)
  /-- The properties of a type. -/
  properties : Nat → Except Error (List PropertyDef)
  /-- The events of a type. -/
  events : Nat → Except Error (List EventDef)
  /-- The assembly to which a type of this namespace and name has moved. -/
  forwarded : String → String → Option String

instance : Inhabited Source where
  default :=
    { moduleName := "", assemblyName := "", typeCount := 0
      typeDef := fun _ => .error default, interfaces := fun _ => .error default
      nested := fun _ => .error default, methods := fun _ => .error default
      fields := fun _ => .error default, properties := fun _ => .error default
      events := fun _ => .error default, forwarded := fun _ _ => none }

end ManagedHost
