/-
# Modules put together in memory

A module can be assembled from definitions instead of being read from an image. The types
are numbered in the order in which they are added. A small core library is provided: the
roots of the type hierarchy, the built-in value types, strings, and a class of mathematical
functions that the host implements itself.
-/
import ManagedHost.Metadata.Source

namespace ManagedHost

/-- A type of an assembled module with its members. -/
structure AssembledType where
  /-- The definition of the type. -/
  definition : TypeDef
  /-- The implemented interfaces. -/
  interfaces : List TypeRef := []
  /-- The methods in the order of declaration. -/
  methods : List MethodDef := []
  /-- The fields in the order of declaration. -/
  fields : List FieldDef := []
  /-- The properties in the order of declaration. -/
  properties : List PropertyDef := []
  /-- The events in the order of declaration. -/
  events : List EventDef := []
deriving Repr, DecidableEq, Inhabited

/-- A module assembled in memory. -/
structure AssembledModule where
  /-- Name of the assembly. -/
  assemblyName : String
  /-- The types by row. -/
  types : List AssembledType := []
  /-- The types that moved to another assembly: namespace, name and assembly, latest first. -/
  forwards : List (String × String × String) := []
deriving Repr, DecidableEq, Inhabited

namespace AssembledModule

/-- File name of the module. -/
def moduleName (m : AssembledModule) : String :=
  m.assemblyName ++ ".dll"

/-- Adds a type as the next row. -/
def addType (m : AssembledModule) (t : AssembledType) : AssembledModule :=
  { m with types := m.types ++ [t] }

/-- Moves a type to another assembly; of several moves the latest counts. -/
def forward (m : AssembledModule) (space name assembly : String) : AssembledModule :=
  { m with forwards := (space, name, assembly) :: m.forwards }

/-- The assembly to which a type has moved. -/
def forwarded (m : AssembledModule) (space name : String) : Option String :=
  (m.forwards.find? fun f => f.1 == space && f.2.1 == name).map (·.2.2)

/-- The row of the first type with this namespace and name, given as one text. -/
def findRow (m : AssembledModule) (fullName : String) : Option Nat :=
  m.types.findIdx? fun t =>
    let d := t.definition
    if d.space = "" then d.name == fullName else d.space ++ "." ++ d.name == fullName

/-- The type of a row. -/
def entry (m : AssembledModule) (row : Nat) : Except Error AssembledType :=
  match m.types[row]? with
  | some t => .ok t
  | none => .error (.malformed s!"type row {row} out of range in {m.moduleName}")

/-- The rows of the types whose encloser is the given row, in ascending order. -/
def nestedRows (m : AssembledModule) (row : Nat) : List Nat :=
  (List.range m.types.length).filter fun i =>
    (m.types[i]?.bind (·.definition.encloser)) == some row

/-- The answers of the module as a metadata source. -/
def source (m : AssembledModule) : Source where
  moduleName := m.moduleName
  assemblyName := m.assemblyName
  typeCount := m.types.length
  typeDef row := return (← m.entry row).definition
  interfaces row := return (← m.entry row).interfaces
  nested row := do
    let _ ← m.entry row
    return m.nestedRows row
  methods row := return (← m.entry row).methods
  fields row := return (← m.entry row).fields
  properties row := return (← m.entry row).properties
  events row := return (← m.entry row).events
  forwarded := m.forwarded

/-- A type of the namespace `System` that inherits from an earlier row. -/
private def systemType (name : String) (parent : Option Nat) : AssembledType :=
  { definition := { space := "System", name, parent := parent.map .definition } }

/-- The built-in value types and what their single field holds. -/
private def valueTypes : List (String × Signature TypeRef) :=
  [("Boolean", .boolean), ("Char", .char), ("SByte", .int8), ("Byte", .uint8),
   ("Int16", .int16), ("UInt16", .uint16), ("Int32", .int32), ("UInt32", .uint32),
   ("Int64", .int64), ("UInt64", .uint64), ("Single", .float32), ("Double", .float64),
   ("IntPtr", .intPtr), ("UIntPtr", .uintPtr)]

/-- A mathematical function on floating-point numbers that the host implements. -/
private def mathMethod (name : String) (params : List String) : MethodDef :=
  { name
    result := .float64
    params := params.map fun p => { name := p, type := .float64 }
    implementation := .intrinsic }

/-- A small core library. -/
def corlib (assemblyName : String) : AssembledModule where
  assemblyName
  types :=
    [{ systemType "Object" none with methods := [.constructor] },
     systemType "ValueType" (some 0),
     systemType "Enum" (some 1)] ++
    (valueTypes.map fun (name, type) =>
      { systemType name (some 1) with fields := [{ name := "m_value", type }] }) ++
    [systemType "Void" (some 1),
     { systemType "String" (some 0) with
        fields := [{ name := "_stringLength", type := .int32 }] },
     { systemType "Math" (some 0) with
        methods := (["Sqrt", "Sin", "Cos", "Floor", "Ceiling"].map (mathMethod · ["d"])) ++
          [mathMethod "Pow" ["x", "y"]] }]

end AssembledModule

end ManagedHost
