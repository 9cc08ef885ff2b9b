/-
# Assembly images

The content of an assembly image as a decoder hands it over, and the metadata source that
it makes. The first row of an image is a nameless container of global members. Accessors of
properties and events are methods owned by the property or event; as a source the image
lists them after the methods of the type itself.
-/
import ManagedHost.Metadata.Source

namespace ManagedHost

/-- A reference to a type as an image holds it. -/
inductive ImageRef where
  /-- A type of the image, by row. -/
  | definition (row : Nat)
  /-- A type of another assembly. -/
  | assembly (assembly space name : String)
  /-- A type nested in another referenced type. -/
  | nested (outer : ImageRef) (name : String)
  /-- A type to be looked up in another place: the current module, an exported type, or
  another module of the same assembly. -/
  | elsewhere (name : String)
  /-- An instance of a generic type; of the arguments, which make no difference to the host,
  only how many types outside the image they refer to. -/
  | instanceOf (base : ImageRef) (references : Nat)
deriving Repr, DecidableEq, Inhabited

/-- The type reference that stands for a reference of an image. Only references by row, by
assembly, or nested in such a reference can be expressed. -/
def ImageRef.typeRef : ImageRef → Except Error TypeRef
  | definition row => .ok (.definition row)
  | assembly a space name => .ok (.external a space name)
  | nested outer name => return .nested (← outer.typeRef) name
  | elsewhere name => .error (.malformed s!"unsupported resolution scope for {name}")
  | instanceOf base _ => base.typeRef

/-- The type of a value as an image holds it. -/
inductive ImageType where
  /-- A built-in type, or a named one. -/
  | named (type : Signature ImageRef)
  /-- A one-dimensional array. -/
  | vector (element : ImageType)
  /-- An array of several dimensions. -/
  | matrix (element : ImageType)
  /-- A pointer to anything. -/
  | pointer
  /-- A pointer to values of a type. -/
  | pointerTo (target : ImageType)
  | functionPointer
  /-- A generic parameter of the type. -/
  | typeParameter (position : Nat)
  /-- A generic parameter of the method. -/
  | methodParameter (position : Nat)
deriving Repr, DecidableEq, Inhabited

/-- A signature with every reference of an image replaced by the one that stands for it. -/
def ImageRef.signature (s : Signature ImageRef) : Except Error (Signature TypeRef) :=
  s.expand (fun r => return .reference (← r.typeRef)) (fun r => return .value (← r.typeRef))

/-- The signature of a type of an image. The host does not look into arrays and pointers. -/
def ImageType.signature : ImageType → Except Error (Signature TypeRef)
  | named s => ImageRef.signature s
  | vector _ | matrix _ => .ok .array
  | pointer | pointerTo _ | functionPointer => .ok .pointer
  | typeParameter i | methodParameter i => .ok (.parameter i)

/-- What a parameter or result of an image holds. -/
inductive ImageParam where
  | value (type : ImageType)
  | byRef (type : ImageType)
  | typedReference
deriving Repr, DecidableEq, Inhabited

/-- The signature of a parameter or result. -/
def ImageParam.signature : ImageParam → Except Error (Signature TypeRef)
  | value t => t.signature
  | byRef t => return .byRef (← t.signature)
  | typedReference => .ok .typedReference

/-- A method of an image. -/
structure ImageMethod where
  /-- Simple name. -/
  name : String
  /-- The result, missing when there is none. -/
  result : Option ImageParam
  /-- The parameters, which have no names. -/
  params : List ImageParam
  /-- Whether the method is called on a receiver. -/
  isInstance : Bool
  /-- Whether subclasses may override the method. -/
  isVirtual : Bool
  /-- Whether the name has a meaning to the host. -/
  isSpecial : Bool
  /-- Library and entry point of an imported native function. -/
  imported : Option (String × String)
  /-- Whether the host implements the method. -/
  isInternalCall : Bool
  /-- Whether the method has a body. -/
  hasBody : Bool
deriving Repr, DecidableEq, Inhabited

namespace ImageMethod

/-- How the method is implemented: an import comes before the host, the host before a body. -/
def implementation (m : ImageMethod) : Implementation :=
  match m.imported with
  | some (library, entry) => .pinvoke library entry
  | none => if m.isInternalCall then .internalCall else if m.hasBody then .managed else .absent

/-- Signature of the result. -/
def resultSignature (m : ImageMethod) : Except Error (Signature TypeRef) :=
  match m.result with
  | none => .ok .void
  | some p => p.signature

/-- The parameters, named by position. -/
def paramDefs (m : ImageMethod) : Except Error (List ParamDef) :=
  (m.params.zipIdx).mapM fun (p, i) => return { name := s!"arg{i}", type := ← p.signature }

/-- The definition of the method. -/
def definition (m : ImageMethod) : Except Error MethodDef := do
  let params ← m.paramDefs
  let result ← m.resultSignature
  return {
    name := m.name
    result
    params
    isStatic := !m.isInstance
    isVirtual := m.isVirtual
    isSpecial := m.isSpecial
    implementation := m.implementation }

end ImageMethod

/-- A field of an image. -/
structure ImageField where
  /-- Name of the field. -/
  name : String
  /-- What the field holds. -/
  type : ImageType
  /-- Whether the field belongs to the class and not to its instances. -/
  isStatic : Bool
deriving Repr, DecidableEq, Inhabited

/-- A property of an image, with the accessors it owns. -/
structure ImageProperty where
  /-- Name of the property. -/
  name : String
  /-- The method that reads the property. -/
  getter : Option ImageMethod
  /-- The method that writes the property. -/
  setter : Option ImageMethod
deriving Repr, DecidableEq, Inhabited

/-- The signature of a property: what the getter returns, else the last parameter of the
setter, else an object. -/
def ImageProperty.signature (p : ImageProperty) : Except Error (Signature TypeRef) :=
  match p.getter, p.setter with
  | some getter, _ => getter.resultSignature
  | none, some setter =>
    match setter.params.getLast? with
    | some last => last.signature
    | none => .ok .object
  | none, none => .ok .object

/-- An event of an image, with the accessors it owns. -/
structure ImageEvent where
  /-- Name of the event. -/
  name : String
  /-- The method that adds a listener. -/
  add : ImageMethod
  /-- The method that removes a listener. -/
  remove : ImageMethod
  /-- The method that raises the event. -/
  raise : Option ImageMethod
deriving Repr, DecidableEq, Inhabited

/-- A type of an image. -/
structure ImageTypeDef where
  /-- Namespace. -/
  space : String
  /-- Simple name. -/
  name : String
  /-- The type it inherits from. -/
  parent : Option ImageRef := none
  /-- Row of the enclosing type of a nested type. -/
  encloser : Option Nat := none
  /-- Whether the type is an interface. -/
  isInterface : Bool := false
  /-- The implemented interfaces. -/
  interfaces : List ImageRef := []
  /-- The methods, without accessors. -/
  methods : List ImageMethod := []
  /-- The fields. -/
  fields : List ImageField := []
  /-- The properties. -/
  properties : List ImageProperty := []
  /-- The events. -/
  events : List ImageEvent := []
  /-- How many times its members refer to a type outside the image. -/
  memberReferences : Nat := 0
deriving Repr, DecidableEq, Inhabited

namespace ImageTypeDef

/-- The type that holds global members; it is the first row of every image. -/
def globals : ImageTypeDef :=
  { space := "", name := "<Module>" }

/-- A type whose name starts with an angle bracket was made up by a compiler and is not
visible from outside; every other type is. -/
def visibility (t : ImageTypeDef) : Visibility :=
  match t.encloser.isSome, t.name.toList.head? == some '<' with
  | false, false => .everyone
  | false, true => .assembly
  | true, false => .nestedEveryone
  | true, true => .nestedRestricted

/-- The definition of the type. -/
def definition (t : ImageTypeDef) : Except Error TypeDef := do
  let parent ← t.parent.mapM ImageRef.typeRef
  return {
    space := t.space
    name := t.name
    parent
    encloser := t.encloser
    visibility := t.visibility
    isInterface := t.isInterface }

/-- The accessors of the properties, then those of the events. -/
def accessors (t : ImageTypeDef) : List ImageMethod :=
  t.properties.flatMap (fun p => p.getter.toList ++ p.setter.toList) ++
    t.events.flatMap (fun e => [e.add, e.remove] ++ e.raise.toList)

end ImageTypeDef

/-- The decoded content of an assembly image. -/
structure Image where
  /-- Name of the assembly, missing when the image holds a bare module. -/
  assemblyName : Option String
  /-- The types by row. -/
  types : List ImageTypeDef
  /-- The types exported on behalf of others: namespace, name, and the assembly the type has
  moved to unless it lives in another file of this assembly. -/
  exported : List (String × String × Option String)
deriving Repr, DecidableEq, Inhabited

namespace Image

/-- The type of a row. -/
def entry (i : Image) (moduleName : String) (row : Nat) : Except Error ImageTypeDef :=
  match i.types[row]? with
  | some t => .ok t
  | none => .error (.malformed s!"type row {row} out of range in {moduleName}")

/-- The assembly to which a type has moved. -/
def forwarded (i : Image) (space name : String) : Option String :=
  i.exported.findSome? fun (s, n, target) => if s == space && n == name then target else none

/-- The rows of the types whose encloser is the given row, in ascending order. -/
def nestedRows (i : Image) (row : Nat) : List Nat :=
  (List.range i.types.length).filter fun k => (i.types[k]?.bind (·.encloser)) == some row

/-- The answers of an image found in a file of the given name, when it was asked for under
the name `requested`. -/
def source (i : Image) (moduleName requested : String) : Source where
  moduleName
  assemblyName := i.assemblyName.getD requested
  typeCount := i.types.length
  typeDef row := do (← i.entry moduleName row).definition
  interfaces row := do (← i.entry moduleName row).interfaces.mapM ImageRef.typeRef
  nested row := do
    let _ ← i.entry moduleName row
    return i.nestedRows row
  methods row := do
    let t ← i.entry moduleName row
    (t.methods ++ t.accessors).mapM ImageMethod.definition
  fields row := do
    (← i.entry moduleName row).fields.mapM fun f =>
      return { name := f.name, type := ← f.type.signature, isStatic := f.isStatic }
  properties row := do
    (← i.entry moduleName row).properties.mapM fun p =>
      return {
        name := p.name
        type := ← p.signature
        getter := p.getter.map (·.name)
        setter := p.setter.map (·.name) }
  events row := do
    return (← i.entry moduleName row).events.map fun e =>
      { name := e.name
        add := some e.add.name
        remove := some e.remove.name
        raise := e.raise.map (·.name) }
  forwarded := i.forwarded

end Image

end ManagedHost
