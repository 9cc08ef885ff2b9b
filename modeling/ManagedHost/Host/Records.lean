/-
# What a host knows about loaded code

Records of assemblies, modules and classes and of the members of a class. A class record
carries what its module says about the type, what has been derived from it so far, and the
state of its initializer.
-/
import ManagedHost.Handle
import ManagedHost.InitState
import ManagedHost.Members
import ManagedHost.Metadata.Definition
import ManagedHost.Path
import ManagedHost.Slot

namespace ManagedHost

/-- Tells metadata sources apart. What is found under a name can be replaced later, while a
source that has been opened stays as it was. -/
structure SourceId where
  /-- The name under which a host asked for it. -/
  name : String
  /-- Which of the things found under that name in the course of time it is. -/
  edition : Nat := 0
deriving Repr, DecidableEq, Inhabited

/-- A loaded assembly. -/
structure Assembly where
  /-- Its handle. -/
  handle : AssemblyHandle
  /-- Name that its source reports. -/
  name : String
  /-- Its module. -/
  module : ModuleHandle
deriving Repr, DecidableEq, Inhabited

/-- A loaded module. -/
structure Module where
  /-- Its handle. -/
  handle : ModuleHandle
  /-- Its assembly. -/
  assembly : AssemblyHandle
  /-- File name that its source reports. -/
  name : String
  /-- Whether it is the module of the core library. -/
  isCorlib : Bool
  /-- Its classes by row. -/
  classes : List ClassHandle
  /-- The source that answers questions about its types. -/
  source : SourceId
deriving Repr, DecidableEq, Inhabited

namespace Module

/-- The file name without its extension. -/
def nameWithoutExtension (m : Module) : String :=
  (Path.fileStem? m.name).getD m.name

/-- The record as text. -/
def describe (m : Module) : String :=
  let corlib := if m.isCorlib then "true" else "false"
  s!"ModuleDef \x7b handle: {m.handle.describe}, name: {Text.quote m.name}, " ++
    s!"is_corlib: {corlib}, classes: {m.classes.length} \x7d"

end Module

/-- Size and alignment of the instances of a value type, in bytes. -/
structure Layout where
  /-- Number of bytes. -/
  size : Nat
  /-- Every instance starts at a multiple of this. -/
  align : Nat
deriving Repr, DecidableEq, Inhabited

/-- A parameter of a method. -/
structure Param where
  /-- Name of the parameter. -/
  name : String
  /-- What is passed. -/
  type : Signature ClassHandle
deriving Repr, DecidableEq, Inhabited

/-- A method of a class. -/
structure Method where
  /-- The class that declares it. -/
  owner : ClassHandle
  /-- The module of that class. -/
  module : ModuleHandle
  /-- Position among the methods of the class. -/
  row : Nat
  /-- Simple name. -/
  name : String
  /-- Full name of the class and name of the method. -/
  qualifiedName : String
  /-- Whether it is called without a receiver. -/
  isStatic : Bool
  /-- Whether subclasses may override it. -/
  isVirtual : Bool
  /-- Whether its name has a meaning to the host. -/
  isSpecial : Bool
  /-- The parameters, without the receiver. -/
  params : List Param
  /-- What it returns. -/
  result : Signature ClassHandle
  /-- How it is implemented. -/
  implementation : Implementation
  /-- Number of slots its arguments take, the receiver included. -/
  argSlots : Nat
  /-- Number of slots its result takes. -/
  resultSlots : Nat
deriving Repr, DecidableEq, Inhabited

namespace Method

/-- Whether it is called on a receiver. -/
def isInstance (m : Method) : Bool :=
  !m.isStatic

/-- Whether it sets up a new instance. -/
def isConstructor (m : Method) : Bool :=
  m.isSpecial && m.isInstance && m.name == ".ctor"

/-- Whether it is the initializer of its class. -/
def isTypeInitializer (m : Method) : Bool :=
  m.isSpecial && m.isStatic && m.name == ".cctor" && m.params.isEmpty

/-- The method with its result and parameters as text. -/
def text (m : Method) : String :=
  let params := m.params.map fun p => s!"{p.type.text} {p.name}"
  s!"{m.result.text} {m.qualifiedName}(" ++ ", ".intercalate params ++ ")"

end Method

/-- A field of a class. -/
structure Field where
  /-- The class that declares it. -/
  owner : ClassHandle
  /-- Name of the field. -/
  name : String
  /-- What it holds. -/
  type : Signature ClassHandle
  /-- Whether it belongs to the class and not to its instances. -/
  isStatic : Bool
deriving Repr, DecidableEq, Inhabited

/-- A property of a class. -/
structure Property where
  /-- The class that declares it. -/
  owner : ClassHandle
  /-- Name of the property. -/
  name : String
  /-- What it holds. -/
  type : Signature ClassHandle
  /-- The method that reads it. -/
  getter : Option Method
  /-- The method that writes it. -/
  setter : Option Method
deriving Repr, DecidableEq, Inhabited

/-- An event of a class. -/
structure Event where
  /-- The class that declares it. -/
  owner : ClassHandle
  /-- Name of the event. -/
  name : String
  /-- The method that adds a listener. -/
  add : Option Method
  /-- The method that removes a listener. -/
  remove : Option Method
  /-- The method that raises it. -/
  raise : Option Method
deriving Repr, DecidableEq, Inhabited

/-- A loaded class. -/
structure Class where
  /-- Its handle. -/
  handle : ClassHandle
  /-- Its module. -/
  module : ModuleHandle
  /-- Its row in the module. -/
  row : Nat
  /-- Namespace. -/
  space : String
  /-- Simple name. -/
  name : String
  /-- Namespace and names of the enclosing classes and of the class itself. -/
  fullName : String
  /-- The class it inherits from. -/
  parent : Option ClassHandle
  /-- The class it is nested in. -/
  declaring : Option ClassHandle
  /-- Who may see it. -/
  visibility : Visibility
  /-- Whether it is an interface. -/
  isInterface : Bool
  /-- The interfaces it implements. -/
  interfaces : Members ClassHandle := .unknown
  /-- The classes nested in it. -/
  nested : Members ClassHandle := .unknown
  /-- Its methods. -/
  methods : Members Method := .unknown
  /-- Its fields. -/
  fields : Members Field := .unknown
  /-- Its properties. -/
  properties : Members Property := .unknown
  /-- Its events. -/
  events : Members Event := .unknown
  /-- Layout of its instances, once it has been computed. -/
  layout : Option Layout := none
  /-- Signature of its instances, once it has been determined. -/
  byValue : Option (Signature ClassHandle) := none
  /-- State of its initializer. -/
  init : InitState := .untouched
deriving Repr, DecidableEq, Inhabited

namespace Class

/-- Whether everyone who sees the enclosing class sees this one. -/
def isExported (c : Class) : Bool :=
  c.visibility.isExported

/-- Whether it is the type of this name of the namespace `System`, not nested. -/
def isSystemType (c : Class) (name : String) : Bool :=
  c.space == "System" && c.name == name && c.declaring.isNone

end Class

end ManagedHost
