/-
# Definitions in the metadata of a module

The records with which a module describes its types and their members. Types are numbered
by row, and classes in signatures are named by type references.
-/
import ManagedHost.Metadata.TypeRef
import ManagedHost.Signature
import ManagedHost.Text.Quoted

namespace ManagedHost

/-- Who may see a type. -/
inductive Visibility where
  | everyone
  | assembly
  | nestedEveryone
  /-- Nested, and seen by fewer than everyone who sees the enclosing type. -/
  | nestedRestricted
deriving Repr, DecidableEq, Inhabited

namespace Visibility

/-- Whether the type can be seen wherever the enclosing type can. -/
def isExported : Visibility → Bool
  | everyone | nestedEveryone => true
  | assembly | nestedRestricted => false

/-- The visibility as text. -/
def text : Visibility → String
  | everyone => "Public"
  | assembly => "NotPublic"
  | nestedEveryone => "NestedPublic"
  | nestedRestricted => "NestedPrivate"

end Visibility

/-- The definition of a type. -/
structure TypeDef where
  /-- Namespace; nested types have none of their own. -/
  space : String
  /-- Simple name. -/
  name : String
  /-- The type it inherits from. -/
  parent : Option TypeRef := none
  /-- Row of the enclosing type of a nested type. -/
  encloser : Option Nat := none
  /-- Who may see the type. -/
  visibility : Visibility := .everyone
  /-- Whether the type is an interface. -/
  isInterface : Bool := false
deriving Repr, DecidableEq, Inhabited

/-- Nests a definition in the type of a row: it loses its namespace, and a type visible to
everyone stays so as a nested type. -/
def TypeDef.nestIn (d : TypeDef) (row : Nat) : TypeDef :=
  { d with
    encloser := some row
    space := ""
    visibility := if d.visibility = .everyone then .nestedEveryone else d.visibility }

/-- How a method is implemented. -/
inductive Implementation where
  /-- By a body for the interpreter. -/
  | managed
  /-- By a function of a native library. -/
  | pinvoke (library entry : String)
  /-- By a function that the host registers for the method. -/
  | internalCall
  /-- By a function built into the host. -/
  | intrinsic
  /-- Not at all: abstract methods and methods of interfaces. -/
  | absent
deriving Repr, DecidableEq, Inhabited

namespace Implementation

/-- The import of a native function as text. -/
private def describeImport (library entry : String) : String :=
  s!"PInvoke \x7b module: {Text.quote library}, entry: {Text.quote entry} \x7d"

/-- The implementation as a module's metadata describes it. -/
def describe : Implementation → String
  | managed => "Managed"
  | pinvoke library entry => describeImport library entry
  | internalCall => "InternalCall"
  | intrinsic => "Intrinsic"
  | absent => "Abstract"

/-- The implementation as the host carries it out. -/
def describeDispatch : Implementation → String
  | managed => "Interpreted(Interpreted)"
  | pinvoke library entry => s!"PInvoke({describeImport library entry})"
  | internalCall => "InternalCall(InternalCall)"
  | intrinsic => "Intrinsic(Intrinsic)"
  | absent => "NoBody(NoBody)"

end Implementation

/-- The definition of a parameter. -/
structure ParamDef where
  /-- Name of the parameter. -/
  name : String
  /-- Signature of the parameter. -/
  type : Signature TypeRef
deriving Repr, DecidableEq, Inhabited

/-- The definition of a method. -/
structure MethodDef where
  /-- Simple name. -/
  name : String
  /-- Signature of the result. -/
  result : Signature TypeRef := .void
  /-- The parameters, without the receiver. -/
  params : List ParamDef := []
  /-- Whether the method is called without a receiver. -/
  isStatic : Bool := true
  /-- Whether subclasses may override the method. -/
  isVirtual : Bool := false
  /-- Whether the name has a meaning to the host. -/
  isSpecial : Bool := false
  /-- How the method is implemented. -/
  implementation : Implementation := .managed
deriving Repr, DecidableEq, Inhabited

namespace MethodDef

/-- A type initializer. -/
def typeInitializer : MethodDef :=
  { name := ".cctor", isSpecial := true }

/-- An instance constructor without parameters. -/
def constructor : MethodDef :=
  { name := ".ctor", isStatic := false, isSpecial := true }

end MethodDef

/-- The definition of a field. -/
structure FieldDef where
  /-- Name of the field. -/
  name : String
  /-- Signature of the field. -/
  type : Signature TypeRef
  /-- Whether the field belongs to the class and not to its instances. -/
  isStatic : Bool := false
deriving Repr, DecidableEq, Inhabited

/-- The definition of a property, with its accessors by name. -/
structure PropertyDef where
  /-- Name of the property. -/
  name : String
  /-- Signature of the property. -/
  type : Signature TypeRef
  /-- Name of the method that reads the property. -/
  getter : Option String := none
  /-- Name of the method that writes the property. -/
  setter : Option String := none
deriving Repr, DecidableEq, Inhabited

/-- The definition of an event, with its accessors by name. -/
structure EventDef where
  /-- Name of the event. -/
  name : String
  /-- Name of the method that adds a listener. -/
  add : Option String := none
  /-- Name of the method that removes a listener. -/
  remove : Option String := none
  /-- Name of the method that raises the event. -/
  raise : Option String := none
deriving Repr, DecidableEq, Inhabited

/-- An event with the conventional names for adding and removing listeners. -/
def EventDef.conventional (name : String) : EventDef :=
  { name, add := some s!"add_{name}", remove := some s!"remove_{name}" }

end ManagedHost
