/-
# Signatures in a host

The signature of the instances of a class is determined once and kept: a built-in one for
the built-in types of the core library, otherwise a reference to the class or, for value
types, the class in place. A signature in the metadata of a module becomes a signature of
the host by replacing every class it names by the signature of that class's instances.
-/
import ManagedHost.Loading.Load

namespace ManagedHost

namespace Host

/-- The built-in signature of a class with this record, if it has one: the class has to be
a type of the core library that is not nested. -/
def builtinOf (record : Class) (isCorlib : Bool) : Option (Signature ClassHandle) :=
  if isCorlib && record.declaring.isNone then Signature.builtin? record.space record.name
  else none

/-- The signature of the instances of a class with this record. -/
def byValueOf (h : Host) (c : ClassHandle) (record : Class) (isCorlib : Bool) :
    Signature ClassHandle :=
  match builtinOf record isCorlib with
  | some s => s
  | none => if h.isValueType c then .value c else .reference c

end Host

namespace Op

/-- The signature of the instances of a class. -/
def byValue (c : ClassHandle) : Op (Signature ClassHandle) := do
  let record ← cls c
  match record.byValue with
  | some s => return s
  | none =>
    let m ← module record.module
    let s := (← host).byValueOf c record m.isCorlib
    modify (·.modifyClass c ({ · with byValue := some s }))
    return s

/-- The signature of a reference to a place that holds an instance of a class. -/
def byReference (c : ClassHandle) : Op (Signature ClassHandle) :=
  return .byRef (← byValue c)

/-- The signature of the host for a signature in the metadata of a module. -/
def signature (origin : Module) (s : Signature TypeRef) : Op (Signature ClassHandle) :=
  let instances (r : TypeRef) : Op (Signature ClassHandle) := do byValue (← resolve origin r)
  s.expand instances instances

end Op

end ManagedHost
