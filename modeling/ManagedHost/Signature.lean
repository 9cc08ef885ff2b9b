/-
# Type signatures

A signature tells what kind of value a field, parameter or result holds. The same shape
serves twice: in the metadata of a module, where a class is named by a type reference, and
in a host, where the class is known by its handle. The parameter `ρ` is the way in which
classes are named.
-/
import ManagedHost.Handle

namespace ManagedHost

/-- The signature of a value, with classes named by `ρ`. -/
inductive Signature (ρ : Type) where
  | void
  | boolean
  | char
  | int8
  | uint8
  | int16
  | uint16
  | int32
  | uint32
  | int64
  | uint64
  | float32
  | float64
  | intPtr
  | uintPtr
  | object
  | string
  /-- An unmanaged pointer. -/
  | pointer
  | array
  | typedReference
  /-- A reference to a place that holds a value. -/
  | byRef (target : Signature ρ)
  /-- An instance of a class, held by reference. -/
  | reference (target : ρ)
  /-- An instance of a value type, held in place. -/
  | value (target : ρ)
  /-- A generic parameter, by position. -/
  | parameter (position : Nat)
deriving Repr, DecidableEq, Inhabited

namespace Signature

variable {ρ : Type}

/-- Number of bytes of a pointer. -/
def pointerSize : Nat := 8

/-- Number of bytes of a value, when it does not depend on the layout of a value type. -/
def fixedSize : Signature ρ → Option Nat
  | void => some 0
  | boolean | int8 | uint8 => some 1
  | char | int16 | uint16 => some 2
  | int32 | uint32 | float32 => some 4
  | int64 | uint64 | float64 => some 8
  | typedReference => some (2 * pointerSize)
  | value _ => none
  | _ => some pointerSize

/-- Whether values are references to objects. -/
def isReference : Signature ρ → Bool
  | object | string | array | reference _ => true
  | _ => false

/-- A signature as text, given the text of a class. -/
def textWith (name : ρ → String) : Signature ρ → String
  | void => "void"
  | boolean => "bool"
  | char => "char"
  | int8 => "sbyte"
  | uint8 => "byte"
  | int16 => "short"
  | uint16 => "ushort"
  | int32 => "int"
  | uint32 => "uint"
  | int64 => "long"
  | uint64 => "ulong"
  | float32 => "float"
  | float64 => "double"
  | intPtr => "nint"
  | uintPtr => "nuint"
  | object => "object"
  | string => "string"
  | pointer => "void*"
  | array => "array"
  | typedReference => "typedref"
  | byRef s => "ref " ++ s.textWith name
  | reference r => "class " ++ name r
  | value r => "valuetype " ++ name r
  | parameter i => s!"!{i}"

/-- A signature of a host as text. -/
def text (s : Signature ClassHandle) : String :=
  s.textWith ClassHandle.text

/-- The signature with every class replaced: a class held by reference by what `onReference`
gives for it, and a class held in place by what `inPlace` gives. -/
def expand {m : Type → Type} [Monad m] {σ : Type} (onReference inPlace : ρ → m (Signature σ)) :
    Signature ρ → m (Signature σ)
  | void => pure void
  | boolean => pure boolean
  | char => pure char
  | int8 => pure int8
  | uint8 => pure uint8
  | int16 => pure int16
  | uint16 => pure uint16
  | int32 => pure int32
  | uint32 => pure uint32
  | int64 => pure int64
  | uint64 => pure uint64
  | float32 => pure float32
  | float64 => pure float64
  | intPtr => pure intPtr
  | uintPtr => pure uintPtr
  | object => pure object
  | string => pure string
  | pointer => pure pointer
  | array => pure array
  | typedReference => pure typedReference
  | byRef s => return byRef (← s.expand onReference inPlace)
  | reference r => onReference r
  | value r => inPlace r
  | parameter i => pure (parameter i)

/-- The signature with every class replaced. -/
def map {σ : Type} (f : ρ → σ) (s : Signature ρ) : Signature σ :=
  Id.run (s.expand (fun r => pure (.reference (f r))) (fun r => pure (.value (f r))))

/-- The signature built into the core library for a type of this namespace and name. -/
def builtin? (space name : String) : Option (Signature ρ) :=
  if space ≠ "System" then none
  else match name with
    | "Void" => some void
    | "Boolean" => some boolean
    | "Char" => some char
    | "SByte" => some int8
    | "Byte" => some uint8
    | "Int16" => some int16
    | "UInt16" => some uint16
    | "Int32" => some int32
    | "UInt32" => some uint32
    | "Int64" => some int64
    | "UInt64" => some uint64
    | "Single" => some float32
    | "Double" => some float64
    | "IntPtr" => some intPtr
    | "UIntPtr" => some uintPtr
    | "Object" => some object
    | "String" => some string
    | "TypedReference" => some typedReference
    | _ => none

end Signature

end ManagedHost
