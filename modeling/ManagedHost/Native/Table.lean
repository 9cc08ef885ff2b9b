/-
# Tables of native implementations

A host keeps three tables that bind names to native implementations. A binding consists of
a function and of an invoker, which knows how to take arguments from slots, call the
function and store its result. Under the same name a table can hold a second binding for
the case that the method is an instance constructor. A later registration replaces an
earlier one of the same name and variant.
-/
import ManagedHost.Host.Records

namespace ManagedHost

/-- The mathematical functions built into the host. -/
inductive MathFunction where
  | sqrt
  | sin
  | cos
  | floor
  | ceiling
  | pow
deriving Repr, DecidableEq, Inhabited

/-- The address of native code. -/
inductive NativeFunction where
  /-- No code at all. -/
  | null
  /-- A function built into the host. -/
  | math (function : MathFunction)
  /-- Code outside the host, known by a label. -/
  | labelled (label : String)
deriving Repr, DecidableEq, Inhabited

/-- The code that carries a call from slots to a native function and back. -/
inductive Invoker where
  /-- Passes every argument as the method's signature demands. -/
  | marshalling
  /-- Passes one floating-point number. -/
  | unary
  /-- Passes two floating-point numbers. -/
  | binary
  /-- Code of the embedding program, known by a label. -/
  | labelled (label : String)
deriving Repr, DecidableEq, Inhabited

/-- An entry of a table. -/
structure Binding where
  /-- The function to call, if one was given. -/
  function : Option NativeFunction
  /-- The invoker that calls it. -/
  invoker : Invoker
deriving Repr, DecidableEq, Inhabited

/-- Sets the value for a name in a list that has one value for each name. -/
def assign {α : Type} (entries : List (String × α)) (name : String) (value : α) :
    List (String × α) :=
  (name, value) :: entries.filter (·.1 ≠ name)

/-- A table of native implementations. -/
structure NativeTable where
  /-- The bindings for all methods, by name. -/
  plain : List (String × Binding) := []
  /-- The bindings for instance constructors only, by name. -/
  constructors : List (String × Binding) := []
deriving Repr, DecidableEq, Inhabited

namespace NativeTable

/-- Registers a function with its invoker. -/
def register (t : NativeTable) (name : String) (f : NativeFunction) (i : Invoker) : NativeTable :=
  { t with plain := assign t.plain name ⟨some f, i⟩ }

/-- Registers an invoker for constructors. -/
def registerConstructor (t : NativeTable) (name : String) (i : Invoker) : NativeTable :=
  { t with constructors := assign t.constructors name ⟨none, i⟩ }

/-- The binding for all methods under a name. -/
def lookup (t : NativeTable) (name : String) : Option Binding :=
  t.plain.lookup name

/-- The binding for constructors under a name. -/
def lookupConstructor (t : NativeTable) (name : String) : Option Binding :=
  t.constructors.lookup name

/-- The binding to use for a method under a name; a constructor prefers a binding made for
constructors. -/
def find (t : NativeTable) (name : String) (m : Method) : Option Binding :=
  (if m.isConstructor then t.lookupConstructor name else none).or (t.lookup name)

/-- Number of bindings of both variants. -/
def size (t : NativeTable) : Nat :=
  t.plain.length + t.constructors.length

/-- The table of intrinsics with the functions built into the host. -/
def builtins : NativeTable :=
  [("Sqrt", .sqrt), ("Sin", .sin), ("Cos", .cos), ("Floor", .floor), ("Ceiling", .ceiling)].foldl
    (fun t (name, f) => t.register s!"System.Math::{name}" (.math f) .unary)
    (({} : NativeTable).register "System.Math::Pow" (.math .pow) .binary)

end NativeTable

/-- The three tables of a host. -/
structure NativeTables where
  /-- Bindings by entry point. -/
  pinvoke : NativeTable := {}
  /-- Bindings by qualified name of the method. -/
  internalCall : NativeTable := {}
  /-- Bindings by qualified name of the method, which come before any implementation. -/
  intrinsic : NativeTable := {}
deriving Repr, DecidableEq, Inhabited

namespace NativeTables

/-- The tables a host starts with. -/
def initial : NativeTables :=
  { intrinsic := .builtins }

/-- The table of a kind. -/
def table (ts : NativeTables) : NativeKind → NativeTable
  | .pinvoke => ts.pinvoke
  | .internalCall => ts.internalCall
  | .intrinsic => ts.intrinsic

/-- Changes the table of a kind. -/
def modify (ts : NativeTables) (kind : NativeKind) (f : NativeTable → NativeTable) : NativeTables :=
  match kind with
  | .pinvoke => { ts with pinvoke := f ts.pinvoke }
  | .internalCall => { ts with internalCall := f ts.internalCall }
  | .intrinsic => { ts with intrinsic := f ts.intrinsic }

/-- The binding to use for a method under a name, or the error that there is none. -/
def resolve (ts : NativeTables) (kind : NativeKind) (name : String) (m : Method) :
    Except Error Binding :=
  match (ts.table kind).find name m with
  | some b => .ok b
  | none => .error (.unbound kind name)

end NativeTables

end ManagedHost
