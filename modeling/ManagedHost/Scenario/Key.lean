/-
# Naming classes and methods

Scenarios name a class by the name of its assembly together with its full name or its row,
and a method of a class by its name, by name and number of parameters, or by its row.
-/
import ManagedHost.Reflection.Members

namespace ManagedHost

/-- What a scenario names and a host does not have. -/
inductive Missing where
  | assembly
  | module
  | cls
  | method
deriving Repr, DecidableEq, Inhabited

/-- What is missing, as text. -/
def Missing.text : Missing → String
  | assembly => "assembly"
  | module => "module"
  | cls => "class"
  | method => "method"

/-- The name of a class in a scenario. -/
inductive ClassKey where
  /-- By assembly and full name. -/
  | named (assembly fullName : String)
  /-- By assembly and row. -/
  | atRow (assembly : String) (row : Nat)
  /-- By assembly alone, which is no name of a class. -/
  | unnamed (assembly : String)
deriving Repr, DecidableEq, Inhabited

/-- The name of a method of a class in a scenario. -/
inductive MethodKey where
  /-- By name. -/
  | named (name : String)
  /-- By name and number of parameters. -/
  | withArity (name : String) (arity : Nat)
  /-- By row. -/
  | atRow (row : Nat)
  /-- By nothing, which is no name of a method. -/
  | unnamed
deriving Repr, DecidableEq, Inhabited

namespace Host

/-- The module of a loaded assembly. -/
def locateModule (h : Host) (assembly : String) : Except Missing ModuleHandle := do
  let some a := h.findAssembly assembly | throw .assembly
  let some m := h.moduleOf a | throw .module
  return m

/-- The class that a key names. -/
def locateClass (h : Host) : ClassKey → Except Missing ClassHandle
  | .named assembly fullName => do
    let some c := h.classByName (← h.locateModule assembly) fullName false | throw .cls
    return c
  | .atRow assembly row => do
    let some c := (h.classesOf (← h.locateModule assembly) false)[row]? | throw .cls
    return c
  | .unnamed assembly => do
    let _ ← h.locateModule assembly
    throw .cls

end Host

/-- The method among those of a class that a key names. -/
def MethodKey.find (k : MethodKey) (methods : List Method) : Option Method :=
  match k with
  | named name => methods.find? (·.name == name)
  | withArity name arity => methods.find? fun m => m.name == name && m.params.length == arity
  | atRow row => methods[row]?
  | unnamed => none

end ManagedHost
