/-
# Loading assemblies

An assembly is loaded by name. Its source is asked for all type definitions, and the parent
of every type is determined, which may load other assemblies first; only then is the module
added. An assembly that is asked for while it is being loaded depends on itself, which is an
error. A type that an assembly does not define may have moved to another assembly, which is
then searched in its place.
-/
import ManagedHost.Loading.Commit
import ManagedHost.Loading.Nesting
import ManagedHost.Op

namespace ManagedHost

/-- How many assemblies are searched for a type that keeps moving. -/
def maxForwards : Nat := 8

namespace Op

/-- Searches a type in an assembly and in those it has moved to, at most `steps` of them. -/
def search (load : String → Op AssemblyHandle) (space name : String) :
    Nat → String → Op ClassHandle
  | 0, target => fail (.typeNotFound s!"{inSpace space name} in assembly {target}")
  | steps + 1, target => do
    let a ← load target
    let m ← module (← assembly a).module
    let h ← host
    match h.findClass m.classes (·.fullName == inSpace space name) with
    | some c => return c
    | none =>
      match ((← world).source h.journal m.source).forwarded space name with
      | some next => search load space name steps next
      | none => fail (.typeNotFound s!"{inSpace space name} in assembly {target}")

/-- The class to which a reference made from a module leads. The module is missing while it
is being loaded; then only references to other assemblies lead anywhere. -/
def resolveWith (load : String → Op AssemblyHandle) (origin : Option Module) :
    TypeRef → Op ClassHandle
  | .definition row =>
    match origin.bind (·.classes[row]?) with
    | some c => return c
    | none => fail (.malformed s!"type row {row} does not exist")
  | .external target space name => search load space name maxForwards target
  | .nested outer name => do
    let o ← cls (← resolveWith load origin outer)
    let fullName := o.fullName ++ "/" ++ name
    let m ← module o.module
    match (← host).findClass m.classes (·.fullName == fullName) with
    | some c => return c
    | none => fail (.typeNotFound fullName)

/-- The parent of a type that is being loaded. -/
def newParent (load : String → Op AssemblyHandle) (defs : List TypeDef) (d : TypeDef) :
    Op (Option NewParent) :=
  match d.parent with
  | none => return none
  | some r => do
    if r.isLocal then
      return some (.own (← localRow defs r))
    else
      return some (.foreign (← resolveWith load none r))

/-- The definitions of `count` types from a row on. They are asked for one by one, and the
first failure ends it. -/
def typeDefs (source : SourceId) : (count row : Nat) → Op (List TypeDef)
  | 0, _ => return []
  | count + 1, row => do
    let d ← ask source .typeDef row none Source.typeDef
    let more ← typeDefs source count (row + 1)
    return d :: more

/-- What a source says about a module, checked and with all parents determined. -/
def readModule (load : String → Op AssemblyHandle) (source : SourceId) : Op NewModule := do
  let count := ((← world).source (← host).journal source).typeCount
  let defs ← typeDefs source count 0
  let names ← qualifiedNames defs
  let parents ← each (newParent load defs) defs
  let s := (← world).source (← host).journal source
  return {
    assemblyName := s.assemblyName
    moduleName := s.moduleName
    source
    classes := List.zipWith (fun d (name, parent) => ⟨d, name, parent⟩) defs
      (names.zip parents) }

/-- Finds the source of an assembly and adds its module. -/
def loadNew (load : String → Op AssemblyHandle) (name : String) : Op AssemblyHandle := do
  note (.resolved name)
  let source ← (← world).resolve (← host).journal name
  let n ← readModule load source
  let a := (← host).nextAssembly
  modify (·.commit name n)
  return a

/-- Loads an assembly unless it is known. Further loads that this one needs may nest no
deeper than `depth`. -/
def loadWithin (depth : Nat) (name : String) : Op AssemblyHandle := do
  let h ← host
  match h.findAssembly name with
  | some a => return a
  | none =>
    if name ∈ h.pending then
      fail (.circularDependency name)
    else
      match depth with
      | 0 => lose
      | depth + 1 =>
        modify fun h => { h with pending := h.pending ++ [name] }
        let answer ← attempt (loadNew (fun other => loadWithin depth other) name)
        modify fun h => { h with pending := h.pending.filter (· ≠ name) }
        ofExcept answer

/-- Loads an assembly unless it is known. -/
def load (name : String) : Op AssemblyHandle := do
  loadWithin (← world).depth name

/-- The class to which a reference made from a module leads. -/
def resolve (origin : Module) (r : TypeRef) : Op ClassHandle :=
  resolveWith load (some origin) r

end Op

end ManagedHost
