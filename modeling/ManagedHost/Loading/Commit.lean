/-
# Adding a module to a host

A module is added in one step, when everything about it that can go wrong has been checked:
its classes come to the end of the table of classes, the module and its assembly to the
ends of theirs, and the assembly becomes known under the name its source reports and under
the name it was asked for.
-/
import ManagedHost.Host.Basic

namespace ManagedHost

/-- The parent of a class that is about to be added. -/
inductive NewParent where
  /-- A class of the same module, by row. -/
  | own (row : Nat)
  /-- A class of another module. -/
  | foreign (target : ClassHandle)
deriving Repr, DecidableEq, Inhabited

/-- A class that is about to be added. -/
structure NewClass where
  /-- What the source says about the type. -/
  definition : TypeDef
  /-- Its full name. -/
  fullName : String
  /-- The class it inherits from. -/
  parent : Option NewParent
deriving Repr, DecidableEq, Inhabited

/-- A module that is about to be added. -/
structure NewModule where
  /-- Name that the source reports for the assembly. -/
  assemblyName : String
  /-- File name that the source reports. -/
  moduleName : String
  /-- The source. -/
  source : SourceId
  /-- The classes by row. -/
  classes : List NewClass
deriving Repr, DecidableEq, Inhabited

/-- The record of a new class with the given row, when the classes of its module start at
position `base` of the table. -/
def NewClass.record (n : NewClass) (id base : Nat) (m : ModuleHandle) (row : Nat) : Class where
  handle := ⟨id, base + row⟩
  module := m
  row := row
  space := n.definition.space
  name := n.definition.name
  fullName := n.fullName
  parent := n.parent.map fun
    | .own r => ⟨id, base + r⟩
    | .foreign c => c
  declaring := n.definition.encloser.map fun e => ⟨id, base + e⟩
  visibility := n.definition.visibility
  isInterface := n.definition.isInterface

namespace Host

/-- The host with a module added that was asked for under the name `requested`. -/
def commit (h : Host) (requested : String) (n : NewModule) : Host :=
  let a : AssemblyHandle := ⟨h.id, h.assemblies.length⟩
  let m : ModuleHandle := ⟨h.id, h.modules.length⟩
  let base := h.classes.length
  { h with
    assemblies := h.assemblies ++ [{ handle := a, name := n.assemblyName, module := m }]
    modules := h.modules ++
      [{ handle := m
         assembly := a
         name := n.moduleName
         isCorlib := n.assemblyName == h.config.corlib || requested == h.config.corlib
         classes := (List.range n.classes.length).map fun row => ⟨h.id, base + row⟩
         source := n.source }]
    classes := h.classes ++
      n.classes.zipIdx.map fun (c, row) => c.record h.id base m row
    names :=
      if requested = n.assemblyName then (requested, a) :: h.names
      else (requested, a) :: (n.assemblyName, a) :: h.names }

/-- The handle of the assembly that the next commit adds. -/
def nextAssembly (h : Host) : AssemblyHandle :=
  ⟨h.id, h.assemblies.length⟩

end Host

end ManagedHost
