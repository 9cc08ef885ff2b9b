/-
# Handles

A host hands out numbered handles for the assemblies, modules and classes it has loaded. A
handle carries the number of the host that issued it, so that another host can tell that it
is not its own.
-/

namespace ManagedHost

/-- The handle of a loaded assembly. -/
structure AssemblyHandle where
  /-- Number of the host that issued the handle. -/
  owner : Nat
  /-- Position in that host's table of assemblies. -/
  index : Nat
deriving Repr, DecidableEq, Inhabited

/-- The handle of a loaded module. -/
structure ModuleHandle where
  /-- Number of the host that issued the handle. -/
  owner : Nat
  /-- Position in that host's table of modules. -/
  index : Nat
deriving Repr, DecidableEq, Inhabited

/-- The handle of a loaded class. -/
structure ClassHandle where
  /-- Number of the host that issued the handle. -/
  owner : Nat
  /-- Position in that host's table of classes. -/
  index : Nat
deriving Repr, DecidableEq, Inhabited

/-- An assembly handle as text. -/
def AssemblyHandle.text (h : AssemblyHandle) : String :=
  s!"AssemblyHandle#{h.index}@{h.owner}"

/-- A module handle as text. -/
def ModuleHandle.text (h : ModuleHandle) : String :=
  s!"ModuleHandle#{h.index}@{h.owner}"

/-- A class handle as text. -/
def ClassHandle.text (h : ClassHandle) : String :=
  s!"ClassHandle#{h.index}@{h.owner}"

/-- A module handle in the form in which records are described. -/
def ModuleHandle.describe (h : ModuleHandle) : String :=
  s!"ModuleHandle \x7b owner: {h.owner}, index: {h.index} \x7d"

end ManagedHost
