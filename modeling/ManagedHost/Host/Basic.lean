/-
# Hosts

A host is the state of a running embedding: the tables of everything it has loaded, the
names under which assemblies are known, the names whose loading is under way, the native
tables and the journal. Tables only grow, and a handle is a position in a table together
with the number of the host. Questions that only look at this state are answered here; a
handle of another host is answered as if there were nothing.
-/
import ManagedHost.Config
import ManagedHost.Host.Journal
import ManagedHost.Text.Lowercase

namespace ManagedHost

/-- The state of a host. -/
structure Host where
  /-- Number of the host, part of every handle it issues. -/
  id : Nat
  /-- The settings it was started with. -/
  config : Config
  /-- The loaded assemblies. -/
  assemblies : List Assembly := []
  /-- The loaded modules. -/
  modules : List Module := []
  /-- The loaded classes. -/
  classes : List Class := []
  /-- The names under which assemblies are known, latest first. -/
  names : List (String × AssemblyHandle) := []
  /-- The names of the assemblies that are being loaded, outermost first. -/
  pending : List String := []
  /-- The module of the core library, once it has been loaded. -/
  corlib : Option ModuleHandle := none
  /-- The native tables. -/
  natives : NativeTables := .initial
  /-- The native libraries that have been loaded, with the paths of their files. -/
  libraries : List (String × String) := []
  /-- What the host noted. -/
  journal : Journal := []
deriving Repr, DecidableEq, Inhabited

namespace Host

/-- The record of an assembly. -/
def assembly (h : Host) (a : AssemblyHandle) : Except Error Assembly :=
  match (if a.owner = h.id then h.assemblies[a.index]? else none) with
  | some record => .ok record
  | none => .error (.invalidHandle a.text)

/-- The record of a module. -/
def module (h : Host) (m : ModuleHandle) : Except Error Module :=
  match (if m.owner = h.id then h.modules[m.index]? else none) with
  | some record => .ok record
  | none => .error (.invalidHandle m.text)

/-- The record of a class. -/
def cls (h : Host) (c : ClassHandle) : Except Error Class :=
  match (if c.owner = h.id then h.classes[c.index]? else none) with
  | some record => .ok record
  | none => .error (.invalidHandle c.text)

/-- The record of a class of this host. -/
def cls? (h : Host) (c : ClassHandle) : Option Class :=
  (h.cls c).toOption

/-- The handles of all assemblies in the order of loading. -/
def assemblyHandles (h : Host) : List AssemblyHandle :=
  h.assemblies.map (·.handle)

/-- The assembly known under a name. -/
def findAssembly (h : Host) (name : String) : Option AssemblyHandle :=
  h.names.lookup name

/-- The module of an assembly. -/
def moduleOf (h : Host) (a : AssemblyHandle) : Option ModuleHandle :=
  (h.assembly a).toOption.map (·.module)

/-- The assembly of a module. -/
def assemblyOf (h : Host) (m : ModuleHandle) : Option AssemblyHandle :=
  (h.module m).toOption.map (·.assembly)

/-- Whether a module is that of the core library. -/
def isCorlib (h : Host) (m : ModuleHandle) : Bool :=
  ((h.module m).toOption.map (·.isCorlib)).getD false

/-- The file name of a module without its extension. -/
def moduleStem (h : Host) (m : ModuleHandle) : Option String :=
  (h.module m).toOption.map (·.nameWithoutExtension)

/-- Number of classes of a module. -/
def classCount (h : Host) (m : ModuleHandle) : Nat :=
  ((h.module m).toOption.map (·.classes.length)).getD 0

/-- Whether the class and, following the enclosing classes, everything around it can be seen
from outside, looking at no more than `steps` classes. -/
def isExportedWithin (h : Host) : Nat → ClassHandle → Bool
  | 0, _ => false
  | steps + 1, c =>
    match h.cls? c with
    | none => false
    | some record =>
      record.isExported &&
        match record.declaring with
        | none => true
        | some outer => h.isExportedWithin steps outer

/-- Whether a class can be seen from outside: it and all enclosing classes are exported. -/
def isExported (h : Host) (c : ClassHandle) : Bool :=
  h.isExportedWithin h.classes.length c

/-- The classes of a module by row, optionally only those that can be seen from outside. -/
def classesOf (h : Host) (m : ModuleHandle) (exportedOnly : Bool) : List ClassHandle :=
  match (h.module m).toOption with
  | none => []
  | some record =>
    if exportedOnly then record.classes.filter h.isExported else record.classes

/-- The first of the given classes whose record satisfies a condition. -/
def findClass (h : Host) (candidates : List ClassHandle) (p : Class → Bool) : Option ClassHandle :=
  candidates.find? fun c => ((h.cls? c).map p).getD false

/-- The first class of a module with this full name. -/
def classByName (h : Host) (m : ModuleHandle) (fullName : String) (ignoreCase : Bool) :
    Option ClassHandle :=
  (h.module m).toOption.bind fun record =>
    h.findClass record.classes fun c => Text.sameName ignoreCase c.fullName fullName

/-- The class and its ancestors, nearest first, at most `steps` of them. -/
def ancestorsWithin (h : Host) : Nat → Option ClassHandle → List ClassHandle
  | 0, _ => []
  | _, none => []
  | steps + 1, some c =>
    match h.cls? c with
    | none => []
    | some record => c :: h.ancestorsWithin steps record.parent

/-- The class and its ancestors, nearest first. There are never more than there are classes,
so an inheritance cycle is cut off there. -/
def ancestors (h : Host) (c : ClassHandle) : List ClassHandle :=
  h.ancestorsWithin h.classes.length (some c)

/-- Whether the class is the type of this name of the namespace `System`. -/
def isSystemType (h : Host) (c : ClassHandle) (name : String) : Bool :=
  ((h.cls? c).map (·.isSystemType name)).getD false

/-- Whether instances are held in place: a proper ancestor is the root of all value types,
and the class is not the root of all enumerations. -/
def isValueType (h : Host) (c : ClassHandle) : Bool :=
  match h.cls? c with
  | none => false
  | some record =>
    !record.isSystemType "Enum" && (h.ancestors c).tail.any (h.isSystemType · "ValueType")

/-- Whether the class inherits directly from the root of all enumerations. -/
def isEnum (h : Host) (c : ClassHandle) : Bool :=
  match (h.cls? c).bind (·.parent) with
  | none => false
  | some parent => h.isSystemType parent "Enum"

/-- Changes the record of a class of this host. -/
def modifyClass (h : Host) (c : ClassHandle) (f : Class → Class) : Host :=
  if c.owner = h.id then { h with classes := h.classes.modify c.index f } else h

/-- Adds an entry to the journal. -/
def note (h : Host) (e : JournalEntry) : Host :=
  { h with journal := e :: h.journal }

/-- The state of a host before anything is loaded. -/
def blank (id : Nat) (config : Config) : Host :=
  { id, config }

end Host

end ManagedHost
