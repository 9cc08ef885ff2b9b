/-
# Settings of a host

The settings name the core library and the folders in which assemblies and native
libraries are looked up. They start from defaults, can be overridden by environment
variables, and then by the embedding program.
-/

namespace ManagedHost

/-- The settings a host is started with. -/
structure Config where
  /-- Name of the assembly that is loaded first and holds the built-in types. -/
  corlib : String
  /-- Folder in which assembly images are looked up. -/
  assemblyRoot : Option String
  /-- Folder in which native libraries are looked up. -/
  nativeRoot : Option String
deriving Repr, DecidableEq, Inhabited

namespace Config

/-- The settings when nothing is said. -/
def standard : Config :=
  { corlib := "mscorlib", assemblyRoot := none, nativeRoot := none }

/-- The values of the environment variables that concern the host. -/
structure Environment where
  /-- Name of the core library; an empty name counts as not set. -/
  corlib : Option String
  /-- Folder of the assembly images. -/
  assemblies : Option String
  /-- Folder of the native libraries. -/
  natives : Option String

/-- The defaults overridden by the environment. -/
def ofEnvironment (env : Environment) : Config :=
  { corlib := (env.corlib.filter (· ≠ "")).getD standard.corlib
    assemblyRoot := env.assemblies
    nativeRoot := env.natives }

/-- The settings with another core library. -/
def withCorlib (c : Config) (name : String) : Config :=
  { c with corlib := name }

/-- The settings with a folder of assembly images. -/
def withAssemblyRoot (c : Config) (root : String) : Config :=
  { c with assemblyRoot := some root }

/-- The settings with a folder of native libraries. -/
def withNativeRoot (c : Config) (root : String) : Config :=
  { c with nativeRoot := some root }

/-- The folder in which native libraries are looked up, the working folder by default. -/
def nativeFolder (c : Config) : String :=
  c.nativeRoot.getD "."

end Config

end ManagedHost
