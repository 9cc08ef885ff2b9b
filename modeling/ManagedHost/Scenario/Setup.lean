/-
# Scenarios

A scenario describes the surroundings of a host by plain data: the modules and images that
can be loaded and how they misbehave, the scripts of the managed methods, and the settings.
It determines the world in which the host lives. Native code is that of the samples.
-/
import ManagedHost.Metadata.Assembled
import ManagedHost.Scenario.Fault
import ManagedHost.Scenario.Native
import ManagedHost.Scenario.Script
import ManagedHost.Start

namespace ManagedHost

/-- A module that a scenario makes available. -/
structure ScenarioModule where
  /-- The name under which it is found. -/
  key : String
  /-- The module. -/
  module : AssembledModule
  /-- What it reports instead of the truth. -/
  misreport : Misreport := {}
  /-- Whether it can be made to fail and is counted how often it is asked. -/
  isWatched : Bool := true
deriving Repr, DecidableEq, Inhabited

/-- The surroundings of a host. -/
structure Scenario where
  /-- The modules; of several with one key the last counts. -/
  modules : List ScenarioModule
  /-- The names for which the resolver fails; of several errors for one name the last counts. -/
  resolverErrors : List (String × Error)
  /-- The folder in which images are looked up when no module has the name. -/
  imageRoot : Option String
  /-- Whether the host is given a resolver at all. -/
  hasResolver : Bool
  /-- The settings. -/
  config : Config
  /-- The scripts by qualified name of the method; without them there is no interpreter. -/
  scripts : Option (List (String × Script))
  /-- Whether exceptions are marked as the embedding program's own. -/
  tagged : Bool
  /-- The files. -/
  disk : Disk
  /-- How deep loads and calls may nest. -/
  depth : Nat
  /-- The failures of the modules at present. -/
  faults : List Fault := []

namespace Scenario

/-- Exceptions whose type is marked as the embedding program's own. -/
def taggedException : ExceptionFactory := fun e message inner =>
  .of ("Host." ++ e.exceptionType) (message.getD e.message) inner

/-- How the scenario builds exceptions. -/
def exceptions (s : Scenario) : ExceptionFactory :=
  if s.tagged then taggedException else Error.toException

/-- The module that is found under a name. -/
def findModule (s : Scenario) (name : String) : Option ScenarioModule :=
  s.modules.reverse.find? (·.key == name)

/-- Whether the module that is found under a name is watched. -/
def isWatched (s : Scenario) (name : String) : Bool :=
  (s.findModule name).any (·.isWatched)

/-- The source that a module makes. -/
def moduleSource (s : Scenario) (m : ScenarioModule) : Source :=
  (m.module.source.misreporting m.misreport).failing (faultAt s.faults m.key)

/-- The resolver of the scenario: failures first, then modules, then images. -/
def resolver (s : Scenario) : Resolver where
  resolve journal name :=
    match s.resolverErrors.reverse.lookup name, s.findModule name, s.imageRoot with
    | some e, _, _ => .error e
    | none, some m, _ => .ok { name := m.key }
    | none, none, some root => (Resolver.ofFolder s.disk root).resolve journal name
    | none, none, none => .error (.fileNotFound name)
  source journal id :=
    match s.findModule id.name, s.imageRoot with
    | some m, _ => s.moduleSource m
    | none, some root => (Resolver.ofFolder s.disk root).source journal id
    | none, none => default

/-- What the scenario supplies when the host is started. -/
def setup (s : Scenario) : Setup where
  config := s.config
  resolver := if s.hasResolver then some s.resolver else none
  interpreter := s.scripts.map (Script.interpreter s.exceptions)
  invoker := Sample.invoker
  function := Sample.function
  disk := s.disk
  exceptions := s.exceptions
  depth := s.depth

/-- The world around the host, if it can be started at all. -/
def world? (s : Scenario) : Option World :=
  s.setup.world?

end Scenario

end ManagedHost
