/-
# Starting a host

A host is started from its settings and from what the embedding program supplies. When no
resolver is supplied, assemblies are looked up in the configured folder; without such a
folder a host cannot be started. Every start takes a new number, and the core library is
loaded before anything else.
-/
import ManagedHost.Loading.Load

namespace ManagedHost

/-- Finds metadata sources by name and answers for them. -/
structure Resolver where
  /-- Finds the source of an assembly. -/
  resolve : Journal → String → Except Error SourceId
  /-- What a source answers. -/
  source : Journal → SourceId → Source

namespace Resolver

/-- Looks assemblies up as images in a folder. A source answers from the image that was there
when it was opened. -/
def ofFolder (disk : Disk) (root : String) : Resolver where
  resolve _ name := (disk.openAssembly root name).map fun _ => ⟨name, disk.edition⟩
  source _ id := ((disk.asOf id.edition).openAssembly root id.name).toOption.getD default

end Resolver

/-- What the embedding program supplies when it starts a host. -/
structure Setup where
  /-- The settings. -/
  config : Config
  /-- The resolver, if the program has one of its own. -/
  resolver : Option Resolver
  /-- Executes managed bodies. -/
  interpreter : Option (Journal → Call → Body)
  /-- The invokers of the program. -/
  invoker : String → Journal → Call → Body
  /-- The native functions outside the host. -/
  function : String → Journal → List UInt64 → Option NativeReply
  /-- The files the host can see. -/
  disk : Disk
  /-- Builds exception objects. -/
  exceptions : ExceptionFactory
  /-- How deep loads and calls may nest. -/
  depth : Nat

namespace Setup

/-- The resolver of the program, or else the folder of the settings. -/
def chosenResolver (s : Setup) : Option Resolver :=
  s.resolver.or (s.config.assemblyRoot.map (.ofFolder s.disk))

/-- The world around a host that uses the given resolver. -/
def worldWith (s : Setup) (r : Resolver) : World where
  depth := s.depth
  resolve := r.resolve
  source := r.source
  interpreter := s.interpreter
  invoker := s.invoker
  function := s.function
  disk := s.disk
  exceptions := s.exceptions

/-- The world around a host, if a resolver can be chosen. -/
def world? (s : Setup) : Option World :=
  s.chosenResolver.map s.worldWith

end Setup

/-- Loads the core library of a host. -/
def Op.boot : Op Unit := do
  let name := (← Op.host).config.corlib
  match ← Op.attempt (Op.load name) with
  | .error e => Op.fail (.startup s!"could not load core library {name}: {e.message}")
  | .ok a =>
    let record ← Op.assembly a
    Op.modify fun h => { h with corlib := some record.module }

/-- Starts a host, whose number is `next` if a resolver can be chosen; and the number for
the next host. -/
def Setup.start (s : Setup) (next : Nat) : Except Stop Host × Nat :=
  match s.world? with
  | none =>
    (.error (.failed (.startup "no assembly resolver or assembly root configured")), next)
  | some w =>
    match Op.boot w (.blank next s.config) with
    | (.ok (), h) => (.ok h, next + 1)
    | (.error stop, _) => (.error stop, next + 1)

end ManagedHost
