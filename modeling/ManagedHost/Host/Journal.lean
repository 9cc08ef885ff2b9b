/-
# The journal of a host

A host notes every question it puts to the outside and every time it hands control to code
that it does not contain: requests to the resolver, questions to metadata sources, the
start and end of type initializers, the bodies that were entered and the lines they logged.
The journal only grows; what the outside answers may depend on it.
-/
import ManagedHost.Metadata.Source
import ManagedHost.Native.Table

namespace ManagedHost

/-- How control reached the body of a method. -/
inductive Route where
  /-- The interpreter executes a managed body. -/
  | interpreter
  /-- A binding of one of the native tables was called. -/
  | native (kind : NativeKind) (binding : Binding)
deriving Repr, DecidableEq, Inhabited

/-- Where a logged line comes from. -/
inductive Channel where
  | managed
  | native
deriving Repr, DecidableEq, Inhabited

/-- Something that a host noted. -/
inductive JournalEntry where
  /-- The resolver was asked for an assembly. -/
  | resolved (name : String)
  /-- A metadata source was asked about the type of a row, for the sake of a class if the type
  has been loaded. -/
  | asked (source : SourceId) (query : Query) (row : Nat) (target : Option ClassHandle)
  /-- The initializer of a class is about to run. -/
  | initStarted (target : ClassHandle)
  /-- The initializer of a class has ended, with this error if it failed. -/
  | initEnded (target : ClassHandle) (failure : Option Error)
  /-- The body of a method was entered with this many slots for arguments and result. -/
  | entered (route : Route) (method : Method) (argSlots resultSlots : Nat)
  /-- A body logged a line. -/
  | logged (channel : Channel) (line : String)
deriving Repr, DecidableEq, Inhabited

/-- What a host noted, latest first. -/
abbrev Journal := List JournalEntry

namespace Journal

/-- How often a source was asked a question, whatever the row. -/
def timesAsked (j : Journal) (source : SourceId) (query : Query) : Nat :=
  j.countP fun
    | .asked s q _ _ => s == source && q == query
    | _ => false

/-- The lines logged on a channel, in the order in which they were logged. -/
def lines (j : Journal) (channel : Channel) : List String :=
  (j.filterMap fun
    | .logged c line => if c = channel then some line else none
    | _ => none).reverse

end Journal

end ManagedHost
