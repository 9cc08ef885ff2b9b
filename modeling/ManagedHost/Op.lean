/-
# Operations of a host

An operation looks at the world, changes the state of the host and gives an answer. It can
fail with an error; what it changed before the failure stays changed. It can also be lost:
its calls nest deeper than the stack allows, or it waits for something that never happens.
A lost operation cannot be caught.
-/
import ManagedHost.World

namespace ManagedHost

/-- Why an operation gives no answer. -/
inductive Stop where
  | failed (error : Error)
  /-- The operation never comes back. -/
  | lost
deriving Repr, DecidableEq, Inhabited

/-- An operation of a host with an answer of type `α`. -/
def Op (α : Type) : Type :=
  World → Host → Except Stop α × Host

namespace Op

variable {α β : Type}

/-- Runs an operation in a world from a state. -/
def run (x : Op α) (w : World) (h : Host) : Except Stop α × Host :=
  x w h

/-- The operation that only answers. -/
protected def pure (a : α) : Op α :=
  fun _ h => (.ok a, h)

/-- One operation after the other; the second is skipped when the first gives no answer. -/
protected def bind (x : Op α) (f : α → Op β) : Op β :=
  fun w h =>
    match x w h with
    | (.ok a, h') => f a w h'
    | (.error s, h') => (.error s, h')

instance : Monad Op where
  pure := Op.pure
  bind := Op.bind

/-- The operation that fails. -/
def fail (e : Error) : Op α :=
  fun _ h => (.error (.failed e), h)

/-- The operation that never comes back. -/
def lose : Op α :=
  fun _ h => (.error .lost, h)

/-- The answer of a computation that may fail. -/
def ofExcept : Except Error α → Op α
  | .ok a => Op.pure a
  | .error e => Op.fail e

instance : MonadLift (Except Error) Op where
  monadLift := ofExcept

/-- The state of the host. -/
def host : Op Host :=
  fun _ h => (.ok h, h)

/-- The world. -/
def world : Op World :=
  fun w h => (.ok w, h)

/-- Changes the state of the host. -/
def modify (f : Host → Host) : Op Unit :=
  fun _ h => (.ok (), f h)

/-- Adds an entry to the journal. -/
def note (e : JournalEntry) : Op Unit :=
  modify (·.note e)

/-- Runs an operation and answers with its success or failure; only a lost operation gives
no answer. -/
def attempt (x : Op α) : Op (Except Error α) :=
  fun w h =>
    match x w h with
    | (.ok a, h') => (.ok (.ok a), h')
    | (.error (.failed e), h') => (.ok (.error e), h')
    | (.error .lost, h') => (.error .lost, h')

/-- Applies an operation to each element in turn and collects the answers. -/
def each (f : α → Op β) : List α → Op (List β)
  | [] => Op.pure []
  | a :: rest => do
    let b ← f a
    let bs ← each f rest
    return b :: bs

/-- The record of an assembly. -/
def assembly (a : AssemblyHandle) : Op Assembly := do
  (← host).assembly a

/-- The record of a module. -/
def module (m : ModuleHandle) : Op Module := do
  (← host).module m

/-- The record of a class. -/
def cls (c : ClassHandle) : Op Class := do
  (← host).cls c

/-- The answer of a source about the type of a row, for the sake of the class `target` if there
is one. The question is noted first. -/
def ask (source : SourceId) (query : Query) (row : Nat) (target : Option ClassHandle)
    (answer : Source → Nat → Except Error α) : Op α := do
  note (.asked source query row target)
  answer ((← world).source (← host).journal source) row

/-- Runs an operation and turns its failure into an exception object. -/
def raising (x : Op α) : Op (Except Exception α) := do
  match ← attempt x with
  | .ok a => return .ok a
  | .error e => return .error ((← world).exceptions e none none)

end Op

end ManagedHost
