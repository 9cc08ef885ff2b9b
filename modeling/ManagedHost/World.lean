/-
# The world around a host

A host does not contain the code it runs, nor the metadata it reads. Both belong to the
world: a resolver that finds metadata sources by name, an interpreter for managed bodies,
invokers and functions in native code, a disk, and a way to build exception objects. All
of them may behave differently as time goes on, which is expressed by letting them depend
on the host's journal.

Executing code can turn back to the host. A body is therefore a tree: it ends, or it logs
a line, looks at the host, puts a command to it, or calls a native function, and goes on
with the answer.
-/
import ManagedHost.Disk
import ManagedHost.Host.Basic
import ManagedHost.Slot.Buffer

namespace ManagedHost

/-- The result of a call: whether it succeeded, and the buffer for the result as the call
left it. -/
structure Completion where
  /-- Success, or the reason of the failure. -/
  outcome : Except Error Unit
  /-- The buffer for the result. -/
  result : Buffer

/-- What a body can ask of the host that may change the host's state. -/
inductive Command where
  /-- Load an assembly. -/
  | load (name : String)
  /-- Derive the interfaces of a class. -/
  | interfaces (target : ClassHandle)
  /-- Derive the nested classes of a class. -/
  | nested (target : ClassHandle)
  /-- Derive the methods of a class. -/
  | methods (target : ClassHandle)
  /-- Derive the fields of a class. -/
  | fields (target : ClassHandle)
  /-- Derive the properties of a class. -/
  | properties (target : ClassHandle)
  /-- Derive the events of a class. -/
  | events (target : ClassHandle)
  /-- Determine the signature of the instances of a class. -/
  | byValue (target : ClassHandle)
  /-- Compute the layout of a value type. -/
  | layout (target : ClassHandle)
  /-- Compute the size of a value. -/
  | sizeOf (type : Signature ClassHandle)
  /-- Run the initializer of a class, unless it has run. -/
  | runInitializer (target : ClassHandle)
  /-- Call a method with a buffer of arguments and a buffer for the result. -/
  | invoke (method : Method) (args result : Buffer)
  /-- Register a native function. -/
  | register (kind : NativeKind) (name : String) (function : NativeFunction) (invoker : Invoker)
  /-- Register a native implementation for constructors. -/
  | registerConstructor (kind : NativeKind) (name : String) (invoker : Invoker)
  /-- Register a function of a native library under the name of an entry point. -/
  | bind (entry library symbol : String)
deriving Repr, DecidableEq, Inhabited

/-- What the host answers to a command that succeeds. -/
abbrev Command.Reply : Command → Type
  | load _ => AssemblyHandle
  | interfaces _ | nested _ => List ClassHandle
  | methods _ => List Method
  | fields _ => List Field
  | properties _ => List Property
  | events _ => List Event
  | byValue _ => Signature ClassHandle
  | layout _ => Layout
  | sizeOf _ => Nat
  | invoke _ _ _ => Completion
  | runInitializer _ | register _ _ _ _ | registerConstructor _ _ _ | bind _ _ _ => Unit

/-- What a body is given when it is entered. -/
structure Call where
  /-- The method that is called. -/
  method : Method
  /-- The native function to use, for a native body that was registered with one. -/
  function : Option NativeFunction
  /-- The arguments. -/
  args : Buffer
  /-- The buffer for the result, as it is before the call. -/
  result : Buffer
deriving Repr, DecidableEq, Inhabited

/-- How a body ends. -/
inductive Ending where
  | returned
  | failed (error : Error)
  /-- It breaks down, with a message unless that is no text. -/
  | panicked (message : Option String)
deriving Repr, DecidableEq, Inhabited

/-- How code ends at a fault. -/
def AccessFault.ending : AccessFault → Ending
  | failed e => .failed e
  | panicked message => .panicked (some message)

/-- What executing code does. -/
inductive Body where
  /-- End, leaving the buffer for the result with these contents. -/
  | done (ending : Ending) (result : Buffer)
  /-- Log a line. -/
  | log (channel : Channel) (line : String) (next : Body)
  /-- Look at the host. -/
  | inspect (next : Host → Body)
  /-- Put a command to the host. -/
  | request (command : Command) (next : Except Error command.Reply → Body)
  /-- Call a native function with one word for each argument. -/
  | native (function : NativeFunction) (words : List UInt64) (next : UInt64 → Body)

instance : Inhabited Body := ⟨.done .returned []⟩

/-- The answer of a native function: the word it returns and the lines it logs. -/
structure NativeReply where
  /-- The returned word. -/
  word : UInt64
  /-- The logged lines. -/
  lines : List String := []
deriving Repr, DecidableEq, Inhabited

/-- Everything outside the host. -/
structure World where
  /-- How deep loads may nest in loads and calls in calls before the stack is exhausted. -/
  depth : Nat
  /-- Finds the metadata source of an assembly. -/
  resolve : Journal → String → Except Error SourceId
  /-- What a metadata source answers. -/
  source : Journal → SourceId → Source
  /-- Executes managed bodies. -/
  interpreter : Option (Journal → Call → Body)
  /-- The invokers of the embedding program. -/
  invoker : String → Journal → Call → Body
  /-- The native functions outside the host; an unknown one never returns. -/
  function : String → Journal → List UInt64 → Option NativeReply
  /-- The files the host can see. -/
  disk : Disk
  /-- Builds exception objects. -/
  exceptions : ExceptionFactory
deriving Inhabited

end ManagedHost
