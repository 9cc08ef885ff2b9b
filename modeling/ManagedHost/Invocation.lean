/-
# Invocation

Calling a method first checks that the method belongs to the host and that both buffers
are large enough, then runs the initializer of its class unless the method is one, and then
hands control to a body. A binding in the table of intrinsics comes before the method's own
implementation. A body sees exactly the slots of the method, and what it leaves in the
slots of the result is the only change to the caller's buffer. A body that breaks down makes
the call fail.

A body may put commands to the host while it is executing, in particular call further
methods. The commands are carried out by `perform`, which nests no deeper than the stack of
the world allows.
-/
import ManagedHost.Native.Library
import ManagedHost.Native.Marshal
import ManagedHost.Reflection.Members

namespace ManagedHost

/-- How the commands of a body are carried out. -/
abbrev Handler := (c : Command) → Op (Except Error c.Reply)

/-- The thread on which a host works. -/
def workingThread : Thread := 1

namespace Op

/-- Calls a native function. -/
def callNative (f : NativeFunction) (words : List UInt64) : Op UInt64 := do
  match f with
  | .null => lose
  | .math g => return g.onWords words
  | .labelled label =>
    match (← world).function label (← host).journal words with
    | none => lose
    | some reply =>
      let _ ← each (fun line => note (.logged .native line)) reply.lines
      return reply.word

/-- Executes a body and answers how it ended and what it left for the result. -/
def execute (handle : Handler) : Body → Op (Ending × Buffer)
  | .done ending result => return (ending, result)
  | .log channel line next => do
    note (.logged channel line)
    execute handle next
  | .inspect next => do
    let h ← host
    execute handle (next h)
  | .request command next => do
    let reply ← handle command
    execute handle (next reply)
  | .native f words next => do
    let word ← callNative f words
    execute handle (next word)

/-- Whether a call that ended in this way succeeded. -/
def outcomeOf (m : Method) : Ending → Except Error Unit
  | .returned => .ok ()
  | .failed e => .error e
  | .panicked message =>
    let text := message.getD "native code panicked"
    .error (.invocation s!"{m.qualifiedName} panicked: {text}")

/-- Hands control to a body and waits until it ends. -/
def enter (handle : Handler) (route : Route) (call : Call)
    (body : World → Journal → Call → Body) : Op Completion := do
  note (.entered route call.method call.args.length call.result.length)
  let (ending, result) ← execute handle (body (← world) (← host).journal call)
  return ⟨outcomeOf call.method ending, call.result.overlay result⟩

/-- Calls a binding of a native table. -/
def enterNative (handle : Handler) (kind : NativeKind) (b : Binding) (m : Method)
    (args result : Buffer) : Op Completion :=
  enter handle (.native kind b) ⟨m, b.function, args, result⟩ fun w => b.invoker.body w

/-- A call that fails without entering a body. -/
def refuse (e : Error) (result : Buffer) : Op Completion :=
  return ⟨.error e, result⟩

/-- Calls the binding that a native table has for a method under a name. -/
def dispatchNative (handle : Handler) (kind : NativeKind) (name : String) (m : Method)
    (args result : Buffer) : Op Completion := do
  match (← host).natives.resolve kind name m with
  | .ok b => enterNative handle kind b m args result
  | .error e => refuse e result

/-- Carries out a method by its own implementation. -/
def dispatchOwn (handle : Handler) (m : Method) (args result : Buffer) : Op Completion :=
  match m.implementation with
  | .managed => do
    match (← world).interpreter with
    | some run => enter handle .interpreter ⟨m, none, args, result⟩ fun _ => run
    | none =>
      refuse (.invocation s!"no interpreter is attached to execute {m.qualifiedName}") result
  | .pinvoke _ entry => dispatchNative handle .pinvoke entry m args result
  | .internalCall => dispatchNative handle .internalCall m.qualifiedName m args result
  | .intrinsic => dispatchNative handle .intrinsic m.qualifiedName m args result
  | .absent => refuse (.invocation s!"{m.qualifiedName} has no implementation") result

/-- Carries out a method, by an intrinsic if there is one for it. -/
def dispatch (handle : Handler) (m : Method) (args result : Buffer) : Op Completion := do
  match (← host).natives.intrinsic.find m.qualifiedName m with
  | some b => enterNative handle .intrinsic b m args result
  | none => dispatchOwn handle m args result

/-- Runs the initializer of a class that nobody has asked for before. -/
def executeInitializer (handle : Handler) (c : ClassHandle) : Op Unit := do
  match ← typeInitializer c with
  | none => return ()
  | some m => ofExcept (← dispatch handle m [] []).outcome

/-- Runs the initializer of a class unless it has run. -/
def runInitializerWith (handle : Handler) (c : ClassHandle) : Op Unit := do
  let record ← cls c
  let (verdict, state) := record.init.begin workingThread
  match verdict with
  | .ready | .recursive => return ()
  | .wait => lose
  | .failed e => fail (.initializerFailed record.fullName e)
  | .execute =>
    modify (·.modifyClass c ({ · with init := state }))
    note (.initStarted c)
    match ← attempt (executeInitializer handle c) with
    | .ok () =>
      note (.initEnded c none)
      modify (·.modifyClass c fun r => { r with init := r.init.markReady })
    | .error e =>
      note (.initEnded c (some e))
      modify (·.modifyClass c fun r => { r with init := r.init.markFailed e })
      fail (.initializerFailed record.fullName e)

/-- Fails unless a method belongs to the host and its buffers are large enough. -/
def checkCall (m : Method) (args result : Buffer) : Op Unit := do
  let _ ← cls m.owner
  if args.length < m.argSlots then
    fail (.overrun m.argSlots args.length)
  else if result.length < m.resultSlots then
    fail (.overrun m.resultSlots result.length)

/-- Calls a method. -/
def invokeWith (handle : Handler) (m : Method) (args result : Buffer) : Op Completion := do
  let ready ← attempt do
    checkCall m args result
    if m.isTypeInitializer then return () else runInitializerWith handle m.owner
  match ready with
  | .error e => refuse e result
  | .ok () =>
    let done ← dispatch handle m (args.take m.argSlots) (result.take m.resultSlots)
    return { done with result := result.overlay done.result }

/-- Registers a function of a native library under the name of an entry point. The library
is loaded when it is first needed. -/
def bindLibrary (entry library symbol : String) : Op Unit := do
  let h ← host
  let disk := (← world).disk
  let path ←
    match h.libraries.lookup library with
    | some path => pure path
    | none => do
      let path ← ofExcept (disk.openLibrary h.config.nativeFolder library)
      modify fun h => { h with libraries := (library, path) :: h.libraries }
      pure path
  match disk.symbol path symbol with
  | none => fail (.symbolNotFound library symbol)
  | some f =>
    modify fun h => { h with
      natives := h.natives.modify .pinvoke (·.register entry f .marshalling) }

/-- Registers the function of a native library that a method names as its implementation. -/
def bindMethod (m : Method) : Op Unit :=
  match m.implementation with
  | .pinvoke library entry => bindLibrary entry library entry
  | _ => fail (.invocation s!"{m.qualifiedName} is not a P/Invoke method")

/-- Carries out a command. Calls may nest no deeper than `depth`. -/
def performWithin (depth : Nat) : (c : Command) → Op c.Reply
  | .load name => load name
  | .interfaces c => interfaces c
  | .nested c => nested c
  | .methods c => methods c
  | .fields c => fields c
  | .properties c => properties c
  | .events c => events c
  | .byValue c => byValue c
  | .layout c => layout c
  | .sizeOf s => sizeOf s
  | .runInitializer c =>
    match depth with
    | 0 => lose
    | depth + 1 => runInitializerWith (fun c => attempt (performWithin depth c)) c
  | .invoke m args result =>
    match depth with
    | 0 => lose
    | depth + 1 => invokeWith (fun c => attempt (performWithin depth c)) m args result
  | .register kind name f i =>
    modify fun h => { h with natives := h.natives.modify kind (·.register name f i) }
  | .registerConstructor kind name i =>
    modify fun h => { h with natives := h.natives.modify kind (·.registerConstructor name i) }
  | .bind entry library symbol => bindLibrary entry library symbol

/-- Carries out a command. -/
def perform (c : Command) : Op c.Reply := do
  performWithin (← world).depth c

/-- Runs the initializer of a class unless it has run. -/
def runInitializer (c : ClassHandle) : Op Unit :=
  perform (.runInitializer c)

/-- Calls a method with a buffer of arguments and a buffer for the result. -/
def invoke (m : Method) (args result : Buffer) : Op Completion :=
  perform (.invoke m args result)

end Op

end ManagedHost
