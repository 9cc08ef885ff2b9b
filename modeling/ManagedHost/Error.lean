/-
# Why an operation of the host fails

Every operation of the host that can fail does so with an `Error`. An error has a text, a
corresponding exception type, and can be turned into an exception object. When a type
initializer fails, the error of the initializer is kept as the source of the new error, so
errors nest as deep as initializers do; the exception built from an error has one link for
each level.
-/
import ManagedHost.Exception

namespace ManagedHost

/-- The three tables in which native implementations are registered. -/
inductive NativeKind where
  /-- Functions imported from native libraries. -/
  | pinvoke
  /-- Functions of the host that a method names as its implementation. -/
  | internalCall
  /-- Functions of the host that take the place of a method whatever its implementation. -/
  | intrinsic
deriving Repr, DecidableEq, Inhabited

/-- What an entry of the table is called in messages. -/
def NativeKind.text : NativeKind → String
  | pinvoke => "P/Invoke"
  | internalCall => "internal call"
  | intrinsic => "intrinsic"

/-- The causes for which an operation fails. -/
inductive Error where
  /-- The host could not be started. -/
  | startup (reason : String)
  /-- No assembly has this name. -/
  | fileNotFound (name : String)
  /-- A file is no assembly image. -/
  | invalidImage (reason : String)
  /-- A file could not be read. -/
  | unreadable (reason : String)
  /-- Loading the assembly needs the assembly itself to be loaded already. -/
  | circularDependency (name : String)
  /-- The metadata of a module contradicts itself. -/
  | malformed (reason : String)
  /-- A type reference has no target. -/
  | typeNotFound (name : String)
  /-- A handle was not issued by this host. -/
  | invalidHandle (handle : String)
  /-- No native implementation is registered under the name. -/
  | unbound (kind : NativeKind) (name : String)
  /-- The type initializer of a class failed, now or earlier, for the reason in `source`. -/
  | initializerFailed (typeName : String) (source : Error)
  /-- A method could not be executed, or its execution broke down. -/
  | invocation (reason : String)
  /-- A slot buffer is shorter than an access needs. -/
  | overrun (needed available : Nat)
  /-- No file is found for a native library. -/
  | libraryNotFound (library : String)
  /-- A native library does not export the symbol. -/
  | symbolNotFound (library symbol : String)
  /-- The file of a native library cannot be loaded. -/
  | libraryUnloadable (library reason : String)
  /-- A value of this type cannot be passed to or from native code. -/
  | unmarshallable (type : String)
  /-- Executing code threw an exception. -/
  | thrown (exception : Exception)
deriving Repr, DecidableEq, Inhabited

namespace Error

/-- The text of an error. -/
def message : Error → String
  | startup reason => s!"Runtime initialization failed: {reason}"
  | fileNotFound name => s!"Could not find assembly: {name}"
  | invalidImage reason => s!"Invalid assembly image: {reason}"
  | unreadable reason => s!"I/O error while reading assembly: {reason}"
  | circularDependency name => s!"Circular assembly dependency while loading {name}"
  | malformed reason => s!"Malformed metadata: {reason}"
  | typeNotFound name => s!"Type not found: {name}"
  | invalidHandle handle => s!"Invalid handle: {handle}"
  | unbound kind name => s!"No {kind.text} implementation registered for {name}"
  | initializerFailed typeName _ => s!"The type initializer for '{typeName}' threw an exception"
  | invocation reason => s!"Invocation failed: {reason}"
  | overrun needed available =>
    s!"Stack buffer overrun: needed {needed} slots, buffer holds {available}"
  | libraryNotFound library => s!"Unable to load DLL '{library}'"
  | symbolNotFound library symbol =>
    s!"Unable to find an entry point named '{symbol}' in DLL '{library}'"
  | libraryUnloadable library reason => s!"Failed to load DLL '{library}': {reason}"
  | unmarshallable type => s!"Cannot marshal {type}"
  | thrown exception => exception.text

/-- The name of the exception type that stands for an error. -/
def exceptionType : Error → String
  | startup _ => "System.ExecutionEngineException"
  | fileNotFound _ => "System.IO.FileNotFoundException"
  | invalidImage _ | malformed _ => "System.BadImageFormatException"
  | unreadable _ => "System.IO.IOException"
  | circularDependency _ => "System.IO.FileLoadException"
  | typeNotFound _ => "System.TypeLoadException"
  | invalidHandle _ => "System.ArgumentException"
  | unbound .pinvoke _ | symbolNotFound _ _ => "System.EntryPointNotFoundException"
  | unbound _ _ => "System.MissingMethodException"
  | initializerFailed _ _ => "System.TypeInitializationException"
  | invocation _ => "System.InvalidOperationException"
  | overrun _ _ => "System.IndexOutOfRangeException"
  | libraryNotFound _ | libraryUnloadable _ _ => "System.DllNotFoundException"
  | unmarshallable _ => "System.Runtime.InteropServices.MarshalDirectiveException"
  | thrown _ => "System.Exception"

/-- The exception object for an error. A thrown exception stands for itself. Otherwise the
type is that of the error, the message is the given one or else the error's text, and the
inner exception is the given one or else that of the failed initializer. -/
def toException : Error → Option String → Option Exception → Exception
  | thrown exception, _, _ => exception
  | e@(initializerFailed _ source), message, inner =>
    .of e.exceptionType (message.getD e.message)
      (some (inner.getD (source.toException none none)))
  | e, message, inner => .of e.exceptionType (message.getD e.message) inner

end Error

/-- A way to build exception objects from an error, an optional message and an optional
inner exception. -/
abbrev ExceptionFactory := Error → Option String → Option Exception → Exception

end ManagedHost
