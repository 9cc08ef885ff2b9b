/-
# Scripted bodies

A script is a list of actions that stands for the body of a managed method. Actions return
values, log lines, fail, or turn back to the host: they load assemblies, run initializers
and call methods. The first action that fails ends the script, unless it is told to swallow
its failure.
-/
import ManagedHost.Scenario.Key
import ManagedHost.Slot.Scalar

namespace ManagedHost

/-- An action of a script. -/
inductive Action where
  /-- Return these bytes. -/
  | give (bytes : List UInt8)
  /-- Return twice the integer that is the first argument, plus one. -/
  | twicePlusOne
  /-- Return all arguments. -/
  | echo
  /-- Fail. -/
  | fail (error : Error)
  /-- Break down. -/
  | panic (message : String)
  /-- Let some time pass. -/
  | sleep
  /-- Log a line. -/
  | log (line : String)
  /-- Load an assembly and log the outcome. -/
  | load (name : String)
  /-- Run the initializer of a class. -/
  | initializer (target : ClassKey) (swallow : Bool)
  /-- Call a method with the arguments of the script. -/
  | call (target : ClassKey) (method : MethodKey) (swallow : Bool)
deriving Repr, DecidableEq, Inhabited

/-- A list of actions. -/
abbrev Script := List Action

namespace Script

/-- A text as a quoted string of a data notation. -/
def dataString (s : String) : String :=
  let escape (c : Char) : String :=
    if c = '"' then "\\\""
    else if c = '\\' then "\\\\"
    else if c = '\n' then "\\n"
    else if c = '\r' then "\\r"
    else if c = '\t' then "\\t"
    else if c = '\x08' then "\\b"
    else if c = '\x0c' then "\\f"
    else if c.toNat < 32 then "\\u" ++ Text.hex 4 c.toNat
    else c.toString
  "\"" ++ String.join (s.toList.map escape) ++ "\""

/-- An exception in the data notation. -/
def dataException : Exception → String
  | .plain t m => "\x7b\"exception\":" ++ dataString t ++ ",\"inner\":null,\"message\":" ++
      dataString m ++ "\x7d"
  | .caused t m e => "\x7b\"exception\":" ++ dataString t ++ ",\"inner\":" ++ dataException e ++
      ",\"message\":" ++ dataString m ++ "\x7d"

/-- The failure of a script that names something that is not there. -/
def missing (m : Missing) : Error :=
  .invocation ("bad script: \x7b\"missing\":" ++ dataString m.text ++ "\x7d")

/-- The failure of a script that could not look up a method. -/
def raised (e : Exception) : Error :=
  .invocation ("bad script: " ++ dataException e)

/-- Logs how an action ended, and goes on unless it failed and the failure counts. -/
def report (what : String) (swallow : Bool) (result : Buffer) (outcome : Except Error Buffer)
    (next : Buffer → Body) : Body :=
  match outcome with
  | .ok result => .log .managed s!"{what} ok" (next result)
  | .error e =>
    .log .managed s!"{what} failed: {e.message}"
      (if swallow then next result else .done (.failed e) result)

/-- Goes on with the buffer for the result, or ends at a fault. -/
def continueWith (result : Buffer) (outcome : Except AccessFault Buffer)
    (next : Buffer → Body) : Body :=
  match outcome with
  | .ok result => next result
  | .error e => .done e.ending result

/-- Carries out the actions of a script one after the other. -/
def run (exceptions : ExceptionFactory) (call : Call) : Script → Buffer → Body
  | [], result => .done .returned result
  | .give bytes :: rest, result =>
    continueWith result (result.setReturn bytes) (run exceptions call rest)
  | .twicePlusOne :: rest, result =>
    let outcome := do
      let (x, _) ← (ArgReader.new call.args).read .int32
      result.writeReturn (.int32 (2 * x.toInt + 1))
    continueWith result outcome (run exceptions call rest)
  | .echo :: rest, result =>
    continueWith result (result.setReturn call.args.bytes) (run exceptions call rest)
  | .fail e :: _, result => .done (.failed e) result
  | .panic message :: _, result => .done (.panicked (some message)) result
  | .sleep :: rest, result => run exceptions call rest result
  | .log line :: rest, result => .log .managed line (run exceptions call rest result)
  | .load name :: rest, result =>
    .request (.load name) fun reply =>
      let text :=
        match reply with
        | .ok a => a.text
        | .error e => (exceptions e none none).text
      .log .managed s!"load {text}" (run exceptions call rest result)
  | .initializer target swallow :: rest, result =>
    .inspect fun h =>
      match h.locateClass target with
      | .error m => report "cctor" swallow result (.error (missing m)) (run exceptions call rest)
      | .ok c =>
        .request (.runInitializer c) fun reply =>
          report "cctor" swallow result (reply.map fun _ => result) (run exceptions call rest)
  | .call target key swallow :: rest, result =>
    let finish (outcome : Except Error Buffer) : Body :=
      report "call" swallow result outcome (run exceptions call rest)
    .inspect fun h =>
      match h.locateClass target with
      | .error m => finish (.error (missing m))
      | .ok c =>
        .request (.methods c) fun reply =>
          match reply with
          | .error e => finish (.error (raised (exceptions e none none)))
          | .ok methods =>
            match key.find methods with
            | none => finish (.error (missing .method))
            | some m =>
              let args := (Buffer.zero m.argSlots).overlay call.args
              .request (.invoke m args (Buffer.zero m.resultSlots)) fun reply =>
                finish do
                  let completion ← reply
                  completion.outcome
                  return result.overlay completion.result

/-- The interpreter that executes every method by its script; a method without a script
returns at once. -/
def interpreter (exceptions : ExceptionFactory) (scripts : List (String × Script))
    (_ : Journal) (call : Call) : Body :=
  let script := (scripts.lookup call.method.qualifiedName).getD []
  .log .managed s!"run {call.method.qualifiedName}" (run exceptions call script call.result)

end Script

end ManagedHost
