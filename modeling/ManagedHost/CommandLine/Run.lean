/-
# Running the command

What the command writes and the code with which it ends: zero when all went well, one when
the host could not be started or the description failed, two when the arguments were wrong.
-/
import ManagedHost.CommandLine.Dump
import ManagedHost.Start

namespace ManagedHost.CommandLine

/-- What a run of the command shows. -/
structure Result where
  /-- The code with which it ends. -/
  code : Nat
  /-- What it writes, line by line. -/
  output : List String
  /-- What it reports as errors, line by line. -/
  errors : List String
deriving Repr, DecidableEq, Inhabited

/-- How deep the loads of a run may nest. -/
def loadDepth : Nat := 10000

/-- The surroundings of the host of a run. -/
def setup (args : Arguments) (disk : Disk) : Setup where
  config := (Config.standard.withCorlib args.corlib).withAssemblyRoot args.folder
  resolver := some (.ofFolder disk args.folder)
  interpreter := none
  invoker _ _ call := .done .returned call.result
  function _ _ _ := none
  disk
  exceptions := Error.toException
  depth := loadDepth

/-- Runs the command with arguments that have been read. -/
def runWith (args : Arguments) (disk : Disk) : Result :=
  let s := setup args disk
  match s.world?, s.start 1 with
  | some w, (.ok h, _) =>
    match (dump args w h).1 with
    | .ok (lines, none) => ⟨0, lines, []⟩
    | .ok (lines, some e) =>
      ⟨1, lines, ["Unhandled exception. " ++ (w.exceptions e none none).text]⟩
    | .error _ => ⟨1, [], []⟩
  | _, (.error (.failed e), _) => ⟨1, [], [e.message]⟩
  | _, _ => ⟨1, [], []⟩

/-- Runs the command. -/
def run (args : List String) (disk : Disk) : Result :=
  match Arguments.read args with
  | .ok args => runWith args disk
  | .error .information => ⟨0, [], []⟩
  | .error .usage => ⟨2, [], []⟩

end ManagedHost.CommandLine
