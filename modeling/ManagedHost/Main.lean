/-
# The command as a program

Reads the arguments, looks at the first file that a run with these arguments opens, and
writes what the run shows. Decoding the content of assembly images is not the work of this
program: a file that can be read is a file of another kind to it.
-/
import ManagedHost.CommandLine.Run

namespace ManagedHost.CommandLine

/-- The places that a path visits from a place on, innermost name first, the last one first. -/
def visited (place : List String) : List String → List (List String)
  | [] => [place]
  | piece :: rest =>
    let next :=
      if piece = "" ∨ piece = "." then place
      else if piece = ".." then place.tail
      else piece :: place
    visited next rest ++ [place]

/-- A disk on which only the entry at a path is known; the places on the way are folders. -/
def diskWith (path : String) (entry : Option DiskEntry) (reason : String) : Disk where
  entries :=
    match visited [] (Path.pieces path) with
    | [] => []
    | last :: way =>
      (entry.map (last.reverse, ·)).toList ++ way.map (·.reverse, DiskEntry.folder)
  workingFolder := []
  reason

/-- What is found at a path, and why it cannot be used. -/
def probe (path : String) : IO (Option DiskEntry × String) := do
  match ← (IO.FS.readBinFile path).toBaseIO with
  | .ok _ => return (some .other, "unknown image format")
  | .error (.noFileOrDirectory _ _ _) => return (none, "")
  | .error e => return (some .folder, toString e)

/-- The disk that a run with these arguments sees: what is found where it looks first. -/
def surroundings (args : List String) : IO Disk :=
  match Arguments.read args with
  | .error _ => return diskWith "" none ""
  | .ok args => do
    let path := Path.join args.folder (args.corlib ++ ".dll")
    let (entry, reason) ← probe path
    return diskWith path entry reason

end ManagedHost.CommandLine

/-- Runs the command and ends with its code. -/
def main (args : List String) : IO UInt32 := do
  let result := ManagedHost.CommandLine.run args (← ManagedHost.CommandLine.surroundings args)
  for line in result.output do
    IO.println line
  for line in result.errors do
    IO.eprintln line
  return UInt32.ofNat result.code
