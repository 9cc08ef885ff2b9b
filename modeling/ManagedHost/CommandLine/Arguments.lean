/-
# Arguments of the command line

The command takes a folder, the name of the core library, an assembly and optionally a type
of it, and two switches. Options can be written with two dashes and their full name, or with
one dash and a letter, several letters in one argument; a value follows in the same argument
or in the next one. Nothing may be given twice, and what follows two bare dashes is never an
option.
-/

namespace ManagedHost.CommandLine

/-- What the command shall do. -/
structure Arguments where
  /-- Folder that holds the assemblies. -/
  folder : String
  /-- Name of the core library. -/
  corlib : String
  /-- The assembly to look into. -/
  assembly : String
  /-- The type to describe; all types are listed if missing. -/
  typeName : Option String
  /-- Whether types that cannot be seen from outside are listed as well. -/
  listAll : Bool
  /-- Whether progress is logged. -/
  verbose : Bool
deriving Repr, DecidableEq, Inhabited

/-- Why there is nothing to do. -/
inductive Refusal where
  /-- The arguments are wrong. -/
  | usage
  /-- Help or the version was asked for. -/
  | information
deriving Repr, DecidableEq, Inhabited

/-- What has been read so far. -/
structure Progress where
  folder : Option String := none
  corlib : Option String := none
  listAll : Bool := false
  verbose : Bool := false
  /-- The arguments that are no options. -/
  values : List String := []
deriving Repr, DecidableEq, Inhabited

/-- The options that take a value. -/
inductive ValueOption where
  | folder
  | corlib
deriving Repr, DecidableEq, Inhabited

namespace Progress

/-- Notes the value of an option. The name of a folder is not empty. -/
def setOption (p : Progress) (o : ValueOption) (value : String) : Except Refusal Progress :=
  match o with
  | .folder =>
    if p.folder.isSome || value = "" then .error .usage else .ok { p with folder := some value }
  | .corlib => if p.corlib.isSome then .error .usage else .ok { p with corlib := some value }

/-- Notes the switch to list all types. -/
def setListAll (p : Progress) : Except Refusal Progress :=
  if p.listAll then .error .usage else .ok { p with listAll := true }

/-- Notes the switch to log progress. -/
def setVerbose (p : Progress) : Except Refusal Progress :=
  if p.verbose then .error .usage else .ok { p with verbose := true }

/-- Notes an argument that is no option; there are at most two. -/
def addValue (p : Progress) (value : String) : Except Refusal Progress :=
  if p.values.length < 2 then .ok { p with values := p.values ++ [value] } else .error .usage

/-- Reads an argument that starts with two dashes, given without them. The second part of
the answer is an option that still needs its value. -/
def readLong (p : Progress) (text : String) : Except Refusal (Progress × Option ValueOption) := do
  let cs := text.toList
  let name := String.ofList (cs.takeWhile (· ≠ '='))
  let value := (cs.dropWhile (· ≠ '=')).tail?.map String.ofList
  match name, value with
  | "assemblies", some v => return (← p.setOption .folder v, none)
  | "assemblies", none => return (p, some .folder)
  | "corlib", some v => return (← p.setOption .corlib v, none)
  | "corlib", none => return (p, some .corlib)
  | "all", none => return (← p.setListAll, none)
  | "verbose", none => return (← p.setVerbose, none)
  | "help", none | "version", none => throw .information
  | _, _ => throw .usage

/-- Reads the letters of an argument that starts with one dash. The second part of the answer
is an option that still needs its value. -/
def readShort (p : Progress) : List Char → Except Refusal (Progress × Option ValueOption)
  | [] => .ok (p, none)
  | 'v' :: rest => do readShort (← p.setVerbose) rest
  | 'a' :: [] => .ok (p, some .folder)
  | 'a' :: '=' :: value => return (← p.setOption .folder (String.ofList value), none)
  | 'a' :: value => return (← p.setOption .folder (String.ofList value), none)
  | 'h' :: _ | 'V' :: _ => .error .information
  | _ => .error .usage

/-- Reads the arguments. An option that needs a value is waiting for it. -/
def read (p : Progress) (waiting : Option ValueOption) : List String → Except Refusal Progress
  | [] => if waiting.isSome then .error .usage else .ok p
  | argument :: rest =>
    match argument.toList, waiting with
    | ['-', '-'], none => rest.foldlM addValue p
    | ['-', '-'], some _ => .error .usage
    | '-' :: '-' :: text, none => do
      let (p, waiting) ← p.readLong (String.ofList text)
      p.read waiting rest
    | '-' :: c :: text, none => do
      let (p, waiting) ← p.readShort (c :: text)
      p.read waiting rest
    | '-' :: _ :: _, some _ => .error .usage
    | _, some o => do (← p.setOption o argument).read none rest
    | _, none => do (← p.addValue argument).read none rest

end Progress

/-- The core library unless another one is named. -/
def defaultCorlib : String := "System.Private.CoreLib"

/-- Reads the arguments of the command. -/
def Arguments.read (args : List String) : Except Refusal Arguments := do
  let p ← ({} : Progress).read none args
  match p.folder, p.values with
  | some folder, assembly :: rest =>
    return {
      folder
      corlib := p.corlib.getD defaultCorlib
      assembly
      typeName := rest.head?
      listAll := p.listAll
      verbose := p.verbose }
  | _, _ => throw .usage

end ManagedHost.CommandLine
