/-
# Path names

Path names are texts with `/` between their components. An empty component and a single
dot name the place itself and are skipped; two dots name the enclosing folder. The
functions here only look at the text and never at a file system.
-/

namespace ManagedHost.Path

/-- The text between the separators, empty pieces included. -/
def pieces (p : String) : List String :=
  p.splitOn "/"

/-- The components of a path, without empty pieces and single dots. -/
def components (p : String) : List String :=
  (pieces p).filter fun c => c ≠ "" && c ≠ "."

/-- Whether a path starts at the root of the file system. -/
def isAbsolute (p : String) : Bool :=
  p.toList.head? == some '/'

/-- The path reached from `base` by following `p`; an absolute `p` ignores `base`. -/
def join (base p : String) : String :=
  if isAbsolute p || base == "" then p
  else if base.toList.getLast? == some '/' then base ++ p
  else base ++ "/" ++ p

/-- The last component, unless it names an enclosing folder or there is none. -/
def fileName? (p : String) : Option String :=
  (components p).getLast?.filter (· ≠ "..")

/-- A file name without what follows its last dot. A name whose only dot comes first is
kept whole. -/
def stem (name : String) : String :=
  let cs := name.toList.reverse
  match cs.dropWhile (· ≠ '.') with
  | [] => name
  | [_] => name
  | _ :: front => String.ofList front.reverse

/-- The last component of a path without its extension. -/
def fileStem? (p : String) : Option String :=
  (fileName? p).map stem

end ManagedHost.Path
