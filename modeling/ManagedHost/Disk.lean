/-
# The files a host can see

A disk is a tree of folders and files, listed from the latest to the oldest: what is put at
a place hides what was there before, so that earlier states can be restored. Path names are
followed component by component, and every component but the last has to be a folder; two
dots lead to the enclosing folder. A file is an assembly image, a native library, or neither.
-/
import ManagedHost.Metadata.Stored
import ManagedHost.Native.Table
import ManagedHost.Path

namespace ManagedHost

/-- What is found at a place of a disk. -/
inductive DiskEntry where
  | folder
  /-- An assembly image. -/
  | image (content : Image)
  /-- A native library with the functions it exports. -/
  | library (exports : List (String × NativeFunction))
  /-- A file of another kind. -/
  | other
deriving Repr, DecidableEq, Inhabited

/-- A tree of folders and files. -/
structure Disk where
  /-- Everything but the root folder, each by the names that lead to it from the root; of
  several at one place the first counts. -/
  entries : List (List String × DiskEntry)
  /-- The folder at which relative paths start. -/
  workingFolder : List String
  /-- The text with which a file of the wrong kind is refused; the host only passes it on. -/
  reason : String
deriving Repr, DecidableEq, Inhabited

namespace Disk

/-- The places on the way along names that starts at a place, innermost name first; two dots
lead to the enclosing folder. -/
def way (place : List String) : List String → List (List String)
  | [] => []
  | name :: rest =>
    let next := if name = ".." then place.tail else name :: place
    next :: way next rest

/-- Puts something at the place to which these names lead, making the folders on the way. -/
def put (d : Disk) (names : List String) (entry : DiskEntry) : Disk :=
  match (way [] names).reverse with
  | [] => d
  | last :: folders =>
    { d with
      entries := (last.reverse, entry) ::
        folders.map (fun place => (place.reverse, DiskEntry.folder)) ++ d.entries }

/-- Tells the states of a growing disk apart. -/
def edition (d : Disk) : Nat :=
  d.entries.length

/-- The disk as it was at an edition. -/
def asOf (d : Disk) (edition : Nat) : Disk :=
  { d with entries := d.entries.drop (d.entries.length - edition) }

/-- Whatever is added to a disk, its earlier state can be restored. -/
theorem asOf_edition (d : Disk) (added : List (List String × DiskEntry)) :
    ({ d with entries := added ++ d.entries } : Disk).asOf d.edition = d := by
  simp [asOf, edition]

/-- What is found at the place to which these names lead, innermost first. -/
def entryAt (d : Disk) : List String → Option DiskEntry
  | [] => some .folder
  | place => d.entries.lookup place.reverse

/-- Whether the place is a folder. -/
def isFolder (d : Disk) (place : List String) : Bool :=
  match d.entryAt place with
  | some .folder => true
  | _ => false

/-- Follows the pieces of a path from a place, innermost name first. -/
def follow (d : Disk) (place : List String) : List String → Option (List String)
  | [] => (d.entryAt place).map fun _ => place
  | piece :: rest =>
    if !d.isFolder place then none
    else if piece = "" ∨ piece = "." then d.follow place rest
    else if piece = ".." then d.follow place.tail rest
    else d.follow (piece :: place) rest

/-- The place to which a path leads, innermost name first, if something is there. -/
def locate (d : Disk) (path : String) : Option (List String) :=
  if path = "" then none
  else d.follow (if Path.isAbsolute path then [] else d.workingFolder.reverse) (Path.pieces path)

/-- What is found at a path. -/
def find (d : Disk) (path : String) : Option DiskEntry :=
  (d.locate path).bind d.entryAt

/-- Whether there is something at a path. -/
def contains (d : Disk) (path : String) : Bool :=
  (d.find path).isSome

/-- The names of what a folder holds. -/
def children (d : Disk) (path : String) : List String :=
  match d.locate path with
  | none => []
  | some place =>
    if d.isFolder place then
      d.entries.filterMap fun e =>
        match e.1.reverse with
        | name :: folder => if folder = place then some name else none
        | [] => none
    else []

/-- The metadata source in the image of the assembly `name` in a folder. -/
def openAssembly (d : Disk) (root name : String) : Except Error Source :=
  let file := name ++ ".dll"
  let path := Path.join root file
  match d.find path with
  | none => .error (.fileNotFound path)
  | some .folder => .error (.unreadable s!"{path}: Is a directory (os error 21)")
  | some (.image i) =>
    match i.stored? with
    | some i => .ok (i.source ((Path.fileName? path).getD file) name)
    | none => .error (.invalidImage s!"{path}: {d.reason}")
  | some _ => .error (.invalidImage s!"{path}: {d.reason}")

end Disk

end ManagedHost
