/-
# Native libraries

How the file of a native library is found: an absolute path stands for itself, any other
name is tried as it is, with the extension, and with the customary first syllable as well,
and finally as the beginning of a file name that ends in a version.
-/
import ManagedHost.Disk

namespace ManagedHost

/-- The extension of native libraries. -/
def libraryExtension : String := ".so"

/-- A library name without the extension. -/
def bareLibraryName (name : String) : String :=
  if name.endsWith libraryExtension then
    String.ofList (name.toList.take (name.length - libraryExtension.length))
  else name

/-- The file names under which a library may be stored, best first. -/
def libraryFileNames (name : String) : List String :=
  let bare := bareLibraryName name
  [name, bare ++ libraryExtension, "lib" ++ bare ++ libraryExtension]

namespace Disk

/-- The path of the file of a library, looked up in a folder. -/
def findLibrary (d : Disk) (root name : String) : Option String :=
  if Path.isAbsolute name && d.contains name then some name
  else
    match ((libraryFileNames name).map (Path.join root)).find? d.contains with
    | some path => some path
    | none =>
      let versioned := "lib" ++ bareLibraryName name ++ libraryExtension ++ "."
      ((d.children root).find? (·.startsWith versioned)).map (Path.join root)

/-- The path of the file of a library that can be loaded. -/
def openLibrary (d : Disk) (root name : String) : Except Error String :=
  match d.findLibrary root name with
  | none => .error (.libraryNotFound name)
  | some path =>
    match d.find path with
    | some (.library _) => .ok path
    | some .folder =>
      .error (.libraryUnloadable name s!"{path}: cannot read file data: Is a directory")
    | _ => .error (.libraryUnloadable name s!"{path}: {d.reason}")

/-- The function that the library at a path exports under a symbol. A single zero character
at the end of the symbol is not part of its name. -/
def symbol (d : Disk) (path symbol : String) : Option NativeFunction :=
  let cs := symbol.toList
  let name := if cs.getLast? = some '\x00' then String.ofList cs.dropLast else symbol
  match d.find path with
  | some (.library exports) => exports.lookup name
  | _ => none

end Disk

end ManagedHost
