/-
# Type references

The metadata of a module names types by references: by the row of a definition in the same
module, by assembly, namespace and name, or as a type nested in another referenced type.
-/

namespace ManagedHost

/-- A reference to a type, made from within a module. -/
inductive TypeRef where
  /-- A type defined in the referring module, by row. -/
  | definition (row : Nat)
  /-- A type of another assembly. -/
  | external (assembly space name : String)
  /-- A type nested in another one. -/
  | nested (outer : TypeRef) (name : String)
deriving Repr, DecidableEq, Inhabited

namespace TypeRef

/-- Splits a text at its last dot; without a dot, the first part is empty. -/
def splitLastDot (s : String) : String × String :=
  let cs := s.toList.reverse
  match cs.dropWhile (· ≠ '.') with
  | [] => ("", s)
  | _ :: front => (String.ofList front.reverse, String.ofList (cs.takeWhile (· ≠ '.')).reverse)

/-- The reference to a type of another assembly by its full name, whose namespace ends at
the last dot. -/
def ofFullName (assembly fullName : String) : TypeRef :=
  let (space, name) := splitLastDot fullName
  external assembly space name

/-- Whether the outermost enclosing type is defined in the referring module. -/
def isLocal : TypeRef → Bool
  | definition _ => true
  | external _ _ _ => false
  | nested outer _ => outer.isLocal

end TypeRef

end ManagedHost
