/-
# Nested types in a list of definitions

Types are nested by naming the row of their encloser. The full name of a type follows the
enclosers to the outermost one, whose namespace it takes. Enclosers that do not exist, or
that enclose each other in a circle, are found out here, before anything is loaded.
-/
import ManagedHost.Metadata.Definition
import ManagedHost.Error

namespace ManagedHost

/-- The full name that starts with a namespace. -/
def inSpace (space name : String) : String :=
  if space = "" then name else space ++ "." ++ name

/-- Follows the enclosers of `d` for at most `steps` further types. The names collected so
far are `segments`, outermost first; `innermost` is the name of the type they started from. -/
def climb (defs : List TypeDef) (innermost : String) (steps : Nat) (d : TypeDef)
    (segments : List String) : Except Error String :=
  match d.encloser with
  | none => .ok (inSpace d.space ("/".intercalate segments))
  | some e =>
    match defs[e]? with
    | none => .error (.malformed s!"enclosing type row {e} does not exist")
    | some outer =>
      match steps with
      | 0 => .error (.malformed s!"cyclic nesting involving {innermost}")
      | steps + 1 => climb defs innermost steps outer (outer.name :: segments)

/-- The full name of a type. -/
def qualifiedName (defs : List TypeDef) (d : TypeDef) : Except Error String :=
  climb defs d.name defs.length d [d.name]

/-- The full names of all types, or the error of the first type that has none. -/
def qualifiedNames (defs : List TypeDef) : Except Error (List String) :=
  defs.mapM (qualifiedName defs)

/-- The row to which a reference that stays within the module leads. -/
def localRow (defs : List TypeDef) : TypeRef → Except Error Nat
  | .definition row =>
    if row < defs.length then .ok row else .error (.malformed s!"type row {row} does not exist")
  | .external _ _ _ => .error (.malformed "external reference where a local one was expected")
  | .nested outer name => do
    let row ← localRow defs outer
    match defs.findIdx? fun d => d.encloser == some row && d.name == name with
    | some inner => return inner
    | none =>
      let outerName := (defs[row]?.map (·.name)).getD ""
      throw (.typeNotFound s!"{outerName}/{name}")

end ManagedHost
