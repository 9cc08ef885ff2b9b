/-
# Unreliable sources

A scenario can make a source report other names, another number of types, other enclosers
or other nested types than its module has, and can make its answers fail, for all types or
for the type of one row.
-/
import ManagedHost.Metadata.Source

namespace ManagedHost

/-- What a source reports instead of the truth. -/
structure Misreport where
  /-- Name of the assembly. -/
  assemblyName : Option String := none
  /-- File name of the module. -/
  moduleName : Option String := none
  /-- Number of types. -/
  typeCount : Option Nat := none
  /-- Enclosers by row. -/
  enclosers : List (Nat × Option Nat) := []
  /-- Rows of nested types by row. -/
  nested : List (Nat × List Nat) := []
deriving Repr, DecidableEq, Inhabited

/-- A failure of a source. -/
structure Fault where
  /-- The source that fails. -/
  source : String
  /-- The question to which it fails to answer. -/
  query : Query
  /-- The row at which it fails; every row if missing. -/
  row : Option Nat
  /-- The error. -/
  error : Error
deriving Repr, DecidableEq, Inhabited

/-- Sets or lifts the failure of a source at a question and row. -/
def setFault (faults : List Fault) (source : String) (query : Query) (row : Option Nat)
    (error : Option Error) : List Fault :=
  let others := faults.filter fun f => !(f.source = source ∧ f.query = query ∧ f.row = row)
  (error.map (⟨source, query, row, ·⟩)).toList ++ others

/-- The error with which a source answers; a failure of one row comes before one of all. -/
def faultAt (faults : List Fault) (source : String) (query : Query) (row : Nat) : Option Error :=
  let at? (r : Option Nat) :=
    faults.find? fun f => f.source = source ∧ f.query = query ∧ f.row = r
  ((at? (some row)).or (at? none)).map (·.error)

namespace Source

/-- The source with other reports. -/
def misreporting (s : Source) (m : Misreport) : Source :=
  { s with
    assemblyName := m.assemblyName.getD s.assemblyName
    moduleName := m.moduleName.getD s.moduleName
    typeCount := m.typeCount.getD s.typeCount
    typeDef := fun row => do
      let d ← s.typeDef row
      match m.enclosers.reverse.lookup row with
      | some e => return { d with encloser := e }
      | none => return d
    nested := fun row =>
      match m.nested.reverse.lookup row with
      | some rows => .ok rows
      | none => s.nested row }

/-- The source with failures. -/
def failing (s : Source) (fault : Query → Nat → Option Error) : Source :=
  let guarded {α : Type} (q : Query) (answer : Nat → Except Error α) (row : Nat) : Except Error α :=
    match fault q row with
    | some e => .error e
    | none => answer row
  { s with
    typeDef := guarded .typeDef s.typeDef
    interfaces := guarded .interfaces s.interfaces
    nested := guarded .nested s.nested
    methods := guarded .methods s.methods
    fields := guarded .fields s.fields
    properties := guarded .properties s.properties
    events := guarded .events s.events }

end Source

end ManagedHost
