/-
# Collections of members

The six collections of a class are obtained in the same way: a collection that is known is
the answer; otherwise the source of the class's module is asked what it says, the members are
built from the answer, and they are kept only when all of them could be built.
-/
import ManagedHost.Loading.Load

namespace ManagedHost

/-- One of the collections of a class: the question that is put to a source for it, the answer of
the source, and the place of the collection in a record. -/
structure Collection (δ α : Type) where
  /-- The question. -/
  query : Query
  /-- What a source says about the members of the type of a row. -/
  answer : Source → Nat → Except Error (List δ)
  /-- The collection in a record. -/
  get : Class → Members α
  /-- The record with the collection replaced. -/
  set : Class → Members α → Class

namespace Collection

/-- The interfaces of a class. -/
def interfaces : Collection TypeRef ClassHandle :=
  ⟨.interfaces, Source.interfaces, (·.interfaces), fun c m => { c with interfaces := m }⟩

/-- The classes nested in a class. -/
def nested : Collection Nat ClassHandle :=
  ⟨.nested, Source.nested, (·.nested), fun c m => { c with nested := m }⟩

/-- The methods of a class. -/
def methods : Collection MethodDef Method :=
  ⟨.methods, Source.methods, (·.methods), fun c m => { c with methods := m }⟩

/-- The fields of a class. -/
def fields : Collection FieldDef Field :=
  ⟨.fields, Source.fields, (·.fields), fun c m => { c with fields := m }⟩

/-- The properties of a class. -/
def properties : Collection PropertyDef Property :=
  ⟨.properties, Source.properties, (·.properties), fun c m => { c with properties := m }⟩

/-- The events of a class. -/
def events : Collection EventDef Event :=
  ⟨.events, Source.events, (·.events), fun c m => { c with events := m }⟩

end Collection

namespace Op

variable {δ α : Type}

/-- The members of a class; unless they are known, they are built from what the source says, given
the record of the class and its module. -/
def collect (k : Collection δ α) (c : ClassHandle) (build : Class → Module → List δ → Op (List α)) :
    Op (List α) := do
  let record ← cls c
  match k.get record with
  | .known items => return items
  | .unknown =>
    let m ← module record.module
    let defs ← ask m.source k.query record.row (some c) k.answer
    let items ← build record m defs
    modify (·.modifyClass c (k.set · (.known items)))
    return items

end Op

end ManagedHost
