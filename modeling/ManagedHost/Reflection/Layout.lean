/-
# Fields and layouts

The instance fields of a value type are placed in the order of their declaration, each at
the next multiple of its alignment. The size is a multiple of the greatest alignment, and
at least one byte. Sizes are machine words, and wrap around for a type that is too large.
Value types that contain each other have no layout; this shows by nesting deeper than any
layout may.
-/
import ManagedHost.Reflection.Collection
import ManagedHost.Reflection.Signature

namespace ManagedHost

/-- How deep value types may be nested in each other. -/
def maxLayoutDepth : Nat := 64

/-- The least multiple of `a` that is at least `n`. -/
def roundUp (n a : Nat) : Nat :=
  (n + (a - 1)) / a * a

namespace Layout

/-- Places a field after what has been placed so far. -/
def place (sofar field : Layout) : Layout :=
  ⟨wrapWord (roundUp sofar.size field.align + field.size), max sofar.align field.align⟩

/-- The layout of a type with these fields. -/
def ofFields (fields : List Layout) : Layout :=
  let placed := fields.foldl place ⟨0, 1⟩
  ⟨max (wrapWord (roundUp placed.size placed.align)) 1, placed.align⟩

/-- The layout of a value that takes `size` bytes whatever the layout of value types. -/
def ofSize (size : Nat) : Layout :=
  ⟨size, min (max size 1) Signature.pointerSize⟩

end Layout

namespace Op

/-- The field of the class `c` that a definition describes. -/
def field (c : ClassHandle) (m : Module) (d : FieldDef) : Op Field :=
  return {
    owner := c
    name := d.name
    type := ← signature m d.type
    isStatic := d.isStatic }

/-- The fields of a class. -/
def fields (c : ClassHandle) : Op (List Field) :=
  collect .fields c fun _ m defs => each (field c m) defs

/-- The layout of a value, given that of value types. -/
def extent (layoutOf : ClassHandle → Op Layout) : Signature ClassHandle → Op Layout
  | .value c => layoutOf c
  | s => return .ofSize (s.fixedSize.getD Signature.pointerSize)

/-- Keeps the layout of a class, unless there is one already; and answers with the layout that is
kept. -/
def keepLayout (c : ClassHandle) (l : Layout) : Op Layout := do
  match (← cls c).layout with
  | some kept => return kept
  | none =>
    modify (·.modifyClass c ({ · with layout := some l }))
    return l

/-- The layout of a class whose value types may be nested `depth` deep. -/
def layoutWithin (depth : Nat) (c : ClassHandle) : Op Layout := do
  let record ← cls c
  match record.layout with
  | some l => return l
  | none =>
    match depth with
    | 0 => fail (.malformed s!"{record.fullName} has a recursive layout")
    | depth + 1 =>
      let fs ← fields c
      let parts ← each (fun f => extent (fun d => layoutWithin depth d) f.type)
        (fs.filter (!·.isStatic))
      keepLayout c (.ofFields parts)

/-- The layout of a class. -/
def layout (c : ClassHandle) : Op Layout :=
  layoutWithin (maxLayoutDepth + 1) c

/-- Number of bytes of a value as it is passed in slots. -/
def sizeOf (s : Signature ClassHandle) : Op Nat :=
  return (← extent layout s).size

end Op

end ManagedHost
