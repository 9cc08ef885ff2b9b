/-
# Listing the types of an assembly

The command loads an assembly and lists the full names of its types, or describes one type
with all its members. Lines are written as soon as they are known, so a failure leaves those
before it.
-/
import ManagedHost.CommandLine.Arguments
import ManagedHost.Reflection.Members

namespace ManagedHost.CommandLine

/-- A part of a description: lines that are always written, and lines that may fail. -/
structure Section where
  /-- The lines written first. -/
  header : List String
  /-- The lines that follow. -/
  body : Op (List String)

/-- Writes the parts one after the other until one fails. -/
def writeSections : List Section → Op (List String × Option Error)
  | [] => return ([], none)
  | s :: rest => do
    match ← Op.attempt s.body with
    | .error e => return (s.header, some e)
    | .ok lines =>
      let (more, failure) ← writeSections rest
      return (s.header ++ lines ++ more, failure)

/-- The full name of a class. -/
def fullName (c : ClassHandle) : Op String :=
  return (← Op.cls c).fullName

/-- An item of a list. -/
def item (text : String) : String :=
  "  - " ++ text

/-- The line for a field. -/
def fieldLine (f : Field) : String :=
  let modifier := if f.isStatic then "static " else ""
  item s!"{modifier}{f.type.text} {f.name}"

/-- The line for a method. -/
def methodLine (m : Method) : String :=
  item (s!"{m.text} [{m.implementation.describeDispatch}; args: {m.argSlots} slots, " ++
    s!"return: {m.resultSlots} slots]")

/-- The line for a property. -/
def propertyLine (p : Property) : String :=
  let accessor (m : Option Method) := (m.map (·.name)).getD "-"
  item s!"{p.type.text} {p.name} (get: {accessor p.getter}, set: {accessor p.setter})"

/-- The line for an event. -/
def eventLine (e : Event) : String :=
  item e.name

/-- A part with a title and one line for each member. -/
def memberSection {α : Type} (title : String) (members : Op (List α)) (line : α → Op String) :
    Section :=
  ⟨["", title ++ ":"], do Op.each line (← members)⟩

/-- The line that names the ancestors of a class, if it has any. -/
def ancestorLines (c : ClassHandle) : Op (List String) := do
  let names ← Op.each fullName ((← Op.host).ancestors c).tail
  return if names.isEmpty then [] else ["  extends " ++ " -> ".intercalate names]

/-- The lines for the layout of a value type. -/
def layoutLines (c : ClassHandle) : Op (List String) := do
  if (← Op.host).isValueType c then
    let l ← Op.layout c
    return ["", s!"Layout: {l.size} bytes, align {l.align}"]
  else
    return []

/-- The parts of the description of a class. -/
def classSections (c : ClassHandle) : List Section :=
  [⟨[], return [← fullName c]⟩,
   ⟨[], ancestorLines c⟩,
   ⟨[], return ["  by value: " ++ (← Op.byValue c).text]⟩,
   memberSection "Interfaces" (Op.interfaces c) fun i => return item (← fullName i),
   memberSection "Nested types" (Op.nested c) fun n => return item (← fullName n),
   memberSection "Fields" (Op.fields c) fun f => return fieldLine f,
   memberSection "Methods" (Op.methods c) fun m => return methodLine m,
   memberSection "Properties" (Op.properties c) fun p => return propertyLine p,
   memberSection "Events" (Op.events c) fun e => return eventLine e,
   ⟨[], layoutLines c⟩]

/-- The parts of what the command writes about a loaded assembly. -/
def assemblySections (args : Arguments) (h : Host) (m : ModuleHandle) : List Section :=
  match args.typeName with
  | none => (h.classesOf m (!args.listAll)).map fun c => ⟨[], return [← fullName c]⟩
  | some name =>
    match h.classByName m name false with
    | some c => classSections c
    | none => [⟨[], Op.fail (.typeNotFound s!"{name} in assembly {args.assembly}")⟩]

/-- Writes what the arguments ask for: the lines, and the failure that came after them. -/
def dump (args : Arguments) : Op (List String × Option Error) := do
  let found ← Op.attempt do
    let a ← Op.load args.assembly
    return (← Op.assembly a).module
  match found with
  | .error e => return ([], some e)
  | .ok m => writeSections (assemblySections args (← Op.host) m)

end ManagedHost.CommandLine
