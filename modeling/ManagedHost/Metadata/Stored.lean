/-
# What a file keeps of an image

A file does not give an image back quite as it was described. Three things change.

* A name ends at its first zero character.
* The interfaces of a type are in the order of their places in the file. Types of the image,
  references to types outside and instances of generic types are counted apart, each from
  one, the last two as the types of the image mention them; equal numbers are in this order.
* The methods of all types, accessors included, stand in one list, and the file only marks
  where those of each type start; they end where those of the next type start. The mark of a
  type without methods of its own, be it with accessors, is the start of the list. So the
  first methods belong to the last of the types without any that follow. An accessor keeps
  the number of its property or event, but now among those of its new type, where the last
  accessor of a kind counts.

A file is unreadable if a mark lies before the one above, if an accessor finds no property
or event of its number, or if an event is left without a method to add or remove listeners.
-/
import ManagedHost.Metadata.Image

namespace ManagedHost

/-! ### Names -/

/-- A reference with every name replaced. -/
def ImageRef.mapNames (f : String → String) : ImageRef → ImageRef
  | definition row => definition row
  | assembly a space name => assembly (f a) (f space) (f name)
  | nested outer name => nested (outer.mapNames f) (f name)
  | elsewhere name => elsewhere (f name)
  | instanceOf base n => instanceOf (base.mapNames f) n

/-- The type of a value with every name replaced. -/
def ImageType.mapNames (f : String → String) : ImageType → ImageType
  | named s => named (s.map (·.mapNames f))
  | vector t => vector (t.mapNames f)
  | matrix t => matrix (t.mapNames f)
  | pointerTo t => pointerTo (t.mapNames f)
  | pointer => pointer
  | functionPointer => functionPointer
  | typeParameter i => typeParameter i
  | methodParameter i => methodParameter i

/-- A parameter or result with every name replaced. -/
def ImageParam.mapNames (f : String → String) : ImageParam → ImageParam
  | value t => value (t.mapNames f)
  | byRef t => byRef (t.mapNames f)
  | typedReference => typedReference

/-- A method with every name replaced. -/
def ImageMethod.mapNames (f : String → String) (m : ImageMethod) : ImageMethod :=
  { m with
    name := f m.name
    result := m.result.map (·.mapNames f)
    params := m.params.map (·.mapNames f)
    imported := m.imported.map fun (library, entry) => (f library, f entry) }

/-- A field with every name replaced. -/
def ImageField.mapNames (f : String → String) (x : ImageField) : ImageField :=
  { x with name := f x.name, type := x.type.mapNames f }

/-- A property with every name replaced. -/
def ImageProperty.mapNames (f : String → String) (p : ImageProperty) : ImageProperty where
  name := f p.name
  getter := p.getter.map (·.mapNames f)
  setter := p.setter.map (·.mapNames f)

/-- An event with every name replaced. -/
def ImageEvent.mapNames (f : String → String) (e : ImageEvent) : ImageEvent where
  name := f e.name
  add := e.add.mapNames f
  remove := e.remove.mapNames f
  raise := e.raise.map (·.mapNames f)

/-- A type with every name replaced. -/
def ImageTypeDef.mapNames (f : String → String) (t : ImageTypeDef) : ImageTypeDef :=
  { t with
    space := f t.space
    name := f t.name
    parent := t.parent.map (·.mapNames f)
    interfaces := t.interfaces.map (·.mapNames f)
    methods := t.methods.map (·.mapNames f)
    fields := t.fields.map (·.mapNames f)
    properties := t.properties.map (·.mapNames f)
    events := t.events.map (·.mapNames f) }

/-- An image with every name replaced. -/
def Image.mapNames (f : String → String) (i : Image) : Image where
  assemblyName := i.assemblyName.map f
  types := i.types.map (·.mapNames f)
  exported := i.exported.map fun (space, name, target) => (f space, f name, target.map f)

/-- A name up to its first zero character. -/
def storedName (name : String) : String :=
  String.ofList (name.toList.takeWhile (· ≠ '\x00'))

/-! ### Interfaces -/

namespace ImageRef

/-- How many references to types outside the image a reference takes. -/
def references : ImageRef → Nat
  | definition _ => 0
  | assembly _ _ _ | elsewhere _ => 1
  | nested outer _ => outer.references + 1
  | instanceOf base n => base.references + n

/-- How many instances of generic types a reference takes. -/
def instances : ImageRef → Nat
  | instanceOf _ _ => 1
  | _ => 0

/-- The place of a reference in a file in which these many references and instances stand
before it. -/
def place (references instances : Nat) : ImageRef → Nat
  | definition row => 4 * (row + 1)
  | instanceOf _ _ => 4 * (instances + 1) + 2
  | r => 4 * (references + r.references) + 1

/-- References with their places, one after the other. -/
def places (references instances : Nat) : List ImageRef → List (Nat × ImageRef)
  | [] => []
  | r :: rest =>
    (r.place references instances, r) ::
      places (references + r.references) (instances + r.instances) rest

end ImageRef

/-- Types with their interfaces in the order of their places, when these many references and
instances stand before them. -/
def ImageTypeDef.orderInterfaces (references instances : Nat) :
    List ImageTypeDef → List ImageTypeDef
  | [] => []
  | t :: rest =>
    let count (f : ImageRef → Nat) (l : List ImageRef) : Nat := (l.map f).sum
    let ofParent (f : ImageRef → Nat) : Nat := count f t.parent.toList
    let placed := ImageRef.places (references + ofParent (·.references))
      (instances + ofParent (·.instances)) t.interfaces
    { t with interfaces := (placed.mergeSort fun a b => a.1 ≤ b.1).map (·.2) } ::
      orderInterfaces
        (references + ofParent (·.references) + count (·.references) t.interfaces +
          t.memberReferences)
        (instances + ofParent (·.instances) + count (·.instances) t.interfaces) rest

/-! ### Methods -/

/-- What a method is to its type: one of its own, or an accessor of the property or event
with a number. -/
inductive MethodRole where
  | own
  | getter (property : Nat)
  | setter (property : Nat)
  | add (event : Nat)
  | remove (event : Nat)
  | raise (event : Nat)
deriving Repr, DecidableEq, Inhabited

/-- Whether the type has the property or event. -/
def MethodRole.fits (t : ImageTypeDef) : MethodRole → Bool
  | own => true
  | getter n | setter n => n < t.properties.length
  | add n | remove n | raise n => n < t.events.length

/-- A row of the list of all methods. -/
structure MethodRow where
  /-- What the method is to its type. -/
  role : MethodRole
  /-- The method. -/
  method : ImageMethod
deriving Repr, DecidableEq, Inhabited

/-- The last method of a role. -/
def MethodRow.last? (rows : List MethodRow) (role : MethodRole) : Option ImageMethod :=
  (rows.reverse.find? (·.role = role)).map (·.method)

namespace ImageTypeDef

/-- What the type adds to the list of all methods. -/
def methodRows (t : ImageTypeDef) : List MethodRow :=
  t.methods.map (⟨.own, ·⟩) ++
    t.properties.zipIdx.flatMap (fun (p, n) =>
      (p.getter.map (⟨.getter n, ·⟩)).toList ++ (p.setter.map (⟨.setter n, ·⟩)).toList) ++
    t.events.zipIdx.flatMap (fun (e, n) =>
      [⟨.add n, e.add⟩, ⟨.remove n, e.remove⟩] ++ (e.raise.map (⟨.raise n, ·⟩)).toList)

/-- The type with the methods and accessors that these rows give it. -/
def withRows? (t : ImageTypeDef) (rows : List MethodRow) : Option ImageTypeDef :=
  if rows.all (·.role.fits t) then do
    let events ← t.events.zipIdx.mapM fun (e, n) => return {
      e with
      add := ← MethodRow.last? rows (.add n)
      remove := ← MethodRow.last? rows (.remove n)
      raise := MethodRow.last? rows (.raise n) }
    return {
      t with
      methods := (rows.filter (·.role = .own)).map (·.method)
      properties := t.properties.zipIdx.map fun (p, n) => {
        p with
        getter := MethodRow.last? rows (.getter n)
        setter := MethodRow.last? rows (.setter n) }
      events }
  else none

/-- Where the methods of each type start, when `before` methods stand before them all. -/
def marks (before : Nat) : List ImageTypeDef → List Nat
  | [] => []
  | t :: rest =>
    (if t.methods.isEmpty then 0 else before) :: marks (before + t.methodRows.length) rest

/-- Types with the methods that lie between their marks. -/
def placeMethods? (types : List ImageTypeDef) : Option (List ImageTypeDef) :=
  let rows := types.flatMap (·.methodRows)
  let starts := marks 0 types
  let stops := starts.tail ++ [rows.length]
  (types.zip (starts.zip stops)).mapM fun (t, start, stop) =>
    if start ≤ stop then t.withRows? ((rows.take stop).drop start) else none

end ImageTypeDef

/-- The image as it is read back from a file, unless the file is unreadable. -/
def Image.stored? (i : Image) : Option Image := do
  let i := i.mapNames storedName
  return { i with types := ← ImageTypeDef.placeMethods? (ImageTypeDef.orderInterfaces 0 0 i.types) }

end ManagedHost
