/-
# Facets of a record, and what vouches for them

The record of a class has parts that are derived when they are first needed: the collections of
its members, the layout and the signature of its instances.  Such a part is a *facet* here.  A
facet that is known stays as it is (`Host.Remembers`), and it has not been made up: what is
entered for it follows from what the host knew when it was entered, and from what the source of
the class said (`Host.Vouches`).

* `Host.Denotes`: a signature of the host is what a signature in the metadata of a module denotes.
* `Host.Links`: an accessor is the first method of its name.
* `Host.Reported`: members that are described by definitions of the source, one by one.
* `Host.Measured`: a method counts the slots of values whose layouts are known.
* `Host.Composed`: a layout that is put together from those of the instance fields.
-/
import ManagedHost.Proofs.Images
import ManagedHost.Reflection.Layout

namespace ManagedHost

/-! ## Facets of a record -/

/-- A part of the record of a class that is derived when it is first needed. -/
inductive Facet where
  | interfaces
  | nested
  | methods
  | fields
  | properties
  | events
  | layout
  | byValue
deriving Repr, DecidableEq

namespace Facet

/-- The record as it is when nothing is known of the facet. -/
def erase : Facet → Class → Class
  | interfaces, r => { r with interfaces := .unknown }
  | nested, r => { r with nested := .unknown }
  | methods, r => { r with methods := .unknown }
  | fields, r => { r with fields := .unknown }
  | properties, r => { r with properties := .unknown }
  | events, r => { r with events := .unknown }
  | layout, r => { r with layout := none }
  | byValue, r => { r with byValue := none }

/-- Two records agree on a facet. -/
def Agrees : Facet → Class → Class → Prop
  | interfaces, r, r' => r'.interfaces = r.interfaces
  | nested, r, r' => r'.nested = r.nested
  | methods, r, r' => r'.methods = r.methods
  | fields, r, r' => r'.fields = r.fields
  | properties, r, r' => r'.properties = r.properties
  | events, r, r' => r'.events = r.events
  | layout, r, r' => r'.layout = r.layout
  | byValue, r, r' => r'.byValue = r.byValue

lemma Agrees.rfl' (p : Facet) (r : Class) : p.Agrees r r := by
  cases p <;> rfl

lemma Agrees.trans {p : Facet} {r r₁ r' : Class} (h₁ : p.Agrees r r₁) (h₂ : p.Agrees r₁ r') :
    p.Agrees r r' := by
  cases p <;> exact Eq.trans h₂ h₁

lemma Agrees.symm {p : Facet} {r r' : Class} (ha : p.Agrees r r') : p.Agrees r' r := by
  cases p <;> exact Eq.symm ha

/-- Nothing is known of the facet. -/
def Unknown (p : Facet) (r : Class) : Prop :=
  p.erase r = r

lemma Agrees.unknown {p : Facet} {r r' : Class} (ha : p.Agrees r r') (hu : p.Unknown r') :
    p.Unknown r := by
  obtain ⟨⟩ := r
  obtain ⟨⟩ := r'
  cases p <;> simp_all only [Unknown, erase, Agrees, Class.mk.injEq]

/-- Nothing has been derived of a class that was just added. -/
lemma unknown_pristine (p : Facet) (r : Class) : p.Unknown r.pristine := by
  cases p <;> rfl

/-- The record `r'` is `r` with a facet filled in of which nothing was known. -/
structure Fills (p : Facet) (r r' : Class) : Prop where
  erase_eq : p.erase r' = p.erase r
  once : p.Unknown r

/-- The question that is put to a source about a collection. -/
def query? : Facet → Option Query
  | interfaces => some .interfaces
  | nested => some .nested
  | methods => some .methods
  | fields => some .fields
  | properties => some .properties
  | events => some .events
  | layout => none
  | byValue => none

/-- Different collections are asked about differently. -/
lemma query?_inj {p q : Facet} {query : Query} (hp : p.query? = some query)
    (hq : q.query? = some query) : p = q := by
  cases p <;> cases hp <;> cases q <;> first | rfl | cases hq

end Facet

/-- The record of a class without its facets. -/
def Class.bare (r : Class) : Class :=
  { r with
    interfaces := .unknown
    nested := .unknown
    methods := .unknown
    fields := .unknown
    properties := .unknown
    events := .unknown
    layout := none
    byValue := none }

/-- Records that differ in facets only are of one class, and their initializers have come equally
far. -/
lemma Class.eq_of_bare_eq {r r' : Class} (hb : r'.bare = r.bare) :
    r'.handle = r.handle ∧ r'.module = r.module ∧ r'.row = r.row ∧ r'.fullName = r.fullName ∧
      r'.init = r.init := by
  simp only [Class.bare, Class.mk.injEq] at hb
  simp only [hb, and_self]

lemma Class.pristine_eq_of_bare_eq {r r' : Class} (hb : r'.bare = r.bare) :
    r'.pristine = r.pristine :=
  congrArg (fun r : Class => { r with init := .untouched }) hb

lemma Facet.bare_erase (p : Facet) (r : Class) : (p.erase r).bare = r.bare := by
  cases p <;> rfl

namespace Facet.Fills

variable {p q : Facet} {r r' : Class}

lemma bare_eq (hf : p.Fills r r') : r'.bare = r.bare := by
  rw [← p.bare_erase r', hf.erase_eq, p.bare_erase]

lemma agrees (hf : p.Fills r r') (hq : q ≠ p) : q.Agrees r r' := by
  have he := hf.erase_eq
  cases p <;> cases q <;> first | exact absurd rfl hq | skip
  all_goals
    simp only [Facet.erase, Class.mk.injEq] at he
    simp only [Facet.Agrees, he]

end Facet.Fills

/-! ## What is remembered -/

namespace Host

variable {R : Resolver} {h h₁ h' : Host}

/-- The tables are continued, and what is known of a class stays. -/
structure Remembers (h h' : Host) : Prop where
  keeps : h.Keeps h'
  cls : ∀ c r, h.cls c = .ok r → ∃ r', h'.cls c = .ok r' ∧ ∀ q : Facet, ¬q.Unknown r → q.Agrees r r'

namespace Remembers

lemma rfl' (h : Host) : h.Remembers h :=
  ⟨.rfl' h, fun _ r hr => ⟨r, hr, fun q _ => .rfl' q r⟩⟩

lemma trans (h01 : h.Remembers h₁) (h12 : h₁.Remembers h') : h.Remembers h' := by
  refine ⟨h01.keeps.trans h12.keeps, fun c r hr => ?_⟩
  obtain ⟨r₁, hr₁, ha₁⟩ := h01.cls c r hr
  obtain ⟨r₂, hr₂, ha₂⟩ := h12.cls c r₁ hr₁
  -- a facet that was known is still known in between
  exact ⟨r₂, hr₂, fun q hq => (ha₁ q hq).trans (ha₂ q fun hu => hq ((ha₁ q hq).unknown hu))⟩

/-- Only the tables and the names matter. -/
lemma of_eq (hid : h'.id = h.id) (ha : h'.assemblies = h.assemblies) (hm : h'.modules = h.modules)
    (hc : h'.classes = h.classes) (hn : h'.names = h.names) : h.Remembers h' := by
  refine ⟨.of_eq hid ha hm hc hn, fun c r hr => ⟨r, ?_, fun q _ => .rfl' q r⟩⟩
  rw [← hr, Host.cls, Host.cls, hid, hc]

/-- The record of a class, with what it said from the beginning. -/
lemma record (hk : h.Remembers h') {c : ClassHandle} {r : Class} (hr : h.cls c = .ok r) :
    ∃ r', h'.cls c = .ok r' ∧ r'.pristine = r.pristine ∧
      ∀ q : Facet, ¬q.Unknown r → q.Agrees r r' := by
  obtain ⟨r', hr', ha⟩ := hk.cls c r hr
  obtain ⟨r'', hr'', hp⟩ := hk.keeps.classes c r hr
  rw [hr'] at hr''
  cases hr''
  exact ⟨r', hr', hp, ha⟩

end Remembers

end Host

namespace Facet

variable {r : Class}

/-- A facet is known if something in the record shows it. -/
lemma known_of_ne {β : Type} (f : Class → β) {p : Facet} (hne : f (p.erase r) ≠ f r) :
    ¬p.Unknown r :=
  fun hu => hne (congrArg f hu)

lemma layout_known {l : Layout} (hl : r.layout = some l) : ¬layout.Unknown r :=
  known_of_ne Class.layout (by simp [erase, hl])

lemma byValue_known {s : Signature ClassHandle} (hs : r.byValue = some s) : ¬byValue.Unknown r :=
  known_of_ne Class.byValue (by simp [erase, hs])

lemma nested_known {cs : List ClassHandle} (hc : r.nested = .known cs) : ¬nested.Unknown r :=
  known_of_ne Class.nested (by simp [erase, hc])

lemma methods_known {ms : List Method} (hm : r.methods = .known ms) : ¬methods.Unknown r :=
  known_of_ne Class.methods (by simp [erase, hm])

lemma fields_known {fs : List Field} (hf : r.fields = .known fs) : ¬fields.Unknown r :=
  known_of_ne Class.fields (by simp [erase, hf])

lemma properties_known {ps : List Property} (hp : r.properties = .known ps) :
    ¬properties.Unknown r :=
  known_of_ne Class.properties (by simp [erase, hp])

lemma events_known {es : List Event} (he : r.events = .known es) : ¬events.Unknown r :=
  known_of_ne Class.events (by simp [erase, he])

end Facet

namespace Host

variable {R : Resolver} {h h' : Host}

lemma Remembers.fields (hk : h.Remembers h') {c : ClassHandle} {r : Class} {fs : List Field}
    (hr : h.cls c = .ok r) (hf : r.fields = .known fs) :
    ∃ r', h'.cls c = .ok r' ∧ r'.fields = .known fs := by
  obtain ⟨r', hr', ha⟩ := hk.cls c r hr
  have heq : r'.fields = r.fields := ha .fields (Facet.fields_known hf)
  exact ⟨r', hr', heq.trans hf⟩

/-! ## Layouts and slots -/

/-- The layout of a value, if it is known: that of a value type has to have been computed. -/
def extent? (h : Host) : Signature ClassHandle → Option Layout
  | .value c => (h.cls? c).bind (·.layout)
  | s => some (.ofSize (s.fixedSize.getD Signature.pointerSize))

lemma Remembers.extent? (hk : h.Remembers h') {s : Signature ClassHandle} {l : Layout}
    (hs : h.extent? s = some l) : h'.extent? s = some l := by
  cases s with
  | value c =>
    obtain ⟨r, hr, hl⟩ := Option.bind_eq_some_iff.mp hs
    obtain ⟨r', hr', ha⟩ := hk.cls c r (cls?_eq_some_iff.mp hr)
    have heq : r'.layout = r.layout := ha .layout (Facet.layout_known hl)
    exact Option.bind_eq_some_iff.mpr ⟨r', cls?_eq_some_iff.mpr hr', heq.trans hl⟩
  | _ => exact hs

lemma Remembers.size (hk : h.Remembers h') {s : Signature ClassHandle} {n : Nat}
    (hs : (h.extent? s).map (·.size) = some n) : (h'.extent? s).map (·.size) = some n := by
  obtain ⟨l, hl, rfl⟩ := Option.map_eq_some_iff.mp hs
  rw [hk.extent? hl]
  rfl

/-- The sizes of all values that a method passes are known, and the method says how many slots
they take. -/
structure Measured (h : Host) (m : Method) : Prop where
  args : ∃ sizes, List.Forall₂ (fun p n => (h.extent? (Param.type p)).map (·.size) = some n)
    m.params sizes ∧ m.argSlots = (if m.isStatic then 0 else 1) + Slot.total sizes
  result : ∃ size, (h.extent? m.result).map (·.size) = some size ∧
    m.resultSlots = Slot.count size

lemma Measured.of_remembers {m : Method} (hm : h.Measured m) (hk : h.Remembers h') :
    h'.Measured m := by
  obtain ⟨sizes, hsizes, hargs⟩ := hm.args
  obtain ⟨size, hsize, hresult⟩ := hm.result
  exact ⟨⟨sizes, hsizes.imp fun _ _ hn => hk.size hn, hargs⟩, size, hk.size hsize, hresult⟩

/-- The layout of a class with this record is put together from those of its instance fields. -/
def Composed (h : Host) (r : Class) (l : Layout) : Prop :=
  ∃ fs parts, r.fields = .known fs ∧
    List.Forall₂ (fun f p => h.extent? (Field.type f) = some p) (fs.filter (!·.isStatic)) parts ∧
    l = .ofFields parts

/-! ## What signatures and definitions denote -/

/-- A reference made from a module leads to a class. -/
inductive LeadsFrom (R : Resolver) (h : Host) (origin : Module) : TypeRef → ClassHandle → Prop
  | definition {row : Nat} {c : ClassHandle} (hrow : origin.classes[row]? = some c)
      (hc : h.Has c) : LeadsFrom R h origin (.definition row) c
  | external {target space name : String} {c : ClassHandle}
      (hf : h.Finds R h.assemblies.length space name maxForwards target c) :
      LeadsFrom R h origin (.external target space name) c
  | nested {outer : TypeRef} {name : String} {o c : ClassHandle} {r : Class} {m : Module}
      (ho : LeadsFrom R h origin outer o) (hr : h.cls o = .ok r) (hm : h.module r.module = .ok m)
      (hcs : ∀ c ∈ m.classes, h.Has c)
      (hc : h.findClass m.classes (·.fullName == r.fullName ++ "/" ++ name) = some c) :
      LeadsFrom R h origin (.nested outer name) c

lemma LeadsFrom.of_keeps {origin : Module} {ref : TypeRef} {c : ClassHandle}
    (hl : h.LeadsFrom R origin ref c) (hk : h.Keeps h') : h'.LeadsFrom R origin ref c := by
  induction hl with
  | definition hrow hc => exact .definition hrow (hk.has hc)
  | external hf => exact .external (hf.of_keeps hk hk.assemblies.length_le)
  | nested _ hr hm hcs hc ih =>
    obtain ⟨r', hr', hp⟩ := hk.classes _ _ hr
    obtain ⟨-, hmod, -, hname, -⟩ := Class.eq_of_pristine_eq hp
    refine .nested ih hr' (hmod ▸ hk.module hm) (fun c hc => hk.has (hcs c hc)) ?_
    rw [hname]
    exact (hk.findClass hcs _).trans hc

lemma LeadsFrom.has {origin : Module} {ref : TypeRef} {c : ClassHandle}
    (hl : h.LeadsFrom R origin ref c) : h.Has c := by
  cases hl with
  | definition _ hc => exact hc
  | external hf => exact hf.has
  | nested _ _ _ _ hc => exact (findClass_eq_some hc).2

/-- A reference leads to a class whose instances have a known signature. -/
def Stands (R : Resolver) (h : Host) (origin : Module) (ref : TypeRef)
    (t : Signature ClassHandle) : Prop :=
  ∃ c r, h.LeadsFrom R origin ref c ∧ h.cls c = .ok r ∧ r.byValue = some t

lemma Stands.of_remembers {origin : Module} {ref : TypeRef} {t : Signature ClassHandle}
    (hs : h.Stands R origin ref t) (hk : h.Remembers h') : h'.Stands R origin ref t := by
  obtain ⟨c, r, hl, hr, ht⟩ := hs
  obtain ⟨r', hr', ha⟩ := hk.cls c r hr
  have heq : r'.byValue = r.byValue := ha .byValue (Facet.byValue_known ht)
  exact ⟨c, r', hl.of_keeps hk.keeps, hr', heq.trans ht⟩

end Host

/-- The signature with a signature in place of every class. -/
def Signature.instantiate {ρ σ : Type} (f : ρ → Signature σ) (s : Signature ρ) : Signature σ :=
  Id.run (s.expand (fun r => pure (f r)) fun r => pure (f r))

namespace Host

variable {R : Resolver} {h h' : Host} {m : Module}

/-- A signature of the host is that of a signature in the metadata of a module: every reference
stands for the signature in its place. -/
def Denotes (R : Resolver) (h : Host) (m : Module) (s : Signature TypeRef)
    (t : Signature ClassHandle) : Prop :=
  ∃ f : TypeRef → Signature ClassHandle,
    (∀ ref ∈ s.classes, h.Stands R m ref (f ref)) ∧ t = s.instantiate f

lemma Denotes.of_remembers {s : Signature TypeRef} {t : Signature ClassHandle}
    (hd : h.Denotes R m s t) (hk : h.Remembers h') : h'.Denotes R m s t := by
  obtain ⟨f, hf, ht⟩ := hd
  exact ⟨f, fun ref href => (hf ref href).of_remembers hk, ht⟩

/-- A field is as its definition says. -/
structure DescribesField (R : Resolver) (h : Host) (m : Module) (d : FieldDef) (f : Field) :
    Prop where
  isStatic_eq : f.isStatic = d.isStatic
  type : h.Denotes R m d.type f.type

/-- The name of a method and what is passed to and from it are as its definition says. -/
structure DescribesMethod (R : Resolver) (h : Host) (m : Module) (d : MethodDef) (x : Method) :
    Prop where
  name_eq : x.name = d.name
  params : List.Forall₂ (fun p q => h.Denotes R m (ParamDef.type p) (Param.type q)) d.params x.params
  result : h.Denotes R m d.result x.result

lemma DescribesField.of_remembers {d : FieldDef} {f : Field} (hd : h.DescribesField R m d f)
    (hk : h.Remembers h') : h'.DescribesField R m d f :=
  ⟨hd.isStatic_eq, hd.type.of_remembers hk⟩

lemma DescribesMethod.of_remembers {d : MethodDef} {x : Method} (hd : h.DescribesMethod R m d x)
    (hk : h.Remembers h') : h'.DescribesMethod R m d x :=
  ⟨hd.name_eq, hd.params.imp fun _ _ hp => hp.of_remembers hk, hd.result.of_remembers hk⟩

/-- An accessor of a class, given by name, is the first of the methods of the class that has this
name.  They are known then. -/
def Links (h : Host) (c : ClassHandle) : Option String → Option Method → Prop
  | none, x => x = none
  | some name, x => ∃ r ms, h.cls c = .ok r ∧ r.methods = .known ms ∧
      x = ms.find? fun y => Text.sameName false y.name name

lemma Links.of_remembers {c : ClassHandle} {name : Option String} {x : Option Method}
    (hl : h.Links c name x) (hk : h.Remembers h') : h'.Links c name x := by
  cases name with
  | none => exact hl
  | some name =>
    obtain ⟨r, ms, hr, hms, hx⟩ := hl
    obtain ⟨r', hr', ha⟩ := hk.cls c r hr
    have heq : r'.methods = r.methods := ha .methods (Facet.methods_known hms)
    exact ⟨r', ms, hr', heq.trans hms, hx⟩

/-- A property of a class is as its definition says. -/
structure DescribesProperty (R : Resolver) (h : Host) (c : ClassHandle) (m : Module)
    (d : PropertyDef) (p : Property) : Prop where
  name_eq : p.name = d.name
  type : h.Denotes R m d.type p.type
  getter : h.Links c d.getter p.getter
  setter : h.Links c d.setter p.setter

/-- An event of a class is as its definition says. -/
structure DescribesEvent (h : Host) (c : ClassHandle) (d : EventDef) (e : Event) : Prop where
  name_eq : e.name = d.name
  add : h.Links c d.add e.add
  remove : h.Links c d.remove e.remove
  raise : h.Links c d.raise e.raise

lemma DescribesProperty.of_remembers {c : ClassHandle} {d : PropertyDef} {p : Property}
    (hd : h.DescribesProperty R c m d p) (hk : h.Remembers h') :
    h'.DescribesProperty R c m d p :=
  ⟨hd.name_eq, hd.type.of_remembers hk, hd.getter.of_remembers hk, hd.setter.of_remembers hk⟩

lemma DescribesEvent.of_remembers {c : ClassHandle} {d : EventDef} {e : Event}
    (hd : h.DescribesEvent c d e) (hk : h.Remembers h') : h'.DescribesEvent c d e :=
  ⟨hd.name_eq, hd.add.of_remembers hk, hd.remove.of_remembers hk, hd.raise.of_remembers hk⟩

/-- A class is nested in another one, and stands in a given row of the module. -/
structure DescribesNested (h : Host) (c : ClassHandle) (m : Module) (row : Nat) (x : ClassHandle) :
    Prop where
  row_eq : m.classes[row]? = some x
  declaring : ∃ r, h.cls x = .ok r ∧ r.declaring = some c

lemma DescribesNested.of_remembers {c : ClassHandle} {row : Nat} {x : ClassHandle}
    (hd : h.DescribesNested c m row x) (hk : h.Remembers h') : h'.DescribesNested c m row x := by
  obtain ⟨r, hr, hdeclaring⟩ := hd.declaring
  obtain ⟨r', hr', hp⟩ := hk.keeps.classes x r hr
  have heq : r'.pristine.declaring = r.pristine.declaring := congrArg Class.declaring hp
  exact ⟨hd.row_eq, r', hr', heq.trans hdeclaring⟩

end Host

/-- The entry notes a question about members of a class. -/
def JournalEntry.asksFor (query : Query) (c : ClassHandle) : JournalEntry → Bool
  | .asked _ q _ (some target) => q == query && target == c
  | _ => false

/-- The journal as it was when a question about members of a class was put for the last time. -/
def Journal.whenAsked (j : Journal) (query : Query) (c : ClassHandle) : Journal :=
  j.dropWhile (!·.asksFor query c)

namespace Host

variable {R : Resolver} {h h' : Host} {m : Module}

/-- The definitions are what the source of the class's module said when it was last asked about the
members of the class. -/
structure Told {δ α : Type} (R : Resolver) (h : Host) (c : ClassHandle) (r : Class)
    (k : Collection δ α) (m : Module) (defs : List δ) : Prop where
  module : h.module r.module = .ok m
  asked : (h.journal.whenAsked k.query c).head? = some (.asked m.source k.query r.row (some c))
  answer : k.answer (R.source (h.journal.whenAsked k.query c) m.source) r.row = .ok defs

/-- Only the module and the row of the class matter. -/
lemma Told.congr {δ α : Type} {c : ClassHandle} {r r' : Class} {k : Collection δ α}
    {defs : List δ} (ht : h.Told R c r k m defs) (hmod : r'.module = r.module)
    (hrow : r'.row = r.row) : h.Told R c r' k m defs :=
  ⟨hmod ▸ ht.module, hrow ▸ ht.asked, hrow ▸ ht.answer⟩

/-- Members are described, one by one, by the definitions that the source has given. -/
def Reported {δ α : Type} (R : Resolver) (h : Host) (c : ClassHandle) (r : Class)
    (k : Collection δ α) (Describes : Module → δ → α → Prop) (items : List α) : Prop :=
  ∃ m defs, h.Told R c r k m defs ∧ List.Forall₂ (Describes m) defs items

lemma Reported.congr {δ α : Type} {c : ClassHandle} {r r' : Class} {k : Collection δ α}
    {Describes : Module → δ → α → Prop} {items : List α}
    (hrep : h.Reported R c r k Describes items) (hmod : r'.module = r.module)
    (hrow : r'.row = r.row) : h.Reported R c r' k Describes items := by
  obtain ⟨m, defs, htold, hall⟩ := hrep
  exact ⟨m, defs, htold.congr hmod hrow, hall⟩

/-! ## What vouches for a facet -/

/-- What the record `r` of the class `c` says about a facet follows from the state of the host and
from what the source of the class has said. -/
def Vouches (R : Resolver) (h : Host) (c : ClassHandle) (r : Class) : Facet → Prop
  | .nested => ∀ cs, r.nested = .known cs → h.Reported R c r .nested (h.DescribesNested c) cs
  | .methods => ∀ ms, r.methods = .known ms →
      (∀ x ∈ ms, h.Measured x) ∧ h.Reported R c r .methods (h.DescribesMethod R) ms
  | .fields => ∀ fs, r.fields = .known fs → h.Reported R c r .fields (h.DescribesField R) fs
  | .properties => ∀ ps, r.properties = .known ps →
      h.Reported R c r .properties (h.DescribesProperty R c) ps
  | .events => ∀ es, r.events = .known es →
      h.Reported R c r .events (fun _ => h.DescribesEvent c) es
  | .layout => ∀ l, r.layout = some l → h.Composed r l
  | .byValue => ∀ s, r.byValue = some s →
      ∃ m, h.module r.module = .ok m ∧ s = h.byValueOf c r m.isCorlib
  | .interfaces => True

/-- Whether a class has a built-in signature was settled when it was added. -/
lemma builtinOf_of_pristine_eq {r r' : Class} (hp : r'.pristine = r.pristine) (isCorlib : Bool) :
    builtinOf r' isCorlib = builtinOf r isCorlib := by
  simp only [Class.pristine, Class.mk.injEq] at hp
  simp only [builtinOf, hp]

end Host

end ManagedHost
