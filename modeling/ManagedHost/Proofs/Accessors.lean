/-
# Accessors of properties and events

In an image the accessors of a property or an event are methods that belong to it.  As a source the
image lists them after the methods of the type, and of a property or an event it says no more than
what its accessors are called.  The host looks for such a name among the methods of the class and
takes the first that has it.  So an accessor is never missing, but it is the one that belongs to the
property or event only if no method with the same name is listed before.  Properties with parameters
can be overloaded, and then it is not.

* `ImageTypeDef.listed`: the methods of a type as a source lists them, each accessor in its row.
* `Host.Renders`: a method of a host is made of a method of an image.
* `Host.Serves`: what the accessor is that a host has for one of an image.
* `Denotes.unique`: a signature of the metadata stands for one signature of the host, unless a name
  stands for two assemblies or sources change their minds about where types have moved.
* `accessors_of_image`: the properties and events of a class whose source is an image.
-/
import ManagedHost.Proofs.Counterparts

namespace ManagedHost

/-! ## Where an image lists its accessors -/

/-- The accessors of a property. -/
def ImageProperty.accessors (p : ImageProperty) : List ImageMethod :=
  p.getter.toList ++ p.setter.toList

/-- The accessors of an event. -/
def ImageEvent.accessors (e : ImageEvent) : List ImageMethod :=
  [e.add, e.remove] ++ e.raise.toList

/-- What comes from one element of a list begins after what comes from those before it. -/
lemma getElem?_flatMap_add {α β : Type} {f : α → List β} {xs : List α} {k i : Nat} {x : α} {y : β}
    (hx : xs[k]? = some x) (hy : (f x)[i]? = some y) :
    (xs.flatMap f)[((xs.take k).flatMap f).length + i]? = some y := by
  obtain ⟨hk, rfl⟩ := List.getElem?_eq_some_iff.mp hx
  have hi := (List.getElem?_eq_some_iff.mp hy).1
  have hsplit : xs = xs.take k ++ xs[k] :: xs.drop (k + 1) := by
    rw [List.getElem_cons_drop, List.take_append_drop]
  have hflat : xs.flatMap f =
      (xs.take k).flatMap f ++ (f xs[k] ++ (xs.drop (k + 1)).flatMap f) := by
    conv_lhs => rw [hsplit]
    rw [List.flatMap_append, List.flatMap_cons]
  rw [hflat, List.getElem?_append_right (Nat.le_add_right _ _), Nat.add_sub_cancel_left,
    List.getElem?_append_left hi, hy]

/-- Elements in the same place of matched lists are matched. -/
lemma getElem?_of_forall₂ {α β : Type} {P : α → β → Prop} {xs : List α} {ys : List β}
    (hall : List.Forall₂ P xs ys) {k : Nat} {x : α} {y : β} (hx : xs[k]? = some x)
    (hy : ys[k]? = some y) : P x y := by
  obtain ⟨hk, rfl⟩ := List.getElem?_eq_some_iff.mp hx
  obtain ⟨hk', rfl⟩ := List.getElem?_eq_some_iff.mp hy
  exact hall.get hk hk'

namespace ImageTypeDef

variable {t : ImageTypeDef} {k i row : Nat} {a b : ImageMethod}

/-- The methods of a type as a source lists them. -/
def listed (t : ImageTypeDef) : List ImageMethod :=
  t.methods ++ t.accessors

/-- The row in which the accessors of a property begin. -/
def propertyRow (t : ImageTypeDef) (k : Nat) : Nat :=
  t.methods.length + ((t.properties.take k).flatMap ImageProperty.accessors).length

/-- The row in which the accessors of an event begin. -/
def eventRow (t : ImageTypeDef) (k : Nat) : Nat :=
  t.methods.length + ((t.properties.flatMap ImageProperty.accessors).length +
    ((t.events.take k).flatMap ImageEvent.accessors).length)

lemma listed_propertyRow {p : ImageProperty} (hp : t.properties[k]? = some p)
    (ha : p.accessors[i]? = some a) : t.listed[t.propertyRow k + i]? = some a := by
  have hlisted := getElem?_flatMap_add (f := ImageProperty.accessors) hp ha
  have hlt := (List.getElem?_eq_some_iff.mp hlisted).1
  rw [listed, propertyRow, Nat.add_assoc, List.getElem?_append_right (Nat.le_add_right _ _),
    Nat.add_sub_cancel_left]
  exact (List.getElem?_append_left hlt).trans hlisted

lemma listed_eventRow {e : ImageEvent} (he : t.events[k]? = some e)
    (ha : e.accessors[i]? = some a) : t.listed[t.eventRow k + i]? = some a := by
  have hlisted := getElem?_flatMap_add (f := ImageEvent.accessors) he ha
  rw [listed, eventRow, Nat.add_assoc, List.getElem?_append_right (Nat.le_add_right _ _),
    Nat.add_sub_cancel_left, Nat.add_assoc]
  refine (List.getElem?_append_right (Nat.le_add_right _ _)).trans ?_
  rw [Nat.add_sub_cancel_left]
  exact hlisted

/-- The method is listed in this row, and none with the same name is listed before. -/
structure IsFirst (t : ImageTypeDef) (row : Nat) (a : ImageMethod) : Prop where
  listed : t.listed[row]? = some a
  fresh : ∀ i < row, ∀ b ∈ t.listed[i]?, b.name ≠ a.name

instance : Decidable (t.IsFirst row a) :=
  decidable_of_iff (t.listed[row]? = some a ∧ ∀ i < row, ∀ b ∈ t.listed[i]?, b.name ≠ a.name)
    ⟨fun hf => ⟨hf.1, hf.2⟩, fun hf => ⟨hf.listed, hf.fresh⟩⟩

/-- There is no more than one first method with a name. -/
lemma IsFirst.unique (ha : t.IsFirst row a) (hb : t.IsFirst i b) (hname : b.name = a.name) :
    i = row ∧ b = a := by
  rcases Nat.lt_trichotomy i row with hlt | rfl | hlt
  · exact absurd hname (ha.fresh i hlt b hb.listed)
  · exact ⟨rfl, Option.some.inj (hb.listed.symm.trans ha.listed)⟩
  · exact absurd hname.symm (hb.fresh row hlt a ha.listed)

end ImageTypeDef

/-! ## What an image says as a source -/

namespace ImageMethod

variable {a : ImageMethod}

lemma paramDefs_eq_ok {defs : List ParamDef} (hd : a.paramDefs = .ok defs) :
    List.Forall₂ (fun p d => ImageParam.signature p = .ok (ParamDef.type d)) a.params defs := by
  have hall := mapM_eq_ok_iff.mp hd
  rw [← List.zipIdx_map_fst 0 a.params, List.forall₂_map_left_iff]
  refine hall.imp fun p d hp => ?_
  obtain ⟨p, i⟩ := p
  rcases hsig : p.signature with e | s
  · simp [hsig, bind, Except.bind] at hp
  · simp only [hsig, bind, Except.bind, pure, Except.pure, Except.ok.injEq] at hp
    exact hp ▸ rfl

lemma definition_eq_ok {d : MethodDef} (hd : a.definition = .ok d) :
    d.name = a.name ∧ a.paramDefs = .ok d.params ∧ a.resultSignature = .ok d.result := by
  unfold definition at hd
  rcases hp : a.paramDefs with e | params
  · simp [hp, bind, Except.bind] at hd
  rcases hr : a.resultSignature with e | result
  · simp [hp, hr, bind, Except.bind] at hd
  simp only [hp, hr, bind, Except.bind, pure, Except.pure, Except.ok.injEq] at hd
  exact hd ▸ ⟨rfl, rfl, rfl⟩

end ImageMethod

/-- Of a property an image says its name, its signature, and the names of its accessors. -/
structure ImageProperty.Tells (p : ImageProperty) (d : PropertyDef) : Prop where
  name_eq : d.name = p.name
  signature_eq : p.signature = .ok d.type
  getter_eq : d.getter = p.getter.map (·.name)
  setter_eq : d.setter = p.setter.map (·.name)

/-- Of an event an image says its name and the names of its accessors. -/
structure ImageEvent.Tells (e : ImageEvent) (d : EventDef) : Prop where
  name_eq : d.name = e.name
  add_eq : d.add = some e.add.name
  remove_eq : d.remove = some e.remove.name
  raise_eq : d.raise = e.raise.map (·.name)

namespace Image

variable {image : Image} {moduleName requested : String} {row : Nat} {t : ImageTypeDef}

lemma methods_of_source {defs : List MethodDef} (ht : image.types[row]? = some t)
    (hd : Collection.methods.answer (image.source moduleName requested) row = .ok defs) :
    List.Forall₂ (fun a d => ImageMethod.definition a = .ok d) t.listed defs := by
  simp only [Collection.methods, source, entry, ht] at hd
  exact mapM_eq_ok_iff.mp hd

lemma properties_of_source {defs : List PropertyDef} (ht : image.types[row]? = some t)
    (hd : Collection.properties.answer (image.source moduleName requested) row = .ok defs) :
    List.Forall₂ ImageProperty.Tells t.properties defs := by
  simp only [Collection.properties, source, entry, ht] at hd
  refine (mapM_eq_ok_iff.mp hd).imp fun p d hp => ?_
  rcases hs : p.signature with e | s
  · simp [hs, bind, Except.bind] at hp
  · simp only [hs, bind, Except.bind, pure, Except.pure, Except.ok.injEq] at hp
    exact hp ▸ ⟨rfl, hs, rfl, rfl⟩

lemma events_of_source {defs : List EventDef} (ht : image.types[row]? = some t)
    (hd : Collection.events.answer (image.source moduleName requested) row = .ok defs) :
    List.Forall₂ ImageEvent.Tells t.events defs := by
  simp only [Collection.events, source, entry, ht] at hd
  cases hd
  rw [List.forall₂_map_right_iff, List.forall₂_same]
  exact fun e _ => ⟨rfl, rfl, rfl, rfl⟩

end Image

namespace Host

variable {R : Resolver} {h : Host} {c : ClassHandle} {r : Class} {m : Module} {t : ImageTypeDef}
  {row : Nat}

/-- Members that are described by what an image says of a type are matched with those of the
type. -/
lemma Reported.of_image {β δ α : Type} {k : Collection δ α} {Describes : Module → δ → α → Prop}
    {items : List α} {entries : List β} {P : β → δ → Prop} {source : Source}
    (hrep : h.Reported R c r k Describes items) (hm : h.module r.module = .ok m)
    (hsource : ∀ j, R.source j m.source = source)
    (hentries : ∀ defs, k.answer source r.row = .ok defs → List.Forall₂ P entries defs) :
    List.Forall₂ (fun b i => ∃ d, P b d ∧ Describes m d i) entries items := by
  obtain ⟨m', defs, ⟨hm', -, hdefs⟩, hall⟩ := hrep
  obtain rfl : m = m' := Except.ok.inj (hm.symm.trans hm')
  rw [hsource] at hdefs
  exact forall₂_of_common (hentries defs hdefs).flip hall

/-! ## Methods that are made of those of an image -/

/-- A method of a host is made of a method of an image: it has the same name, and its parameters and
its result are what the signatures in the image stand for. -/
structure Renders (R : Resolver) (h : Host) (m : Module) (a : ImageMethod) (x : Method) :
    Prop where
  name_eq : x.name = a.name
  params : List.Forall₂ (fun p q => ∃ s, ImageParam.signature p = .ok s ∧
    h.Denotes R m s (Param.type q)) a.params x.params
  result : ∃ s, a.resultSignature = .ok s ∧ h.Denotes R m s x.result

lemma renders_of_definition {a : ImageMethod} {d : MethodDef} {x : Method}
    (ha : a.definition = .ok d) (hx : h.DescribesMethod R m d x) : h.Renders R m a x := by
  obtain ⟨hname, hparams, hresult⟩ := ImageMethod.definition_eq_ok ha
  refine ⟨hx.name_eq.trans hname, ?_, d.result, hresult, hx.result⟩
  refine (forall₂_of_common (ImageMethod.paramDefs_eq_ok hparams).flip hx.params).imp fun p q => ?_
  rintro ⟨d, hp, hq⟩
  exact ⟨d.type, hp, hq⟩

/-! ## Accessors that are found by name -/

/-- The accessor `x` that a member of the class with the record `r` has for the accessor `a` of an
image, which is listed in `row`. -/
structure Serves (R : Resolver) (h : Host) (r : Class) (m : Module) (t : ImageTypeDef) (row : Nat)
    (a : Option ImageMethod) (x : Option Method) : Prop where
  /-- There is an accessor exactly if the image has one. -/
  present : x.isSome = a.isSome
  /-- It is the method of the class that is made of the first one with the name. -/
  first : ∀ own, a = some own → ∃ (i : Nat) (b : ImageMethod) (y : Method) (ms : List Method),
    i ≤ row ∧ t.IsFirst i b ∧ b.name = own.name ∧ x = some y ∧ r.methods = .known ms ∧
      ms[i]? = some y ∧ h.Renders R m b y
  /-- It is the method that is made of the accessor of the image, if this is the first one. -/
  own : ∀ own, a = some own → t.IsFirst row own → ∃ y ms,
    x = some y ∧ r.methods = .known ms ∧ ms[row]? = some y ∧ h.Renders R m own y

/-- The first method with a name, in a list of methods that are made of those of a type. -/
lemma find?_of_renders {ms : List Method} {a : ImageMethod}
    (hms : List.Forall₂ (h.Renders R m) t.listed ms) (ha : t.listed[row]? = some a) :
    ∃ (i : Nat) (b : ImageMethod) (y : Method), i ≤ row ∧ t.IsFirst i b ∧ b.name = a.name ∧
      (ms.find? fun y => Text.sameName false y.name a.name) = some y ∧ ms[i]? = some y ∧
      h.Renders R m b y := by
  -- what is listed in a row and the method in this row have the same name
  have hrow : ∀ (i : Nat) b, t.listed[i]? = some b → ∃ y, ms[i]? = some y ∧ h.Renders R m b y := by
    intro i b hb
    obtain ⟨hi, rfl⟩ := List.getElem?_eq_some_iff.mp hb
    have hi' : i < ms.length := hms.length_eq ▸ hi
    exact ⟨ms[i], List.getElem?_eq_getElem hi', hms.get hi hi'⟩
  obtain ⟨own, hown, hrenders⟩ := hrow row a ha
  cases hfind : ms.find? fun y => Text.sameName false y.name a.name with
  | none =>
    have hno := List.find?_eq_none.mp hfind own (List.mem_of_getElem? hown)
    exact absurd hrenders.name_eq (by simpa using hno)
  | some y =>
    obtain ⟨hy, i, hi, rfl, hbefore⟩ := List.find?_eq_some_iff_getElem.mp hfind
    have hi' : i < t.listed.length := hms.length_eq ▸ hi
    have hb : h.Renders R m t.listed[i] ms[i] := hms.get hi' hi
    have hname : t.listed[i].name = a.name := hb.name_eq.symm.trans (Text.sameName_false.mp hy)
    -- no method before it has the name, and so nothing that is listed before it
    have hfresh : ∀ j < i, ∀ b ∈ t.listed[j]?, b.name ≠ a.name := by
      intro j hj b hlisted heq
      obtain ⟨y, hget, hrenders⟩ := hrow j b hlisted
      obtain ⟨hlt, rfl⟩ := List.getElem?_eq_some_iff.mp hget
      have hne := hbefore j hj
      rw [Bool.not_eq_true', ← Bool.not_eq_true, Text.sameName_false] at hne
      exact hne (hrenders.name_eq.trans heq)
    refine ⟨i, t.listed[i], ms[i], ?_, ⟨List.getElem?_eq_getElem hi', ?_⟩, hname, rfl,
      List.getElem?_eq_getElem hi, hb⟩
    · exact Nat.not_lt.mp fun hlt => hfresh row hlt a ha rfl
    · rw [hname]
      exact hfresh

lemma serves_of_links {a : Option ImageMethod} {x : Option Method} (hr : h.cls c = .ok r)
    (hms : ∀ ms, r.methods = .known ms → List.Forall₂ (h.Renders R m) t.listed ms)
    (ha : ∀ own, a = some own → t.listed[row]? = some own)
    (hl : h.Links c (a.map (·.name)) x) : h.Serves R r m t row a x := by
  cases a with
  | none => exact ⟨by rw [show x = none from hl]; rfl, by simp, by simp⟩
  | some own =>
    obtain ⟨r', ms, hr', hknown, rfl⟩ := hl
    obtain rfl : r = r' := Except.ok.inj (hr.symm.trans hr')
    obtain ⟨i, b, y, hi, hfirst, hname, hfind, hget, hy⟩ :=
      find?_of_renders (hms ms hknown) (ha own rfl)
    refine ⟨by rw [hfind]; rfl, ?_, ?_⟩
    · rintro _ ⟨⟩
      exact ⟨i, b, y, ms, hi, hfirst, hname, hfind, hknown, hget, hy⟩
    · rintro _ ⟨⟩ hown
      obtain ⟨rfl, rfl⟩ := hown.unique hfirst hname
      exact ⟨y, ms, hfind, hknown, hget, hy⟩

/-! ## Signatures stand for one thing -/

/-- No name stands for two assemblies. -/
def NamesApart (h : Host) : Prop :=
  ∀ name a b, (name, a) ∈ h.names → (name, b) ∈ h.names → a = b

end Host

/-- Sources do not change their minds about where types have moved. -/
def Resolver.Steady (R : Resolver) : Prop :=
  ∀ j j' id, (R.source j id).forwarded = (R.source j' id).forwarded

namespace Host

variable {R : Resolver} {h : Host} {m : Module}

lemma NamesApart.opens_unique (hn : h.NamesApart) {bound : Nat} {target : String} {m m' : Module}
    (ho : h.Opens bound target m) (ho' : h.Opens bound target m') : m = m' := by
  obtain ⟨i, -, hname, hm, -⟩ := ho
  obtain ⟨i', -, hname', hm', -⟩ := ho'
  obtain rfl : i = i' := congrArg AssemblyHandle.index (hn target _ _ hname hname')
  exact Option.some.inj (hm.symm.trans hm')

lemma Finds.unique {bound steps : Nat} {space name target : String} {c c' : ClassHandle}
    (hf : h.Finds R bound space name steps target c)
    (hf' : h.Finds R bound space name steps target c') (hn : h.NamesApart) (hR : R.Steady) :
    c = c' := by
  induction hf with
  | here ho hc =>
    cases hf' with
    | here ho' hc' =>
      obtain rfl := hn.opens_unique ho ho'
      exact Option.some.inj (hc.symm.trans hc')
    | moved ho' hc' =>
      obtain rfl := hn.opens_unique ho ho'
      rw [hc] at hc'
      cases hc'
  | @moved _ _ _ _ _ j ho hc hmoved _ ih =>
    cases hf' with
    | here ho' hc' =>
      obtain rfl := hn.opens_unique ho ho'
      rw [hc] at hc'
      cases hc'
    | @moved _ _ _ _ _ j' ho' hc' hmoved' hnext' =>
      obtain rfl := hn.opens_unique ho ho'
      rw [hR j j', hmoved'] at hmoved
      cases hmoved
      exact ih hnext'

lemma LeadsFrom.unique {ref : TypeRef} {c c' : ClassHandle} (hl : h.LeadsFrom R m ref c)
    (hl' : h.LeadsFrom R m ref c') (hn : h.NamesApart) (hR : R.Steady) : c = c' := by
  induction hl generalizing c' with
  | definition hrow _ =>
    cases hl' with
    | definition hrow' _ => exact Option.some.inj (hrow.symm.trans hrow')
  | external hf =>
    cases hl' with
    | external hf' => exact hf.unique hf' hn hR
  | nested _ hr hm _ hc ih =>
    cases hl' with
    | nested ho' hr' hm' _ hc' =>
      obtain rfl := ih ho'
      obtain rfl := Except.ok.inj (hr.symm.trans hr')
      obtain rfl := Except.ok.inj (hm.symm.trans hm')
      exact Option.some.inj (hc.symm.trans hc')

lemma Denotes.unique {s : Signature TypeRef} {t t' : Signature ClassHandle}
    (hd : h.Denotes R m s t) (hd' : h.Denotes R m s t') (hn : h.NamesApart) (hR : R.Steady) :
    t = t' := by
  obtain ⟨f, hf, rfl⟩ := hd
  obtain ⟨f', hf', rfl⟩ := hd'
  have hall : ∀ ref ∈ s.classes, f ref = f' ref := by
    intro ref href
    obtain ⟨c, r, hl, hr, ht⟩ := hf ref href
    obtain ⟨c', r', hl', hr', ht'⟩ := hf' ref href
    obtain rfl := hl.unique hl' hn hR
    obtain rfl := Except.ok.inj (hr.symm.trans hr')
    exact Option.some.inj (ht.symm.trans ht')
  exact Signature.expand_congr hall hall

/-! ## Properties and events of a class -/

section

variable {c : ClassHandle} {r : Class} {t : ImageTypeDef} {k : Nat}

/-- The property `p` of the class with the record `r` is made of `d`, the property of the type with
the number `k`. -/
structure RendersProperty (R : Resolver) (h : Host) (r : Class) (m : Module) (t : ImageTypeDef)
    (k : Nat) (d : ImageProperty) (p : Property) : Prop where
  name_eq : p.name = d.name
  getter : h.Serves R r m t (t.propertyRow k) d.getter p.getter
  setter : h.Serves R r m t (t.propertyRow k + d.getter.toList.length) d.setter p.setter
  type : ∃ s, d.signature = .ok s ∧ h.Denotes R m s p.type
  /-- A getter that belongs to the property returns what the property holds. -/
  result : ∀ a, d.getter = some a → t.IsFirst (t.propertyRow k) a → h.NamesApart → R.Steady →
    p.getter.map (·.result) = some p.type

/-- The event `e` of the class with the record `r` is made of `d`, the event of the type with the
number `k`. -/
structure RendersEvent (R : Resolver) (h : Host) (r : Class) (m : Module) (t : ImageTypeDef)
    (k : Nat) (d : ImageEvent) (e : Event) : Prop where
  name_eq : e.name = d.name
  add : h.Serves R r m t (t.eventRow k) (some d.add) e.add
  remove : h.Serves R r m t (t.eventRow k + 1) (some d.remove) e.remove
  raise : h.Serves R r m t (t.eventRow k + 2) d.raise e.raise

/-- The signature that an image says of a property with a getter is that of the getter's result. -/
lemma Serves.result_eq {d : ImageProperty} {p : Property} {row : Nat} {a : ImageMethod}
    (hg : h.Serves R r m t row d.getter p.getter)
    (htype : ∃ s, d.signature = .ok s ∧ h.Denotes R m s p.type) (ha : d.getter = some a)
    (hfirst : t.IsFirst row a) (hn : h.NamesApart) (hR : R.Steady) :
    p.getter.map (·.result) = some p.type := by
  obtain ⟨y, ms, hy, -, -, hrenders⟩ := hg.own a ha hfirst
  obtain ⟨s, hs, hdenotes⟩ := htype
  obtain ⟨s', hs', hdenotes'⟩ := hrenders.result
  rw [ImageProperty.signature, ha] at hs
  obtain rfl := Except.ok.inj (hs.symm.trans hs')
  rw [hy, Option.map_some, hdenotes'.unique hdenotes hn hR]

variable (hr : h.cls c = .ok r)
  (hms : ∀ ms, r.methods = .known ms → List.Forall₂ (h.Renders R m) t.listed ms)

include hr hms

lemma rendersProperty_of_describes {d : ImageProperty} {told : PropertyDef} {p : Property}
    (hd : t.properties[k]? = some d) (htold : d.Tells told)
    (hp : h.DescribesProperty R c m told p) : h.RendersProperty R r m t k d p := by
  have hgetter : h.Serves R r m t (t.propertyRow k) d.getter p.getter := by
    refine serves_of_links hr hms (fun own hown => ?_) (htold.getter_eq ▸ hp.getter)
    exact ImageTypeDef.listed_propertyRow (i := 0) hd (by simp [ImageProperty.accessors, hown])
  have hsetter : h.Serves R r m t (t.propertyRow k + d.getter.toList.length) d.setter p.setter := by
    refine serves_of_links hr hms (fun own hown => ?_) (htold.setter_eq ▸ hp.setter)
    exact ImageTypeDef.listed_propertyRow hd (by simp [ImageProperty.accessors, hown])
  have htype : ∃ s, d.signature = .ok s ∧ h.Denotes R m s p.type :=
    ⟨told.type, htold.signature_eq, hp.type⟩
  exact ⟨hp.name_eq.trans htold.name_eq, hgetter, hsetter, htype,
    fun a ha hfirst hn hR => hgetter.result_eq htype ha hfirst hn hR⟩

lemma rendersEvent_of_describes {d : ImageEvent} {told : EventDef} {e : Event}
    (hd : t.events[k]? = some d) (htold : d.Tells told) (he : h.DescribesEvent c told e) :
    h.RendersEvent R r m t k d e := by
  have hadd : h.Links c (some d.add.name) e.add := htold.add_eq ▸ he.add
  have hremove : h.Links c (some d.remove.name) e.remove := htold.remove_eq ▸ he.remove
  refine ⟨he.name_eq.trans htold.name_eq, serves_of_links hr hms (fun own hown => ?_) hadd,
    serves_of_links hr hms (fun own hown => ?_) hremove,
    serves_of_links hr hms (fun own hown => ?_) (htold.raise_eq ▸ he.raise)⟩
  · exact ImageTypeDef.listed_eventRow (i := 0) hd hown
  · exact ImageTypeDef.listed_eventRow (i := 1) hd hown
  · exact ImageTypeDef.listed_eventRow (i := 2) hd (by simp [ImageEvent.accessors, hown])

end

end Host

/-- The properties and events of a class whose source is an image, at every point of a run and in
every state between this point and the next.  There are as many as in the image.

* Each accessor is there exactly if the image has one.  It is the method of the class that is made
  of the first method with the accessor's name, where the methods of the type come before all
  accessors.
* So it is the one that is made of the accessor itself, with the parameters and the result of the
  accessor, if no method with its name is listed before.
* Then the result of a getter is the type of its property, unless a name stands for two assemblies
  or sources change their minds about where types have moved. -/
theorem accessors_of_image {s : Setup} {R : Resolver} {next rest : Nat} {fs : List Frame}
    {h₀ h₁ h : Host} {c : ClassHandle} {r : Class} {m : Module} {image : Image}
    {moduleName requested : String} {t : ImageTypeDef} (hs : s.start next = (.ok h₀, rest))
    (hfrom : ReachedFrom (·.resolver = R) h₀ fs h₁) (hmid : h₁.Later (·.resolver = R) h)
    (hr : h.cls c = .ok r) (hm : h.module r.module = .ok m)
    (himage : ∀ j, R.source j m.source = image.source moduleName requested)
    (ht : image.types[r.row]? = some t) :
    (∀ ps, r.properties = .known ps → ps.length = t.properties.length ∧
      ∀ (k : Nat) d p, t.properties[k]? = some d → ps[k]? = some p →
        h.RendersProperty R r m t k d p) ∧
    ∀ es, r.events = .known es → es.length = t.events.length ∧
      ∀ (k : Nat) d e, t.events[k]? = some d → es[k]? = some e → h.RendersEvent R r m t k d e := by
  have hl : h₀.Later (·.resolver = R) h := (hfrom.later (sound_start hs)).trans hmid
  have hms : ∀ ms, r.methods = .known ms → List.Forall₂ (h.Renders R m) t.listed ms := by
    intro ms hms
    have hrep := (vouches_of_later hs hl (p := .methods) (by decide) hr ms hms).2
    refine (hrep.of_image hm himage fun defs hdefs => Image.methods_of_source ht hdefs).imp ?_
    rintro a x ⟨d, ha, hx⟩
    exact Host.renders_of_definition ha hx
  refine ⟨fun ps hps => ?_, fun es hes => ?_⟩
  · have hrep := vouches_of_later hs hl (p := .properties) (by decide) hr ps hps
    have hall := hrep.of_image hm himage fun defs hdefs => Image.properties_of_source ht hdefs
    refine ⟨hall.length_eq.symm, fun k d p hd hp => ?_⟩
    obtain ⟨told, htold, hdescribes⟩ := getElem?_of_forall₂ hall hd hp
    exact Host.rendersProperty_of_describes hr hms hd htold hdescribes
  · have hrep := vouches_of_later hs hl (p := .events) (by decide) hr es hes
    have hall := hrep.of_image hm himage fun defs hdefs => Image.events_of_source ht hdefs
    refine ⟨hall.length_eq.symm, fun k d e hd he => ?_⟩
    obtain ⟨told, htold, hdescribes⟩ := getElem?_of_forall₂ hall hd he
    exact Host.rendersEvent_of_describes hr hms hd htold hdescribes

/-! A type of an image with one method, two properties of the same name, the second of which has a
setter, and an event. -/

namespace TableSpecimen

/-- A method with these parameters and this result. -/
def method (name : String) (params : List (Signature ImageRef))
    (result : Option (Signature ImageRef)) : ImageMethod where
  name
  result := result.map fun s => .value (.named s)
  params := params.map fun s => .value (.named s)
  isInstance := true
  isVirtual := false
  isSpecial := false
  imported := none
  isInternalCall := false
  hasBody := true

/-- The setter of the second property. -/
def setter : ImageMethod :=
  method "set_Item" [.string, .reference (.definition 1)] none

/-- The type. -/
def table : ImageTypeDef where
  space := "App"
  name := "Table"
  parent := some (.assembly "mscorlib" "System" "Object")
  methods := [method "Clear" [] none]
  properties :=
    [{ name := "Item", getter := some (method "get_Item" [.int32] (some .int32)), setter := none },
     { name := "Item"
       getter := some (method "get_Item" [.string] (some (.reference (.definition 1))))
       setter := some setter }]
  events :=
    [{ name := "Changed"
       add := method "add_Changed" [.object] none
       remove := method "remove_Changed" [.object] none
       raise := some (method "raise_Changed" [] none) }]

/-- The image with the type. -/
def image : Image :=
  ⟨some "App", [.globals, table], []⟩

/-- The image of the core library. -/
def corlib : Image :=
  ⟨some "mscorlib", [.globals, { space := "System", name := "Object" }], []⟩

/-- Two names are found. -/
def resolver : Resolver where
  resolve _ name := if name ∈ ["mscorlib", "App"] then .ok { name } else .error (.fileNotFound name)
  source _ id :=
    if id.name = "App" then image.source "App.dll" "App"
    else corlib.source "mscorlib.dll" "mscorlib"

/-- What the host is started with. -/
def setup : Setup where
  config := .standard
  resolver := some resolver
  interpreter := none
  invoker _ _ _ := .done .returned []
  function _ _ _ := none
  disk := ⟨[], [], ""⟩
  exceptions := Error.toException
  depth := 3

/-- The class of the type. -/
def target : ClassHandle := ⟨1, 3⟩

/-- The host with the assembly loaded. -/
def loaded : Host :=
  setup.after (.load "App") setup.firstHost

/-- The host when the class has been asked for its properties and its events. -/
def asked : Host :=
  setup.after (.events target) (setup.after (.properties target) loaded)

/-- The record of the class. -/
def record : Class :=
  (asked.cls? target).getD default

/-- The module of the class. -/
def home : Module :=
  (asked.module record.module).toOption.getD default

lemma start_eq : setup.start 1 = (.ok setup.firstHost, 2) := by decide +kernel

lemma reachedFrom_asked : ReachedFrom (·.resolver = resolver) setup.firstHost [] asked := by
  have hload : ReachedFrom (·.resolver = resolver) setup.firstHost [] loaded :=
    Setup.reachedFrom_after (s := setup) (by rfl) .here (by decide +kernel)
  have hproperties : ReachedFrom (·.resolver = resolver) setup.firstHost []
      (setup.after (.properties target) loaded) :=
    Setup.reachedFrom_after (s := setup) (by rfl) hload (by decide +kernel)
  exact Setup.reachedFrom_after (s := setup) (by rfl) hproperties (by decide +kernel)

lemma record_eq : asked.cls target = .ok record := by decide +kernel

lemma home_eq : asked.module record.module = .ok home := by decide +kernel

lemma source_home (j : Journal) :
    resolver.source j home.source = image.source "App.dll" "App" := by
  have hname : home.source.name = "App" := by decide +kernel
  simp only [resolver, hname, if_true]

lemma types_record : image.types[record.row]? = some table := by decide +kernel

lemma namesApart_asked : asked.NamesApart := by
  have hnames : asked.names = [("App", ⟨1, 1⟩), ("mscorlib", ⟨1, 0⟩)] := by decide +kernel
  intro name a b ha hb
  simp only [hnames, List.mem_cons, List.not_mem_nil, or_false, Prod.mk.injEq] at ha hb
  rcases ha with ⟨rfl, rfl⟩ | ⟨rfl, rfl⟩ <;> rcases hb with ⟨heq, rfl⟩ | ⟨heq, rfl⟩ <;>
    first | rfl | exact absurd heq (by decide)

end TableSpecimen

open TableSpecimen in
/-- The second of two properties with the same name is linked to the getter of the first, although
the image lists a getter of its own in row `2`. -/
theorem overloaded_getter_of_image :
    setup.start 1 = (.ok setup.firstHost, 2) ∧
    ReachedFrom (·.resolver = resolver) setup.firstHost [] asked ∧
    asked.cls target = .ok record ∧ asked.module record.module = .ok home ∧
    (∀ j, resolver.source j home.source = image.source "App.dll" "App") ∧
    image.types[record.row]? = some table ∧
    table.properties[1]?.bind (·.getter) = table.listed[2]? ∧
    ∃ p ∈ record.properties.items[1]?, p.getter = record.methods.items[1]? ∧
      p.getter ≠ record.methods.items[2]? ∧ p.getter.map (·.result) = some .int32 ∧
      p.type = .reference target := by
  refine ⟨start_eq, reachedFrom_asked, record_eq, home_eq, source_home, types_record,
    by decide +kernel, ?_⟩
  decide +kernel

open TableSpecimen in
/-- The getter of the first property is its own, and so are the setter of the second property and
the accessors of the event. -/
theorem accessors_of_image_specimen :
    setup.start 1 = (.ok setup.firstHost, 2) ∧
    ReachedFrom (·.resolver = resolver) setup.firstHost [] asked ∧
    asked.cls target = .ok record ∧ asked.module record.module = .ok home ∧
    (∀ j, resolver.source j home.source = image.source "App.dll" "App") ∧
    image.types[record.row]? = some table ∧
    ∃ first second changed ms, record.properties = .known [first, second] ∧
      record.events = .known [changed] ∧ record.methods = .known ms ∧
      first.getter.map (·.result) = some first.type ∧
      (∃ x, second.setter = some x ∧ ms[3]? = some x ∧ asked.Renders resolver home setter x) ∧
      ∀ d ∈ table.events[0]?, asked.RendersEvent resolver record home table 0 d changed := by
  obtain ⟨hproperties, hevents⟩ := accessors_of_image start_eq reachedFrom_asked .refl record_eq
    home_eq source_home types_record
  have hps : record.properties = .known record.properties.items := by decide +kernel
  have hes : record.events = .known record.events.items := by decide +kernel
  obtain ⟨hcount, hp⟩ := hproperties _ hps
  obtain ⟨hcount', he⟩ := hevents _ hes
  obtain ⟨first, second, heq⟩ := List.length_eq_two.mp hcount
  obtain ⟨changed, heq'⟩ := List.length_eq_one_iff.mp hcount'
  rw [heq] at hps hp
  rw [heq'] at hes he
  obtain ⟨x, ms, hx, hms, hget, hrenders⟩ :=
    (hp 1 _ second rfl rfl).setter.own setter rfl (by decide)
  exact ⟨start_eq, reachedFrom_asked, record_eq, home_eq, source_home, types_record, first, second,
    changed, ms, hps, hes, hms,
    (hp 0 _ first rfl rfl).result _ rfl (by decide) namesApart_asked fun _ _ _ => rfl,
    ⟨x, hx, hget, hrenders⟩, fun d hd => he 0 d changed hd rfl⟩

end ManagedHost
