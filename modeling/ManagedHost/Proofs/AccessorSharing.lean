/-
# Properties and events share the methods of their class

Properties and events are derived from definitions that give accessors by name, and the methods of
the class are derived on their own.  Either may come first, derivations may fail and be tried again,
and the source may give other answers every time.  Still there is one list of methods only: an
accessor is found in the list that the class has, or the list is derived for its sake, and it stays.

What a definition says about accessors cannot be asked for again, because the source need not say
the same again.  The journal settles what was said: the answer from which members were derived is
the one to the last question about them (`Host.Told`), since nothing is asked about members that
are known.

* `Class.Shares`: an accessor is the first method with the name that was given for it.
* `accessors_shared`: this is so for the properties and events of all classes at all times.
-/
import ManagedHost.Proofs.Informed

namespace ManagedHost

/-! ## The first method with a name -/

/-- What is found under a name among methods: the first one of this name, or nothing if no method
has it. -/
structure FirstNamed (ms : List Method) (name : String) (x : Option Method) : Prop where
  absent : x = none ↔ ∀ y ∈ ms, y.name ≠ name
  first : ∀ y, x = some y → ∃ i : Nat, ms[i]? = some y ∧ y.name = name ∧
    ∀ j < i, ∀ z ∈ ms[j]?, z.name ≠ name

lemma firstNamed_find? (ms : List Method) (name : String) :
    FirstNamed ms name (ms.find? fun y => Text.sameName false y.name name) := by
  refine ⟨by simp, fun y hy => ?_⟩
  obtain ⟨hname, i, hi, rfl, hbefore⟩ := List.find?_eq_some_iff_getElem.mp hy
  refine ⟨i, List.getElem?_eq_getElem hi, Text.sameName_false.mp hname, fun j hj z hz => ?_⟩
  obtain ⟨hlt, rfl⟩ := List.getElem?_eq_some_iff.mp hz
  have hne := hbefore j hj
  rwa [Bool.not_eq_true', ← Bool.not_eq_true, Text.sameName_false] at hne

/-- The accessor of a property or an event of a class, for the name that its definition gives. -/
def Class.Shares (r : Class) : Option String → Option Method → Prop
  | none, x => x = none
  | some name, x => ∃ ms, r.methods = .known ms ∧ FirstNamed ms name x

lemma Class.Shares.methods {r : Class} {name : Option String} {x : Option Method}
    (hs : r.Shares name x) (hname : name ≠ none) : ∃ ms, r.methods = .known ms := by
  cases name with
  | none => exact absurd rfl hname
  | some name =>
    obtain ⟨ms, hms, -⟩ := hs
    exact ⟨ms, hms⟩

namespace Host

variable {h h' : Host} {c : ClassHandle} {r : Class}

lemma Links.shares {name : Option String} {x : Option Method} (hl : h.Links c name x)
    (hr : h.cls c = .ok r) : r.Shares name x := by
  cases name with
  | none => exact hl
  | some name =>
    obtain ⟨r', ms, hr', hms, rfl⟩ := hl
    obtain rfl : r = r' := Except.ok.inj (hr.symm.trans hr')
    exact ⟨ms, hms, firstNamed_find? ms name⟩

end Host

/-! ## Accessors at all times -/

/-- At every point of a run and in every state between this point and the next: if the properties of
a class are known, they correspond to the definitions that the source gave when it was last asked
for them.  Each getter and each setter is the first method of the class with the name that the
definition gives for it, and it is missing exactly if the definition gives no name or no method has
this name; if any name is given, the methods are known.  The same is true of the accessors of
events. -/
theorem accessors_shared {s : Setup} {W : World → Prop} {next rest : Nat} {fs : List Frame}
    {h₀ h₁ h : Host} (hs : s.start next = (.ok h₀, rest)) (hfrom : ReachedFrom W h₀ fs h₁)
    (hmid : h₁.Later W h) {c : ClassHandle} {r : Class}
    (hr : h.cls c = .ok r) :
    (∀ ps, r.properties = .known ps → ∃ w m defs, W w ∧
      h.Told w.resolver c r .properties m defs ∧
      List.Forall₂ (fun (d : PropertyDef) (p : Property) =>
        r.Shares d.getter p.getter ∧ r.Shares d.setter p.setter) defs ps ∧
      ((∃ d ∈ defs, d.getter ≠ none ∨ d.setter ≠ none) → ∃ ms, r.methods = .known ms)) ∧
    ∀ es, r.events = .known es → ∃ w m defs, W w ∧
      h.Told w.resolver c r .events m defs ∧
      List.Forall₂ (fun (d : EventDef) (e : Event) =>
        r.Shares d.add e.add ∧ r.Shares d.remove e.remove ∧ r.Shares d.raise e.raise) defs es ∧
      ((∃ d ∈ defs, d.add ≠ none ∨ d.remove ≠ none ∨ d.raise ≠ none) →
        ∃ ms, r.methods = .known ms) := by
  have hl : h₀.Later W h := (hfrom.later (sound_start hs)).trans hmid
  refine ⟨fun ps hps => ?_, fun es hes => ?_⟩
  · obtain ⟨w, hw, hv⟩ := vouches_of_worlds hs hl (by decide) hr (Facet.properties_known hps)
    obtain ⟨m, defs, htold, hall⟩ := hv ps hps
    have hshares := hall.imp fun _ _ hp => And.intro (hp.getter.shares hr) (hp.setter.shares hr)
    refine ⟨w, m, defs, hw, htold, hshares, ?_⟩
    rintro ⟨d, hd, hname⟩
    obtain ⟨p, -, hgetter, hsetter⟩ := Op.exists_of_mem_forall₂ hshares hd
    exact hname.elim hgetter.methods hsetter.methods
  · obtain ⟨w, hw, hv⟩ := vouches_of_worlds hs hl (by decide) hr (Facet.events_known hes)
    obtain ⟨m, defs, htold, hall⟩ := hv es hes
    have hshares := hall.imp fun _ _ he =>
      And.intro (he.add.shares hr) (And.intro (he.remove.shares hr) (he.raise.shares hr))
    refine ⟨w, m, defs, hw, htold, hshares, ?_⟩
    rintro ⟨d, hd, hname⟩
    obtain ⟨e, -, hadd, hremove, hraise⟩ := Op.exists_of_mem_forall₂ hshares hd
    exact hname.elim hadd.methods fun hname => hname.elim hremove.methods hraise.methods

/-! A source that changes its mind: it gives a property of a type that does not exist when it is
asked for the first time, and another one when it is asked again. -/

namespace FickleSpecimen

/-- The class of the only type. -/
def target : ClassHandle := ⟨1, 0⟩

/-- What it says about properties when it is asked for the first time. -/
def firstAnswer : PropertyDef where
  name := "Size"
  type := .reference (.definition 1)
  getter := some "get_size"

/-- What it says afterwards. -/
def secondAnswer : PropertyDef where
  name := "Size"
  type := .int32
  getter := some "get_Size"
  setter := some "set_Size"

/-- The metadata source. -/
def source (j : Journal) : Source :=
  { Specimen.source "mscorlib" with
    methods := fun _ =>
      .ok [{ name := "get_size" }, { name := "get_Size" }, { name := "get_Size", result := .int32 }]
    properties := fun _ =>
      .ok [if j.countP (·.asksFor .properties target) = 1 then firstAnswer else secondAnswer] }

/-- The resolver that finds the source under every name. -/
def resolver : Resolver :=
  { Specimen.resolver with source := fun j _ => source j }

/-- What the host is started with. -/
def setup : Setup :=
  { Specimen.setup with resolver := some resolver }

/-- The host when it has been asked for the properties, to no avail. -/
def failed : Host :=
  setup.after (.properties target) setup.firstHost

/-- The host when it has been asked for the properties again. -/
def host : Host :=
  setup.after (.properties target) failed

/-- The record of the class. -/
def record : Class :=
  (host.cls? target).getD default

lemma start_eq : setup.start 1 = (.ok setup.firstHost, 2) := by decide +kernel

lemma reachedFrom_host : ReachedFrom (·.resolver = resolver) setup.firstHost [] host := by
  have hfirst : ReachedFrom (·.resolver = resolver) setup.firstHost [] failed :=
    Setup.reachedFrom_after (s := setup) (by rfl) .here (by decide +kernel)
  exact Setup.reachedFrom_after (s := setup) (by rfl) hfirst (by decide +kernel)

lemma record_eq : host.cls target = .ok record := by decide +kernel

end FickleSpecimen

open FickleSpecimen in
/-- The getter is the second of the three methods, as the second answer demands, and there is no
setter. -/
theorem accessors_shared_fickle :
    setup.start 1 = (.ok setup.firstHost, 2) ∧
    ReachedFrom (·.resolver = resolver) setup.firstHost [] FickleSpecimen.host ∧
    FickleSpecimen.host.cls target = .ok record ∧
    ∃ m p ms, FickleSpecimen.host.Told resolver target record .properties m [secondAnswer] ∧
      record.properties = .known [p] ∧ record.methods = .known ms ∧ ms.length = 3 ∧
      p.getter = ms[1]? ∧ record.Shares (some "get_Size") p.getter ∧
      p.setter = none ∧ record.Shares (some "set_Size") p.setter := by
  refine ⟨start_eq, reachedFrom_host, record_eq, ?_⟩
  obtain ⟨p, hps, hgetter, hsetter⟩ : ∃ p, record.properties = .known [p] ∧
      p.getter = record.methods.items[1]? ∧ p.setter = none :=
    ⟨record.properties.items.getD 0 default, by decide +kernel⟩
  have hms : record.methods = .known record.methods.items ∧ record.methods.items.length = 3 := by
    decide +kernel
  have hlast : (FickleSpecimen.host.journal.whenAsked .properties target).countP
      (·.asksFor .properties target) = 2 := by decide +kernel
  obtain ⟨w, m, defs, hw, htold, hall, -⟩ :=
    (accessors_shared start_eq reachedFrom_host .refl record_eq).1 _ hps
  rw [hw] at htold
  -- the answer that counts is the one to the second question
  obtain rfl : [secondAnswer] = defs := by
    have hanswer : (Except.ok [if (FickleSpecimen.host.journal.whenAsked .properties target).countP
        (·.asksFor .properties target) = 1 then firstAnswer else secondAnswer] :
          Except Error (List PropertyDef)) = .ok defs := htold.answer
    rw [hlast] at hanswer
    exact Except.ok.inj hanswer
  obtain ⟨⟨hget, hset⟩, -⟩ := List.forall₂_cons.mp hall
  exact ⟨m, p, _, htold, hps, hms.1, hms.2, hgetter, hget, hsetter, hset⟩

end ManagedHost
