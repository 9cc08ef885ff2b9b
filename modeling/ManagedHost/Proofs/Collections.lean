/-
# Collections of members are derived once, and as a whole

The members of a class are asked for in six kinds.  A request that finds the collection unknown
asks the source of the class, builds the members from the answer, and enters them all at once; a
request that finds it known answers from the record.  So whatever the sources say in the course of
time, there are two states only: as long as derivations fail, every request starts anew, and from
the first success on, every request gives the same members and the source is left alone.

What makes this true in the middle of other things is that building the members of one kind never
enters, nor asks about, members of the same kind (`Op.Builds`), and that everything else a run does
to a record keeps the facets that are known (`Host.Later.cls`).
-/
import ManagedHost.Proofs.LoadHistory

namespace ManagedHost

open Op

/-! ## Counting questions -/

/-- How often a question was put to sources for the sake of a class. -/
def Journal.timesAskedFor (j : Journal) (query : Query) (c : ClassHandle) : Nat :=
  j.countP (·.asksFor query c)

namespace Host

variable {w : World} {K : List Facet} {p : Facet} {query : Query} {c : ClassHandle} {r : Class}
  {h h' : Host}

lemma Unasked.timesAskedFor_eq (hu : h.Unasked query c h') :
    h'.journal.timesAskedFor query c = h.journal.timesAskedFor query c := by
  obtain ⟨new, hj, hnew⟩ := hu
  have hzero : Journal.timesAskedFor new query c = 0 := 
    List.countP_eq_zero.mpr fun e he => by simp [hnew e he]
  rw [hj, Journal.timesAskedFor, List.countP_append]
  exact (congrArg (· + _) hzero).trans (Nat.zero_add _)

/-- Once a facet of a class is known, sources are not asked about it any more. -/
lemma Later.timesAskedFor_eq {W : World → Prop} (hl : h.Later W h') (hq : p.query? = some query)
    (hr : h.cls c = .ok r) (hk : ¬p.Unknown r) :
    h'.journal.timesAskedFor query c = h.journal.timesAskedFor query c := by
  induction hl with
  | refl => rfl
  | tail hsteps hstep ih =>
    obtain ⟨w, -, hstep⟩ := hstep
    obtain ⟨r₁, hr₁, ha₁⟩ := Later.cls hsteps hr
    have hk₁ : ¬p.Unknown r₁ := fun hu => hk ((ha₁ p hk).unknown hu)
    exact (hstep.unasked hq hr₁ hk₁).timesAskedFor_eq.trans ih

end Host

/-! ## Requests for a collection -/

section Requests

variable {δ α : Type} {w : World} {K : List Facet} {p : Facet} {query : Query} {c : ClassHandle}
  {r : Class} {m : Module} {h h₁ : Host} {items : List α} {get : Class → Members α}
  {x : Op (List α)}

/-- The outcomes of a request that finds the collection unknown: the source is asked first, and
only steps that leave the facet alone come between the question and the end of the request, or the
point where all members are entered. -/
lemma collect_unknown_cases {k : Collection δ α} {classesOf : α → List ClassHandle}
    {Describes : Resolver → Host → ClassHandle → Module → δ → α → Prop}
    {build : Class → Module → List δ → Op (List α)}
    (hb : Builds w K c classesOf Describes build) (hw : h.Wellformed) (hr : h.cls c = .ok r)
    (hm : h.module r.module = .ok m) (hu : k.get r = .unknown) :
    (∃ e h₁, (h.note (.asked m.source k.query r.row (some c))).Learns w K h₁ ∧
      collect k c build w h = (.error (.failed e), h₁)) ∨
    (∃ items h₁, (h.note (.asked m.source k.query r.row (some c))).Learns w K h₁ ∧
      collect k c build w h =
        (.ok items, h₁.modifyClass c (k.set · (.known items)))) ∨
    ∃ h₁, collect k c build w h = (.error .lost, h₁) := by
  set h₀ := h.note (.asked m.source k.query r.row (some c)) with hh₀
  have hrun : collect k c build w h =
      ((ask m.source k.query r.row (some c) k.answer >>= build r m) >>= fun items => do
        modify (·.modifyClass c (k.set · (.known items)))
        return items) w h := by
    rw [collect, bind_run_ok (cls_run hr), hu, bind_assoc]
    exact bind_run_ok (module_run hm)
  have hask : ask m.source k.query r.row (some c) k.answer w h =
      ofExcept (k.answer (w.source h₀.journal m.source) r.row) w h₀ := rfl
  rw [hrun]
  rcases hanswer : k.answer (w.source h₀.journal m.source) r.row with e | defs
  · -- the source fails
    rw [hanswer] at hask
    refine .inl ⟨e, h₀, .refl, ?_⟩
    exact bind_run_error (bind_run_error hask)
  · rw [hanswer] at hask
    have hbuild := hb h₀ r m defs (hw.note _) (Host.has_iff_cls.mpr ⟨r, hr⟩)
      ((hw.note _).has_of_mention (r := r) hr List.mem_cons_self) fun y hy => hw.has_of_mem hm hy
    rcases hend : build r m defs w h₀ with ⟨(e | _) | items, h₁⟩
    · refine .inl ⟨e, h₁, hbuild.of_failed hend, ?_⟩
      exact bind_run_error ((bind_run_ok hask).trans hend)
    · exact .inr (.inr ⟨h₁, bind_run_error ((bind_run_ok hask).trans hend)⟩)
    · refine .inr (.inl ⟨items, h₁, (hbuild.of_ok hend).1, ?_⟩)
      exact bind_run_ok ((bind_run_ok hask).trans hend)

/-- An operation collects members of a class that are the facet `p` of its record. -/
def Collects (c : ClassHandle) (p : Facet) (get : Class → Members α) (x : Op (List α)) : Prop :=
  ∃ (δ : Type) (k : Collection δ α) (K : List Facet) (classesOf : α → List ClassHandle)
    (Describes : Resolver → Host → ClassHandle → Module → δ → α → Prop)
    (build : Class → Module → List δ → Op (List α)),
    x = collect k c build ∧ get = k.get ∧ k.Holds p classesOf Describes ∧ p ∉ K ∧
      ∀ w, Builds w K c classesOf Describes build

namespace Collects

/-- A collection that is known is the answer. -/
lemma run_known (hx : Collects c p get x) (hr : h.cls c = .ok r) (hk : get r = .known items) :
    x w h = (.ok items, h) := by
  obtain ⟨δ, k, K, classesOf, Describes, build, rfl, rfl, -⟩ := hx
  rw [collect, bind_run_ok (cls_run hr), hk]
  rfl

lemma unknown_iff (hx : Collects c p get x) : p.Unknown r ↔ get r = .unknown := by
  obtain ⟨δ, k, K, classesOf, Describes, build, -, rfl, hholds, -⟩ := hx
  exact hholds.unknown_iff

lemma get_eq (hx : Collects c p get x) {r' : Class} (ha : p.Agrees r r') : get r' = get r := by
  obtain ⟨δ, k, K, classesOf, Describes, build, -, rfl, hholds, -⟩ := hx
  exact hholds.get_eq r r' ha

lemma obeys_learns (hx : Collects c p get x) (hw : h.Wellformed) :
    ∃ K, x.Obeys w (Host.Learns w K) h fun items h' =>
      ∃ r, h'.cls c = .ok r ∧ get r = .known items := by
  obtain ⟨δ, k, K, classesOf, Describes, build, rfl, rfl, hholds, hp, hb⟩ := hx
  exact ⟨p :: K, (collect_obeys hholds hp (hb w) hw).post fun _ _ _ hq => hq.2⟩

/-- What a request answers is kept. -/
lemma known_of_ok (hx : Collects c p get x) (hw : h.Wellformed)
    (hrun : x w h = (.ok items, h₁)) : ∃ r, h₁.cls c = .ok r ∧ get r = .known items := by
  obtain ⟨K, hobeys⟩ := hx.obeys_learns (w := w) hw
  exact (hobeys.of_ok hrun).2

/-- A request that fails leaves the collection unknown. -/
lemma unknown_of_failed (hx : Collects c p get x) (hw : h.Wellformed) (hr : h.cls c = .ok r)
    {e : Error} (hrun : x w h = (.error (.failed e), h₁)) :
    ∃ r₁, h₁.cls c = .ok r₁ ∧ get r₁ = .unknown := by
  obtain ⟨m, hm⟩ := hw.module_of_cls hr
  have hu : get r = .unknown := by
    rcases hget : get r with _ | items
    · rfl
    · rw [hx.run_known hr hget] at hrun
      cases hrun
  obtain ⟨δ, k, K, classesOf, Describes, build, rfl, rfl, hholds, hp, hb⟩ := hx
  rcases collect_unknown_cases (hb w) hw hr hm hu with
    ⟨e', h', hl, hrun'⟩ | ⟨items, h', -, hrun'⟩ | ⟨h', hrun'⟩
  · rw [hrun] at hrun'
    cases hrun'
    obtain ⟨r₁, hr₁, -, ha⟩ := hl.cls hr
    exact ⟨r₁, hr₁, (hholds.get_eq r r₁ (ha p fun hmem => absurd hmem hp)).trans hu⟩
  · rw [hrun] at hrun'
    cases hrun'
  · rw [hrun] at hrun'
    cases hrun'

/-- A request that finds the collection unknown asks the source, before anything else and only
once. -/
lemma asks_of_unknown (hx : Collects c p get x) (hq : p.query? = some query) (hw : h.Wellformed)
    (hr : h.cls c = .ok r) (hu : get r = .unknown) {answer : Except Stop (List α)}
    (hrun : x w h = (answer, h₁)) (hl : answer ≠ .error .lost) :
    ∃ m, h.module r.module = .ok m ∧
      (.asked m.source query r.row (some c) :: h.journal) <:+ h₁.journal ∧
      h₁.journal.timesAskedFor query c = h.journal.timesAskedFor query c + 1 := by
  obtain ⟨m, hm⟩ := hw.module_of_cls hr
  obtain ⟨δ, k, K, classesOf, Describes, build, rfl, rfl, hholds, hp, hb⟩ := hx
  obtain rfl : query = k.query := Option.some.inj (hq.symm.trans hholds.query?_eq)
  refine ⟨m, hm, ?_⟩
  set h₀ := h.note (.asked m.source k.query r.row (some c)) with hh₀
  have hone : h₀.journal.timesAskedFor k.query c = h.journal.timesAskedFor k.query c + 1 :=
    List.countP_cons_of_pos (by simp [JournalEntry.asksFor])
  have hjournal : ∀ g, h₀.Learns w K g → h₀.journal <:+ g.journal ∧
      g.journal.timesAskedFor k.query c = h.journal.timesAskedFor k.query c + 1 :=
    fun g hg => ⟨hg.journal_suffix, (hg.unasked hq hp).timesAskedFor_eq.trans hone⟩
  rcases collect_unknown_cases (hb w) hw hr hm hu with
    ⟨e, h', hlearn, hrun'⟩ | ⟨items, h', hlearn, hrun'⟩ | ⟨h', hrun'⟩
  · rw [hrun] at hrun'
    cases hrun'
    exact hjournal h₁ hlearn
  · rw [hrun] at hrun'
    cases hrun'
    rw [Host.journal_modifyClass]
    exact hjournal h' hlearn
  · rw [hrun] at hrun'
    cases hrun'
    exact absurd rfl hl

end Collects

end Requests

/-! ## The six kinds -/

/-- The kinds of members. -/
inductive Kind where
  | interfaces
  | nested
  | methods
  | fields
  | properties
  | events
deriving Repr, DecidableEq

namespace Kind

/-- What the members of a kind are. -/
abbrev Item : Kind → Type
  | interfaces => ClassHandle
  | nested => ClassHandle
  | methods => Method
  | fields => Field
  | properties => Property
  | events => Event

/-- The question that is put to a source about members of a kind. -/
def query : Kind → Query
  | interfaces => .interfaces
  | nested => .nested
  | methods => .methods
  | fields => .fields
  | properties => .properties
  | events => .events

/-- The members of a kind in a record. -/
def members : (k : Kind) → Class → Members k.Item
  | interfaces => (·.interfaces)
  | nested => (·.nested)
  | methods => (·.methods)
  | fields => (·.fields)
  | properties => (·.properties)
  | events => (·.events)

/-- The request for the members of a kind of a class. -/
def request : (k : Kind) → ClassHandle → Op (List k.Item)
  | interfaces => Op.interfaces
  | nested => Op.nested
  | methods => Op.methods
  | fields => Op.fields
  | properties => Op.properties
  | events => Op.events

/-- The facet of a record that holds the members of a kind. -/
def facet : Kind → Facet
  | interfaces => .interfaces
  | nested => .nested
  | methods => .methods
  | fields => .fields
  | properties => .properties
  | events => .events

lemma query?_facet (k : Kind) : k.facet.query? = some k.query := by
  cases k <;> rfl

/-- The requests of all kinds are made in the same way. -/
lemma collects_request (k : Kind) (c : ClassHandle) :
    Collects c k.facet k.members (k.request c) := by
  cases k with
  | interfaces =>
    exact ⟨_, .interfaces, [], _, _, _, rfl, rfl, Collection.holds_interfaces, by simp,
      fun w => interfaces_builds w c⟩
  | nested =>
    exact ⟨_, .nested, [], _, _, _, rfl, rfl, Collection.holds_nested, by simp,
      fun w => nested_builds w c⟩
  | methods =>
    exact ⟨_, .methods, _, _, _, _, rfl, rfl, Collection.holds_methods, by simp [facet],
      fun w => methods_builds w c⟩
  | fields =>
    exact ⟨_, .fields, _, _, _, _, rfl, rfl, Collection.holds_fields, by simp [facet],
      fun w => fields_builds w c⟩
  | properties =>
    exact ⟨_, .properties, _, _, _, _, rfl, rfl, Collection.holds_properties, by simp [facet],
      fun w => properties_builds w c⟩
  | events =>
    exact ⟨_, .events, _, _, _, _, rfl, rfl, Collection.holds_events, by simp [facet],
      fun w => events_builds w c⟩

/-- The operations that look for a member of a class. -/
inductive Lookup (c : ClassHandle) : (k : Kind) → Op (Option k.Item) → Prop
  | methodNamed (name : String) (ignoreCase : Bool) :
      Lookup c methods (Op.methodNamed c name ignoreCase)
  | methodWithArity (name : String) (arity : Nat) :
      Lookup c methods (Op.methodWithArity c name arity)
  | typeInitializer : Lookup c methods (Op.typeInitializer c)
  | fieldNamed (name : String) (ignoreCase : Bool) :
      Lookup c fields (Op.fieldNamed c name ignoreCase)
  | propertyNamed (name : String) (ignoreCase : Bool) :
      Lookup c properties (Op.propertyNamed c name ignoreCase)
  | eventNamed (name : String) (ignoreCase : Bool) :
      Lookup c events (Op.eventNamed c name ignoreCase)

/-- A member is looked for among what the request of its kind answers. -/
lemma Lookup.exists_eq {c : ClassHandle} {k : Kind} {x : Op (Option k.Item)} (hx : Lookup c k x) :
    ∃ pred : k.Item → Bool, x = do return (← k.request c).find? pred := by
  cases hx <;> exact ⟨_, rfl⟩

variable {c : ClassHandle} {k : Kind} {x : Op (Option k.Item)} {w : World} {h h₁ : Host}

/-- A lookup fails when the request does. -/
lemma Lookup.run_error (hx : Lookup c k x) {s : Stop}
    (hrun : k.request c w h = (.error s, h₁)) : x w h = (.error s, h₁) := by
  obtain ⟨pred, rfl⟩ := hx.exists_eq
  exact bind_run_error hrun

/-- A lookup that answers has gone over the members of the class. -/
lemma Lookup.request_of_ok (hx : Lookup c k x) {found : Option k.Item}
    (hrun : x w h = (.ok found, h₁)) : ∃ items, k.request c w h = (.ok items, h₁) := by
  obtain ⟨pred, rfl⟩ := hx.exists_eq
  obtain ⟨items, h₂, hreq, hfind⟩ := bind_run_eq_ok hrun
  cases hfind
  exact ⟨items, hreq⟩

end Kind

namespace Host

/-- How many members of a kind a class has, as far as they are known. -/
def countOf (h : Host) (k : Kind) (c : ClassHandle) : Nat :=
  ((h.cls? c).map fun r => (k.members r).count).getD 0

lemma countOf_of_cls {h : Host} {k : Kind} {c : ClassHandle} {r : Class} (hr : h.cls c = .ok r) :
    h.countOf k c = (k.members r).count := by
  rw [countOf, cls?_eq_some_iff.mpr hr]
  rfl

end Host

/-! ## Requests in the course of a run -/

/-- A request for the members of a kind of a class, at any point of a run and whatever the source
says then and later:

* when it answers with a collection, then from there on every request answers with the same
  collection and changes nothing, the class has as many members of the kind as the collection, and
  no source is asked for them on behalf of the class;
* when it fails, the collection is unknown and counts no members; a lookup that follows fails with
  the error of the request it makes, and does not answer unless this request has succeeded; and the
  next request asks the source of the class before it does anything else, and asks it once. -/
theorem members_of_reached {fs : List Frame} {h : Host} (hr : Reached fs h) (k : Kind)
    {c : ClassHandle} (hc : h.Has c) (w : World) :
    (∀ items h₁, k.request c w h = (.ok items, h₁) → ∀ W h₂, h₁.Later W h₂ →
      (∀ w', k.request c w' h₂ = (.ok items, h₂)) ∧ h₂.countOf k c = items.length ∧
      h₂.journal.timesAskedFor k.query c = h₁.journal.timesAskedFor k.query c) ∧
    ∀ e h₁, k.request c w h = (.error (.failed e), h₁) →
      ∃ r, h₁.cls c = .ok r ∧ k.members r = .unknown ∧ h₁.countOf k c = 0 ∧
      ∀ w' : World,
        (∀ x, k.Lookup c x →
          (∀ e' h₂, k.request c w' h₁ = (.error (.failed e'), h₂) →
            x w' h₁ = (.error (.failed e'), h₂)) ∧
          (∀ h₂, x w' h₁ = (.ok none, h₂) → ∃ items, k.request c w' h₁ = (.ok items, h₂))) ∧
        ∀ answer h₂, k.request c w' h₁ = (answer, h₂) → answer ≠ .error .lost →
          ∃ m, h₁.module r.module = .ok m ∧
            (.asked m.source k.query r.row (some c) :: h₁.journal) <:+ h₂.journal ∧
            h₂.journal.timesAskedFor k.query c = h₁.journal.timesAskedFor k.query c + 1 := by
  have hw := hr.sound.settled.wellformed
  have hcollects := k.collects_request c
  have hquery := k.query?_facet
  refine ⟨fun items h₁ hrun W h₂ hlater => ?_, fun e h₁ hrun => ?_⟩
  · obtain ⟨r₁, hr₁, hget₁⟩ := hcollects.known_of_ok hw hrun
    have hknown : ¬k.facet.Unknown r₁ := by
      rw [hcollects.unknown_iff, hget₁]
      simp
    obtain ⟨r₂, hr₂, ha₂⟩ := hlater.cls hr₁
    have hget₂ : k.members r₂ = .known items := (hcollects.get_eq (ha₂ _ hknown)).trans hget₁
    refine ⟨fun w' => hcollects.run_known hr₂ hget₂, ?_, ?_⟩
    · rw [Host.countOf_of_cls hr₂, hget₂]
      rfl
    · exact hlater.timesAskedFor_eq hquery hr₁ hknown
  · obtain ⟨r, hcls⟩ := Host.has_iff_cls.mp hc
    obtain ⟨r₁, hr₁, hget₁⟩ := hcollects.unknown_of_failed hw hcls hrun
    obtain ⟨K, hobeys⟩ := hcollects.obeys_learns (w := w) hw
    have hw₁ := (hobeys.of_failed hrun).wellformed hw
    refine ⟨r₁, hr₁, hget₁, ?_, fun w' => ⟨fun x hx => ⟨?_, ?_⟩, fun answer h₂ hnext hlost => ?_⟩⟩
    · rw [Host.countOf_of_cls hr₁, hget₁]
      rfl
    · exact fun e' h₂ hfail => hx.run_error hfail
    · exact fun h₂ hnone => hx.request_of_ok hnone
    · exact hcollects.asks_of_unknown hquery hw₁ hr₁ hget₁ hnext hlost

namespace Specimen

/-- The host with `A` after a request for the methods of its type. -/
def methodsRun : Except Stop (List Method) × Host :=
  Op.methods ⟨1, 1⟩ setup.world hostWithA

/-- The host with `A` after a request for the fields of its type. -/
def fieldsRun : Except Stop (List Field) × Host :=
  Op.fields ⟨1, 1⟩ setup.world hostWithA

end Specimen

/-- The methods of the type of `A` stay what they are when `B` is loaded.  Its fields cannot be
derived, and the lookup of a field makes the host ask a second time. -/
theorem members_of_reached_specimen :
    (∃ items, Specimen.methodsRun.1 = .ok items ∧ items.map (·.name) = [".cctor", "run"] ∧
      ∃ h₂, Host.Performs (fun _ => True) Specimen.methodsRun.2 h₂ ∧ h₂.assemblies.length = 3 ∧
        ∀ w', Op.methods ⟨1, 1⟩ w' h₂ = (.ok items, h₂)) ∧
    ∃ e h₂, Specimen.fieldsRun.1 = .error (.failed e) ∧
      Specimen.fieldsRun.2.countOf .fields ⟨1, 1⟩ = 0 ∧
      Op.fieldNamed ⟨1, 1⟩ "f" false Specimen.setup.world Specimen.fieldsRun.2 =
        (.error (.failed e), h₂) ∧
      Specimen.fieldsRun.2.journal.timesAskedFor .fields ⟨1, 1⟩ = 1 ∧
      h₂.journal.timesAskedFor .fields ⟨1, 1⟩ = 2 := by
  have hr := Specimen.reached_hostWithA
  have hc : Specimen.hostWithA.Has ⟨1, 1⟩ := by constructor <;> decide +kernel
  constructor
  · have hnames : Specimen.methodsRun.1.toOption.map (·.map (·.name)) = some [".cctor", "run"] := by
      decide +kernel
    obtain ⟨items, hitems, hnames⟩ := Option.map_eq_some_iff.mp hnames
    have hok : Specimen.methodsRun.1 = .ok items := by
      rcases hrun : Specimen.methodsRun.1 with s | found
      · simp [hrun, Except.toOption] at hitems
      · simpa [hrun, Except.toOption] using hitems
    have hp : Host.Performs (fun _ => True) Specimen.methodsRun.2
        (Specimen.setup.after (.load "B") Specimen.methodsRun.2) :=
      ⟨Specimen.setup.world, 3, .load "B", trivial, by decide +kernel, rfl⟩
    have hw : Specimen.methodsRun.2.Wellformed :=
      Specimen.reached_hostWithMethods.sound.settled.wellformed
    obtain ⟨hsame, -⟩ := members_of_reached hr .methods hc Specimen.setup.world
    exact ⟨items, hok, hnames, _, hp, by decide +kernel,
      (hsame items _ (Prod.ext hok rfl) _ _ (Host.later_of_performs hw (.single hp))).1⟩
  · have hfail : Specimen.fieldsRun = (.error (.failed (.startup "")), Specimen.fieldsRun.2) :=
      Prod.ext (by decide +kernel) rfl
    have hagain : Op.fields ⟨1, 1⟩ Specimen.setup.world Specimen.fieldsRun.2 =
        (.error (.failed (.startup "")),
          (Op.fields ⟨1, 1⟩ Specimen.setup.world Specimen.fieldsRun.2).2) :=
      Prod.ext (by decide +kernel) rfl
    have honce : Specimen.fieldsRun.2.journal.timesAskedFor .fields ⟨1, 1⟩ = 1 := by
      decide +kernel
    obtain ⟨-, hanew⟩ := members_of_reached hr .fields hc Specimen.setup.world
    obtain ⟨r, -, -, hcount, hnext⟩ := hanew _ _ hfail
    obtain ⟨hlookup, hasks⟩ := hnext Specimen.setup.world
    obtain ⟨m, -, -, htwice⟩ := hasks _ _ hagain (by simp)
    exact ⟨_, _, congrArg Prod.fst hfail, hcount, (hlookup _ (.fieldNamed "f" false)).1 _ _ hagain,
      honce, htwice.trans (congrArg (· + 1) honce)⟩

end ManagedHost
