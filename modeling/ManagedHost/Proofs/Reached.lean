/-
# The points of a run

A run begins when a host is started, and goes on with one command after the other.  Commands hand
control to bodies, and bodies put commands to the host before they end, so that there are points
of a run at which calls are active.  `Reached fs h` says that a run can come to a point with state
`h` at which the calls `fs` are active, innermost first.  Nothing is assumed of the surroundings,
which may change from one command to the next.  `ReachedFrom W h₀ fs h` says the same of a run that
goes on from the host `h₀` in surroundings of which `W` holds.

What holds at every point is collected in `Sound`.  In particular the tables fit together there
(`wellformed_of_reached`).  `Op.invokeWith_congr` and `Op.runInitializerWith_congr` say that no
points are missing: the commands of bodies are put at points of the run.
-/
import ManagedHost.Proofs.Commands
import ManagedHost.Start

namespace ManagedHost

/-- A call that is active. -/
inductive Frame where
  /-- The body of a method is executing. -/
  | call (method : Method)
  /-- The initializer of a class has been started and has not ended. -/
  | initializer (target : ClassHandle)
deriving Repr, DecidableEq

/-- A run that goes on from the host `h₀`, in surroundings of which `W` holds, can come to a point
with these active calls and this state. -/
inductive ReachedFrom (W : World → Prop) (h₀ : Host) : List Frame → Host → Prop
  /-- Nothing has happened yet. -/
  | here : ReachedFrom W h₀ [] h₀
  /-- A command has been carried out, successfully or not. -/
  | performed {fs : List Frame} {h : Host} (hr : ReachedFrom W h₀ fs h) {w : World} (hW : W w)
      {depth : Nat} {c : Command} (hc : (Op.performWithin depth c w h).1 ≠ .error .lost) :
      ReachedFrom W h₀ fs (Op.performWithin depth c w h).2
  /-- The code that is executing has logged a line. -/
  | logged {fs : List Frame} {h : Host} (hr : ReachedFrom W h₀ fs h) {w : World} (hW : W w)
      (channel : Channel) (line : String) : ReachedFrom W h₀ fs (h.note (.logged channel line))
  /-- A method is called, and control has been handed to its body. -/
  | entered {fs : List Frame} {h h₁ : Host} (hr : ReachedFrom W h₀ fs h) {w : World} (hW : W w)
      {depth : Nat} {m : Method} {args result : Buffer}
      (hp : Op.prepare (Op.commands depth) m args result w h = (.ok (), h₁)) (route : Route) :
      ReachedFrom W h₀ (.call m :: fs) (h₁.note (.entered route m m.argSlots m.resultSlots))
  /-- The initializer of a class that nobody has asked for has been started. -/
  | initStarted {fs : List Frame} {h : Host} (hr : ReachedFrom W h₀ fs h) {w : World} (hW : W w)
      {c : ClassHandle} (hc : h.Has c) (hu : h.initOf c = .untouched) :
      ReachedFrom W h₀ (.initializer c :: fs) (h.startInit c)
  /-- Control has been handed to the body of the initializer. -/
  | initEntered {fs : List Frame} {h h₁ : Host} {c : ClassHandle}
      (hr : ReachedFrom W h₀ (.initializer c :: fs) h) {w : World} (hW : W w) {m : Method}
      (hm : Op.typeInitializer c w h = (.ok (some m), h₁)) (route : Route) :
      ReachedFrom W h₀ (.call m :: .initializer c :: fs) (h₁.note (.entered route m 0 0))

/-- A host can be started, and a run can go on from there to a point with these active calls and
this state. -/
def Reached (fs : List Frame) (h : Host) : Prop :=
  ∃ (s : Setup) (next rest : Nat) (h₀ : Host), s.start next = (.ok h₀, rest) ∧
    ReachedFrom (fun _ => True) h₀ fs h

namespace Reached

variable {fs : List Frame} {h h₁ : Host} {w : World} {depth : Nat} {c : ClassHandle} {m : Method}

lemma started {s : Setup} {next rest : Nat} (hs : s.start next = (.ok h, rest)) : Reached [] h :=
  ⟨s, next, rest, h, hs, .here⟩

lemma performed (hr : Reached fs h) {c : Command}
    (hc : (Op.performWithin depth c w h).1 ≠ .error .lost) :
    Reached fs (Op.performWithin depth c w h).2 := by
  obtain ⟨s, next, rest, h₀, hs, hr⟩ := hr
  exact ⟨s, next, rest, h₀, hs, hr.performed trivial hc⟩

lemma logged (hr : Reached fs h) (channel : Channel) (line : String) :
    Reached fs (h.note (.logged channel line)) := by
  obtain ⟨s, next, rest, h₀, hs, hr⟩ := hr
  exact ⟨s, next, rest, h₀, hs, hr.logged (w := default) trivial channel line⟩

lemma entered (hr : Reached fs h) {args result : Buffer}
    (hp : Op.prepare (Op.commands depth) m args result w h = (.ok (), h₁)) (route : Route) :
    Reached (.call m :: fs) (h₁.note (.entered route m m.argSlots m.resultSlots)) := by
  obtain ⟨s, next, rest, h₀, hs, hr⟩ := hr
  exact ⟨s, next, rest, h₀, hs, hr.entered trivial hp route⟩

lemma initStarted (hr : Reached fs h) (hc : h.Has c) (hu : h.initOf c = .untouched) :
    Reached (.initializer c :: fs) (h.startInit c) := by
  obtain ⟨s, next, rest, h₀, hs, hr⟩ := hr
  exact ⟨s, next, rest, h₀, hs, hr.initStarted (w := default) trivial hc hu⟩

lemma initEntered (hr : Reached (.initializer c :: fs) h)
    (hm : Op.typeInitializer c w h = (.ok (some m), h₁)) (route : Route) :
    Reached (.call m :: .initializer c :: fs) (h₁.note (.entered route m 0 0)) := by
  obtain ⟨s, next, rest, h₀, hs, hr⟩ := hr
  exact ⟨s, next, rest, h₀, hs, hr.initEntered trivial hm route⟩

end Reached

/-- The points of a run in certain surroundings are points of a run. -/
lemma ReachedFrom.reached {W : World → Prop} {fs : List Frame} {h₀ h : Host} {s : Setup}
    {next rest : Nat} (hr : ReachedFrom W h₀ fs h) (hs : s.start next = (.ok h₀, rest)) :
    Reached fs h := by
  induction hr with
  | here => exact .started hs
  | performed _ _ hc ih => exact ih.performed hc
  | logged _ _ channel line ih => exact ih.logged channel line
  | entered _ _ hp route ih => exact ih.entered hp route
  | initStarted _ _ hc hu ih => exact ih.initStarted hc hu
  | initEntered _ _ hm route ih => exact ih.initEntered hm route

namespace Host

variable {w : World} {h h' : Host}

/-! ## One assembly for each request -/

/-- Every assembly was asked for under a name, and no two under the same. -/
structure Requested (h : Host) : Prop where
  request : ∀ i < h.assemblies.length, ∃ name, h.requestOf ⟨h.id, i⟩ = some name
  distinct : ∀ i j, i < j → j < h.assemblies.length →
    h.requestOf ⟨h.id, i⟩ ≠ h.requestOf ⟨h.id, j⟩

/-- Assemblies that were asked for under the same name are the same. -/
lemma Requested.eq_of_requestOf_eq (hr : h.Requested) {i j : Nat} (hi : i < h.assemblies.length)
    (hj : j < h.assemblies.length) (heq : h.requestOf ⟨h.id, i⟩ = h.requestOf ⟨h.id, j⟩) :
    i = j := by
  rcases Nat.lt_trichotomy i j with hij | hij | hij
  · exact absurd heq (hr.distinct i j hij hj)
  · exact hij
  · exact absurd heq.symm (hr.distinct j i hij hi)

lemma Requested.of_loads (hr : h.Requested) (hl : h.Loads w h') : h'.Requested := by
  have hid := hl.toExtends.id_eq
  have hold : ∀ i < h.assemblies.length, h'.requestOf ⟨h.id, i⟩ = h.requestOf ⟨h.id, i⟩ :=
    fun i hi => requestOf_of_loadChanges hl.changes hi
  refine ⟨fun i hi => ?_, fun i j hij hj => ?_⟩
  · rw [hid]
    rcases Nat.lt_or_ge i h.assemblies.length with hlt | hge
    · rw [hold i hlt]
      exact hr.request i hlt
    · obtain ⟨name, hname, -⟩ := hl.requests i hge hi
      exact ⟨name, hname⟩
  · rw [hid]
    rcases Nat.lt_or_ge j h.assemblies.length with hlt | hge
    · rw [hold i (hij.trans hlt), hold j hlt]
      exact hr.distinct i j hij hlt
    · rcases Nat.lt_or_ge i h.assemblies.length with hlt' | hge'
      · -- a name that was asked for before is known and not asked for again
        obtain ⟨name, hname⟩ := hr.request i hlt'
        obtain ⟨name', hname', -, hnone, -⟩ := hl.requests j hge hj
        rw [hold i hlt', hname, hname']
        rintro ⟨⟩
        exact findAssembly_ne_none_of_requestOf hname hnone
      · exact hl.distinct i j hge' hij hj

lemma requestOf_of_sameNames (hs : h.SameNames h') (a : AssemblyHandle) :
    h'.requestOf a = h.requestOf a := by
  rw [requestOf, requestOf, hs.names_eq]

lemma Requested.of_sameNames (hr : h.Requested) (hs : h.SameNames h') : h'.Requested := by
  have hreq := requestOf_of_sameNames hs
  constructor
  · rw [hs.assemblies_eq, hs.id_eq]
    simpa only [hreq] using hr.request
  · rw [hs.assemblies_eq, hs.id_eq]
    simpa only [hreq] using hr.distinct

/-! ## What running code keeps -/

/-- What holds of a host between loads. -/
structure Settled (h : Host) : Prop where
  wellformed : h.Wellformed
  recorded : h.Recorded
  requested : h.Requested
  /-- No load is under way. -/
  pending_eq : h.pending = []

lemma Settled.of_sameNames (hs : h.Settled) (hw : h'.Wellformed) (hr : h'.Recorded)
    (hn : h.SameNames h') : h'.Settled :=
  ⟨hw, hr, hs.requested.of_sameNames hn, hn.pending_eq.trans hs.pending_eq⟩

lemma RunChange.settled (hc : RunChange w h h') (hs : h.Settled) : h'.Settled := by
  have hw := hc.wellformed hs.wellformed
  have hr := hc.recorded hs.recorded
  rcases hc.loads_or_sameNames with hl | hn
  · exact ⟨hw, hr, hs.requested.of_loads hl, hl.toExtends.pending_eq.trans hs.pending_eq⟩
  · exact hs.of_sameNames hw hr hn

lemma Completes.settled (hc : h.Completes w h') (hs : h.Settled) : h'.Settled :=
  hc.preserves (fun _ _ hstep hg => hstep.settled hg) hs

lemma settled_blank (id : Nat) (config : Config) : (blank id config).Settled := by
  have hinit : ∀ c, (blank id config).initOf c = .untouched := fun c =>
    initOf_of_not_has fun hc => absurd hc.2 (by simp [blank])
  refine ⟨wellformed_blank id config, ⟨fun c => ?_, ?_, ?_⟩, ⟨?_, ?_⟩, rfl⟩
  · rw [hinit]
    simp [blank]
  all_goals simp [blank]

lemma Settled.setCorlib (hs : h.Settled) (m : Option ModuleHandle) :
    { h with corlib := m }.Settled where
  wellformed := hs.wellformed.congr rfl rfl rfl rfl rfl
  recorded := ⟨hs.recorded.started, hs.recorded.once, hs.recorded.ended⟩
  requested := ⟨hs.requested.request, hs.requested.distinct⟩
  pending_eq := hs.pending_eq

end Host

/-! ## What holds at every point -/

/-- The host is settled, and the initializers that are running are those of the active calls. -/
structure Sound (fs : List Frame) (h : Host) : Prop where
  settled : h.Settled
  running : ∀ c t, h.initOf c = .running t ↔ t = workingThread ∧ .initializer c ∈ fs

namespace Sound

variable {w : World} {fs : List Frame} {h h' : Host}

lemma completes (hs : Sound fs h) (hc : h.Completes w h') : Sound fs h' :=
  ⟨hc.settled hs.settled, fun c t => (hc.running c t).trans (hs.running c t)⟩

lemma note (hs : Sound fs h) {e : JournalEntry} (he : ¬e.IsInit) : Sound fs (h.note e) :=
  ⟨hs.settled.of_sameNames (hs.settled.wellformed.note e) (hs.settled.recorded.of_quiet (.note he))
    ⟨rfl, rfl, rfl, rfl, rfl, rfl⟩, hs.running⟩

lemma call (hs : Sound fs h) (m : Method) : Sound (.call m :: fs) h :=
  ⟨hs.settled, fun c t => by simpa using hs.running c t⟩

lemma startInit (hs : Sound fs h) {c : ClassHandle} (hc : h.Has c)
    (hu : h.initOf c = .untouched) : Sound (.initializer c :: fs) (h.startInit c) := by
  obtain ⟨hi, ha, hn, hp, hm, hconfig⟩ := Host.sameNames_modifyClass (h := h) c _
  refine ⟨hs.settled.of_sameNames ((hs.settled.wellformed.setInit c _).note _)
    (hs.settled.recorded.of_started hc hu) ⟨hi, ha, hn, hp, hm, hconfig⟩, fun x t => ?_⟩
  rw [Host.initOf_startInit hc]
  by_cases hx : x = c
  · subst hx
    simp [eq_comm]
  · rw [if_neg hx, hs.running]
    simp [hx]

end Sound

/-- A host that was started has loaded its core library and nothing else has happened. -/
lemma Op.boot_run_eq_ok {w : World} {h h' : Host} (hrun : Op.boot w h = (.ok (), h')) :
    ∃ a h₁ record, Op.load h.config.corlib w h = (.ok a, h₁) ∧ h₁.assembly a = .ok record ∧
      h' = { h₁ with corlib := some record.module } := by
  obtain ⟨h₀, g₀, h0, hrun⟩ := Op.bind_run_eq_ok hrun
  cases h0
  obtain ⟨answer, h₁, hload, hrun⟩ := Op.bind_run_eq_ok hrun
  cases answer with
  | error e => simp [Op.fail] at hrun
  | ok a =>
    obtain ⟨record, h₂, hrec, hset⟩ := Op.bind_run_eq_ok hrun
    obtain ⟨-, rfl, hrecord⟩ := (Op.obeys_assembly (w := w) (h := h₁) (R := Eq) a).of_ok hrec
    cases hset
    exact ⟨a, h₂, record, Op.attempt_run_eq_ok hload, hrecord, rfl⟩

lemma start_eq_ok {s : Setup} {next rest : Nat} {h : Host} (hs : s.start next = (.ok h, rest)) :
    ∃ w a h₁ record, s.world? = some w ∧
      Op.load s.config.corlib w (.blank next s.config) = (.ok a, h₁) ∧
      h₁.assembly a = .ok record ∧ h = { h₁ with corlib := some record.module } := by
  unfold Setup.start at hs
  split at hs
  · cases hs
  rename_i w hw
  split at hs
  swap
  · cases hs
  rename_i h₀ hboot
  cases hs
  obtain ⟨a, h₁, record, hload, hrecord, rfl⟩ := Op.boot_run_eq_ok hboot
  exact ⟨w, a, h₁, record, hw, hload, hrecord, rfl⟩

lemma sound_start {s : Setup} {next rest : Nat} {h : Host} (hs : s.start next = (.ok h, rest)) :
    Sound [] h := by
  obtain ⟨w, a, h₁, record, -, hload, -, rfl⟩ := start_eq_ok hs
  have hblank := Host.settled_blank next s.config
  have hloads := ((Op.isLoader_load w _ _ hblank.wellformed).of_ok hload).1
  have hc := (hloads.learns (K := [])).completes
  refine ⟨(hc.settled hblank).setCorlib _, fun c t => ?_⟩
  -- nothing is running in a blank host, and loading does not change that
  change h₁.initOf c = _ ↔ _
  rw [hc.running, Host.initOf_of_not_has fun hc => absurd hc.2 (by simp [Host.blank])]
  simp

namespace ReachedFrom

variable {W : World → Prop} {h₀ h : Host} {fs : List Frame}

/-- Every point of a run is sound: each way to come to a point leads from sound points to sound
points. -/
lemma sound (hr : ReachedFrom W h₀ fs h) (h0 : Sound [] h₀) : Sound fs h := by
  induction hr with
  | here => exact h0
  | @performed fs h _ w _ depth c hc ih =>
    exact ih.completes ((Op.performWithin_obeys w depth c h ih.settled.wellformed).rel hc)
  | logged _ _ channel line ih => exact ih.note fun hi => hi
  | @entered fs h h₁ _ w _ depth m args result hp route ih =>
    have hprep := Op.prepare_obeys (Op.isHandler_commands w depth) m args result
      ih.settled.wellformed
    have hs := ih.completes (hprep.of_ok hp).1
    exact (hs.note (e := .entered route m _ _) fun hi => hi).call m
  | initStarted _ _ hc hu ih => exact ih.startInit hc hu
  | @initEntered fs h h₁ c _ w _ m hm route ih =>
    have hfind := (Op.typeInitializer_obeys (w := w) c ih.settled.wellformed).of_ok hm
    have hs := ih.completes hfind.1.completes
    exact (hs.note (e := .entered route m 0 0) fun hi => hi).call m

/-- Every point of a run comes later than its beginning. -/
lemma later (hr : ReachedFrom W h₀ fs h) (h0 : Sound [] h₀) : h₀.Later W h := by
  induction hr with
  | here => exact .refl
  | @performed fs h hr w hW depth c hc ih =>
    exact ih.trans (Op.later_of_performWithin (hr.sound h0).settled.wellformed hW hc)
  | @logged fs h _ w hW channel line ih => exact ih.tail ⟨w, hW, .logged h channel line⟩
  | @entered fs h h₁ hr w hW depth m args result hp route ih =>
    have hprep := Op.prepare_obeys (Op.isHandler_commands w depth) m args result
      (hr.sound h0).settled.wellformed
    have hl₁ := ih.trans ((hprep.of_ok hp).1.later hW)
    exact hl₁.tail ⟨w, hW, .entered h₁ route m _ _⟩
  | @initStarted fs h _ w hW c hc hu ih => exact ih.tail ⟨w, hW, .initStarted hc hu⟩
  | @initEntered fs h h₁ c hr w hW m hm route ih =>
    have hfind := (Op.typeInitializer_obeys (w := w) c (hr.sound h0).settled.wellformed).of_ok hm
    have hl₁ := ih.trans (hfind.1.completes.later hW)
    exact hl₁.tail ⟨w, hW, .entered h₁ route m 0 0⟩

end ReachedFrom

lemma Reached.sound {fs : List Frame} {h : Host} (hr : Reached fs h) : Sound fs h := by
  obtain ⟨s, next, rest, h₀, hs, hr⟩ := hr
  exact hr.sound (sound_start hs)

lemma Reached.of_isOk {fs : List Frame} {h : Host} (hr : Reached fs h) {w : World} {depth : Nat}
    {c : Command} (hc : (Op.performWithin depth c w h).1.isOk) :
    Reached fs (Op.performWithin depth c w h).2 := by
  refine hr.performed fun hlost => ?_
  rw [hlost] at hc
  cases hc

/-- Every point of a run comes later than the start of the host. -/
lemma Reached.exists_start {fs : List Frame} {h : Host} (hr : Reached fs h) :
    ∃ (s : Setup) (next rest : Nat) (h₀ : Host), s.start next = (.ok h₀, rest) ∧
      h₀.Later (fun _ => True) h := by
  obtain ⟨s, next, rest, h₀, hs, hr⟩ := hr
  exact ⟨s, next, rest, h₀, hs, hr.later (sound_start hs)⟩

/-- What holds of a host before anything is loaded, and is kept by setting the core library and by
every step of running code, holds at every point of a run. -/
lemma Reached.invariant {P : Host → Prop} (hblank : ∀ id config, P (.blank id config))
    (hcorlib : ∀ h m, P h → P { h with corlib := m })
    (hstep : ∀ w g g', Host.RunChange w g g' → g.Wellformed → P g → P g') {fs : List Frame}
    {h : Host} (hr : Reached fs h) : P h := by
  have hrun : ∀ w g g', Host.RunChange w g g' → g.Wellformed ∧ P g → g'.Wellformed ∧ P g' :=
    fun w g g' hc hg => ⟨hc.wellformed hg.1, hstep w g g' hc hg.1 hg.2⟩
  obtain ⟨s, next, rest, h₀, hs, hl⟩ := hr.exists_start
  have hw₀ := (sound_start hs).settled.wellformed
  obtain ⟨w, a, h₁, record, -, hload, -, rfl⟩ := start_eq_ok hs
  have hwell := Host.wellformed_blank next s.config
  have hc := (((Op.isLoader_load w _ _ hwell).of_ok hload).1.learns (K := [])).completes
  have hp₀ := hcorlib h₁ (some record.module)
    (hc.preserves (hrun w) ⟨hwell, hblank next s.config⟩).2
  exact (hl.preserves (fun w _ => hrun w) ⟨hw₀, hp₀⟩).2

/-! ## Tables at every point of a run -/

/-- Whatever has been loaded, derived and run, and however the sources misreport, the tables of a
host fit together. -/
theorem wellformed_of_reached {fs : List Frame} {h : Host} (hr : Reached fs h) : h.Wellformed :=
  hr.sound.settled.wellformed

/-! ## The first host of a program -/

namespace Setup

/-- The surroundings of a host that is started. -/
def world (s : Setup) : World :=
  s.world?.getD default

/-- The first host that is started, unless that fails. -/
def firstHost (s : Setup) : Host :=
  match s.start 1 with
  | (.ok h, _) => h
  | _ => .blank 1 s.config

/-- A host after a command. -/
def after (s : Setup) (c : Command) (h : Host) : Host :=
  (Op.performWithin s.depth c s.world h).2

variable {s : Setup}

lemma start_eq (hs : (s.start 1).1.isOk) : s.start 1 = (.ok s.firstHost, (s.start 1).2) := by
  rcases hrun : s.start 1 with ⟨stop | h, rest⟩
  · rw [hrun] at hs
    cases hs
  · simp only [firstHost, hrun]

lemma reached_firstHost (hs : (s.start 1).1.isOk) : Reached [] s.firstHost :=
  .started (start_eq hs)

lemma reached_after {fs : List Frame} {h : Host} {c : Command} (hr : Reached fs h)
    (hc : (Op.performWithin s.depth c s.world h).1 ≠ .error .lost) : Reached fs (s.after c h) :=
  hr.performed hc

lemma reachedFrom_after {W : World → Prop} (hW : W s.world) {fs : List Frame} {h₀ h : Host}
    {c : Command} (hr : ReachedFrom W h₀ fs h)
    (hc : (Op.performWithin s.depth c s.world h).1 ≠ .error .lost) :
    ReachedFrom W h₀ fs (s.after c h) :=
  hr.performed hW hc

end Setup

/-! An example of a run, with sources of one or two types each: `B` reports the name of another
assembly, the second type of `C` inherits from a type that does not exist, and all type
initializers fail. -/

namespace Specimen

/-- The metadata source of an assembly. -/
def source (name : String) : Source :=
  { (default : Source) with
    moduleName := name
    assemblyName := if name = "B" then "A" else name
    typeCount := if name = "C" then 2 else 1
    typeDef := fun row => .ok {
      space := "N"
      name := "T"
      parent :=
        if name = "mscorlib" then none
        else if name = "C" then some (.external "A" "N" (if row = 0 then "T" else "U"))
        else some (.external "mscorlib" "N" "T") }
    methods := fun _ => .ok [.typeInitializer, { name := "run" }] }

/-- Every name is found. -/
def resolver : Resolver where
  resolve _ name := .ok { name }
  source _ id := source id.name

/-- What the host is started with. -/
def setup : Setup where
  config := .standard
  resolver := some resolver
  interpreter := some fun _ call =>
    .done (if call.method.isTypeInitializer then .failed (.invocation "broken") else .returned) []
  invoker _ _ _ := .done .returned []
  function _ _ _ := none
  disk := ⟨[], [], ""⟩
  exceptions := Error.toException
  depth := 3

lemma reached_firstHost : Reached [] setup.firstHost :=
  Setup.reached_firstHost (by decide +kernel)

/-- The host with the assembly `A`, whose type has been asked for its methods. -/
def hostWithMethods : Host :=
  setup.after (.methods ⟨1, 1⟩) (setup.after (.load "A") setup.firstHost)

lemma reached_hostWithMethods : Reached [] hostWithMethods := by
  have hload : Reached [] (setup.after (.load "A") setup.firstHost) :=
    Setup.reached_after reached_firstHost (by decide +kernel)
  exact Setup.reached_after hload (by decide +kernel)

end Specimen

theorem wellformed_of_reached_specimen :
    Reached [] Specimen.hostWithMethods ∧ Specimen.hostWithMethods.assemblies.length = 2 ∧
      (Specimen.hostWithMethods.classes.map (·.methods.count)) = [0, 2] ∧
      Specimen.hostWithMethods.Wellformed :=
  ⟨Specimen.reached_hostWithMethods, by decide +kernel, by decide +kernel,
    wellformed_of_reached Specimen.reached_hostWithMethods⟩

/-! ## Commands are put at points of the run -/

namespace Op

variable {w : World} {depth : Nat} {handle : Handler} {fs : List Frame} {h : Host}

/-- A handler carries out commands as the host does at all points of a run; elsewhere it may do
anything. -/
def AgreesWhenReached (w : World) (depth : Nat) (handle : Handler) : Prop :=
  ∀ c fs h, Reached fs h → handle c w h = commands depth c w h

lemma reached_of_commands (hr : Reached fs h) {c : Command} {reply : Except Error c.Reply}
    {h' : Host} (hrun : commands depth c w h = (.ok reply, h')) : Reached fs h' := by
  rw [commands, attempt] at hrun
  have hstep : (performWithin depth c w h).1 ≠ .error .lost → Reached fs _ := hr.performed
  rcases hp : performWithin depth c w h with ⟨(e | _) | a, h₁⟩ <;> rw [hp] at hrun hstep <;>
    cases hrun
  · exact hstep (by simp)
  · exact hstep (by simp)

lemma execute_congr (ha : AgreesWhenReached w depth handle) (body : Body) (hr : Reached fs h) :
    execute handle body w h = execute (commands depth) body w h := by
  induction body generalizing h with
  | done ending result => rfl
  | log channel line next ih => exact ih (hr.logged channel line)
  | inspect next ih => exact ih h hr
  | request command next ih =>
    exact bind_run_congr (ha command fs h hr) fun reply h' hrun =>
      ih reply (reached_of_commands hr hrun)
  | native f words next ih =>
    refine bind_run_congr rfl fun word h' hrun => ih word ?_
    have : IsPreorder Host fun g g' => Reached fs g → Reached fs g' :=
      { refl := fun _ => id, trans := fun _ _ _ h01 h12 => h12 ∘ h01 }
    exact ((callNative_obeys (R := fun g g' => Reached fs g → Reached fs g')
      (fun _ channel line hg => hg.logged channel line) f words).of_ok hrun).1 hr

lemma enter_congr (ha : AgreesWhenReached w depth handle) (route : Route) (call : Call)
    (body : World → Journal → Call → Body)
    (hr : Reached fs (h.note (.entered route call.method call.args.length call.result.length))) :
    enter handle route call body w h = enter (commands depth) route call body w h := by
  unfold enter
  iterate 3
    refine bind_run_congr rfl fun _ h' hrun => ?_
    cases hrun
  exact bind_run_congr (execute_congr ha _ hr) fun _ _ _ => rfl

/-- Control is handed over at a point of the run, so all that follows is the same. -/
lemma dispatch_congr (ha : AgreesWhenReached w depth handle) (m : Method) (args result : Buffer)
    (hr : ∀ route, Reached fs (h.note (.entered route m args.length result.length))) :
    dispatch handle m args result w h = dispatch (commands depth) m args result w h := by
  have hnative (kind : NativeKind) (name : String) :
      dispatchNative handle kind name m args result w h =
        dispatchNative (commands depth) kind name m args result w h := by
    refine bind_run_congr rfl fun g h' hrun => ?_
    cases hrun
    cases h.natives.resolve kind name m with
    | ok b => exact enter_congr ha _ _ _ (hr _)
    | error e => rfl
  refine bind_run_congr rfl fun g h' hrun => ?_
  cases hrun
  cases h.natives.intrinsic.find m.qualifiedName m with
  | some b => exact enter_congr ha _ _ _ (hr _)
  | none =>
    simp only [dispatchOwn]
    cases m.implementation with
    | managed =>
      refine bind_run_congr rfl fun g h' hrun => ?_
      cases hrun
      cases w.interpreter with
      | some run => exact enter_congr ha _ _ _ (hr _)
      | none => rfl
    | pinvoke _ entry => exact hnative _ _
    | internalCall => exact hnative _ _
    | intrinsic => exact hnative _ _
    | absent => rfl

lemma executeInitializer_congr (ha : AgreesWhenReached w depth handle) {c : ClassHandle}
    (hr : Reached (.initializer c :: fs) h) :
    executeInitializer handle c w h = executeInitializer (commands depth) c w h := by
  refine bind_run_congr rfl fun m h' hrun => ?_
  cases m with
  | none => rfl
  | some m =>
    exact bind_run_congr (dispatch_congr ha m [] [] fun route => hr.initEntered hrun route)
      fun _ _ _ => rfl

/-- An initializer that is asked for at a point of a run puts its commands at points of the
run. -/
theorem runInitializerWith_congr (ha : AgreesWhenReached w depth handle) (c : ClassHandle)
    (hr : Reached fs h) :
    runInitializerWith handle c w h = runInitializerWith (commands depth) c w h := by
  rcases hcls : h.cls c with e | r
  · exact (bind_run_error (cls_run_error hcls)).trans (bind_run_error (cls_run_error hcls)).symm
  cases hi : r.init with
  | untouched =>
    have hu : h.initOf c = .untouched := (Host.initOf_of_cls hcls).trans hi
    have hexec := executeInitializer_congr ha
      (hr.initStarted (Host.has_iff_cls.mpr ⟨r, hcls⟩) hu)
    rw [runInitializerWith_untouched hcls hi, runInitializerWith_untouched hcls hi, hexec]
  | running t =>
    by_cases ht : t = workingThread
    · subst ht
      rw [runInitializerWith_passed hcls (.inr hi), runInitializerWith_passed hcls (.inr hi)]
    · rw [runInitializerWith_other hcls hi ht, runInitializerWith_other hcls hi ht]
  | ready => rw [runInitializerWith_passed hcls (.inl hi), runInitializerWith_passed hcls (.inl hi)]
  | failed e => rw [runInitializerWith_failed hcls hi, runInitializerWith_failed hcls hi]

/-- A method that is called at a point of a run puts its commands at points of the run. -/
theorem invokeWith_congr (ha : AgreesWhenReached w depth handle) (m : Method)
    (args result : Buffer) (hr : Reached fs h) :
    invokeWith handle m args result w h = invokeWith (commands depth) m args result w h := by
  have hprep : prepare handle m args result w h = prepare (commands depth) m args result w h := by
    refine bind_run_congr rfl fun _ h' hrun => ?_
    have hsame := (checkCall_obeys (R := Eq) m args result).of_ok hrun
    obtain ⟨rfl, -⟩ := hsame
    split
    · rfl
    · exact runInitializerWith_congr ha m.owner hr
  rw [invokeWith_eq, invokeWith_eq]
  refine bind_run_congr (by rw [attempt, attempt, hprep]) fun ready h' hrun => ?_
  cases ready with
  | error e => rfl
  | ok _ =>
    have hready := attempt_run_eq_ok hrun
    obtain ⟨hargs, hresult⟩ := slots_of_prepare hready
    have hpoint (route : Route) : Reached (.call m :: fs) (h'.note (.entered route m
        (args.take m.argSlots).length (result.take m.resultSlots).length)) := by
      rw [hargs, hresult]
      exact hr.entered hready route
    exact bind_run_congr (dispatch_congr ha m _ _ hpoint) fun _ _ _ => rfl

end Op

end ManagedHost
