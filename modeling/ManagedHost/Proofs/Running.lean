/-
# What running code does to a host

Code that a host executes turns back to it with commands, and it may do so to any depth.  All
that can happen to the host on the way is a sequence of steps (`Host.RunChange`): reflection,
entries in the journal, registrations of native code, and the start and the end of type
initializers.  From the steps follows how the journal and the states of the initializers hang
together (`Host.Recorded`).

A command that has been carried out has in addition ended every initializer it started, and the
host can account for the slots of every body that was entered on the way (`Host.AccountsFor`).
`Host.Completes` is the relation between the states before and after such commands, and
`Host.Later` the one between any two states of a run.
-/
import ManagedHost.Invocation
import ManagedHost.Proofs.Reflection
import ManagedHost.Proofs.Registrations

namespace ManagedHost

/-- The state of an initializer that has ended, with the error if it failed. -/
def InitState.after : Option Error → InitState
  | none => .ready
  | some e => .failed e

/-- The journal notes the start or the end of an initializer. -/
def JournalEntry.IsInit : JournalEntry → Prop
  | .initStarted _ => True
  | .initEnded _ _ => True
  | _ => False

lemma JournalEntry.IsInquiry.not_isInit {e : JournalEntry} (he : e.IsInquiry) : ¬e.IsInit := by
  cases e <;> first | exact he.elim | exact id

namespace Host

variable {w : World} {h h₁ h' : Host}

/-! ## Setting the state of an initializer -/

/-- The host with the initializer of a class in another state. -/
def setInit (h : Host) (c : ClassHandle) (s : InitState) : Host :=
  h.modifyClass c ({ · with init := s })

lemma initOf_setInit {c : ClassHandle} (hc : h.Has c) (s : InitState) (x : ClassHandle) :
    (h.setInit c s).initOf x = if x = c then s else h.initOf x := by
  obtain ⟨r, hr⟩ := has_iff_cls.mp hc
  by_cases hx : x = c
  · subst hx
    rw [if_pos rfl]
    have hr' : (h.setInit x s).cls x = .ok { r with init := s } := by
      rw [setInit, cls_modifyClass, if_pos rfl, hr]
      rfl
    rw [initOf_of_cls hr']
  · rw [if_neg hx, initOf, initOf, cls?, cls?, setInit, cls_modifyClass, if_neg hx]

lemma Wellformed.setInit (hw : h.Wellformed) (c : ClassHandle) (s : InitState) :
    (h.setInit c s).Wellformed :=
  hw.modifyClass fun _ hr => ⟨rfl, rfl, rfl, fun _ hx => hw.has_of_mention hr hx⟩

lemma has_of_initOf {c : ClassHandle} (hc : h.initOf c ≠ .untouched) : h.Has c := by
  by_contra hno
  exact hc (initOf_of_not_has hno)

/-- The initializer of a class starts. -/
def startInit (h : Host) (c : ClassHandle) : Host :=
  (h.setInit c (.running workingThread)).note (.initStarted c)

/-- The initializer of a class ends, with an error if it failed. -/
def endInit (h : Host) (c : ClassHandle) (failure : Option Error) : Host :=
  (h.note (.initEnded c failure)).setInit c (.after failure)

lemma initOf_startInit {c : ClassHandle} (hc : h.Has c) (x : ClassHandle) :
    (h.startInit c).initOf x = if x = c then .running workingThread else h.initOf x :=
  initOf_setInit hc _ x

lemma initOf_endInit {c : ClassHandle} (hc : h.Has c) (failure : Option Error)
    (x : ClassHandle) :
    (h.endInit c failure).initOf x = if x = c then .after failure else h.initOf x :=
  initOf_setInit (h := h.note _) hc _ x

lemma journal_startInit (c : ClassHandle) :
    (h.startInit c).journal = .initStarted c :: h.journal :=
  congrArg _ (journal_modifyClass _ _)

lemma journal_endInit (c : ClassHandle) (failure : Option Error) :
    (h.endInit c failure).journal = .initEnded c failure :: h.journal :=
  journal_modifyClass _ _

/-! ## The steps -/

/-- One step of running code. -/
inductive RunChange (w : World) : Host → Host → Prop
  | learns {h h' : Host} {K : List Facet} (hl : LearnChange w K h h') : RunChange w h h'
  | logged (h : Host) (channel : Channel) (line : String) :
      RunChange w h (h.note (.logged channel line))
  | entered (h : Host) (route : Route) (m : Method) (args result : Nat) :
      RunChange w h (h.note (.entered route m args result))
  /-- The initializer of a class that nobody has asked for starts. -/
  | initStarted {h : Host} {c : ClassHandle} (hc : h.Has c) (hu : h.initOf c = .untouched) :
      RunChange w h (h.startInit c)
  /-- An initializer that is running ends. -/
  | initEnded {h : Host} {c : ClassHandle} (failure : Option Error)
      (hr : h.initOf c = .running workingThread) :
      RunChange w h (h.endInit c failure)
  | natives (h : Host) (r : Registration) : RunChange w h { h with natives := h.natives.record r }
  | libraries (h : Host) (ls : List (String × String)) : RunChange w h { h with libraries := ls }

lemma RunChange.wellformed (hc : RunChange w h h') (hw : h.Wellformed) : h'.Wellformed := by
  cases hc with
  | learns hl => exact hl.wellformed hw
  | logged => exact hw.note _
  | entered => exact hw.note _
  | initStarted => exact (hw.setInit _ _).note _
  | initEnded => exact (hw.note _).setInit _ _
  | natives => exact hw.congr rfl rfl rfl rfl rfl
  | libraries => exact hw.congr rfl rfl rfl rfl rfl

/-- Assemblies, their modules and their names are as they were, and so are the settings and the
loads under way. -/
structure SameNames (h h' : Host) : Prop where
  id_eq : h'.id = h.id
  assemblies_eq : h'.assemblies = h.assemblies
  names_eq : h'.names = h.names
  pending_eq : h'.pending = h.pending
  modules_eq : h'.modules = h.modules
  config_eq : h'.config = h.config

lemma sameNames_modifyClass (c : ClassHandle) (f : Class → Class) :
    h.SameNames (h.modifyClass c f) := by
  unfold modifyClass
  split <;> exact ⟨rfl, rfl, rfl, rfl, rfl, rfl⟩

/-- Assemblies and names change by loads only. -/
lemma RunChange.loads_or_sameNames (hc : RunChange w h h') : h.Loads w h' ∨ h.SameNames h' := by
  cases hc with
  | learns hl =>
    cases hl with
    | loads hl => exact .inl hl
    | asks => exact .inr ⟨rfl, rfl, rfl, rfl, rfl, rfl⟩
    | fills => exact .inr (sameNames_modifyClass _ _)
  | logged => exact .inr ⟨rfl, rfl, rfl, rfl, rfl, rfl⟩
  | entered => exact .inr ⟨rfl, rfl, rfl, rfl, rfl, rfl⟩
  | @initStarted c =>
    obtain ⟨hi, ha, hn, hp, hm, hc⟩ := sameNames_modifyClass (h := h) c _
    exact .inr ⟨hi, ha, hn, hp, hm, hc⟩
  | @initEnded c failure =>
    obtain ⟨hi, ha, hn, hp, hm, hc⟩ :=
      sameNames_modifyClass (h := h.note (.initEnded c failure)) c _
    exact .inr ⟨hi, ha, hn, hp, hm, hc⟩
  | natives => exact .inr ⟨rfl, rfl, rfl, rfl, rfl, rfl⟩
  | libraries => exact .inr ⟨rfl, rfl, rfl, rfl, rfl, rfl⟩

lemma Keeps.setInit (h : Host) (c : ClassHandle) (s : InitState) : h.Keeps (h.setInit c s) :=
  .modifyClass fun _ _ => rfl

lemma RunChange.keeps (hc : RunChange w h h') : h.Keeps h' := by
  cases hc with
  | learns hl => exact hl.keeps
  | logged => exact .note h _
  | entered => exact .note h _
  | initStarted => exact (Keeps.setInit h _ _).trans (.note _ _)
  | initEnded => exact (Keeps.note h _).trans (.setInit _ _ _)
  | natives => exact .of_eq rfl rfl rfl rfl rfl
  | libraries => exact .of_eq rfl rfl rfl rfl rfl

lemma cls_setInit {c x : ClassHandle} (s : InitState) {r : Class} (hr : h.cls x = .ok r) :
    ∃ r', (h.setInit c s).cls x = .ok r' ∧ ∀ q : Facet, q.Agrees r r' := by
  rw [setInit, cls_modifyClass]
  by_cases hx : x = c
  · subst hx
    rw [if_pos rfl, hr]
    exact ⟨_, rfl, fun q => by cases q <;> rfl⟩
  · rw [if_neg hx]
    exact ⟨r, hr, fun q => .rfl' q r⟩

/-- What is known of a class stays. -/
lemma RunChange.cls (hc : RunChange w h h') {c : ClassHandle} {r : Class} (hr : h.cls c = .ok r) :
    ∃ r', h'.cls c = .ok r' ∧ ∀ q : Facet, ¬q.Unknown r → q.Agrees r r' := by
  have hsame : ∀ g : Host, g.id = h.id → g.classes = h.classes →
      ∃ r', g.cls c = .ok r' ∧ ∀ q : Facet, ¬q.Unknown r → q.Agrees r r' := by
    intro g hid hcs
    refine ⟨r, ?_, fun q _ => .rfl' q r⟩
    rw [← hr, Host.cls, Host.cls, hid, hcs]
  cases hc with
  | learns hl =>
    obtain ⟨r', hr', -, ha⟩ := hl.cls hr
    exact ⟨r', hr', fun q hq => ha q fun _ => hq⟩
  | logged => exact hsame _ rfl rfl
  | entered => exact hsame _ rfl rfl
  | @initStarted c₀ =>
    obtain ⟨r', hr', ha⟩ := cls_setInit (c := c₀) (.running workingThread) hr
    exact ⟨r', hr', fun q _ => ha q⟩
  | @initEnded c₀ failure =>
    obtain ⟨r', hr', ha⟩ := cls_setInit (h := h.note (.initEnded c₀ failure)) (c := c₀)
      (.after failure) hr
    exact ⟨r', hr', fun q _ => ha q⟩
  | natives => exact hsame _ rfl rfl
  | libraries => exact hsame _ rfl rfl

lemma RunChange.remembers (hc : RunChange w h h') : h.Remembers h' :=
  ⟨hc.keeps, fun _ _ hr => hc.cls hr⟩

lemma cls_of_setInit {c x : ClassHandle} {s : InitState} {r' : Class}
    (hr' : (h.setInit c s).cls x = .ok r') :
    ∃ r, h.cls x = .ok r ∧ ∀ q : Facet, q.Agrees r r' := by
  have hx : h.Has x := has_modifyClass.mp (has_iff_cls.mpr ⟨r', hr'⟩)
  obtain ⟨r, hr⟩ := has_iff_cls.mp hx
  obtain ⟨r'', hr'', ha⟩ := cls_setInit (c := c) s hr
  rw [hr'] at hr''
  cases hr''
  exact ⟨r, hr, ha⟩

/-- What is known of a facet after a step was known before, or it has just been filled in. -/
lemma RunChange.facet (hc : RunChange w h h') {c : ClassHandle} {r' : Class}
    (hr' : h'.cls c = .ok r') (q : Facet) :
    q.Unknown r' ∨ (∃ r, h.cls c = .ok r ∧ q.Agrees r r') ∨
      ∃ r, h.cls c = .ok r ∧ q.Fills r r' ∧ h.Vouches w.resolver c r' q ∧
        h'.journal = h.journal := by
  cases hc with
  | learns hl => exact hl.facet hr' q
  | logged => exact .inr (.inl ⟨r', hr', .rfl' q r'⟩)
  | entered => exact .inr (.inl ⟨r', hr', .rfl' q r'⟩)
  | initStarted =>
    obtain ⟨r, hr, ha⟩ := cls_of_setInit (h := h) hr'
    exact .inr (.inl ⟨r, hr, ha q⟩)
  | @initEnded c₀ failure =>
    obtain ⟨r, hr, ha⟩ := cls_of_setInit (h := h.note (.initEnded c₀ failure)) hr'
    exact .inr (.inl ⟨r, hr, ha q⟩)
  | natives => exact .inr (.inl ⟨r', hr', .rfl' q r'⟩)
  | libraries => exact .inr (.inl ⟨r', hr', .rfl' q r'⟩)

/-- Sources are not asked about a facet that is known. -/
lemma RunChange.unasked (hc : RunChange w h h') {p : Facet} {query : Query}
    (hq : p.query? = some query) {c : ClassHandle} {r : Class} (hr : h.cls c = .ok r)
    (hk : ¬p.Unknown r) : h.Unasked query c h' := by
  cases hc with
  | learns hl => exact hl.unasked hq fun _ => ⟨r, hr, hk⟩
  | logged => exact .note rfl
  | entered => exact .note rfl
  | initStarted => exact ⟨[_], journal_startInit _, by simp [JournalEntry.asksFor]⟩
  | initEnded => exact ⟨[_], journal_endInit _ _, by simp [JournalEntry.asksFor]⟩
  | natives => exact .of_journal_eq rfl
  | libraries => exact .of_journal_eq rfl

/-- A step that has nothing to do with initializers. -/
structure Quiet (h h' : Host) : Prop where
  initOf_eq : ∀ c, h'.initOf c = h.initOf c
  journal : ∃ new, h'.journal = new ++ h.journal ∧ ∀ e ∈ new, ¬e.IsInit

lemma Quiet.note {e : JournalEntry} (he : ¬e.IsInit) : h.Quiet (h.note e) :=
  ⟨fun _ => rfl, [e], rfl, by simpa using he⟩

lemma LearnChange.quiet {K : List Facet} (hc : LearnChange w K h h') : h.Quiet h' := by
  obtain ⟨new, hj, hnew⟩ := hc.journal
  exact ⟨hc.initOf_eq, new, hj, fun e he => (hnew e he).not_isInit⟩

lemma Learns.journal_suffix {K : List Facet} (hl : h.Learns w K h') : h.journal <:+ h'.journal := by
  induction hl with
  | refl => exact List.suffix_rfl
  | tail _ hstep ih =>
    obtain ⟨new, hj, -⟩ := hstep.quiet.journal
    exact ih.trans (hj ▸ List.suffix_append _ _)

/-- What a step has to do with initializers. -/
lemma RunChange.quiet_or (hc : RunChange w h h') :
    h.Quiet h' ∨
    (∃ c, h.Has c ∧ h.initOf c = .untouched ∧ h' = h.startInit c) ∨
    ∃ c failure, h.initOf c = .running workingThread ∧ h' = h.endInit c failure := by
  cases hc with
  | learns hl => exact .inl hl.quiet
  | logged => exact .inl (.note fun hi => hi)
  | entered => exact .inl (.note fun hi => hi)
  | initStarted hc hu => exact .inr (.inl ⟨_, hc, hu, rfl⟩)
  | initEnded failure hr => exact .inr (.inr ⟨_, failure, hr, rfl⟩)
  | natives => exact .inl ⟨fun _ => rfl, [], rfl, by simp⟩
  | libraries => exact .inl ⟨fun _ => rfl, [], rfl, by simp⟩

/-! ## Initializers and the journal -/

/-- The journal and the states of the initializers tell the same story. -/
structure Recorded (h : Host) : Prop where
  /-- An initializer has started unless nobody has asked for it. -/
  started : ∀ c, .initStarted c ∈ h.journal ↔ h.initOf c ≠ .untouched
  /-- No initializer has started twice. -/
  once : ∀ c, h.journal.count (.initStarted c) ≤ 1
  /-- An initializer that has ended is in the state in which it ended. -/
  ended : ∀ c failure, .initEnded c failure ∈ h.journal → h.initOf c = .after failure

lemma Recorded.of_quiet (hr : h.Recorded) (hq : h.Quiet h') : h'.Recorded := by
  obtain ⟨hinit, new, hj, hnew⟩ := hq
  have hmem : ∀ e : JournalEntry, e.IsInit → (e ∈ h'.journal ↔ e ∈ h.journal) := by
    intro e he
    rw [hj, List.mem_append, or_iff_right fun hmem => hnew e hmem he]
  refine ⟨fun c => ?_, fun c => ?_, fun c failure hc => ?_⟩
  · rw [hmem (.initStarted c) trivial, hinit]
    exact hr.started c
  · have hzero : new.count (.initStarted c) = 0 :=
      List.count_eq_zero.mpr fun hmem' => hnew _ hmem' trivial
    rw [hj, List.count_append, hzero, Nat.zero_add]
    exact hr.once c
  · rw [hmem (.initEnded c failure) trivial] at hc
    rw [hinit]
    exact hr.ended c failure hc

lemma Recorded.not_started (hr : h.Recorded) {c : ClassHandle} (hu : h.initOf c = .untouched) :
    .initStarted c ∉ h.journal :=
  fun hj => (hr.started c).mp hj hu

lemma Recorded.of_started (hr : h.Recorded) {c : ClassHandle} (hc : h.Has c)
    (hu : h.initOf c = .untouched) :
    (h.startInit c).Recorded := by
  have hj : (h.startInit c).journal = .initStarted c :: h.journal := journal_startInit c
  have hinit := initOf_startInit hc
  refine ⟨fun x => ?_, fun x => ?_, fun x failure hx => ?_⟩
  · rw [hj, List.mem_cons, hinit]
    split
    · rename_i heq
      simp [heq]
    · rename_i hne
      rw [or_iff_right fun heq => hne (JournalEntry.initStarted.inj heq)]
      exact hr.started x
  · rw [hj]
    by_cases hx : x = c
    · subst hx
      rw [List.count_cons_self, List.count_eq_zero.mpr (hr.not_started hu)]
    · rw [List.count_cons_of_ne fun heq => hx (JournalEntry.initStarted.inj heq).symm]
      exact hr.once x
  · rw [hj, List.mem_cons] at hx
    have hstate := hr.ended x failure (hx.resolve_left (by simp))
    rw [hinit, if_neg]
    · exact hstate
    · -- an initializer that has ended is not untouched
      rintro rfl
      rw [hu] at hstate
      cases failure <;> simp [InitState.after] at hstate

lemma Recorded.of_ended (hr : h.Recorded) {c : ClassHandle} (failure : Option Error)
    (hrun : h.initOf c = .running workingThread) :
    (h.endInit c failure).Recorded := by
  have hj : (h.endInit c failure).journal = .initEnded c failure :: h.journal :=
    journal_endInit c failure
  have hinit := initOf_endInit (has_of_initOf (by simp [hrun] : h.initOf c ≠ .untouched)) failure
  refine ⟨fun x => ?_, fun x => ?_, fun x failure' hx => ?_⟩
  · rw [hj, List.mem_cons, or_iff_right (by simp), hinit, hr.started]
    split
    · -- it was running, and it has ended
      rename_i heq
      rw [heq, hrun]
      cases failure <;> simp [InitState.after]
    · exact Iff.rfl
  · rw [hj, List.count_cons_of_ne (by simp)]
    exact hr.once x
  · rw [hj, List.mem_cons] at hx
    rw [hinit]
    rcases hx with heq | hx
    · cases heq
      rw [if_pos rfl]
    · have hstate := hr.ended x failure' hx
      rw [if_neg]
      · exact hstate
      · -- an initializer that has ended is not running
        rintro rfl
        rw [hrun] at hstate
        cases failure' <;> simp [InitState.after] at hstate

lemma RunChange.recorded (hc : RunChange w h h') (hr : h.Recorded) : h'.Recorded := by
  rcases hc.quiet_or with hq | ⟨c, hhas, hu, rfl⟩ | ⟨c, failure, hrun, rfl⟩
  · exact hr.of_quiet hq
  · exact hr.of_started hhas hu
  · exact hr.of_ended failure hrun

/-! ## The slots of bodies -/

/-- A body of the method may be given this many slots for the arguments and the result: those that
the method counts, or none at all if the method is the initializer of a class that the host has
started. -/
def Suits (h : Host) (m : Method) (args result : Nat) : Prop :=
  args = m.argSlots ∧ result = m.resultSlots ∨
    args = 0 ∧ result = 0 ∧ m.isTypeInitializer = true ∧
      ∃ c r, h.cls c = .ok r ∧ m ∈ r.methods.items ∧ .initStarted c ∈ h.journal

/-- If the entry notes that a body was entered, the host knows why with so many slots. -/
def AccountsFor (h : Host) : JournalEntry → Prop
  | .entered _ m args result => h.Suits m args result
  | _ => True

lemma accountsFor_of_isInquiry {e : JournalEntry} (he : e.IsInquiry) : h.AccountsFor e := by
  cases e with
  | entered route m args result => exact he.elim
  | _ => trivial

/-- The journal only grows. -/
lemma RunChange.journal_suffix (hc : RunChange w h h') : h.journal <:+ h'.journal := by
  rcases hc.quiet_or with hq | ⟨c, -, -, rfl⟩ | ⟨c, failure, -, rfl⟩
  · obtain ⟨new, hj, -⟩ := hq.journal
    rw [hj]
    exact List.suffix_append _ _
  · rw [journal_startInit]
    exact List.suffix_cons _ _
  · rw [journal_endInit]
    exact List.suffix_cons _ _

lemma Suits.step {m : Method} {args result : Nat} (hs : h.Suits m args result)
    (hc : RunChange w h h') : h'.Suits m args result := by
  rcases hs with hs | ⟨hargs, hresult, hm, c, r, hr, hmem, hstarted⟩
  · exact .inl hs
  · obtain ⟨r', hr', hknown⟩ := hc.cls hr
    have hmethods : r'.methods = r.methods := by
      refine hknown .methods fun hu => ?_
      have hunknown : .unknown = r.methods := congrArg Class.methods hu
      rw [← hunknown] at hmem
      simp at hmem
    exact .inr ⟨hargs, hresult, hm, c, r', hr', hmethods ▸ hmem,
      hc.journal_suffix.subset hstarted⟩

lemma AccountsFor.step {e : JournalEntry} (ha : h.AccountsFor e) (hc : RunChange w h h') :
    h'.AccountsFor e := by
  cases e with
  | entered route m args result => exact Suits.step ha hc
  | _ => trivial

lemma AccountsFor.steps {e : JournalEntry} (ha : h.AccountsFor e)
    (hc : Relation.ReflTransGen (RunChange w) h h') : h'.AccountsFor e := by
  induction hc with
  | refl => exact ha
  | tail _ hstep ih => exact ih.step hstep

/-! ## Commands that have been carried out -/

/-- `h'` arises from `h` by running code that has come to its end: the initializers that are
running are the same as before, and all bodies that were entered are accounted for. -/
structure Completes (w : World) (h h' : Host) : Prop where
  changes : Relation.ReflTransGen (RunChange w) h h'
  running : ∀ c t, h'.initOf c = .running t ↔ h.initOf c = .running t
  entries : ∀ e ∈ h'.journal, e ∈ h.journal ∨ h'.AccountsFor e

instance (w : World) : IsPreorder Host (Completes w) where
  refl _ := ⟨.refl, fun _ _ => Iff.rfl, fun _ he => .inl he⟩
  trans _ _ _ h01 h12 := by
    refine ⟨h01.changes.trans h12.changes, fun c t => (h12.running c t).trans (h01.running c t),
      fun e he => ?_⟩
    rcases h12.entries e he with he | ha
    · exact (h01.entries e he).imp_right fun ha => ha.steps h12.changes
    · exact .inr ha

namespace Completes

lemma trans (h01 : h.Completes w h₁) (h12 : h₁.Completes w h') : h.Completes w h' :=
  trans_of (Completes w) h01 h12

lemma of_quiet (hc : RunChange w h h') (hq : h.Quiet h')
    (he : ∀ e ∈ h'.journal, e ∈ h.journal ∨ h'.AccountsFor e) : h.Completes w h' :=
  ⟨.single hc, fun c t => by rw [hq.initOf_eq c], he⟩

lemma of_note {e : JournalEntry} (hc : RunChange w h (h.note e)) (hi : ¬e.IsInit)
    (ha : h.AccountsFor e) : h.Completes w (h.note e) := by
  refine .of_quiet hc (.note hi) fun x hx => ?_
  rcases List.mem_cons.mp hx with rfl | hx
  · exact .inr (ha.step hc)
  · exact .inl hx

/-- What every step keeps is kept. -/
lemma preserves {P : Host → Prop} (hc : h.Completes w h')
    (hstep : ∀ g g', RunChange w g g' → P g → P g') (hp : P h) : P h' := by
  obtain ⟨hchanges, -, -⟩ := hc
  induction hchanges with
  | refl => exact hp
  | tail _ hlast ih => exact hstep _ _ hlast ih

lemma wellformed (hc : h.Completes w h') (hw : h.Wellformed) : h'.Wellformed :=
  hc.preserves (fun _ _ hstep hg => hstep.wellformed hg) hw

lemma journal_subset (hc : h.Completes w h') : h.journal ⊆ h'.journal :=
  fun _ he => hc.preserves (fun _ _ hstep hg => hstep.journal_suffix.subset hg) he

/-- An initializer that was started and has ended, with all that it did in between. -/
lemma of_initializer {c : ClassHandle} (hc : h.Has c) (hu : h.initOf c = .untouched)
    (h01 : (h.startInit c).Completes w h₁) (failure : Option Error) :
    h.Completes w (h₁.endInit c failure) := by
  have hstarted := initOf_startInit hc
  -- whatever happened in between, the initializer has not been ended by anyone else
  have hrun : h₁.initOf c = .running workingThread := by
    rw [h01.running, hstarted, if_pos rfl]
  refine ⟨(Relation.ReflTransGen.head (.initStarted hc hu) h01.changes).tail
    (.initEnded failure hrun), fun x t => ?_, fun e he => ?_⟩
  · rw [initOf_endInit (has_of_initOf (by simp [hrun] : h₁.initOf c ≠ .untouched))]
    by_cases hx : x = c
    · subst hx
      rw [if_pos rfl, hu]
      cases failure <;> simp [InitState.after]
    · rw [if_neg hx, h01.running, hstarted, if_neg hx]
  · rw [journal_endInit, List.mem_cons] at he
    rcases he with rfl | he
    · exact .inr trivial
    rcases h01.entries e he with he | ha
    · rw [journal_startInit, List.mem_cons] at he
      rcases he with rfl | he
      · exact .inr trivial
      · exact .inl he
    · exact .inr (ha.step (.initEnded (w := w) failure hrun))

end Completes

/-! ## States of one run -/

/-- `h'` comes later than `h` in a run whose surroundings change from one of the worlds `W` to
another.  States in the middle of commands are included. -/
def Later (W : World → Prop) (h h' : Host) : Prop :=
  Relation.ReflTransGen (fun g g' => ∃ w, W w ∧ RunChange w g g') h h'

lemma Completes.later {W : World → Prop} (hw : W w) (hc : h.Completes w h') : h.Later W h' :=
  Relation.ReflTransGen.mono (fun _ _ hstep => ⟨w, hw, hstep⟩) _ _ hc.changes

/-- What every step keeps is kept. -/
lemma Later.preserves {W : World → Prop} {P : Host → Prop} (hl : h.Later W h')
    (hstep : ∀ w, W w → ∀ g g', RunChange w g g' → P g → P g') (hp : P h) : P h' := by
  induction hl with
  | refl => exact hp
  | tail _ hlast ih =>
    obtain ⟨w, hw, hlast⟩ := hlast
    exact hstep w hw _ _ hlast ih

lemma Later.wellformed {W : World → Prop} (hl : h.Later W h') (hw : h.Wellformed) :
    h'.Wellformed :=
  hl.preserves (fun _ _ _ _ hstep hg => hstep.wellformed hg) hw

lemma Later.remembers {W : World → Prop} (hl : h.Later W h') : h.Remembers h' := by
  induction hl with
  | refl => exact .rfl' h
  | tail _ hstep ih =>
    obtain ⟨w, -, hstep⟩ := hstep
    exact ih.trans hstep.remembers

lemma Later.cls {W : World → Prop} (hl : h.Later W h') {c : ClassHandle} {r : Class}
    (hr : h.cls c = .ok r) :
    ∃ r', h'.cls c = .ok r' ∧ ∀ q : Facet, ¬q.Unknown r → q.Agrees r r' :=
  hl.remembers.cls c r hr

/-- The assembly has the name that the source of its module reports, in surroundings of which `W`
holds. -/
def Reports (W : World → Prop) (h : Host) (a : Assembly) : Prop :=
  ∃ w j m, W w ∧ h.module a.module = .ok m ∧ a.name = (w.source j m.source).assemblyName

section Reports

variable {W : World → Prop} {n : Nat}

lemma Reports.of_keeps {a : Assembly} (ha : h.Reports W a) (hk : h.Keeps h') : h'.Reports W a := by
  obtain ⟨w, j, m, hw, hm, hname⟩ := ha
  exact ⟨w, j, m, hw, hk.module hm, hname⟩

lemma LoadChange.reports (hc : LoadChange w h h') (hw : W w) (hn : n ≤ h.assemblies.length)
    (hold : ∀ a ∈ h.assemblies.drop n, h.Reports W a) :
    ∀ a ∈ h'.assemblies.drop n, h'.Reports W a := by
  cases hc with
  | question e he => exact fun a ha => (hold a ha).of_keeps (.note h e)
  | commit name new hd =>
    intro a ha
    rw [Host.commit, List.drop_append_of_le_length hn, List.mem_append, List.mem_singleton] at ha
    rcases ha with ha | rfl
    · exact (hold a ha).of_keeps (.commit h name new)
    · obtain ⟨j, hj⟩ := hd.reported
      exact ⟨w, j, _, hw, module_eq_ok_iff.mpr ⟨rfl, List.getElem?_concat_length⟩, hj.symm⟩

lemma Loads.reports (hl : h.Loads w h') (hw : W w) (hn : n ≤ h.assemblies.length)
    (hold : ∀ a ∈ h.assemblies.drop n, h.Reports W a) :
    ∀ a ∈ h'.assemblies.drop n, h'.Reports W a := by
  obtain ⟨hchanges, -, -⟩ := hl
  induction hchanges with
  | refl => exact hold
  | tail hsteps hstep ih =>
    exact hstep.reports hw (hn.trans (extends_of_loadChanges hsteps).assemblies.length_le) ih

lemma RunChange.reports (hc : RunChange w h h') (hw : W w) (hn : n ≤ h.assemblies.length)
    (hold : ∀ a ∈ h.assemblies.drop n, h.Reports W a) :
    ∀ a ∈ h'.assemblies.drop n, h'.Reports W a := by
  rcases hc.loads_or_sameNames with hl | hs
  · exact hl.reports hw hn hold
  · rw [hs.assemblies_eq]
    exact fun a ha => (hold a ha).of_keeps hc.keeps

/-- If the sources of the assemblies from some number on have reported their names, this is also
true of those that are added later. -/
lemma Later.reports (hl : h.Later W h') (hn : n ≤ h.assemblies.length)
    (hold : ∀ a ∈ h.assemblies.drop n, h.Reports W a) :
    ∀ a ∈ h'.assemblies.drop n, h'.Reports W a := by
  induction hl with
  | refl => exact hold
  | tail hsteps hstep ih =>
    obtain ⟨w, hw, hstep⟩ := hstep
    have hkept := Later.remembers hsteps
    exact hstep.reports hw (hn.trans hkept.keeps.assemblies.length_le) ih

end Reports

lemma LearnChange.completes {K : List Facet} (hc : LearnChange w K h h') : h.Completes w h' := by
  obtain ⟨new, hj, hnew⟩ := hc.journal
  refine .of_quiet (.learns hc) hc.quiet fun e he => ?_
  rw [hj, List.mem_append] at he
  rcases he with he | he
  · exact .inr (accountsFor_of_isInquiry (hnew e he))
  · exact .inl he

lemma Learns.completes {K : List Facet} (hl : h.Learns w K h') : h.Completes w h' := by
  induction hl with
  | refl => exact refl_of (Completes w) h
  | tail _ hstep ih => exact ih.trans hstep.completes

end Host

end ManagedHost
