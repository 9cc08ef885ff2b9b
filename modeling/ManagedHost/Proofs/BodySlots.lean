/-
# The slots that bodies are given

There are two ways to a body.  A call checks the buffers first and cuts them to the slots that the
method counts.  The initializer of a class is found by name and shape, without a look at what it
returns, and is entered without any slots.  The journal notes the lengths of both buffers whenever
control is handed over, so what the bodies of a run were given can be read there.

* `accountable_of_reached`: at every point of a run, the host can account for the slots of all
  bodies that were entered so far.
* `Host.Measured.resultSlots_eq_zero_iff`: only a method without a result counts no slots for it.
* `entered_of_reached`: all bodies are given the slots that their methods count, up to the results
  of initializers that return something.
-/
import ManagedHost.Proofs.Layouts
import ManagedHost.Proofs.Marshalling

namespace ManagedHost

open Op

namespace Host

variable {w : World} {h h' : Host} {m : Method}

/-! ## Values that take no slots -/

/-- A value takes at least one byte. -/
lemma LaidOut.size_pos (ho : h.LaidOut) {s : Signature ClassHandle} {l : Layout}
    (hl : h.extent? s = some l) (hs : s ≠ .void) : 0 < l.size := by
  cases s with
  | void => exact absurd rfl hs
  | value c =>
    obtain ⟨r, hr, hkept⟩ := Option.bind_eq_some_iff.mp hl
    obtain ⟨_, parts, -, -, rfl⟩ := (ho c r l (cls?_eq_some_iff.mp hr) hkept).1
    exact Nat.lt_of_lt_of_le Nat.zero_lt_one (Nat.le_max_right _ _)
  | _ =>
    cases hl
    simp [Layout.ofSize, Signature.fixedSize, Signature.pointerSize]

lemma Measured.resultSlots_eq_zero_iff (hm : h.Measured m) (ho : h.LaidOut) :
    m.resultSlots = 0 ↔ m.result = .void := by
  obtain ⟨size, hsize, hslots⟩ := hm.result
  obtain ⟨l, hl, rfl⟩ := Option.map_eq_some_iff.mp hsize
  rw [hslots]
  constructor
  · intro hzero
    by_contra hresult
    have hpos := ho.size_pos hl hresult
    have hcount : (l.size + 7) / 8 = 0 := hzero
    omega
  · intro hresult
    rw [hresult] at hl
    cases hl
    rfl

lemma Measured.argSlots_of_isTypeInitializer (hm : h.Measured m) (hi : m.isTypeInitializer) :
    m.argSlots = 0 := by
  obtain ⟨sizes, hsizes, hslots⟩ := hm.args
  simp only [Method.isTypeInitializer, Bool.and_eq_true, List.isEmpty_iff] at hi
  obtain ⟨⟨⟨-, hstatic⟩, -⟩, hparams⟩ := hi
  rw [hparams] at hsizes
  cases hsizes
  rw [hslots, hstatic]
  rfl

end Host

/-! ## Bodies that were entered -/

/-- The host can account for all bodies that were entered, and the initializers of the active
calls are on record. -/
structure Accountable (fs : List Frame) (h : Host) : Prop where
  entries : ∀ e ∈ h.journal, h.AccountsFor e
  active : ∀ c, .initializer c ∈ fs → .initStarted c ∈ h.journal

namespace Accountable

variable {w : World} {fs : List Frame} {h h' : Host}

lemma completes (ha : Accountable fs h) (hc : h.Completes w h') : Accountable fs h' where
  entries e he := (hc.entries e he).elim (fun hold => (ha.entries e hold).steps hc.changes) id
  active c hf := hc.journal_subset (ha.active c hf)

lemma call (ha : Accountable fs h) (m : Method) : Accountable (.call m :: fs) h :=
  ⟨ha.entries, fun c hf => ha.active c (by simpa using hf)⟩

lemma enter (ha : Accountable fs h) {m : Method} {args result : Nat} (hs : h.Suits m args result)
    (w : World) (route : Route) :
    Accountable (.call m :: fs) (h.note (.entered route m args result)) :=
  (ha.completes (.of_note (.entered (w := w) h route m args result) (fun hi => hi) hs)).call m

lemma startInit (ha : Accountable fs h) {c : ClassHandle} (hc : h.Has c)
    (hu : h.initOf c = .untouched) : Accountable (.initializer c :: fs) (h.startInit c) := by
  constructor <;> rw [Host.journal_startInit]
  · intro e he
    rcases List.mem_cons.mp he with rfl | he
    · trivial
    · exact (ha.entries e he).step (.initStarted (w := default) hc hu)
  · intro x hx
    rcases List.mem_cons.mp hx with hx | hx
    · cases hx
      exact List.mem_cons_self
    · exact List.mem_cons_of_mem _ (ha.active x hx)

end Accountable

/-- A host that was started has only asked questions. -/
lemma accountable_start {s : Setup} {next rest : Nat} {h : Host}
    (hs : s.start next = (.ok h, rest)) : Accountable [] h := by
  obtain ⟨w, a, h₁, record, -, hload, -, rfl⟩ := start_eq_ok hs
  have hloads := ((isLoader_load w _ _ (Host.wellformed_blank next s.config)).of_ok hload).1
  obtain ⟨new, hj, hnew⟩ := hloads.toExtends.journal
  refine ⟨fun e he => Host.accountsFor_of_isInquiry (hnew e ?_).isInquiry, by simp⟩
  change e ∈ h₁.journal at he
  rw [hj] at he
  simpa [Host.blank] using he

/-- Every point of a run is accountable: a call has checked the slots, and the initializer that
is entered belongs to a class that was started. -/
lemma accountable_of_reached {fs : List Frame} {h : Host} (hr : Reached fs h) :
    Accountable fs h := by
  obtain ⟨s, next, rest, h₀, hs, hr⟩ := hr
  have h0 := sound_start hs
  induction hr with
  | here => exact accountable_start hs
  | @performed fs h hr w _ depth c hc ih =>
    have hw := (hr.sound h0).settled.wellformed
    exact ih.completes ((performWithin_obeys w depth c h hw).rel hc)
  | @logged fs h _ w _ channel line ih => exact ih.completes (completes_log (w := w) h channel line)
  | @entered fs h h₁ hr w _ depth m args result hp route ih =>
    have hprep := prepare_obeys (isHandler_commands w depth) m args result
      (hr.sound h0).settled.wellformed
    exact (ih.completes (hprep.of_ok hp).1).enter (.inl ⟨rfl, rfl⟩) w route
  | initStarted _ _ hc hu ih => exact ih.startInit hc hu
  | @initEntered fs h h₁ c hr w _ m hm route ih =>
    have hw := (hr.sound h0).settled.wellformed
    obtain ⟨hl, hfound⟩ := (typeInitializer_obeys (w := w) c hw).of_ok hm
    obtain ⟨hi, r, hcls, hmem⟩ := hfound m rfl
    have ha := ih.completes hl.completes
    exact ha.enter (.inr ⟨rfl, rfl, hi, c, r, hcls, hmem, ha.active c (by simp)⟩) w route

/-! ## The slots of bodies -/

/-- Every body that a host hands control to is given as many slots for the arguments as its method
counts, and as many for the result.  There is one exception: the host enters the initializer of a
class with no slots, and takes a method for an initializer without regard to what it returns.  An
initializer with a result therefore lacks the slots for it when the host runs it.  A call that gets
past its checks passes on the slots that the method counts, also if the method is an initializer. -/
theorem entered_of_reached {fs : List Frame} {h : Host} (hr : Reached fs h) :
    (∀ route m args result, .entered route m args result ∈ h.journal →
      args = m.argSlots ∧
      (result = m.resultSlots ∨
        result = 0 ∧ 0 < m.resultSlots ∧ m.isTypeInitializer = true ∧ m.result ≠ .void ∧
          ∃ c r, h.cls c = .ok r ∧ m ∈ r.methods.items ∧ .initStarted c ∈ h.journal)) ∧
    (∀ w c m h₁, typeInitializer c w h = (.ok (some m), h₁) →
      m.argSlots = 0 ∧ (m.resultSlots = 0 ↔ m.result = .void) ∧
      ∀ handle, executeInitializer handle c w h =
        (do ofExcept (← dispatch handle m [] []).outcome : Op Unit) w h₁) ∧
    ∀ w handle m args result h₁, prepare handle m args result w h = (.ok (), h₁) →
      ∃ a r, a.length = m.argSlots ∧ r.length = m.resultSlots ∧ a <+: args ∧ r <+: result ∧
        invokeWith handle m args result w h =
          (do
            let done ← dispatch handle m a r
            return { done with result := result.overlay done.result } : Op Completion) w h₁ := by
  have hmeasured := measured_of_reached hr
  have hlaid := laidOut_of_reached hr
  refine ⟨?_, ?_, ?_⟩
  · intro route m args result hentered
    have hsuits : h.Suits m args result := (accountable_of_reached hr).entries _ hentered
    rcases hsuits with ⟨hargs, hresult⟩ | ⟨rfl, rfl, hi, c, r, hcls, hmem, hstarted⟩
    · exact ⟨hargs, .inl hresult⟩
    have hm := hmeasured c r hcls m hmem
    refine ⟨(hm.argSlots_of_isTypeInitializer hi).symm, ?_⟩
    rcases Nat.eq_zero_or_pos m.resultSlots with hzero | hpos
    · exact .inl hzero.symm
    · have hvoid : m.result ≠ .void := fun hvoid =>
        hpos.ne' ((hm.resultSlots_eq_zero_iff hlaid).mpr hvoid)
      exact .inr ⟨rfl, hpos, hi, hvoid, c, r, hcls, hmem, hstarted⟩
  · intro w c m h₁ hfind
    obtain ⟨hl, hfound⟩ := (typeInitializer_obeys c hr.sound.settled.wellformed).of_ok hfind
    obtain ⟨hi, r, hcls, hmem⟩ := hfound m rfl
    have hm : h₁.Measured m :=
      hl.completes.preserves (fun _ _ hstep hg => hg.step hstep) hmeasured c r hcls m hmem
    have hlaid₁ : h₁.LaidOut := hl.completes.preserves (fun _ _ hstep hg => hg.step hstep) hlaid
    exact ⟨hm.argSlots_of_isTypeInitializer hi, hm.resultSlots_eq_zero_iff hlaid₁,
      fun handle => bind_run_ok hfind⟩
  · intro w handle m args result h₁ hp
    obtain ⟨hargs, hresult⟩ := slots_of_prepare hp
    refine ⟨_, _, hargs, hresult, List.take_prefix _ _, List.take_prefix _ _, ?_⟩
    have hready : attempt (prepare handle m args result) w h = (.ok (.ok ()), h₁) := by
      rw [attempt, hp]
    rw [invokeWith_eq]
    exact bind_run_ok hready

/-! A core library whose type has an initializer that returns a number. -/

namespace AnswerSpecimen

/-- The metadata source of the core library. -/
def source : Source :=
  { Specimen.source "mscorlib" with
    methods := fun _ => .ok [{ MethodDef.typeInitializer with result := .int32 }] }

/-- What the host is started with; bodies return without doing anything. -/
def setup : Setup :=
  { Specimen.setup with
    resolver := some { Specimen.resolver with source := fun _ _ => source }
    interpreter := some fun _ _ => .done .returned [] }

/-- The host when the initializer has been run. -/
def initialized : Host :=
  setup.after (.runInitializer ⟨1, 0⟩) setup.firstHost

/-- The initializer. -/
def initializer : Method :=
  (initialized.classes.flatMap (·.methods.items)).getD 0 default

/-- The host when the initializer has also been called like any other method. -/
def host : Host :=
  setup.after (.invoke initializer [] [0]) initialized

lemma reached_host : Reached [] host := by
  have hstart : Reached [] setup.firstHost := Setup.reached_firstHost (by decide +kernel)
  have hinitialized : Reached [] initialized := Setup.reached_after hstart (by decide +kernel)
  exact hinitialized.of_isOk (by decide +kernel)

end AnswerSpecimen

/-- The number takes a slot.  The initializer has it when it is called, and lacks it when the host
runs it. -/
theorem entered_of_reached_answer :
    AnswerSpecimen.initializer.resultSlots = 1 ∧
    .entered .interpreter AnswerSpecimen.initializer 0 1 ∈ AnswerSpecimen.host.journal ∧
    .entered .interpreter AnswerSpecimen.initializer 0 0 ∈ AnswerSpecimen.host.journal ∧
    ∃ c r, AnswerSpecimen.host.cls c = .ok r ∧ AnswerSpecimen.initializer ∈ r.methods.items ∧
      .initStarted c ∈ AnswerSpecimen.host.journal := by
  have hslots : AnswerSpecimen.initializer.resultSlots = 1 := by decide +kernel
  have hcalled : .entered .interpreter AnswerSpecimen.initializer 0 1 ∈
      AnswerSpecimen.host.journal := by decide +kernel
  have hrun : .entered .interpreter AnswerSpecimen.initializer 0 0 ∈
      AnswerSpecimen.host.journal := by decide +kernel
  refine ⟨hslots, hcalled, hrun, ?_⟩
  obtain ⟨-, hresult⟩ := (entered_of_reached AnswerSpecimen.reached_host).1 _ _ _ _ hrun
  rcases hresult with hzero | ⟨-, -, -, -, hclass⟩
  · rw [hslots] at hzero
    cases hzero
  · exact hclass

end ManagedHost
