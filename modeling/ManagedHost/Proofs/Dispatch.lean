/-
# The history of registrations decides where a call goes

When a method is carried out, the table of intrinsics is consulted first, whatever the method's own
implementation is, and then the implementation decides.  The tables are the outcome of all
registrations so far, those that the host makes itself and those that follow, so where a call goes
can be told from the history of registrations alone (`Destined`).

* `Host.Later.natives`, `natives_of_reached`: whatever happens in a run extends the history.
* `registerAll_eq`: commands that register native code extend the history.
* `Destined.unique`, `exists_destined`: the history gives every call one destination.
* `Op.Executes`: a call has been handed over to a body, which has been executed.
* `dispatch_of_history`: the body of this destination is executed, and registrations that do not
  matter to the method may be left out of the history.
-/
import ManagedHost.Proofs.Inquiries

namespace ManagedHost

open Op

/-! ## Destinations -/

/-- Where a call goes. -/
inductive Destination where
  /-- To a binding of a native table. -/
  | native (kind : NativeKind) (b : Binding)
  /-- To the interpreter. -/
  | interpreter (run : Journal → Call → Body)
  /-- Nowhere, because of an error. -/
  | nowhere (e : Error)

/-- The table and the name under which a method looks for native code that implements it. -/
inductive Method.LooksUp (m : Method) : NativeKind → String → Prop
  | pinvoke {library entry : String} (hm : m.implementation = .pinvoke library entry) :
      m.LooksUp .pinvoke entry
  | internalCall (hm : m.implementation = .internalCall) : m.LooksUp .internalCall m.qualifiedName
  | intrinsic (hm : m.implementation = .intrinsic) : m.LooksUp .intrinsic m.qualifiedName

/-- No binding has been registered for a method in a table under a name. -/
def Unserved (rs : List Registration) (kind : NativeKind) (name : String) (m : Method) : Prop :=
  ∀ b, ¬Registration.Chosen (Registration.builtins ++ rs) kind name m b

/-- Where a call of the method goes after the given registrations. -/
inductive Destined (rs : List Registration) (w : World) (m : Method) : Destination → Prop
  /-- An intrinsic takes the place of any implementation. -/
  | intercepted {b : Binding}
      (hb : Registration.Chosen (Registration.builtins ++ rs) .intrinsic m.qualifiedName m b) :
      Destined rs w m (.native .intrinsic b)
  | interpreted {run : Journal → Call → Body} (hfree : Unserved rs .intrinsic m.qualifiedName m)
      (hm : m.implementation = .managed) (hw : w.interpreter = some run) :
      Destined rs w m (.interpreter run)
  | uninterpreted (hfree : Unserved rs .intrinsic m.qualifiedName m)
      (hm : m.implementation = .managed) (hw : w.interpreter = none) :
      Destined rs w m (.nowhere
        (.invocation s!"no interpreter is attached to execute {m.qualifiedName}"))
  | native {kind : NativeKind} {name : String} {b : Binding}
      (hfree : Unserved rs .intrinsic m.qualifiedName m) (hm : m.LooksUp kind name)
      (hb : Registration.Chosen (Registration.builtins ++ rs) kind name m b) :
      Destined rs w m (.native kind b)
  | unbound {kind : NativeKind} {name : String} (hfree : Unserved rs .intrinsic m.qualifiedName m)
      (hm : m.LooksUp kind name) (hno : Unserved rs kind name m) :
      Destined rs w m (.nowhere (.unbound kind name))
  | absent (hfree : Unserved rs .intrinsic m.qualifiedName m) (hm : m.implementation = .absent) :
      Destined rs w m (.nowhere (.invocation s!"{m.qualifiedName} has no implementation"))

/-- The host when a call has been handed over to a body. -/
def Host.arrive (h : Host) (route : Route) (call : Call) : Host :=
  h.note (.entered route call.method call.args.length call.result.length)

/-- What comes of handing a call over to a body.  The arrival is noted, and the body is executed on
the call.  Then the outcome is that of the body, and the result begins with what the body has
stored. -/
structure Op.Executes (handle : Handler) (route : Route) (call : Call)
    (body : Journal → Call → Body) (w : World) (h : Host) (x : Except Stop Completion × Host) :
    Prop where
  returned : ∀ stored h', execute handle (body (h.arrive route call).journal call) w
      (h.arrive route call) = (.ok (.returned, stored), h') →
    x = (.ok ⟨.ok (), call.result.overlay stored⟩, h')
  failed : ∀ e stored h', execute handle (body (h.arrive route call).journal call) w
      (h.arrive route call) = (.ok (.failed e, stored), h') →
    x = (.ok ⟨.error e, call.result.overlay stored⟩, h')
  panicked : ∀ message text stored h', execute handle (body (h.arrive route call).journal call) w
      (h.arrive route call) = (.ok (.panicked message, stored), h') →
    message.getD "native code panicked" = text →
    x = (.ok ⟨.error (.invocation s!"{call.method.qualifiedName} panicked: {text}"),
      call.result.overlay stored⟩, h')
  stopped : ∀ stop h', execute handle (body (h.arrive route call).journal call) w
      (h.arrive route call) = (.error stop, h') → x = (.error stop, h')

/-- Carrying out the method executes the body of the destination: the one that the invoker of the
binding has in the world, given the function of the binding, or that of the interpreter.  If there
is no destination, no body is executed, and host and result are as they were. -/
def Op.ArrivesAt (handle : Handler) (m : Method) (args result : Buffer) (w : World) (h : Host) :
    Destination → Prop
  | .native kind b => Executes handle (.native kind b) ⟨m, b.function, args, result⟩
      (b.invoker.body w) w h (dispatch handle m args result w h)
  | .interpreter run => Executes handle .interpreter ⟨m, none, args, result⟩ run w h
      (dispatch handle m args result w h)
  | .nowhere e => dispatch handle m args result w h = (.ok ⟨.error e, result⟩, h)

lemma Op.executes_enter (handle : Handler) (route : Route) (call : Call)
    (body : World → Journal → Call → Body) (w : World) (h : Host) :
    Executes handle route call (body w) w h (enter handle route call body w h) := by
  have hrun : enter handle route call body w h =
      (execute handle (body w (h.arrive route call).journal call) >>= fun done =>
        pure ⟨outcomeOf call.method done.1, call.result.overlay done.2⟩) w
        (h.arrive route call) := rfl
  rw [hrun]
  constructor
  · intro stored h' hexec
    rw [bind_run_ok hexec]
    rfl
  · intro e stored h' hexec
    rw [bind_run_ok hexec]
    rfl
  · rintro message _ stored h' hexec rfl
    rw [bind_run_ok hexec]
    rfl
  · intro stop h' hexec
    rw [bind_run_error hexec]

section Dispatch

variable {rs before extra rest : List Registration} {kind : NativeKind} {name : String}
  {m : Method} {b b' : Binding} {d d' : Destination} {w : World} {h : Host} {handle : Handler}
  {args result : Buffer}

lemma find_eq_none_iff :
    ((NativeTables.after rs).table kind).find name m = none ↔ Unserved rs kind name m := by
  rw [Option.eq_none_iff_forall_ne_some]
  simp only [ne_eq, NativeTables.find_after_iff, Unserved]

lemma dispatch_of_chosen (hn : h.natives = .after rs)
    (hb : Registration.Chosen (Registration.builtins ++ rs) .intrinsic m.qualifiedName m b) :
    dispatch handle m args result w h = enterNative handle .intrinsic b m args result w h := by
  have hfind : h.natives.intrinsic.find m.qualifiedName m = some b := by
    rw [hn]
    exact NativeTables.find_after_iff.mpr hb
  rw [dispatch, bind_run_ok (show host w h = (.ok h, h) from rfl), hfind]

lemma dispatch_of_unserved (hn : h.natives = .after rs)
    (hfree : Unserved rs .intrinsic m.qualifiedName m) :
    dispatch handle m args result w h = dispatchOwn handle m args result w h := by
  have hfind : h.natives.intrinsic.find m.qualifiedName m = none := by
    rw [hn]
    exact find_eq_none_iff.mpr hfree
  rw [dispatch, bind_run_ok (show host w h = (.ok h, h) from rfl), hfind]

lemma dispatchOwn_of_looksUp (hm : m.LooksUp kind name) :
    dispatchOwn handle m args result = dispatchNative handle kind name m args result := by
  cases hm with
  | pinvoke hm => rw [dispatchOwn, hm]
  | internalCall hm => rw [dispatchOwn, hm]
  | intrinsic hm => rw [dispatchOwn, hm]

lemma dispatchNative_of_chosen (hn : h.natives = .after rs)
    (hb : Registration.Chosen (Registration.builtins ++ rs) kind name m b) :
    dispatchNative handle kind name m args result w h =
      enterNative handle kind b m args result w h := by
  rw [dispatchNative, bind_run_ok (show host w h = (.ok h, h) from rfl), hn,
    NativeTables.resolve, NativeTables.find_after_iff.mpr hb]

lemma dispatchNative_of_unserved (hn : h.natives = .after rs) (hno : Unserved rs kind name m) :
    dispatchNative handle kind name m args result w h =
      (.ok ⟨.error (.unbound kind name), result⟩, h) := by
  rw [dispatchNative, bind_run_ok (show host w h = (.ok h, h) from rfl), hn,
    NativeTables.resolve, find_eq_none_iff.mpr hno]
  rfl

/-- Control is handed over where the history of registrations demands. -/
lemma Destined.arrivesAt (hd : Destined rs w m d) (hn : h.natives = .after rs) :
    ArrivesAt handle m args result w h d := by
  cases hd with
  | intercepted hb =>
    rw [ArrivesAt, dispatch_of_chosen hn hb]
    exact executes_enter handle _ _ (fun w => Invoker.body w _) w h
  | @interpreted run hfree hm hw =>
    have hown : dispatchOwn handle m args result w h =
        enter handle .interpreter ⟨m, none, args, result⟩ (fun _ => run) w h := by
      rw [dispatchOwn, hm]
      change (world >>= _) w h = _
      rw [bind_run_ok (show world w h = (.ok w, h) from rfl), hw]
    rw [ArrivesAt, dispatch_of_unserved hn hfree, hown]
    exact executes_enter handle _ _ (fun _ => run) w h
  | uninterpreted hfree hm hw =>
    rw [ArrivesAt, dispatch_of_unserved hn hfree, dispatchOwn, hm]
    change (world >>= _) w h = _
    rw [bind_run_ok (show world w h = (.ok w, h) from rfl), hw]
    rfl
  | native hfree hm hb =>
    rw [ArrivesAt, dispatch_of_unserved hn hfree, dispatchOwn_of_looksUp hm,
      dispatchNative_of_chosen hn hb]
    exact executes_enter handle _ _ (fun w => Invoker.body w _) w h
  | unbound hfree hm hno =>
    rw [ArrivesAt, dispatch_of_unserved hn hfree, dispatchOwn_of_looksUp hm,
      dispatchNative_of_unserved hn hno]
  | absent hfree hm =>
    rw [ArrivesAt, dispatch_of_unserved hn hfree, dispatchOwn, hm]
    rfl

lemma destined_of_looksUp (hfree : Unserved rs .intrinsic m.qualifiedName m)
    (hm : m.LooksUp kind name) : ∃ d, Destined rs w m d := by
  by_cases hb : ∃ b, Registration.Chosen (Registration.builtins ++ rs) kind name m b
  · obtain ⟨b, hb⟩ := hb
    exact ⟨_, .native hfree hm hb⟩
  · exact ⟨_, .unbound hfree hm fun b hchosen => hb ⟨b, hchosen⟩⟩

/-- Every call has a destination. -/
lemma exists_destined (rs : List Registration) (w : World) (m : Method) :
    ∃ d, Destined rs w m d := by
  by_cases hb : ∃ b, Registration.Chosen (Registration.builtins ++ rs) .intrinsic
      m.qualifiedName m b
  · obtain ⟨b, hb⟩ := hb
    exact ⟨_, .intercepted hb⟩
  have hfree : Unserved rs .intrinsic m.qualifiedName m := fun b hchosen => hb ⟨b, hchosen⟩
  rcases hm : m.implementation with _ | ⟨library, entry⟩ | _ | _ | _
  · rcases hw : w.interpreter with _ | run
    · exact ⟨_, .uninterpreted hfree hm hw⟩
    · exact ⟨_, .interpreted hfree hm hw⟩
  · exact destined_of_looksUp hfree (.pinvoke hm)
  · exact destined_of_looksUp hfree (.internalCall hm)
  · exact destined_of_looksUp hfree (.intrinsic hm)
  · exact ⟨_, .absent hfree hm⟩

lemma chosen_unique (hb : Registration.Chosen (Registration.builtins ++ rs) kind name m b)
    (hb' : Registration.Chosen (Registration.builtins ++ rs) kind name m b') : b = b' :=
  Option.some.inj ((NativeTables.find_after_iff.mpr hb).symm.trans
    (NativeTables.find_after_iff.mpr hb'))

lemma Method.LooksUp.unique {kind' : NativeKind} {name' : String} (hm : m.LooksUp kind name)
    (hm' : m.LooksUp kind' name') : kind = kind' ∧ name = name' := by
  cases hm with
  | pinvoke hm => cases hm' <;> simp_all
  | internalCall hm => cases hm' <;> simp_all
  | intrinsic hm => cases hm' <;> simp_all

lemma Method.LooksUp.implementation_ne (hm : m.LooksUp kind name) :
    m.implementation ≠ .managed ∧ m.implementation ≠ .absent := by
  cases hm with
  | pinvoke hm => simp [hm]
  | internalCall hm => simp [hm]
  | intrinsic hm => simp [hm]

/-- Where a call goes that no intrinsic takes, if its method is implemented by native code. -/
lemma Destined.of_looksUp (hd : Destined rs w m d)
    (hfree : Unserved rs .intrinsic m.qualifiedName m) (hm : m.LooksUp kind name) :
    (∃ b, Registration.Chosen (Registration.builtins ++ rs) kind name m b ∧ d = .native kind b) ∨
      Unserved rs kind name m ∧ d = .nowhere (.unbound kind name) := by
  cases hd with
  | intercepted hb => exact absurd hb (hfree _)
  | interpreted _ hmanaged => exact absurd hmanaged hm.implementation_ne.1
  | uninterpreted _ hmanaged => exact absurd hmanaged hm.implementation_ne.1
  | absent _ habsent => exact absurd habsent hm.implementation_ne.2
  | native _ hm' hb =>
    obtain ⟨rfl, rfl⟩ := hm.unique hm'
    exact .inl ⟨_, hb, rfl⟩
  | unbound _ hm' hno =>
    obtain ⟨rfl, rfl⟩ := hm.unique hm'
    exact .inr ⟨hno, rfl⟩

/-- No call has two destinations. -/
lemma Destined.unique (hd : Destined rs w m d) (hd' : Destined rs w m d') : d = d' := by
  cases hd with
  | intercepted hb =>
    cases hd' with
    | intercepted hb' => rw [chosen_unique hb hb']
    | interpreted hfree | uninterpreted hfree | native hfree | unbound hfree | absent hfree =>
      exact absurd hb (hfree _)
  | native hfree hm hb =>
    rcases hd'.of_looksUp hfree hm with ⟨b', hb', rfl⟩ | ⟨hno, -⟩
    · rw [chosen_unique hb hb']
    · exact absurd hb (hno _)
  | unbound hfree hm hno =>
    rcases hd'.of_looksUp hfree hm with ⟨b', hb', -⟩ | ⟨-, rfl⟩
    · exact absurd hb' (hno _)
    · rfl
  | interpreted hfree hm hw => cases hd' <;> grind [Unserved, Method.LooksUp.implementation_ne]
  | uninterpreted hfree hm hw => cases hd' <;> grind [Unserved, Method.LooksUp.implementation_ne]
  | absent hfree hm => cases hd' <;> grind [Unserved, Method.LooksUp.implementation_ne]

/-! ## Registrations that do not matter -/

/-- The registration takes part in no choice that is made for a call of the method: neither among
the intrinsics nor in the table of its implementation. -/
def Registration.Immaterial (r : Registration) (rs : List Registration) (m : Method) : Prop :=
  ∀ kind name, kind = .intrinsic ∧ name = m.qualifiedName ∨ m.LooksUp kind name →
    ¬r.Matters (Registration.builtins ++ rs) kind name m

lemma destined_congr {rs' : List Registration}
    (hchosen : ∀ kind name b, kind = .intrinsic ∧ name = m.qualifiedName ∨ m.LooksUp kind name →
      (Registration.Chosen (Registration.builtins ++ rs') kind name m b ↔
        Registration.Chosen (Registration.builtins ++ rs) kind name m b))
    (hd : Destined rs w m d) : Destined rs' w m d := by
  have hunserved {kind : NativeKind} {name : String}
      (hcase : kind = .intrinsic ∧ name = m.qualifiedName ∨ m.LooksUp kind name)
      (hno : Unserved rs kind name m) : Unserved rs' kind name m :=
    fun b hb => hno b ((hchosen kind name b hcase).mp hb)
  cases hd with
  | intercepted hb => exact .intercepted ((hchosen _ _ _ (.inl ⟨rfl, rfl⟩)).mpr hb)
  | interpreted hfree hm hw => exact .interpreted (hunserved (.inl ⟨rfl, rfl⟩) hfree) hm hw
  | uninterpreted hfree hm hw => exact .uninterpreted (hunserved (.inl ⟨rfl, rfl⟩) hfree) hm hw
  | native hfree hm hb =>
    exact .native (hunserved (.inl ⟨rfl, rfl⟩) hfree) hm ((hchosen _ _ _ (.inr hm)).mpr hb)
  | unbound hfree hm hno =>
    exact .unbound (hunserved (.inl ⟨rfl, rfl⟩) hfree) hm (hunserved (.inr hm) hno)
  | absent hfree hm => exact .absent (hunserved (.inl ⟨rfl, rfl⟩) hfree) hm

lemma destined_insert (hextra : ∀ r ∈ extra, r.Immaterial (before ++ rest) m) :
    Destined (before ++ extra ++ rest) w m d ↔ Destined (before ++ rest) w m d := by
  have hchosen (kind : NativeKind) (name : String) (b : Binding)
      (hcase : kind = .intrinsic ∧ name = m.qualifiedName ∨ m.LooksUp kind name) :
      Registration.Chosen (Registration.builtins ++ (before ++ extra ++ rest)) kind name m b ↔
        Registration.Chosen (Registration.builtins ++ (before ++ rest)) kind name m b := by
    simp only [← List.append_assoc]
    refine Registration.chosen_insert fun r hr => ?_
    rw [List.append_assoc]
    exact hextra r hr kind name hcase
  exact ⟨destined_congr fun kind name b hcase => (hchosen kind name b hcase).symm,
    destined_congr hchosen⟩

end Dispatch

/-! ## Histories of hosts -/

namespace Host

variable {w : World} {h h' : Host}

/-- A step of running code leaves the native tables as they are, or makes one registration. -/
lemma RunChange.natives_eq_or (hc : RunChange w h h') :
    h'.natives = h.natives ∨ ∃ r, h'.natives = h.natives.record r := by
  cases hc with
  | learns hl => exact .inl hl.idle.natives_eq
  | logged => exact .inl rfl
  | entered => exact .inl rfl
  | initStarted => exact .inl (natives_modifyClass _ _)
  | initEnded => exact .inl (natives_modifyClass _ _)
  | natives r => exact .inr ⟨r, rfl⟩
  | libraries => exact .inl rfl

/-- What happens in a run extends the history of registrations. -/
lemma Later.natives {W : World → Prop} {rs : List Registration} (hl : h.Later W h')
    (hn : h.natives = .after rs) : ∃ new, h'.natives = .after (rs ++ new) := by
  refine hl.preserves (P := fun g => ∃ new, g.natives = .after (rs ++ new)) ?_ ⟨[], by simpa⟩
  rintro w - g g' hc ⟨new, hnew⟩
  rcases hc.natives_eq_or with hsame | ⟨r, hr⟩
  · exact ⟨new, hsame.trans hnew⟩
  · refine ⟨new ++ [r], ?_⟩
    rw [hr, hnew, ← List.append_assoc, NativeTables.after_concat]

end Host

/-- A host that was started has made its own registrations only. -/
lemma natives_start {s : Setup} {next rest : Nat} {h : Host} (hs : s.start next = (.ok h, rest)) :
    h.natives = .after [] := by
  obtain ⟨w, a, h₁, record, -, hload, -, rfl⟩ := start_eq_ok hs
  have hloads := ((isLoader_load w _ _ (Host.wellformed_blank next s.config)).of_ok hload).1
  exact hloads.toExtends.natives_eq

/-- At every point of a run, the tables are those of some history of registrations. -/
lemma natives_of_reached {fs : List Frame} {h : Host} (hr : Reached fs h) :
    ∃ rs, h.natives = .after rs := by
  obtain ⟨s, next, rest, h₀, hs, hl⟩ := hr.exists_start
  exact hl.natives (natives_start hs)

/-- The host after the commands of some registrations. -/
def registerAll (depth : Nat) (w : World) (h : Host) (rs : List Registration) : Host :=
  rs.foldl (fun g r => (performWithin depth r.command w g).2) h

/-- A command that registers native code does nothing else. -/
lemma performWithin_command (depth : Nat) (w : World) (h : Host) (r : Registration) :
    (performWithin depth r.command w h).2 = { h with natives := h.natives.record r } := by
  cases r <;> unfold performWithin <;> rfl

lemma registerAll_eq (depth : Nat) (w : World) {h : Host} {rs : List Registration}
    (hn : h.natives = .after rs) (new : List Registration) :
    registerAll depth w h new = { h with natives := .after (rs ++ new) } := by
  induction new generalizing h rs with
  | nil =>
    rw [List.append_nil, ← hn]
    rfl
  | cons r new ih =>
    have hrecord : h.natives.record r = .after (rs ++ [r]) := by
      rw [NativeTables.after_concat, hn]
    rw [registerAll, List.foldl_cons, performWithin_command, hrecord]
    refine (ih rfl).trans ?_
    rw [List.append_assoc, List.singleton_append]

/-! ## Where calls go -/

/-- Which code carries out a method is determined by the history of registrations: those that the
host makes itself, and those that have been made since, in their order. -/
theorem dispatch_of_history (rs : List Registration) :
    -- every host has such a history, which begins when the host is started
    (∀ s next rest h, Setup.start s next = (.ok h, rest) → h.natives = .after []) ∧
    (∀ depth w h new, h.natives = .after rs →
      registerAll depth w h new = { h with natives := .after (rs ++ new) }) ∧
    (∀ W (h h' : Host), h.natives = .after rs → h.Later W h' →
      ∃ new, h'.natives = .after (rs ++ new)) ∧
    (∀ fs h, Reached fs h → ∃ rs', h.natives = .after rs') ∧
    -- the history gives every call one destination, whose body is executed
    (∀ w m, ∃! d, Destined rs w m d) ∧
    (∀ w h m d, h.natives = .after rs → Destined rs w m d →
      ∀ handle args result, ArrivesAt handle m args result w h d) ∧
    -- calls and initializers of classes take this way
    (∀ handle m args result w h h₁, prepare handle m args result w h = (.ok (), h₁) →
      invokeWith handle m args result w h =
        (do
          let done ← dispatch handle m (args.take m.argSlots) (result.take m.resultSlots)
          return { done with result := result.overlay done.result } : Op Completion) w h₁) ∧
    (∀ handle c m w h h₁, typeInitializer c w h = (.ok (some m), h₁) →
      executeInitializer handle c w h =
        (do ofExcept (← dispatch handle m [] []).outcome : Op Unit) w h₁) ∧
    -- registrations that do not matter have no influence, whenever they are made
    ∀ extra rest w m d, (∀ r ∈ extra, r.Immaterial (rs ++ rest) m) →
      (Destined (rs ++ extra ++ rest) w m d ↔ Destined (rs ++ rest) w m d) := by
  refine ⟨fun s next rest h hs => natives_start hs,
    fun depth w h new hn => registerAll_eq depth w hn new,
    fun W h h' hn hl => hl.natives hn,
    fun fs h hr => natives_of_reached hr,
    fun w m => existsUnique_of_exists_of_unique (exists_destined rs w m) fun _ _ hd => hd.unique,
    fun w h m d hn hd handle args result => hd.arrivesAt hn,
    fun handle m args result w h h₁ hp => ?_,
    fun handle c m w h h₁ hm => bind_run_ok hm,
    fun extra rest w m d hextra => destined_insert hextra⟩
  have hready : attempt (prepare handle m args result) w h = (.ok (.ok ()), h₁) := by
    rw [attempt, hp]
  rw [invokeWith_eq]
  exact bind_run_ok hready

/-! Two registrations for a constructor that is an internal call, and one of an intrinsic for
another method.  The code for constructors stores a number. -/

namespace RegistrationSpecimen

/-- The constructor. -/
def constructor : Method :=
  { (default : Method) with
    name := ".ctor"
    qualifiedName := "App.Point::.ctor"
    isSpecial := true
    implementation := .internalCall }

/-- The registrations for it. -/
def history : List Registration :=
  [.constructors .internalCall "App.Point::.ctor" (.labelled "create"),
   .plain .internalCall "App.Point::.ctor" (.labelled "init") .marshalling]

/-- The other registration. -/
def other : Registration :=
  .plain .intrinsic "App.Point::Move" (.labelled "move") .unary

/-- What the host is started with. -/
def setup : Setup :=
  { Specimen.setup with
    invoker := fun label _ _ =>
      if label = "create" then .done .returned [42] else .done (.failed (.invocation label)) [] }

lemma destined_history (w : World) :
    Destined history w constructor (.native .internalCall ⟨none, .labelled "create"⟩) :=
  .native (find_eq_none_iff.mp (by decide +kernel)) (.internalCall rfl)
    (NativeTables.find_after_iff.mp (by decide +kernel))

lemma immaterial_other : other.Immaterial history constructor := by
  rintro kind name (⟨rfl, rfl⟩ | hm) hmatters
  · revert hmatters
    decide +kernel
  · obtain ⟨rfl, rfl⟩ := hm.unique (.internalCall rfl)
    revert hmatters
    decide +kernel

end RegistrationSpecimen

open RegistrationSpecimen in
/-- A call of the constructor executes the body of the code for constructors, although code for all
methods has been registered since, and although an intrinsic has been registered.  So it ends with
the number that this body stores. -/
theorem dispatch_of_history_constructor :
    setup.start 1 = (.ok setup.firstHost, 2) ∧ other.Immaterial history constructor ∧
    ∀ depth w handle args result,
      Executes handle (.native .internalCall ⟨none, .labelled "create"⟩)
        ⟨constructor, none, args, result⟩ (w.invoker "create") w
        (registerAll depth w setup.firstHost (history ++ [other]))
        (dispatch handle constructor args result w
          (registerAll depth w setup.firstHost (history ++ [other]))) ∧
      (w = setup.world → dispatch handle constructor args [0, 7] w
          (registerAll depth w setup.firstHost (history ++ [other])) =
        (.ok ⟨.ok (), [42, 7]⟩, (registerAll depth w setup.firstHost (history ++ [other])).note
          (.entered (.native .internalCall ⟨none, .labelled "create"⟩) constructor
            args.length 2))) := by
  have hstart : setup.start 1 = (.ok setup.firstHost, 2) := by decide +kernel
  have harrives (depth : Nat) (w : World) (handle : Handler) (args result : Buffer) :
      ArrivesAt handle constructor args result w
        (registerAll depth w setup.firstHost (history ++ [other]))
        (.native .internalCall ⟨none, .labelled "create"⟩) := by
    obtain ⟨hbegin, hregister, -⟩ := dispatch_of_history []
    have hnatives : (registerAll depth w setup.firstHost (history ++ [other])).natives =
        .after (history ++ [other]) :=
      congrArg Host.natives (hregister depth w _ _ (hbegin _ _ _ _ hstart))
    obtain ⟨-, -, -, -, -, -, -, -, hinsert⟩ := dispatch_of_history history
    have hdestined := (hinsert [other] [] w constructor _ (by simpa using immaterial_other)).mpr
      (by simpa using destined_history w)
    obtain ⟨-, -, -, -, -, harrives, -⟩ := dispatch_of_history (history ++ [other])
    exact harrives w _ constructor _ hnatives (by simpa using hdestined) handle args result
  refine ⟨hstart, immaterial_other, fun depth w handle args result =>
    ⟨harrives depth w handle args result, ?_⟩⟩
  rintro rfl
  exact (harrives depth setup.world handle args [0, 7]).returned [42] _ rfl

end ManagedHost
