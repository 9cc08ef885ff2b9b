/-
# Commands keep to their relation

Every command that a host carries out, whatever bodies it enters and however deep they turn back
to the host, ends in a state to which `Host.Completes` leads.  Bodies are followed by induction,
and the handler that carries out their commands is assumed to keep to the relation; the recursion
on the depth of calls discharges the assumption.

Calling a method is split where control is handed over: `Op.prepare` is what happens before.
-/
import ManagedHost.Proofs.Running

namespace ManagedHost

variable {α : Type} {w : World} {h : Host} {handle : Handler}

namespace Op

/-- Reflection is something that running code does. -/
lemma Obeys.completes {K : List Facet} {x : Op α} {Q : α → Host → Prop}
    (hx : x.Obeys w (Host.Learns w K) h Q) : x.Obeys w (Host.Completes w) h Q :=
  hx.mono (fun _ hl => hl.completes) fun _ _ _ hq => hq

/-- A handler that keeps to the relation, whatever the command. -/
def IsHandler (w : World) (handle : Handler) : Prop :=
  ∀ c h, h.Wellformed → (handle c).Obeys w (Host.Completes w) h fun _ _ => True

/-! ## Bodies -/

/-- Native functions do no more to a host than log lines. -/
lemma callNative_obeys {R : Host → Host → Prop} [IsPreorder Host R]
    (hlog : ∀ g channel line, R g (g.note (.logged channel line))) (f : NativeFunction)
    (words : List UInt64) : (callNative f words).Obeys w R h fun _ _ => True := by
  cases f with
  | null => exact obeys_lose
  | math g => exact obeys_pure trivial
  | labelled label =>
    unfold callNative
    rw [obeys_world_bind, obeys_host_bind]
    split
    · exact obeys_lose
    · exact (obeys_each (P := fun _ _ => True) (fun _ _ _ _ _ => trivial)
        fun line _ g _ => (obeys_note (hlog g .native line)).trivial_post).bind
          fun _ _ _ _ => obeys_pure trivial

lemma completes_log (h : Host) (channel : Channel) (line : String) :
    h.Completes w (h.note (.logged channel line)) :=
  .of_note (.logged h channel line) (fun hi => hi) trivial

lemma execute_obeys (hh : IsHandler w handle) (body : Body) (hw : h.Wellformed) :
    (execute handle body).Obeys w (Host.Completes w) h fun _ _ => True := by
  induction body generalizing h with
  | done ending result => exact obeys_pure trivial
  | log channel line next ih =>
    exact (obeys_note (completes_log h channel line)).bind fun _ _ hc _ => ih (hc.wellformed hw)
  | inspect next ih =>
    rw [execute, obeys_host_bind]
    exact ih h hw
  | request command next ih =>
    exact (hh command h hw).bind fun reply _ hc _ => ih reply (hc.wellformed hw)
  | native f words next ih =>
    exact (callNative_obeys completes_log f words).bind
      fun word _ hc _ => ih word (hc.wellformed hw)

lemma enter_obeys (hh : IsHandler w handle) (route : Route) (call : Call)
    (body : World → Journal → Call → Body) (hw : h.Wellformed)
    (hs : h.Suits call.method call.args.length call.result.length) :
    (enter handle route call body).Obeys w (Host.Completes w) h fun _ _ => True := by
  refine (obeys_note (.of_note (.entered h route _ _ _) (fun hi => hi) hs)).bind
    fun _ h₁ hc _ => ?_
  rw [obeys_world_bind, obeys_host_bind]
  exact (execute_obeys hh _ (hc.wellformed hw)).bind fun _ _ _ _ => obeys_pure trivial

lemma dispatchNative_obeys (hh : IsHandler w handle) (kind : NativeKind) (name : String)
    (m : Method) (args result : Buffer) (hw : h.Wellformed)
    (hs : h.Suits m args.length result.length) :
    (dispatchNative handle kind name m args result).Obeys w (Host.Completes w) h
      fun _ _ => True := by
  unfold dispatchNative
  rw [obeys_host_bind]
  split
  · exact enter_obeys hh _ _ _ hw hs
  · exact obeys_pure trivial

lemma dispatchOwn_obeys (hh : IsHandler w handle) (m : Method) (args result : Buffer)
    (hw : h.Wellformed) (hs : h.Suits m args.length result.length) :
    (dispatchOwn handle m args result).Obeys w (Host.Completes w) h fun _ _ => True := by
  unfold dispatchOwn
  split
  · rw [obeys_world_bind]
    split
    · exact enter_obeys hh _ _ _ hw hs
    · exact obeys_pure trivial
  · exact dispatchNative_obeys hh _ _ m args result hw hs
  · exact dispatchNative_obeys hh _ _ m args result hw hs
  · exact dispatchNative_obeys hh _ _ m args result hw hs
  · exact obeys_pure trivial

lemma dispatch_obeys (hh : IsHandler w handle) (m : Method) (args result : Buffer)
    (hw : h.Wellformed) (hs : h.Suits m args.length result.length) :
    (dispatch handle m args result).Obeys w (Host.Completes w) h fun _ _ => True := by
  unfold dispatch
  rw [obeys_host_bind]
  split
  · exact enter_obeys hh _ _ _ hw hs
  · exact dispatchOwn_obeys hh m args result hw hs

/-! ## Initializers -/

/-- The initializer of a class that has been started is entered without any slots. -/
lemma executeInitializer_obeys (hh : IsHandler w handle) (c : ClassHandle) (hw : h.Wellformed)
    (hj : .initStarted c ∈ h.journal) :
    (executeInitializer handle c).Obeys w (Host.Completes w) h fun _ _ => True := by
  refine (typeInitializer_obeys c hw).completes.bind fun m h₁ hc hq => ?_
  cases m with
  | none => exact obeys_pure trivial
  | some m =>
    obtain ⟨hm, r, hr, hmem⟩ := hq m rfl
    have hs : h₁.Suits m 0 0 :=
      .inr ⟨rfl, rfl, hm, c, r, hr, hmem, hc.journal_subset hj⟩
    refine (dispatch_obeys hh m [] [] (hc.wellformed hw) hs).bind fun done _ _ _ => ?_
    exact (obeys_ofExcept done.outcome).trivial_post

section

variable {c : ClassHandle} {r : Class}

/-- Asking for the initializer of a class changes nothing when the class is ready, or while the
initializer is running. -/
lemma runInitializerWith_passed (hr : h.cls c = .ok r)
    (hi : r.init = .ready ∨ r.init = .running workingThread) :
    runInitializerWith handle c w h = (.ok (), h) := by
  rw [runInitializerWith, bind_run_ok (cls_run hr)]
  rcases hi with hi | hi <;> simp [hi, InitState.begin, pure_run]

/-- An initializer that has failed is not run again. -/
lemma runInitializerWith_failed (hr : h.cls c = .ok r) {e : Error} (hi : r.init = .failed e) :
    runInitializerWith handle c w h = (.error (.failed (.initializerFailed r.fullName e)), h) := by
  rw [runInitializerWith, bind_run_ok (cls_run hr)]
  simp [hi, InitState.begin, fail_run]

lemma runInitializerWith_other (hr : h.cls c = .ok r) {t : Thread} (hi : r.init = .running t)
    (ht : t ≠ workingThread) : runInitializerWith handle c w h = (.error .lost, h) := by
  rw [runInitializerWith, bind_run_ok (cls_run hr)]
  simp [hi, InitState.begin, ht, lose]

/-- The first time it is asked for, the initializer is run, and how it ended is kept. -/
lemma runInitializerWith_untouched (hr : h.cls c = .ok r) (hi : r.init = .untouched) :
    runInitializerWith handle c w h =
      match executeInitializer handle c w (h.startInit c) with
      | (.ok (), h₁) => (.ok (), h₁.endInit c none)
      | (.error (.failed e), h₁) =>
        (.error (.failed (.initializerFailed r.fullName e)), h₁.endInit c (some e))
      | (.error .lost, h₁) => (.error .lost, h₁) := by
  rw [runInitializerWith, bind_run_ok (cls_run hr)]
  simp only [hi, InitState.begin]
  change Op.bind (attempt (executeInitializer handle c)) _ w (h.startInit c) = _
  simp only [Op.bind, attempt]
  rcases executeInitializer handle c w (h.startInit c) with ⟨(e | _) | n, h₁⟩ <;> rfl

end

/-- After the initializer of a class has been asked for, the class is ready; or else its
initializer was running already, and nothing has changed. -/
lemma runInitializerWith_obeys (hh : IsHandler w handle) (c : ClassHandle) (hw : h.Wellformed) :
    (runInitializerWith handle c).Obeys w (Host.Completes w) h fun _ h' =>
      h'.initOf c = .ready ∨ h' = h ∧ h.initOf c = .running workingThread := by
  rcases hr : h.cls c with e | r
  · have hrun : runInitializerWith handle c w h = (.error (.failed e), h) :=
      bind_run_error (cls_run_error hr)
    rw [Obeys, hrun]
    exact refl_of (Host.Completes w) h
  have hinit := Host.initOf_of_cls hr
  have hc : h.Has c := Host.has_iff_cls.mpr ⟨r, hr⟩
  cases hi : r.init with
  | ready =>
    rw [Obeys, runInitializerWith_passed hr (.inl hi)]
    exact ⟨refl_of (Host.Completes w) h, .inl (hinit.trans hi)⟩
  | failed e =>
    rw [Obeys, runInitializerWith_failed hr hi]
    exact refl_of (Host.Completes w) h
  | running t =>
    by_cases ht : t = workingThread
    · subst ht
      rw [Obeys, runInitializerWith_passed hr (.inr hi)]
      exact ⟨refl_of (Host.Completes w) h, .inr ⟨rfl, hinit.trans hi⟩⟩
    · rw [Obeys, runInitializerWith_other hr hi ht]
      trivial
  | untouched =>
    have hu : h.initOf c = .untouched := hinit.trans hi
    have hw₁ : (h.startInit c).Wellformed := (hw.setInit c _).note _
    have hex := executeInitializer_obeys hh c hw₁ (by simp [Host.journal_startInit])
    rw [Obeys, runInitializerWith_untouched hr hi]
    rcases hrun : executeInitializer handle c w (h.startInit c) with ⟨(e | _) | u, h₁⟩
    · exact .of_initializer hc hu (hex.of_failed hrun) (some e)
    · trivial
    · have h01 := (hex.of_ok hrun).1
      refine ⟨.of_initializer hc hu h01 none, .inl ?_⟩
      have hrunning : h₁.initOf c = .running workingThread := by
        rw [h01.running, Host.initOf_startInit hc, if_pos rfl]
      rw [Host.initOf_endInit (Host.has_of_initOf (by simp [hrunning])), if_pos rfl]
      rfl

/-! ## Calls -/

/-- What happens in a call before control is handed over: the buffers are checked, and the
initializer of the class is asked for unless the method is one itself. -/
def prepare (handle : Handler) (m : Method) (args result : Buffer) : Op Unit := do
  checkCall m args result
  if m.isTypeInitializer then return () else runInitializerWith handle m.owner

lemma invokeWith_eq (handle : Handler) (m : Method) (args result : Buffer) :
    invokeWith handle m args result = do
      match ← attempt (prepare handle m args result) with
      | .error e => refuse e result
      | .ok () =>
        let done ← dispatch handle m (args.take m.argSlots) (result.take m.resultSlots)
        return { done with result := result.overlay done.result } :=
  rfl

lemma checkCall_obeys {R : Host → Host → Prop} [IsPreorder Host R] (m : Method)
    (args result : Buffer) :
    (checkCall m args result).Obeys w R h fun _ h' =>
      h' = h ∧ m.argSlots ≤ args.length ∧ m.resultSlots ≤ result.length := by
  refine (obeys_cls m.owner).bind fun r h₁ _ hq => ?_
  obtain ⟨rfl, -⟩ := hq
  split
  · exact obeys_fail
  · split
    · exact obeys_fail
    · exact obeys_pure ⟨rfl, by omega, by omega⟩

/-- A method that is not an initializer is called only when its class is ready, or when the
initializer of its class was running already. -/
lemma prepare_obeys (hh : IsHandler w handle) (m : Method) (args result : Buffer)
    (hw : h.Wellformed) :
    (prepare handle m args result).Obeys w (Host.Completes w) h fun _ h' =>
      m.isTypeInitializer ∨ h'.initOf m.owner = .ready ∨
        h' = h ∧ h.initOf m.owner = .running workingThread := by
  refine (checkCall_obeys m args result).bind fun _ h₁ _ hq => ?_
  obtain ⟨rfl, -⟩ := hq
  split
  · rename_i hm
    exact obeys_pure (.inl hm)
  · exact (runInitializerWith_obeys hh m.owner hw).post fun _ _ _ hq => .inr hq

/-- Control is handed over only with buffers that are large enough to be cut to size. -/
lemma slots_of_prepare {m : Method} {args result : Buffer} {h' : Host}
    (hp : prepare handle m args result w h = (.ok (), h')) :
    (args.take m.argSlots).length = m.argSlots ∧
      (result.take m.resultSlots).length = m.resultSlots := by
  obtain ⟨_, h₁, hcheck, -⟩ := bind_run_eq_ok hp
  obtain ⟨hargs, hresult⟩ := ((checkCall_obeys (R := Eq) m args result).of_ok hcheck).2.2
  exact ⟨List.length_take_of_le hargs, List.length_take_of_le hresult⟩

/-- A method that is called is entered with the slots that it counts. -/
lemma invokeWith_obeys (hh : IsHandler w handle) (m : Method) (args result : Buffer)
    (hw : h.Wellformed) :
    (invokeWith handle m args result).Obeys w (Host.Completes w) h fun _ _ => True := by
  rw [invokeWith_eq]
  refine (prepare_obeys hh m args result hw).and_run.attempt.bind fun ready h₁ hc hq => ?_
  split
  · exact obeys_pure trivial
  · have hs := slots_of_prepare (hq () rfl).2
    exact (dispatch_obeys hh m _ _ (hc.wellformed hw) (.inl hs)).bind
      fun _ _ _ _ => obeys_pure trivial

/-! ## Commands -/

lemma record_obeys (r : Registration) :
    (modify fun g => { g with natives := g.natives.record r }).Obeys w (Host.Completes w) h
      fun _ _ => True :=
  (obeys_modify (.of_quiet (.natives h _) ⟨fun _ => rfl, [], rfl, by simp⟩
    fun _ he => .inl he)).trivial_post

lemma bindLibrary_obeys (entry library symbol : String) :
    (bindLibrary entry library symbol).Obeys w (Host.Completes w) h fun _ _ => True := by
  unfold bindLibrary
  rw [obeys_host_bind, obeys_world_bind]
  have hregister (f : NativeFunction) (g : Host) :=
    record_obeys (w := w) (h := g) (.plain .pinvoke entry f .marshalling)
  split
  · refine (obeys_pure trivial).bind fun path g _ (_ : True) => ?_
    dsimp only
    split
    · exact obeys_fail
    · exact hregister _ g
  · refine (obeys_ofExcept _).bind fun path h₁ _ _ => ?_
    refine (obeys_modify (.of_quiet (.libraries h₁ _) ⟨fun _ => rfl, [], rfl, by simp⟩
      fun _ he => .inl he)).bind fun _ h₂ _ _ => ?_
    refine (obeys_pure trivial).bind fun path g _ (_ : True) => ?_
    dsimp only
    split
    · exact obeys_fail
    · exact hregister _ g

/-- The handler that a body is given when calls may still nest to a depth. -/
def commands (depth : Nat) : Handler :=
  fun c => attempt (performWithin depth c)

/-- A command keeps to the relation if those do that it may lead to. -/
lemma performWithin_obeys_of_isHandler {depth : Nat}
    (hh : ∀ d, depth = d + 1 → IsHandler w (commands d)) (c : Command) (hw : h.Wellformed) :
    (performWithin depth c).Obeys w (Host.Completes w) h fun _ _ => True := by
  unfold performWithin
  cases c with
  | load name => exact ((isLoader_load w name h hw).learns (K := [])).completes.trivial_post
  | interfaces c => exact (interfaces_obeys c hw).completes.trivial_post
  | nested c => exact (nested_obeys c hw).completes.trivial_post
  | methods c => exact (methods_obeys c hw).completes.trivial_post
  | fields c => exact (fields_obeys c hw).completes.trivial_post
  | properties c => exact (properties_obeys c hw).completes.trivial_post
  | events c => exact (events_obeys c hw).completes.trivial_post
  | byValue c => exact (byValue_obeys c hw).completes.trivial_post
  | layout c => exact (layout_obeys c hw).completes.trivial_post
  | sizeOf s => exact (sizeOf_obeys s hw).completes.trivial_post
  | runInitializer c =>
    cases depth with
    | zero => exact obeys_lose
    | succ d => exact (runInitializerWith_obeys (hh d rfl) c hw).trivial_post
  | invoke m args result =>
    cases depth with
    | zero => exact obeys_lose
    | succ d => exact invokeWith_obeys (hh d rfl) m args result hw
  | register kind name f i => exact record_obeys (.plain kind name f i)
  | registerConstructor kind name i => exact record_obeys (.constructors kind name i)
  | bind entry library symbol => exact bindLibrary_obeys entry library symbol

lemma isHandler_commands (w : World) (depth : Nat) : IsHandler w (commands depth) := by
  induction depth with
  | zero =>
    intro c h hw
    exact (performWithin_obeys_of_isHandler (by simp) c hw).attempt.trivial_post
  | succ depth ih =>
    intro c h hw
    refine (performWithin_obeys_of_isHandler (fun d hd => ?_) c hw).attempt.trivial_post
    cases hd
    exact ih

/-- Every command keeps to the relation, however deep calls may nest. -/
lemma performWithin_obeys (w : World) (depth : Nat) (c : Command) (h : Host)
    (hw : h.Wellformed) :
    (performWithin depth c).Obeys w (Host.Completes w) h fun _ _ => True :=
  performWithin_obeys_of_isHandler (fun d _ => isHandler_commands w d) c hw

/-- A command that has been carried out, successfully or not, leads to a later state. -/
lemma later_of_performWithin {W : World → Prop} {depth : Nat} {c : Command} (hw : h.Wellformed)
    (hW : W w) (hc : (performWithin depth c w h).1 ≠ .error .lost) :
    h.Later W (performWithin depth c w h).2 :=
  ((performWithin_obeys w depth c h hw).rel hc).later hW

end Op

end ManagedHost
