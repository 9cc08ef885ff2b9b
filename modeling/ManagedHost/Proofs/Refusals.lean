/-
# What a host refuses, and what a call leaves alone

A handle is good for the host that issued it.  A host that is given another one answers as if
there were nothing, or fails and names the handle; in both cases it is afterwards what it was
before.  The same holds of a call with a buffer that is too short.  A call that gets past these
checks may do anything, except write to the buffer of its result behind the slots of the result.
-/
import ManagedHost.Proofs.Collections
import ManagedHost.Proofs.Marshalling

namespace ManagedHost

open Op

variable {α β : Type} {w : World} {h : Host}

/-! ## Handles of other hosts -/

namespace Host

lemma lookup_eq_none {owner id index : Nat} {table : List α}
    (hf : owner ≠ id ∨ table.length ≤ index) :
    (if owner = id then table[index]? else none) = none := by
  rcases hf with hne | hle
  · exact if_neg hne
  · rw [List.getElem?_eq_none hle, ite_self]

lemma assembly_eq_error {a : AssemblyHandle}
    (hf : a.owner ≠ h.id ∨ h.assemblies.length ≤ a.index) :
    h.assembly a = .error (.invalidHandle a.text) := by
  rw [assembly, lookup_eq_none hf]

lemma module_eq_error {m : ModuleHandle} (hf : m.owner ≠ h.id ∨ h.modules.length ≤ m.index) :
    h.module m = .error (.invalidHandle m.text) := by
  rw [module, lookup_eq_none hf]

lemma cls_eq_error {c : ClassHandle} (hf : c.owner ≠ h.id ∨ h.classes.length ≤ c.index) :
    h.cls c = .error (.invalidHandle c.text) := by
  rw [cls, lookup_eq_none hf]

lemma cls?_eq_none {c : ClassHandle} (hf : c.owner ≠ h.id ∨ h.classes.length ≤ c.index) :
    h.cls? c = none := by
  rw [cls?, cls_eq_error hf]
  rfl

end Host

/-- The operations on a class that answer or fail. -/
inductive ClassOperation (c : ClassHandle) : {α : Type} → Op α → Prop
  | record : ClassOperation c (cls c)
  | members (k : Kind) : ClassOperation c (k.request c)
  | lookup {k : Kind} {x : Op (Option k.Item)} (hx : k.Lookup c x) : ClassOperation c x
  | byValue : ClassOperation c (byValue c)
  | byReference : ClassOperation c (byReference c)
  | layout : ClassOperation c (layout c)
  | sizeOf : ClassOperation c (sizeOf (.value c))
  | runInitializer (depth : Nat) :
      ClassOperation c (performWithin (depth + 1) (.runInitializer c))

/-- Every operation on a class looks at the record of the class before it does anything else. -/
lemma ClassOperation.run_error {c : ClassHandle} {x : Op α} (hx : ClassOperation c x) {e : Error}
    (hr : h.cls c = .error e) : x w h = (.error (.failed e), h) := by
  have hcls : cls c w h = (.error (.failed e), h) := cls_run_error hr
  have hmembers (k : Kind) : k.request c w h = (.error (.failed e), h) := by
    cases k <;> exact bind_run_error hcls
  have hlayout : Op.layout c w h = (.error (.failed e), h) := by
    rw [Op.layout, layoutWithin]
    exact bind_run_error hcls
  cases hx with
  | record => exact hcls
  | members k => exact hmembers k
  | @lookup k _ hx => exact hx.run_error (hmembers k)
  | byValue => exact bind_run_error hcls
  | byReference => exact bind_run_error (bind_run_error hcls)
  | layout => exact hlayout
  | sizeOf => exact bind_run_error hlayout
  | runInitializer depth => exact bind_run_error hcls

lemma raising_run_of_failed {x : Op α} {e : Error} {h' : Host}
    (hx : x w h = (.error (.failed e), h')) :
    raising x w h = (.ok (.error (w.exceptions e none none)), h') := by
  have hattempt : attempt x w h = (.ok (.error e), h') := by
    rw [attempt, hx]
  exact bind_run_ok hattempt

/-- A call that does not get past its checks fails, and this is all that happens. -/
lemma invokeWith_run_of_check {handle : Handler} {m : Method} {args result : Buffer} {e : Error}
    (hc : checkCall m args result w h = (.error (.failed e), h)) :
    invokeWith handle m args result w h = (.ok ⟨.error e, result⟩, h) := by
  have hattempt : attempt (prepare handle m args result) w h = (.ok (.error e), h) := by
    rw [attempt, prepare, bind_run_error hc]
  rw [invokeWith_eq, bind_run_ok hattempt]
  rfl

lemma checkCall_run_of_cls_error {m : Method} {args result : Buffer} {e : Error}
    (hr : h.cls m.owner = .error e) : checkCall m args result w h = (.error (.failed e), h) :=
  bind_run_error (cls_run_error hr)

/-- Every operation of a host that is given a handle of another host, or one that no host has
issued yet, answers that there is nothing or fails with an error that carries the text of exactly
this handle, and leaves the host as it was.  The exception object built for the error by default is
a `System.ArgumentException`. -/
theorem foreign_handles_refused (h : Host) (w : World) :
    (∀ a : AssemblyHandle, a.owner ≠ h.id ∨ h.assemblies.length ≤ a.index →
      h.moduleOf a = none ∧
      assembly a w h = (.error (.failed (.invalidHandle a.text)), h)) ∧
    (∀ m : ModuleHandle, m.owner ≠ h.id ∨ h.modules.length ≤ m.index →
      h.assemblyOf m = none ∧ h.isCorlib m = false ∧ h.moduleStem m = none ∧
      h.classCount m = 0 ∧ (∀ exportedOnly, h.classesOf m exportedOnly = []) ∧
      (∀ fullName ignoreCase, h.classByName m fullName ignoreCase = none) ∧
      module m w h = (.error (.failed (.invalidHandle m.text)), h)) ∧
    (∀ c : ClassHandle, c.owner ≠ h.id ∨ h.classes.length ≤ c.index →
      h.isExported c = false ∧ h.ancestors c = [] ∧ h.isValueType c = false ∧
      h.isEnum c = false ∧
      (∀ (α : Type) (x : Op α), ClassOperation c x →
        x w h = (.error (.failed (.invalidHandle c.text)), h) ∧
        raising x w h = (.ok (.error (w.exceptions (.invalidHandle c.text) none none)), h)) ∧
      ∀ depth m args result, m.owner = c →
        performWithin (depth + 1) (.invoke m args result) w h =
          (.ok ⟨.error (.invalidHandle c.text), result⟩, h)) ∧
    ∀ text, (Error.toException (.invalidHandle text) none none).typeName =
      "System.ArgumentException" := by
  refine ⟨fun a hf => ?_, fun m hf => ?_, fun c hf => ?_, fun text => rfl⟩
  · have ha := Host.assembly_eq_error hf
    refine ⟨?_, ?_⟩
    · rw [Host.moduleOf, ha]
      rfl
    · change (liftM (h.assembly a) : Op Assembly) w h = _
      rw [liftM_run, ha]
      rfl
  · have hm := Host.module_eq_error hf
    have hnone : (h.module m).toOption = none := by
      rw [hm]
      rfl
    refine ⟨?_, ?_, ?_, ?_, fun exportedOnly => ?_, fun fullName ignoreCase => ?_, ?_⟩
    · rw [Host.assemblyOf, hnone, Option.map_none]
    · rw [Host.isCorlib, hnone, Option.map_none, Option.getD_none]
    · rw [Host.moduleStem, hnone, Option.map_none]
    · rw [Host.classCount, hnone, Option.map_none, Option.getD_none]
    · rw [Host.classesOf, hnone]
    · rw [Host.classByName, hnone, Option.bind_none]
    · change (liftM (h.module m) : Op Module) w h = _
      rw [liftM_run, hm]
      rfl
  · have hc := Host.cls_eq_error hf
    have hnone := Host.cls?_eq_none hf
    refine ⟨Host.isExportedWithin_eq_false hnone _, Host.ancestorsWithin_eq_nil hnone _, ?_, ?_,
      fun α x hx => ?_, ?_⟩
    · rw [Host.isValueType, hnone]
    · rw [Host.isEnum, hnone, Option.bind_none]
    · have hrun := hx.run_error (w := w) hc
      exact ⟨hrun, raising_run_of_failed hrun⟩
    · rintro depth m args result rfl
      exact invokeWith_run_of_check (checkCall_run_of_cls_error hc)

/-- A host that has run is given handles of the host that would be started next, and handles of
its own number that it has not issued. -/
theorem foreign_handles_refused_specimen :
    Specimen.hostWithA.moduleOf ⟨2, 0⟩ = none ∧
    Specimen.hostWithA.classesOf ⟨1, 9⟩ false = [] ∧
    raising (layout ⟨2, 1⟩) Specimen.setup.world Specimen.hostWithA =
      (.ok (.error (Specimen.setup.world.exceptions (.invalidHandle "ClassHandle#1@2") none none)),
        Specimen.hostWithA) ∧
    runInitializer ⟨1, 9⟩ Specimen.setup.world Specimen.hostWithA =
      (.error (.failed (.invalidHandle "ClassHandle#9@1")), Specimen.hostWithA) := by
  obtain ⟨hassembly, hmodule, hclass, -⟩ :=
    foreign_handles_refused Specimen.hostWithA Specimen.setup.world
  have hforeign := (hclass ⟨2, 1⟩ (by decide +kernel)).2.2.2.2.1
  have hbeyond := (hclass ⟨1, 9⟩ (by decide +kernel)).2.2.2.2.1
  refine ⟨(hassembly ⟨2, 0⟩ (by decide +kernel)).1,
    (hmodule ⟨1, 9⟩ (by decide +kernel)).2.2.2.2.1 false, ?_, ?_⟩
  · exact (hforeign _ _ .layout).2
  · exact (hbeyond _ _ (.runInitializer 2)).1

/-! ## What a call does to the buffer of its result -/

namespace Buffer

@[simp] lemma length_overlay (b new : Buffer) : (b.overlay new).length = b.length := by
  rw [overlay, List.length_append, List.length_take, List.length_drop]
  omega

/-- The slots behind those that are written stay as they are. -/
lemma drop_overlay {b new : Buffer} {n : Nat} (hn : new.length ≤ n) :
    (b.overlay new).drop n = b.drop n := by
  rw [overlay]
  rcases Nat.le_total new.length b.length with hle | hle
  · rw [List.take_of_length_le hle, List.drop_append, List.drop_of_length_le hn, List.nil_append,
      List.drop_drop, Nat.add_sub_cancel' hn]
  · -- the buffer is full before `n`
    have hb : b.length ≤ n := Nat.le_trans hle hn
    rw [List.drop_of_length_le hle, List.append_nil, List.drop_of_length_le hb,
      List.drop_of_length_le (by rw [List.length_take]; omega)]

end Buffer

namespace Op

lemma each_note_answers (f : α → JournalEntry) (xs : List α) :
    (each (fun a => note (f a)) xs).Answers w h fun _ _ => True := by
  induction xs generalizing h with
  | nil => exact ends_pure trivial
  | cons a rest ih =>
    exact ends_modify.bind fun _ _ _ => ih.bind fun _ _ _ => ends_pure trivial

lemma callNative_answers (f : NativeFunction) (words : List UInt64) :
    (callNative f words).Answers w h fun _ _ => True := by
  cases f with
  | null => exact ends_lose trivial
  | math g => exact ends_pure trivial
  | labelled label =>
    refine ends_world_bind.mpr (ends_host_bind.mpr ?_)
    split
    · exact ends_lose trivial
    · exact (each_note_answers _ _).bind fun _ _ _ => ends_pure trivial

variable {handle : Handler} (hh : ∀ c h, (handle c).Answers w h fun _ _ => True)
include hh

/-- A body ends, one way or another, or is lost: the commands that it puts are answered to it. -/
lemma execute_answers (b : Body) : (execute handle b).Answers w h fun _ _ => True := by
  induction b generalizing h with
  | done ending result => exact ends_pure trivial
  | log channel line next ih => exact ends_modify.bind fun _ _ _ => ih
  | inspect next ih => exact ends_host_bind.mpr (ih h)
  | request command next ih => exact (hh command h).bind fun reply _ _ => ih reply
  | native f words next ih => exact (callNative_answers f words).bind fun word _ _ => ih word

lemma enter_answers (route : Route) (call : Call) (body : World → Journal → Call → Body) :
    (enter handle route call body).Answers w h fun done _ =>
      done.result.length = call.result.length := by
  refine ends_modify.bind fun _ h₁ _ => ?_
  rw [ends_world_bind, ends_host_bind]
  refine (execute_answers hh _).bind fun (ending, result) _ _ => ends_pure ?_
  exact Buffer.length_overlay _ _

lemma dispatchNative_answers (kind : NativeKind) (name : String) (m : Method)
    (args result : Buffer) :
    (dispatchNative handle kind name m args result).Answers w h fun done _ =>
      done.result.length = result.length := by
  refine ends_host_bind.mpr ?_
  split
  · exact enter_answers hh _ _ _
  · exact ends_pure rfl

/-- However a method is carried out, what comes back has the length of the slots handed over. -/
lemma dispatch_answers (m : Method) (args result : Buffer) :
    (dispatch handle m args result).Answers w h fun done _ =>
      done.result.length = result.length := by
  refine ends_host_bind.mpr ?_
  split
  · exact enter_answers hh _ _ _
  · unfold dispatchOwn
    split
    · refine ends_world_bind.mpr ?_
      split
      · exact enter_answers hh _ _ _
      · exact ends_pure rfl
    · exact dispatchNative_answers hh _ _ m args result
    · exact dispatchNative_answers hh _ _ m args result
    · exact dispatchNative_answers hh _ _ m args result
    · exact ends_pure rfl

/-- A call writes to the buffer of its result within the slots of the result only. -/
lemma invokeWith_answers (m : Method) (args result : Buffer) :
    (invokeWith handle m args result).Answers w h fun done _ =>
      done.result.length = result.length ∧
        done.result.drop m.resultSlots = result.drop m.resultSlots := by
  rw [invokeWith_eq]
  refine (ends_attempt _).bind fun ready h₁ _ => ?_
  split
  · exact ends_pure ⟨rfl, rfl⟩
  · refine (dispatch_answers hh m _ _).bind fun done _ hdone => ends_pure ⟨?_, ?_⟩
    · exact Buffer.length_overlay _ _
    · have hle : done.result.length ≤ m.resultSlots := by
        rw [hdone, List.length_take]
        omega
      exact Buffer.drop_overlay hle

end Op

/-! ## Calls -/

/-- A call first checks that the host has the class of the method, then that there are enough
slots of arguments, then that there is room for the result.  At the first check that does not hold
it fails, with the handle or with the needed and the available slots, and neither the host nor the
buffer of the result has changed.  Otherwise it comes back, unless it is lost, whatever the
interpreter and native code do; and whether it has succeeded or failed, the buffer of the result
has kept its length and all slots behind those of the result. -/
theorem calls_check_then_write_result_slots (w : World) (h : Host) (depth : Nat) (m : Method)
    (args result : Buffer) :
    (¬h.Has m.owner →
      performWithin (depth + 1) (.invoke m args result) w h =
        (.ok ⟨.error (.invalidHandle m.owner.text), result⟩, h)) ∧
    (h.Has m.owner → args.length < m.argSlots →
      performWithin (depth + 1) (.invoke m args result) w h =
        (.ok ⟨.error (.overrun m.argSlots args.length), result⟩, h)) ∧
    (h.Has m.owner → m.argSlots ≤ args.length → result.length < m.resultSlots →
      performWithin (depth + 1) (.invoke m args result) w h =
        (.ok ⟨.error (.overrun m.resultSlots result.length), result⟩, h)) ∧
    (∀ e h', performWithin (depth + 1) (.invoke m args result) w h ≠ (.error (.failed e), h')) ∧
    ∀ done h', performWithin (depth + 1) (.invoke m args result) w h = (.ok done, h') →
      done.result.length = result.length ∧
        done.result.drop m.resultSlots = result.drop m.resultSlots := by
  have hcommands : ∀ c g, (commands depth c).Answers w g fun _ _ => True :=
    fun c _ => ends_attempt (performWithin depth c)
  have hanswers := invokeWith_answers (h := h) hcommands m args result
  refine ⟨fun hc => ?_, fun hc hargs => ?_, fun hc hargs hresult => ?_,
    fun e h' hrun => hanswers.of_failed hrun, fun done h' hrun => hanswers.of_ok hrun⟩
  · have hforeign : m.owner.owner ≠ h.id ∨ h.classes.length ≤ m.owner.index := by
      by_contra hcon
      rw [not_or, not_not, not_le] at hcon
      exact hc hcon
    exact invokeWith_run_of_check (checkCall_run_of_cls_error (Host.cls_eq_error hforeign))
  · obtain ⟨r, hr⟩ := Host.has_iff_cls.mp hc
    refine invokeWith_run_of_check ?_
    rw [checkCall, bind_run_ok (cls_run hr), if_pos hargs]
    rfl
  · obtain ⟨r, hr⟩ := Host.has_iff_cls.mp hc
    refine invokeWith_run_of_check ?_
    rw [checkCall, bind_run_ok (cls_run hr), if_neg (Nat.not_lt.mpr hargs), if_pos hresult]
    rfl

namespace PairSpecimen

/-- An interpreter that leaves more slots than any result has. -/
def eagerWorld : World :=
  { setup.world with interpreter := some fun _ _ => .done .returned [1, 2, 3, 4, 5] }

end PairSpecimen

/-- A call of `swap` with an argument missing, and one that the interpreter answers with five slots
where a pair takes two. -/
theorem calls_check_then_write_result_slots_pair :
    PairSpecimen.swap.argSlots = 4 ∧ PairSpecimen.swap.resultSlots = 2 ∧
    performWithin 1 (.invoke PairSpecimen.swap [0, 0, 0] [7, 8, 9]) PairSpecimen.eagerWorld
      PairSpecimen.host = (.ok ⟨.error (.overrun 4 3), [7, 8, 9]⟩, PairSpecimen.host) ∧
    ∃ done h', performWithin 1 (.invoke PairSpecimen.swap (.zero 4) [7, 8, 9])
        PairSpecimen.eagerWorld PairSpecimen.host = (.ok done, h') ∧
      done.result.take 2 = [1, 2] ∧ done.result.drop 2 = [9] := by
  have hargs : PairSpecimen.swap.argSlots = 4 := by decide +kernel
  have hresult : PairSpecimen.swap.resultSlots = 2 := by decide +kernel
  have howner : PairSpecimen.host.Has PairSpecimen.swap.owner :=
    ⟨by decide +kernel, by decide +kernel⟩
  have hcheck := calls_check_then_write_result_slots PairSpecimen.eagerWorld PairSpecimen.host 0
    PairSpecimen.swap
  have hshort := (hcheck [0, 0, 0] [7, 8, 9]).2.1 howner (by rw [hargs]; decide)
  have hwrites := (hcheck (.zero 4) [7, 8, 9]).2.2.2.2
  rw [hargs] at hshort
  rw [hresult] at hwrites
  have hrun : ((performWithin 1 (.invoke PairSpecimen.swap (.zero 4) [7, 8, 9])
      PairSpecimen.eagerWorld PairSpecimen.host).1.toOption.map (·.result.take 2)) =
      some [1, 2] := by decide +kernel
  rcases hend : performWithin 1 (.invoke PairSpecimen.swap (.zero 4) [7, 8, 9])
      PairSpecimen.eagerWorld PairSpecimen.host with ⟨s | done, h'⟩
  · rw [hend] at hrun
    cases hrun
  · rw [hend] at hrun
    exact ⟨hargs, hresult, hshort, done, h', rfl, Option.some.inj hrun, (hwrites done h' hend).2⟩

end ManagedHost
