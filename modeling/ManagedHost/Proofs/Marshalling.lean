/-
# Arguments fill the slots that a method counts for them

A method says how many slots its arguments and its result take.  The numbers are computed when the
method is derived, from the sizes that the values had then; whoever calls it asks for the sizes at
some other time.  Both agree because the layouts that were used are kept (`Host.Measured`): a size
that was found once is found again, without asking anyone, in every later state of the run.

* `measured_of_reached`: all methods that a host knows are measured, at every point of a run.
* `sizeOf_run`: the size of a value whose layout is kept.
* `frame_fills_of_reached`: the slots of a method are the slots of its values.
-/
import ManagedHost.Proofs.Arguments
import ManagedHost.Proofs.Reached

namespace ManagedHost

open Op

namespace Host

variable {w : World} {h h' : Host}

/-! ## Methods are measured -/

/-- All methods that are known have been measured. -/
def AllMeasured (h : Host) : Prop :=
  ∀ c r, h.cls c = .ok r → ∀ m ∈ r.methods.items, h.Measured m

lemma AllMeasured.step (ha : h.AllMeasured) (hc : RunChange w h h') : h'.AllMeasured := by
  intro c r' hr' m hm
  have hold : h.Measured m := by
    rcases hc.facet hr' .methods with hu | ⟨r, hr, heq⟩ | ⟨r, hr, -, hv, -⟩
    · -- there are no methods
      have hunknown : .unknown = r'.methods := congrArg Class.methods hu
      rw [← hunknown] at hm
      simp at hm
    · have hsame : r'.methods = r.methods := heq
      exact ha c r hr m (hsame ▸ hm)
    · rcases hms : r'.methods with _ | ms <;> rw [hms] at hm
      · simp at hm
      · exact (hv ms hms).1 m hm
  exact hold.of_remembers hc.remembers

end Host

/-- At every point of a run, the sizes from which the slots of a known method were counted are
those of layouts that are kept. -/
lemma measured_of_reached {fs : List Frame} {h : Host} (hr : Reached fs h) : h.AllMeasured := by
  refine hr.invariant (fun id config c r hcls => ?_) (fun h m ha => ?_)
    fun w g g' hstep _ hg => hg.step hstep
  · exact absurd (Host.has_iff_cls.mpr ⟨r, hcls⟩).2 (by simp [Host.blank])
  · intro c r hcls x hx
    exact (ha c r hcls x hx).of_remembers (.of_eq rfl rfl rfl rfl rfl)

/-! ## Sizes that are found again -/

section Sizes

variable {w : World} {h : Host} {s : Signature ClassHandle}

lemma layout_run {c : ClassHandle} {r : Class} {l : Layout} (hr : h.cls c = .ok r)
    (hl : r.layout = some l) : layout c w h = (.ok l, h) := by
  rw [layout, layoutWithin, bind_run_ok (cls_run hr), hl]
  rfl

/-- The size of a value whose layout is kept is found without asking anyone. -/
lemma sizeOf_run {n : Nat} (hs : (h.extent? s).map (·.size) = some n) :
    sizeOf s w h = (.ok n, h) := by
  obtain ⟨l, hl, rfl⟩ := Option.map_eq_some_iff.mp hs
  have hextent : extent layout s w h = (.ok l, h) := by
    cases s with
    | value c =>
      obtain ⟨r, hr, hkept⟩ := Option.bind_eq_some_iff.mp hl
      exact layout_run (Host.cls?_eq_some_iff.mp hr) hkept
    | _ =>
      cases hl
      rfl
  exact bind_run_ok hextent

end Sizes

/-! ## The values of a call -/

/-- The values that are passed to a method: the receiver, if there is one, and the arguments. -/
def Method.frame (m : Method) (receiver : List UInt8) (args : List (List UInt8)) : List Parcel :=
  ((if m.isStatic then [] else [receiver]) ++ args).map .bytes

/-- Values that fit are all written. -/
lemma sendAll_of_room (front rest : Buffer) (ps : List Parcel)
    (hroom : (packed ps).length ≤ rest.length) :
    ArgWriter.sendAll ⟨front ++ rest, front.length⟩ ps =
      (ps, ⟨front ++ packed ps ++ rest.drop (packed ps).length, (front ++ packed ps).length⟩) := by
  induction ps generalizing front rest with
  | nil => simp [ArgWriter.sendAll, packed]
  | cons p ps ih =>
    rw [packed_cons, List.length_append, length_slotsOfBytes] at hroom
    have hfits : Slot.count p.data.length ≤ rest.length := by omega
    have hfirst := send_of_le front hfits
    have hothers := ih (front ++ slotsOfBytes p.data) (rest.drop (Slot.count p.data.length))
      (by rw [List.length_drop]; omega)
    simp only [ArgWriter.sendAll, hfirst, hothers]
    simp only [packed_cons, List.append_assoc, List.drop_drop, List.length_append,
      length_slotsOfBytes]

/-- A method that has been measured counts the slots of its values. -/
lemma length_packed_frame {m : Method} {receiver : List UInt8} {args : List (List UInt8)}
    {sizes : List Nat} (hreceiver : receiver.length = Slot.size)
    (hargs : args.map List.length = sizes)
    (hslots : m.argSlots = (if m.isStatic then 0 else 1) + Slot.total sizes) :
    (packed (m.frame receiver args)).length = m.argSlots := by
  have hlist : ∀ bs : List (List UInt8),
      (packed (bs.map .bytes)).length = Slot.total (bs.map List.length) := by
    intro bs
    rw [length_packed, List.map_map]
    rfl
  have hone : Slot.count Slot.size = 1 := rfl
  rw [Method.frame, hlist, hslots]
  split
  · rw [List.nil_append, hargs]
    omega
  · simp only [List.cons_append, List.nil_append, List.map_cons, Slot.total, hreceiver, hargs,
      hone]

/-- For every method that a host knows, at every point of a run and in any surroundings: the sizes
of the parameters and of the result are found, and nothing is changed by asking for them.  A buffer
with the slots of the arguments takes a receiver and values of these sizes, each of them, and is
full then; a reader that asks for the same sizes gets the same bytes.  A buffer with the slots of
the result takes a value of its size and gives it back. -/
theorem frame_fills_of_reached {fs : List Frame} {h : Host} (hr : Reached fs h) {c : ClassHandle}
    {r : Class} (hcls : h.cls c = .ok r) {ms : List Method} (hms : r.methods = .known ms)
    {m : Method} (hm : m ∈ ms) (w : World) :
    ∃ sizes size,
      List.Forall₂ (fun p n => sizeOf (Param.type p) w h = (.ok n, h)) m.params sizes ∧
      sizeOf m.result w h = (.ok size, h) ∧
      (∀ receiver args, receiver.length = Slot.size → args.map List.length = sizes →
        ∃ b, (ArgWriter.new (.zero m.argSlots)).sendAll (m.frame receiver args) =
            (m.frame receiver args, ⟨b, m.argSlots⟩) ∧
          (ArgReader.new b).receiveAll ((m.frame receiver args).map Parcel.shape) =
            .ok (m.frame receiver args, ⟨b, m.argSlots⟩)) ∧
      ∀ data : List UInt8, data.length = size →
        ∃ b, Buffer.setReturn (.zero m.resultSlots) data = .ok b ∧
          Buffer.getReturn b size = .ok data := by
  have hmeasured := measured_of_reached hr c r hcls m (by rw [hms]; exact hm)
  obtain ⟨sizes, hsizes, hslots⟩ := hmeasured.args
  obtain ⟨size, hsize, hresult⟩ := hmeasured.result
  refine ⟨sizes, size, hsizes.imp fun _ _ hn => sizeOf_run hn, sizeOf_run hsize, ?_, ?_⟩
  · intro receiver args hreceiver hargs
    set ps := m.frame receiver args with hps
    have hlen : (packed ps).length = m.argSlots := length_packed_frame hreceiver hargs hslots
    have hsend := sendAll_of_room [] (.zero m.argSlots) ps
      (by rw [hlen, Buffer.zero, List.length_replicate])
    have hfits : ∀ p ∈ ps, p.Fits := by
      intro p hp
      obtain ⟨bs, -, rfl⟩ := List.mem_map.mp hp
      trivial
    have hreceive := receiveAll_packed [] ((Buffer.zero m.argSlots).drop (packed ps).length) hfits
    simp only [List.nil_append, hlen] at hsend hreceive
    exact ⟨_, hsend, hreceive⟩
  · rintro data rfl
    have hroom : Slot.count data.length ≤ (Buffer.zero m.resultSlots).length := by
      rw [hresult, Buffer.zero, List.length_replicate]
    have hwrite : Buffer.write ([] ++ Buffer.zero m.resultSlots) ([] : Buffer).length data = _ :=
      write_of_le hroom
    exact ⟨_, hwrite, read_slotsOfBytes [] _ data⟩

/-! A core library with a value type of two fields, `System.Pair`, whose method takes and returns
pairs. -/

namespace PairSpecimen

/-- The metadata source of the core library. -/
def source : Source :=
  { (default : Source) with
    moduleName := "mscorlib"
    assemblyName := "mscorlib"
    typeCount := 3
    typeDef := fun row => .ok {
      space := "System"
      name := if row = 0 then "Object" else if row = 1 then "ValueType" else "Pair"
      parent := if row = 0 then none else some (.definition (row - 1)) }
    fields := fun _ => .ok [⟨"first", .int64, false⟩, ⟨"second", .int16, false⟩]
    methods := fun _ => .ok [{
      name := "swap"
      result := .value (.definition 2)
      params := [⟨"other", .value (.definition 2)⟩, ⟨"count", .int32⟩]
      isStatic := false }] }

/-- What the host is started with. -/
def setup : Setup :=
  { Specimen.setup with resolver := some ⟨fun _ name => .ok { name }, fun _ _ => source⟩ }

/-- The host when the type `Pair` has been asked for its methods. -/
def host : Host :=
  setup.after (.methods ⟨1, 2⟩) setup.firstHost

lemma reached_host : Reached [] host :=
  Setup.reached_after (Setup.reached_firstHost (by decide +kernel)) (by decide +kernel)

/-- The method of the type `Pair`. -/
def swap : Method :=
  (host.classes.flatMap (·.methods.items)).getD 0 default

end PairSpecimen

/-- A pair takes two slots, so a call of `swap` takes four with the receiver and the number. -/
theorem frame_fills_of_reached_pair :
    PairSpecimen.swap.argSlots = 4 ∧ PairSpecimen.swap.params.length = 2 ∧
    ∃ args b, args.map List.length = [16, 4] ∧
      (ArgWriter.new (.zero 4)).sendAll (PairSpecimen.swap.frame (.replicate 8 1) args) =
        (PairSpecimen.swap.frame (.replicate 8 1) args, ⟨b, 4⟩) ∧
      (ArgReader.new b).receiveAll [.bytes 8, .bytes 16, .bytes 4] =
        .ok (PairSpecimen.swap.frame (.replicate 8 1) args, ⟨b, 4⟩) := by
  have hslots : PairSpecimen.swap.argSlots = 4 := by decide +kernel
  have hknown : (PairSpecimen.host.cls? ⟨1, 2⟩).map (·.methods) =
      some (.known [PairSpecimen.swap]) := by decide +kernel
  obtain ⟨r, hr, hms⟩ := Option.map_eq_some_iff.mp hknown
  obtain ⟨sizes, size, hsizes, -, hframe, -⟩ := frame_fills_of_reached PairSpecimen.reached_host
    (Host.cls?_eq_some_iff.mp hr) hms (List.mem_singleton.mpr rfl) PairSpecimen.setup.world
  have hlengths : sizes = [16, 4] := by
    have hrun : PairSpecimen.swap.params.map
        (fun p => (sizeOf p.type PairSpecimen.setup.world PairSpecimen.host).1) =
        [.ok 16, .ok 4] := by decide +kernel
    have hmap : PairSpecimen.swap.params.map
        (fun p => (sizeOf p.type PairSpecimen.setup.world PairSpecimen.host).1) =
        sizes.map .ok := by
      rw [← List.forall₂_eq_eq_eq, List.forall₂_map_left_iff, List.forall₂_map_right_iff]
      exact hsizes.imp fun p n hp => congrArg Prod.fst hp
    have hinj : Function.Injective (Except.ok : Nat → Except Stop Nat) :=
      fun _ _ heq => Except.ok.inj heq
    exact List.map_injective_iff.mpr hinj (hmap.symm.trans hrun)
  obtain ⟨b, hsend, hreceive⟩ := hframe (.replicate 8 1) [.replicate 16 2, .replicate 4 3] rfl
    hlengths.symm
  rw [hslots] at hsend hreceive
  refine ⟨hslots, by decide +kernel, _, b, rfl, hsend, ?_⟩
  have hstatic : PairSpecimen.swap.isStatic = false := by decide +kernel
  simpa [Method.frame, hstatic, Parcel.shape] using hreceive

end ManagedHost
