/-
# The words that native functions are called with

A method counts the slots of its arguments and of its result when it is derived, from the layouts of
their types.  When it is called by way of its signature, the arguments are read with the sizes that
their types have whatever the layout of value types, up to eight bytes.  The two are computed apart
from each other; any type for which they differ would shift the arguments after it.  They agree
because a type that can be handed to native code has a size of its own, which is at most that of a
slot, and all other types are refused before their slots are read.

* `readFrame`, `marshalArguments_eq`: the words of a call, with the cursor after the last one.
* `readWords_append`: parameters that can be handed over are read from their slots, and what follows
  them is read from the next slot on.
* `Buffer.Words`: words that are the lowest bytes of slots.
* `native_words_of_reached`: the words of every method that a host knows, or the type for which the
  call is refused.
-/
import ManagedHost.Proofs.Marshalling
import ManagedHost.Proofs.SlotWidths

namespace ManagedHost

open Op

/-! ## Types that can be handed over -/

namespace Signature

variable {s : Signature ClassHandle} {h : Host}

lemma wordBytes_le (s : Signature ClassHandle) : s.wordBytes ≤ 8 :=
  Nat.min_le_right _ _

/-- The size by which an argument is read is the one by which its slots were counted. -/
lemma extent_size (hs : s.isMarshallable) : (h.extent? s).map (·.size) = some s.wordBytes := by
  cases s with
  | typedReference | value c | parameter i => cases hs
  | _ => rfl

lemma wordBytes_pos (hs : s.isMarshallable) (hvoid : s ≠ .void) : 0 < s.wordBytes := by
  cases s with
  | void => exact absurd rfl hvoid
  | typedReference | value c | parameter i => cases hs
  | _ => exact of_decide_eq_true rfl

lemma isVoid_eq_false (hvoid : s ≠ .void) : s.isVoid = false := by
  cases s with
  | void => exact absurd rfl hvoid
  | _ => rfl

end Signature

/-- The sizes of parameters that can be handed over. -/
lemma sizes_eq {h : Host} {ps : List Param} {sizes : List Nat}
    (hps : ∀ p ∈ ps, p.type.isMarshallable)
    (hsizes : List.Forall₂ (fun p n => (h.extent? (Param.type p)).map (·.size) = some n) ps sizes) :
    sizes = ps.map (·.type.wordBytes) := by
  induction hsizes with
  | nil => rfl
  | cons hp _ ih =>
    obtain ⟨hfirst, hrest⟩ := List.forall_mem_cons.mp hps
    rw [Signature.extent_size hfirst] at hp
    rw [List.map_cons, ← ih hrest, Option.some.inj hp]

/-! ## Words and slots -/

lemma Slot.total_append (ns ms : List Nat) :
    Slot.total (ns ++ ms) = Slot.total ns + Slot.total ms := by
  induction ns with
  | nil => rw [List.nil_append, Slot.total, Nat.zero_add]
  | cons n ns ih => rw [List.cons_append, Slot.total, Slot.total, ih, Nat.add_assoc]

namespace Buffer

/-- The words are those of values of these sizes, which lie one after the other from slot `start`
on: each of them is the number that the lowest bytes of the first slot of its value form. -/
structure Words (b : Buffer) (start : Nat) (sizes : List Nat) (words : List UInt64) : Prop where
  length_eq : words.length = sizes.length
  word : ∀ (i n : Nat), sizes[i]? = some n → ∃ (slot : Slot) (word : UInt64),
    b[start + Slot.total (sizes.take i)]? = some slot ∧ words[i]? = some word ∧
      word.toNat = slot.toNat % 2 ^ (8 * n)

variable {b : Buffer} {start : Nat}

lemma words_nil : b.Words start [] [] :=
  ⟨rfl, fun i n hn => by simp at hn⟩

lemma Words.append {sizes sizes' : List Nat} {words words' : List UInt64}
    (hw : b.Words start sizes words) (hw' : b.Words (start + Slot.total sizes) sizes' words') :
    b.Words start (sizes ++ sizes') (words ++ words') := by
  refine ⟨by rw [List.length_append, List.length_append, hw.length_eq, hw'.length_eq], ?_⟩
  intro i n hn
  rcases Nat.lt_or_ge i sizes.length with hi | hi
  · rw [List.getElem?_append_left hi] at hn
    rw [List.take_append_of_le_length (Nat.le_of_lt hi),
      List.getElem?_append_left (hw.length_eq.symm ▸ hi)]
    exact hw.word i n hn
  · rw [List.getElem?_append_right hi] at hn
    rw [List.take_append, List.take_of_length_le hi, Slot.total_append, ← Nat.add_assoc,
      List.getElem?_append_right (hw.length_eq.symm ▸ hi), hw.length_eq]
    exact hw'.word _ n hn

/-- A value of at most eight bytes is read as the word of its slot. -/
lemma exists_word (hroom : start < b.length) {n : Nat} (hpos : 0 < n) (hle : n ≤ 8) :
    ∃ bs, ArgReader.readBytes ⟨b, start⟩ n = .ok (bs, ⟨b, start + Slot.count n⟩) ∧
      b.Words start [n] [Slot.ofBytes bs] := by
  have hslot : b[start]? = some b[start] := List.getElem?_eq_getElem hroom
  refine ⟨littleEndian n b[start].toNat, ?_, rfl, ?_⟩
  · rw [ArgReader.readBytes, read_low hslot hpos hle]
    rfl
  · intro i n' hn
    obtain ⟨rfl, rfl⟩ : i = 0 ∧ n = n' := by
      cases i with
      | zero => exact ⟨rfl, Option.some.inj hn⟩
      | succ i => simp at hn
    refine ⟨_, _, hslot, rfl, ?_⟩
    rw [Slot.toNat_ofBytes (by simpa using hle), ofLittleEndian_littleEndian, byteSpan_eq]

end Buffer

/-! ## Reading the arguments -/

/-- The words of all arguments, the receiver first, and the reader when it has read them. -/
def readFrame (m : Method) (args : Buffer) : Except AccessFault (List UInt64 × ArgReader) := do
  let receiver ←
    if m.isInstance then do
      let x ← (ArgReader.new args).readBytes Slot.size
      pure ([Slot.ofBytes x.1], x.2)
    else
      pure ([], ArgReader.new args)
  let params ← readWords m.params receiver.2
  return (receiver.1 ++ params.1, params.2)

/-- The words of a call are the ones that are read, unless the result is refused. -/
lemma marshalArguments_eq (m : Method) (args : Buffer) :
    marshalArguments m args =
      readFrame m args >>= fun x => (checkMarshallable m.result).map fun _ => x.1 := by
  have hcheck : ∀ words : List UInt64,
      (checkMarshallable m.result >>= fun _ => pure words) =
        (checkMarshallable m.result).map fun _ => words := fun words => by
    cases checkMarshallable m.result <;> rfl
  cases hm : m.isInstance <;>
    simp [marshalArguments, readFrame, hm, hcheck]

section Reading

variable {b : Buffer} {start : Nat}

/-- A parameter that can be handed over is read from its own slots. -/
lemma readBytes_param {p : Param} (hp : p.type.isMarshallable)
    (hroom : start + Slot.count p.type.wordBytes ≤ b.length) :
    ∃ bs, ArgReader.readBytes ⟨b, start⟩ p.type.wordBytes =
        .ok (bs, ⟨b, start + Slot.count p.type.wordBytes⟩) ∧
      (p.type ≠ .void → b.Words start [p.type.wordBytes] [Slot.ofBytes bs]) := by
  by_cases hvoid : p.type = .void
  · obtain ⟨bs, hread, -⟩ := exists_readBytes hroom
    exact ⟨bs, hread, fun hne => absurd hvoid hne⟩
  · have hpos := Signature.wordBytes_pos hp hvoid
    have hcount := Slot.count_eq_one hpos p.type.wordBytes_le
    obtain ⟨bs, hread, hword⟩ :=
      Buffer.exists_word (show start < b.length by omega) hpos p.type.wordBytes_le
    exact ⟨bs, hread, fun _ => hword⟩

lemma readWords_cons {p : Param} (hp : p.type.isMarshallable) {r r' : ArgReader} {bs : List UInt8}
    (hread : r.readBytes p.type.wordBytes = .ok (bs, r')) (rest : List Param) :
    readWords (p :: rest) r = (readWords rest r').map fun x =>
      ((if p.type.isVoid then [] else [Slot.ofBytes bs]) ++ x.1, x.2) := by
  have hcheck : checkMarshallable p.type = .ok () := if_pos hp
  rw [readWords, hcheck, hread]
  rcases hrest : readWords rest r' with e | ⟨words, r''⟩
  · simp [hrest, bind, Except.bind, Except.map]
  · cases hv : p.type.isVoid <;> simp [hrest, bind, Except.bind, Except.map, pure, Except.pure]

/-- Parameters that can be handed over are read from their slots, and those after them from the
next slot on. -/
lemma readWords_append {before : List Param} (hbefore : ∀ p ∈ before, p.type.isMarshallable)
    (hroom : start + Slot.total (before.map (·.type.wordBytes)) ≤ b.length) :
    ∃ words, (∀ after, readWords (before ++ after) ⟨b, start⟩ =
        (readWords after ⟨b, start + Slot.total (before.map (·.type.wordBytes))⟩).map fun x =>
          (words ++ x.1, x.2)) ∧
      ((∀ p ∈ before, p.type ≠ .void) →
        b.Words start (before.map (·.type.wordBytes)) words) := by
  induction before generalizing start with
  | nil =>
    refine ⟨[], fun after => ?_, fun _ => Buffer.words_nil⟩
    simp only [List.nil_append, List.map_nil, Slot.total, Nat.add_zero]
    cases readWords after ⟨b, start⟩ <;> rfl
  | cons p before ih =>
    obtain ⟨hp, hbefore⟩ := List.forall_mem_cons.mp hbefore
    rw [List.map_cons, Slot.total] at hroom ⊢
    have hfits : start + Slot.count p.type.wordBytes ≤ b.length := by omega
    rw [← Nat.add_assoc] at hroom
    obtain ⟨bs, hread, hword⟩ := readBytes_param hp hfits
    obtain ⟨words, hwords, hslots⟩ := ih hbefore hroom
    refine ⟨(if p.type.isVoid then [] else [Slot.ofBytes bs]) ++ words, fun after => ?_, ?_⟩
    · rw [List.cons_append, readWords_cons hp hread, hwords, ← Nat.add_assoc]
      cases readWords after _ <;> simp [Except.map]
    · intro hvoid
      obtain ⟨hfirst, hvoid⟩ := List.forall_mem_cons.mp hvoid
      have hv : p.type.isVoid = false := Signature.isVoid_eq_false hfirst
      rw [hv]
      exact (hword hfirst).append (hslots hvoid)

end Reading

/-- The sizes of what is passed before the parameters. -/
def Method.receiverSizes (m : Method) : List Nat :=
  if m.isStatic then [] else [Slot.size]

lemma Method.total_receiverSizes (m : Method) :
    Slot.total m.receiverSizes = if m.isStatic then 0 else 1 := by
  rw [receiverSizes]
  split <;> rfl

section Frames

variable {m : Method} {args : Buffer}

lemma readFrame_eq (hroom : Slot.total m.receiverSizes ≤ args.length) :
    ∃ receiver, readFrame m args =
        (readWords m.params ⟨args, Slot.total m.receiverSizes⟩).map (fun x =>
          (receiver ++ x.1, x.2)) ∧
      args.Words 0 m.receiverSizes receiver := by
  cases hstatic : m.isStatic with
  | true =>
    have hsizes : m.receiverSizes = [] := if_pos hstatic
    refine ⟨[], ?_, hsizes ▸ Buffer.words_nil⟩
    simp only [readFrame, Method.isInstance, hstatic, hsizes]
    exact bind_pure_comp _ (readWords m.params ⟨args, 0⟩)
  | false =>
    have hsizes : m.receiverSizes = [8] := if_neg (by simp [hstatic])
    rw [hsizes] at hroom ⊢
    obtain ⟨bs, hread, hword⟩ :=
      Buffer.exists_word (show 0 < args.length from hroom) (show 0 < 8 by decide) le_rfl
    refine ⟨[Slot.ofBytes bs], ?_, hword⟩
    have hstart : (ArgReader.new args).readBytes Slot.size = .ok (bs, ⟨args, 1⟩) := hread
    simp only [readFrame, Method.isInstance, hstatic, hstart]
    exact bind_pure_comp _ (readWords m.params ⟨args, 1⟩)

/-- Where all types can be handed over, the arguments are read to the end of their slots. -/
lemma readFrame_of_marshallable (hps : ∀ p ∈ m.params, p.type.isMarshallable)
    (hargs : args.length =
      Slot.total m.receiverSizes + Slot.total (m.params.map (·.type.wordBytes))) :
    ∃ words, readFrame m args = .ok (words, ⟨args, args.length⟩) ∧
      ((∀ p ∈ m.params, p.type ≠ .void) →
        args.Words 0 (m.receiverSizes ++ m.params.map (·.type.wordBytes)) words) := by
  have hroom : Slot.total m.receiverSizes ≤ args.length := by omega
  obtain ⟨receiver, hframe, hreceiver⟩ := readFrame_eq hroom
  obtain ⟨words, hwords, hslots⟩ := readWords_append hps hargs.ge
  have hall := hwords []
  rw [List.append_nil] at hall
  rw [← hargs] at hall
  refine ⟨receiver ++ words, ?_, fun hvoid => hreceiver.append ?_⟩
  · rw [hframe, hall]
    simp [readWords, Except.map]
  · rw [Nat.zero_add]
    exact hslots hvoid

/-- The first parameter that cannot be handed over is the reason for which reading fails. -/
lemma readFrame_refused {before after : List Param} {p : Param}
    (hparams : m.params = before ++ p :: after) (hbefore : ∀ q ∈ before, q.type.isMarshallable)
    (hp : ¬p.type.isMarshallable)
    (hroom : Slot.total m.receiverSizes + Slot.total (before.map (·.type.wordBytes)) ≤
      args.length) :
    readFrame m args = .error (.failed (.unmarshallable p.type.text)) := by
  have hreceiver : Slot.total m.receiverSizes ≤ args.length := by omega
  obtain ⟨receiver, hframe, -⟩ := readFrame_eq hreceiver
  obtain ⟨words, hwords, -⟩ := readWords_append hbefore hroom
  have hcheck : checkMarshallable p.type = .error (.failed (.unmarshallable p.type.text)) :=
    if_neg hp
  rw [hframe, hparams, hwords, readWords, hcheck]
  rfl

end Frames

/-! ## Calls -/

section Calls

variable {h : Host} {m : Method} {args result : Buffer}

/-- A method counts the slots of the parameters before any of them, and more. -/
lemma room_of_measured (hm : h.Measured m) {before after : List Param}
    (hparams : m.params = before ++ after) (hbefore : ∀ q ∈ before, q.type.isMarshallable) :
    Slot.total m.receiverSizes + Slot.total (before.map (·.type.wordBytes)) ≤ m.argSlots := by
  obtain ⟨sizes, hsizes, hslots⟩ := hm.args
  have htake := List.forall₂_take before.length hsizes
  rw [hparams, List.take_left] at htake
  have hsplit : Slot.total sizes = Slot.total (before.map (·.type.wordBytes)) +
      Slot.total (sizes.drop before.length) := by
    rw [← sizes_eq hbefore htake, ← Slot.total_append, List.take_append_drop]
  rw [hslots, m.total_receiverSizes]
  omega

lemma storeResult_of_measured (hm : h.Measured m) (hmarshal : m.result.isMarshallable)
    (hresult : result.length = m.resultSlots) (word : UInt64) :
    ∃ b, storeResult m result word = .ok b ∧
      result.Receives 0 (littleEndian m.result.wordBytes word.toNat) b := by
  obtain ⟨size, hsize, hslots⟩ := hm.result
  rw [Signature.extent_size hmarshal] at hsize
  cases hsize
  refine Buffer.exists_write ?_
  rw [length_littleEndian, Nat.zero_add, hresult, hslots]

/-- Arguments with types that can be handed over are read to the end of their slots. -/
lemma readFrame_of_measured (hm : h.Measured m) (hps : ∀ p ∈ m.params, p.type.isMarshallable)
    (hargs : args.length = m.argSlots) :
    ∃ words, readFrame m args = .ok (words, ⟨args, args.length⟩) ∧
      ((∀ p ∈ m.params, p.type ≠ .void) →
        args.Words 0 (m.receiverSizes ++ m.params.map (·.type.wordBytes)) words) := by
  obtain ⟨sizes, hsizes, hslots⟩ := hm.args
  refine readFrame_of_marshallable hps ?_
  rw [hargs, hslots, m.total_receiverSizes, sizes_eq hps hsizes]

/-- The first type that cannot be handed over is the reason for which a call is refused. -/
lemma marshalArguments_refused (hm : h.Measured m) (hargs : args.length = m.argSlots)
    {s : Signature ClassHandle}
    (hs : (m.params.map (·.type) ++ [m.result]).find? (!·.isMarshallable) = some s) :
    marshalArguments m args = .error (.failed (.unmarshallable s.text)) := by
  rw [marshalArguments_eq]
  rw [List.find?_append, List.find?_map, Option.or_eq_some_iff] at hs
  rcases hs with hparam | ⟨hnone, hresult⟩
  · obtain ⟨p, hp, rfl⟩ := Option.map_eq_some_iff.mp hparam
    obtain ⟨hp, before, after, hparams, hbefore⟩ := List.find?_eq_some_iff_append.mp hp
    have hmarshal : ∀ q ∈ before, q.type.isMarshallable := fun q hq => by simpa using hbefore q hq
    rw [readFrame_refused hparams hmarshal (by simpa using hp)
      (hargs ▸ room_of_measured hm hparams hmarshal)]
    rfl
  · have hps : ∀ p ∈ m.params, p.type.isMarshallable := by simpa using hnone
    obtain ⟨words, hframe, -⟩ := readFrame_of_measured hm hps hargs
    obtain rfl := List.mem_singleton.mp (List.mem_of_find?_eq_some hresult)
    have hcheck : checkMarshallable m.result = .error (.failed (.unmarshallable m.result.text)) :=
      if_neg (by simpa using List.find?_some hresult)
    rw [hframe, hcheck]
    rfl

end Calls

/-- For every method that a host knows, at every point of a run and in any surroundings, and for
buffers with exactly its slots.  If all types can be handed over and no parameter is without a
value, the arguments are read to the end of their slots; the word for each of them, the receiver
included, consists of as many of the lowest bytes of its own slot as its type has; and the function
is called with these words, and what it returns fits into the slots of the result.  Otherwise the
call fails for the first type that cannot be handed over, the result last, and no function is
called. -/
theorem native_words_of_reached {fs : List Frame} {h : Host} (hr : Reached fs h) {c : ClassHandle}
    {r : Class} (hcls : h.cls c = .ok r) {ms : List Method} (hms : r.methods = .known ms)
    {m : Method} (hm : m ∈ ms) (w : World) (f : NativeFunction) {args result : Buffer}
    (hargs : args.length = m.argSlots) (hresult : result.length = m.resultSlots) :
    ((∀ p ∈ m.params, p.type.isMarshallable ∧ p.type ≠ .void) → m.result.isMarshallable →
      ∃ (sizes : List Nat) (size : Nat) (words : List UInt64) (stored : UInt64 → Buffer),
        List.Forall₂ (fun p n => sizeOf (Param.type p) w h = (.ok n, h)) m.params sizes ∧
        sizeOf m.result w h = (.ok size, h) ∧
        (∀ n ∈ sizes, Slot.count n = 1) ∧
        readFrame m args = .ok (words, ⟨args, args.length⟩) ∧
        args.Words 0 (m.receiverSizes ++ sizes) words ∧
        (∀ word, result.Receives 0 (littleEndian size word.toNat) (stored word)) ∧
        Body.marshalling ⟨m, some f, args, result⟩ =
          .native f words fun word => .done .returned (stored word)) ∧
    ∀ s, (m.params.map (·.type) ++ [m.result]).find? (!·.isMarshallable) = some s →
      Body.marshalling ⟨m, some f, args, result⟩ =
        .done (.failed (.unmarshallable s.text)) result := by
  have hmeasured := measured_of_reached hr c r hcls m (by rw [hms]; exact hm)
  refine ⟨fun hps hmarshal => ?_, fun s hs => ?_⟩
  · have htypes : ∀ p ∈ m.params, p.type.isMarshallable := fun p hp => (hps p hp).1
    obtain ⟨words, hframe, hwords⟩ := readFrame_of_measured hmeasured htypes hargs
    obtain ⟨sizes, hsizes, -⟩ := hmeasured.args
    choose stored hstored hreceives using storeResult_of_measured hmeasured hmarshal hresult
    have hcall : marshalArguments m args = .ok words := by
      have hcheck : checkMarshallable m.result = .ok () := if_pos hmarshal
      rw [marshalArguments_eq, hframe, hcheck]
      rfl
    refine ⟨sizes, m.result.wordBytes, words, stored, hsizes.imp fun _ _ hn => sizeOf_run hn,
      sizeOf_run (Signature.extent_size hmarshal), ?_, hframe, ?_, hreceives, ?_⟩
    · rw [sizes_eq htypes hsizes]
      exact List.forall_mem_map.mpr fun p hp => Slot.count_eq_one
        (Signature.wordBytes_pos (htypes p hp) (hps p hp).2) p.type.wordBytes_le
    · rw [sizes_eq htypes hsizes]
      exact hwords fun p hp => (hps p hp).2
    · simp only [Body.marshalling, hcall, hstored, Body.ofExcept]
  · simp only [Body.marshalling, marshalArguments_refused hmeasured hargs hs, Body.ofExcept,
      AccessFault.ending]

/-! A core library with two methods of native libraries.  `blend` takes values of one, two and eight
bytes, and `refer` takes two that cannot be handed over. -/

namespace NativeSpecimen

/-- The metadata source of the core library. -/
def source : Source :=
  { (default : Source) with
    moduleName := "mscorlib"
    assemblyName := "mscorlib"
    typeCount := 1
    typeDef := fun _ => .ok { space := "System", name := "Paint" }
    methods := fun _ => .ok [
      { name := "blend"
        result := .int32
        params := [⟨"solid", .boolean⟩, ⟨"tone", .int16⟩, ⟨"weight", .float64⟩, ⟨"on", .object⟩]
        isStatic := false
        implementation := .pinvoke "paint" "blend" },
      { name := "refer"
        params := [⟨"count", .int64⟩, ⟨"target", .typedReference⟩, ⟨"other", .parameter 0⟩]
        implementation := .pinvoke "paint" "refer" }] }

/-- What the host is started with. -/
def setup : Setup :=
  { Specimen.setup with resolver := some ⟨fun _ name => .ok { name }, fun _ _ => source⟩ }

/-- The host when its type has been asked for its methods. -/
def host : Host :=
  setup.after (.methods ⟨1, 0⟩) setup.firstHost

lemma reached_host : Reached [] host :=
  Setup.reached_after (Setup.reached_firstHost (by decide +kernel)) (by decide +kernel)

/-- The methods of the type. -/
def methods : List Method :=
  host.classes.flatMap (·.methods.items)

/-- The method that can be called. -/
def blend : Method :=
  methods.getD 0 default

/-- The method that is refused. -/
def refer : Method :=
  methods.getD 1 default

end NativeSpecimen

/-- The truth value in the second slot is passed without the other bytes of this slot, and a call of
`refer` is refused for its second parameter. -/
theorem native_words_of_reached_paint :
    NativeSpecimen.blend.argSlots = 5 ∧
    (∃ (words : List UInt64) (stored : UInt64 → Buffer),
      Body.marshalling ⟨NativeSpecimen.blend, some .null, [3, 0x7701, 5, 7, 9], [0]⟩ =
        .native .null words (fun word => .done .returned (stored word)) ∧
      words.length = 5 ∧ ∃ word : UInt64, words[1]? = some word ∧ word.toNat = 1) ∧
    Body.marshalling ⟨NativeSpecimen.refer, some .null, [1, 2, 3, 4], []⟩ =
      .done (.failed (.unmarshallable "typedref")) [] := by
  have hknown : (NativeSpecimen.host.cls? ⟨1, 0⟩).map (·.methods) =
      some (.known [NativeSpecimen.blend, NativeSpecimen.refer]) := by decide +kernel
  obtain ⟨r, hr, hms⟩ := Option.map_eq_some_iff.mp hknown
  have hcls := Host.cls?_eq_some_iff.mp hr
  have hslots : NativeSpecimen.blend.argSlots = 5 := by decide +kernel
  have hreceiver : NativeSpecimen.blend.receiverSizes = [8] := by decide +kernel
  have hparams : NativeSpecimen.blend.params = [⟨"solid", .boolean⟩, ⟨"tone", .int16⟩,
      ⟨"weight", .float64⟩, ⟨"on", .object⟩] := by decide +kernel
  obtain ⟨haccepted, -⟩ := native_words_of_reached NativeSpecimen.reached_host hcls hms
    (.head _) NativeSpecimen.setup.world .null
    (show [3, 0x7701, 5, 7, 9].length = _ from hslots.symm)
    (show [0].length = _ by decide +kernel)
  obtain ⟨-, hrefused⟩ := native_words_of_reached NativeSpecimen.reached_host hcls hms
    (.tail _ (.head _)) NativeSpecimen.setup.world .null
    (show [1, 2, 3, 4].length = _ by decide +kernel) (show [].length = _ by decide +kernel)
  obtain ⟨sizes, -, words, stored, hsizes, -, -, -, hwords, -, hbody⟩ :=
    haccepted (by decide +kernel) (by decide +kernel)
  rw [hparams] at hsizes
  have hlength := hsizes.length_eq
  cases hsizes with
  | @cons _ n _ rest hsolid _ =>
    have hn : 1 = n := Except.ok.inj (congrArg Prod.fst hsolid)
    rw [hreceiver, ← hn] at hwords
    obtain ⟨slot, word, hslot, hword, hlow⟩ := hwords.word 1 1 rfl
    have hslot : slot = 0x7701 := (Option.some.inj hslot).symm
    refine ⟨hslots, ⟨words, stored, hbody, ?_, word, hword, ?_⟩, ?_⟩
    · have hrest : 3 = rest.length := Nat.succ.inj hlength
      simp [hwords.length_eq, ← hrest]
    · rw [hlow, hslot]
      decide
    · exact hrefused .typedReference (by decide +kernel)

end ManagedHost
