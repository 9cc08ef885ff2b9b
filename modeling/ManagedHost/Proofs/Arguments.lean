/-
# Values come back from slots as they were written

A writer fills a buffer from left to right, and a reader that goes over the same buffer asks for
the same types and sizes.  The two are separate pieces of code; what they agree on is the form of
the buffer between them.  The slots before the cursor of a writer are the slots of the values
written so far, one value after the other (`packed`), and the slots from the cursor on are as they
were.  A value that does not fit any more changes neither part, so the values that follow it find
the buffer as it was.

* `bytes_slotsOfBytes`: the bytes of the slots of a value are its bytes, and zeros after them.
* `sendAll_eq`, `receiveAll_packed`: what writing a list of values does to a buffer of this form,
  and what reading from it gives.
* `receiveAll_of_sendAll`: reading gives the values that could be written.
-/
import Mathlib.Data.List.Basic
import Mathlib.Data.List.Range
import ManagedHost.Slot.Scalar

namespace ManagedHost

/-! ## The slots of a value -/

namespace Slot

lemma count_of_pos {n : Nat} (hn : 0 < n) : count n = count (n - 8) + 1 := by
  simp only [count, size]
  omega

end Slot

lemma ofLittleEndian_append_zeros (bs : List UInt8) (k : Nat) :
    ofLittleEndian (bs ++ List.replicate k 0) = ofLittleEndian bs := by
  induction bs with
  | nil =>
    induction k with
    | zero => rfl
    | succ k ih =>
      rw [List.nil_append] at ih ⊢
      simp [List.replicate_succ, ofLittleEndian, ih]
  | cons b rest ih => simp [ofLittleEndian, ih]

/-- The bytes of a slot that starts with the given ones. -/
lemma bytes_ofBytes {bs : List UInt8} (hlen : bs.length ≤ 8) :
    (Slot.ofBytes bs).bytes = bs ++ List.replicate (8 - bs.length) 0 := by
  have hpad : Slot.ofBytes bs = Slot.ofBytes (bs ++ List.replicate (8 - bs.length) 0) := by
    rw [Slot.ofBytes, Slot.ofBytes, ofLittleEndian_append_zeros]
  rw [hpad]
  apply Slot.bytes_ofBytes_of_length_eq
  simp only [List.length_append, List.length_replicate]
  omega

@[simp] lemma length_slotsOfBytes (data : List UInt8) :
    (slotsOfBytes data).length = Slot.count data.length := by
  simp [slotsOfBytes]

/-- The slots of a value, eight bytes at a time. -/
lemma slotsOfBytes_eq_cons {data : List UInt8} (hne : data ≠ []) :
    slotsOfBytes data = Slot.ofBytes (data.take 8) :: slotsOfBytes (data.drop 8) := by
  have hpos : 0 < data.length := List.length_pos_iff.mpr hne
  have hcount := Slot.count_of_pos hpos
  simp only [slotsOfBytes, List.length_drop]
  rw [hcount, List.range_succ_eq_map, List.map_cons, List.map_map]
  congr 1
  apply List.map_congr_left
  intro i _
  have hi : Slot.size * (i + 1) = 8 + Slot.size * i := by
    simp only [Slot.size]
    omega
  simp only [Function.comp_apply, hi, List.drop_drop]

@[simp] lemma Buffer.bytes_cons (s : Slot) (b : Buffer) :
    Buffer.bytes (s :: b) = s.bytes ++ Buffer.bytes b := rfl

/-- The slots of a value hold its bytes, and zeros up to the end of the last one. -/
theorem bytes_slotsOfBytes (data : List UInt8) :
    Buffer.bytes (slotsOfBytes data) =
      data ++ List.replicate (8 * Slot.count data.length - data.length) 0 := by
  -- one slot goes for eight bytes, or for all that are left
  induction hn : data.length using Nat.strong_induction_on generalizing data with
  | _ n ih =>
    subst hn
    by_cases hne : data = []
    · subst hne
      rfl
    · have hpos : 0 < data.length := List.length_pos_iff.mpr hne
      have hcount := Slot.count_of_pos hpos
      have hrest := ih (data.drop 8).length (by simp only [List.length_drop]; omega)
        (data.drop 8) rfl
      rw [slotsOfBytes_eq_cons hne, Buffer.bytes_cons, hrest,
        bytes_ofBytes (List.length_take_le 8 data)]
      by_cases hlen : 8 ≤ data.length
      · have htake : (data.take 8).length = 8 := by simp [hlen]
        have hzeros : 8 * Slot.count (data.length - 8) - (data.length - 8) =
            8 * Slot.count data.length - data.length := by omega
        rw [htake, List.length_drop, hzeros]
        simp [← List.append_assoc]
      · have hall : data.take 8 = data := List.take_of_length_le (by omega)
        have hnone : data.drop 8 = [] := List.drop_eq_nil_of_le (by omega)
        have hone : Slot.count (data.length - 8) = 0 := by
          simp only [Slot.count, Slot.size]
          omega
        rw [hall, hnone, hcount, hone]
        simp [Slot.count, Slot.size]

lemma take_bytes_slotsOfBytes (data : List UInt8) :
    (Buffer.bytes (slotsOfBytes data)).take data.length = data := by
  rw [bytes_slotsOfBytes, List.take_left]

/-! ## Reading and writing at the cursor -/

namespace Buffer

variable {b : Buffer} {start size : Nat}

lemma check_eq_ok (hroom : start + Slot.count size ≤ b.length) : b.check start size = .ok () :=
  if_pos hroom

/-- From a position that is not beyond the end, a lack of room is reported. -/
lemma check_of_le (hstart : start ≤ b.length) (hroom : b.length < start + Slot.count size) :
    b.check start size =
      .error (.failed (.overrun (wrapWord (start + Slot.count size)) b.length)) := by
  rw [check, if_neg (Nat.not_le.mpr hroom), if_neg fun hout => Nat.not_lt.mpr hstart hout.1]

end Buffer

section Cursor

variable {front rest : Buffer} {data : List UInt8}

lemma write_of_le (hroom : Slot.count data.length ≤ rest.length) :
    Buffer.write (front ++ rest) front.length data =
      .ok (front ++ slotsOfBytes data ++ rest.drop (Slot.count data.length)) := by
  have hfits : front.length + Slot.count data.length ≤ (front ++ rest).length := by
    rw [List.length_append]
    omega
  simp only [Buffer.write, Buffer.check_eq_ok hfits, List.take_left, List.drop_append]
  simp [bind, Except.bind, pure, Except.pure]

lemma write_of_lt (hroom : rest.length < Slot.count data.length) :
    Buffer.write (front ++ rest) front.length data =
      .error (.failed (.overrun (wrapWord (front.length + Slot.count data.length))
        (front ++ rest).length)) := by
  have hshort : (front ++ rest).length < front.length + Slot.count data.length := by
    rw [List.length_append]
    omega
  have hstart : front.length ≤ (front ++ rest).length := by simp
  rw [Buffer.write, Buffer.check_of_le hstart hshort]
  rfl

lemma read_slotsOfBytes (front rest : Buffer) (data : List UInt8) :
    Buffer.read (front ++ slotsOfBytes data ++ rest) front.length data.length = .ok data := by
  have hfits : front.length + Slot.count data.length ≤
      (front ++ slotsOfBytes data ++ rest).length := by
    simp only [List.length_append, length_slotsOfBytes]
    omega
  have hslots : ((front ++ slotsOfBytes data ++ rest).drop front.length).take
      (Slot.count data.length) = slotsOfBytes data := by
    rw [List.append_assoc, List.drop_left, ← length_slotsOfBytes data, List.take_left]
  simp only [Buffer.read, Buffer.check_eq_ok hfits, hslots]
  exact congrArg Except.ok (take_bytes_slotsOfBytes data)

end Cursor

/-! ## Scalars and their bytes -/

namespace Scalar

/-- The scalar is one of its type. -/
def Fits : Scalar → Prop
  | int true size v => -(byteSpan size.bytes / 2 : Nat) ≤ v ∧ v < (byteSpan size.bytes / 2 : Nat)
  | int false size v => 0 ≤ v ∧ v < byteSpan size.bytes
  | _ => True

instance : DecidablePred Fits
  | bool _ => .isTrue trivial
  | int true _ _ => inferInstanceAs (Decidable (_ ∧ _))
  | int false _ _ => inferInstanceAs (Decidable (_ ∧ _))
  | float32 _ => .isTrue trivial
  | float64 _ => .isTrue trivial

lemma length_bytes_eq (v : Scalar) : v.bytes.length = v.type.size := by
  cases v <;> simp [bytes, type, ScalarType.size]

lemma ofLittleEndian_bytes_int (signed : Bool) (size : IntSize) (v : Int) :
    (ofLittleEndian (int signed size v).bytes : Int) = v % byteSpan size.bytes := by
  have hpos : 0 < byteSpan size.bytes := by cases size <;> decide
  have hnonneg : 0 ≤ v % (byteSpan size.bytes : Int) := Int.emod_nonneg v (by omega)
  have hlt : v % (byteSpan size.bytes : Int) < byteSpan size.bytes :=
    Int.emod_lt_of_pos v (by omega)
  rw [bytes, ofLittleEndian_littleEndian, Nat.mod_eq_of_lt (by omega)]
  exact Int.toNat_of_nonneg hnonneg

/-- A scalar is read from its bytes. -/
lemma ofBytes_bytes_of_fits {v : Scalar} (hv : v.Fits) : ofBytes v.type v.bytes = v := by
  cases v with
  | bool b => cases b <;> decide
  | int signed size v =>
    have hbytes := ofLittleEndian_bytes_int signed size v
    cases signed with
    | true =>
      obtain ⟨hlo, hhi⟩ := hv
      have heven : byteSpan size.bytes % 2 = 0 := by cases size <;> decide
      have hmod : Int.bmod v (byteSpan size.bytes) = v := Int.bmod_eq_of_le (by omega) (by omega)
      rw [type, ofBytes, hbytes, Int.emod_bmod, hmod]
    | false =>
      obtain ⟨hlo, hhi⟩ := hv
      rw [type, ofBytes, hbytes, Int.emod_eq_of_lt hlo hhi]
  | float32 bits =>
    have hlt : bits.toNat < byteSpan 4 := bits.toNat_lt
    rw [type, ofBytes, bytes, ofLittleEndian_littleEndian, Nat.mod_eq_of_lt hlt, UInt32.ofNat_toNat]
  | float64 bits =>
    have hlt : bits.toNat < byteSpan 8 := bits.toNat_lt
    rw [type, ofBytes, bytes, ofLittleEndian_littleEndian, Nat.mod_eq_of_lt hlt, UInt64.ofNat_toNat]

end Scalar

/-! ## Lists of values -/

/-- A value that is passed in slots. -/
inductive Parcel where
  | scalar (v : Scalar)
  | bytes (data : List UInt8)
deriving Repr, DecidableEq

/-- What a reader asks for. -/
inductive Shape where
  | scalar (type : ScalarType)
  | bytes (size : Nat)
deriving Repr, DecidableEq

namespace Parcel

/-- The bytes that are written for a value. -/
def data : Parcel → List UInt8
  | scalar v => v.bytes
  | bytes bs => bs

/-- What has to be asked for to read a value. -/
def shape : Parcel → Shape
  | scalar v => .scalar v.type
  | bytes bs => .bytes bs.length

/-- A scalar has to be one of its type, and all strings of bytes can be passed. -/
def Fits : Parcel → Prop
  | scalar v => v.Fits
  | bytes _ => True

instance : DecidablePred Fits
  | scalar v => inferInstanceAs (Decidable v.Fits)
  | bytes _ => .isTrue trivial

end Parcel

/-- Writes a value. -/
def ArgWriter.send (w : ArgWriter) : Parcel → Except AccessFault ArgWriter
  | .scalar v => w.push v
  | .bytes bs => w.pushBytes bs

/-- Writes one value after the other and goes on when one of them does not fit.  The answer tells
which of them were written. -/
def ArgWriter.sendAll (w : ArgWriter) : List Parcel → List Parcel × ArgWriter
  | [] => ([], w)
  | p :: ps =>
    match w.send p with
    | .ok w' => (p :: (w'.sendAll ps).1, (w'.sendAll ps).2)
    | .error _ => w.sendAll ps

/-- Reads a value. -/
def ArgReader.receive (r : ArgReader) : Shape → Except AccessFault (Parcel × ArgReader)
  | .scalar t => (r.read t).map fun (v, r') => (.scalar v, r')
  | .bytes size => (r.readBytes size).map fun (bs, r') => (.bytes bs, r')

/-- Reads one value after the other; the first failure ends it. -/
def ArgReader.receiveAll (r : ArgReader) : List Shape → Except AccessFault (List Parcel × ArgReader)
  | [] => .ok ([], r)
  | s :: ss => do
    let (p, r') ← r.receive s
    let (ps, r'') ← r'.receiveAll ss
    return (p :: ps, r'')

/-- The slots of values that stand one after the other. -/
def packed (ps : List Parcel) : Buffer :=
  ps.flatMap fun p => slotsOfBytes p.data

lemma packed_cons (p : Parcel) (ps : List Parcel) :
    packed (p :: ps) = slotsOfBytes p.data ++ packed ps := rfl

lemma length_packed (ps : List Parcel) :
    (packed ps).length = Slot.total (ps.map (·.data.length)) := by
  induction ps with
  | nil => rfl
  | cons p ps ih => simp [packed_cons, Slot.total, ih]

section Lists

variable {rest : Buffer}

lemma send_eq_pushBytes (w : ArgWriter) (p : Parcel) : w.send p = w.pushBytes p.data := by
  cases p <;> rfl

/-- Writing puts the slots of the value where the cursor stands. -/
lemma send_of_le (front : Buffer) {p : Parcel} (hroom : Slot.count p.data.length ≤ rest.length) :
    ArgWriter.send ⟨front ++ rest, front.length⟩ p =
      .ok ⟨front ++ slotsOfBytes p.data ++ rest.drop (Slot.count p.data.length),
        (front ++ slotsOfBytes p.data).length⟩ := by
  rw [send_eq_pushBytes, ArgWriter.pushBytes, write_of_le hroom, List.length_append,
    length_slotsOfBytes]
  rfl

lemma send_of_lt (front : Buffer) {p : Parcel} (hroom : rest.length < Slot.count p.data.length) :
    ∃ needed, ArgWriter.send ⟨front ++ rest, front.length⟩ p =
      .error (.failed (.overrun needed (front ++ rest).length)) := by
  rw [send_eq_pushBytes, ArgWriter.pushBytes, write_of_lt hroom]
  exact ⟨_, rfl⟩

/-- What was written stands at the cursor, and what follows it is as it was. -/
lemma sendAll_eq (front rest : Buffer) (ps : List Parcel) :
    ∃ sent, List.Sublist sent ps ∧ (packed sent).length ≤ rest.length ∧
      ArgWriter.sendAll ⟨front ++ rest, front.length⟩ ps =
        (sent, ⟨front ++ packed sent ++ rest.drop (packed sent).length,
          (front ++ packed sent).length⟩) := by
  induction ps generalizing front rest with
  | nil => exact ⟨[], List.Sublist.refl _, by simp [packed], by simp [ArgWriter.sendAll, packed]⟩
  | cons p ps ih =>
    rcases Nat.lt_or_ge rest.length (Slot.count p.data.length) with hroom | hroom
    · -- the value does not fit, and the next one starts from the same cursor
      obtain ⟨sent, hsub, hlen, hsend⟩ := ih front rest
      obtain ⟨needed, hfail⟩ := send_of_lt front hroom
      refine ⟨sent, hsub.cons p, hlen, ?_⟩
      simp only [ArgWriter.sendAll, hfail, hsend]
    · obtain ⟨sent, hsub, hlen, hsend⟩ := ih (front ++ slotsOfBytes p.data)
        (rest.drop (Slot.count p.data.length))
      refine ⟨p :: sent, hsub.cons_cons p, ?_, ?_⟩
      · rw [List.length_drop] at hlen
        rw [packed_cons, List.length_append, length_slotsOfBytes]
        omega
      · simp only [ArgWriter.sendAll, send_of_le front hroom, hsend]
        simp only [packed_cons, List.append_assoc, List.drop_drop, List.length_append,
          length_slotsOfBytes]

lemma receive_slots (front rest : Buffer) {p : Parcel} (hp : p.Fits) :
    ArgReader.receive ⟨front ++ slotsOfBytes p.data ++ rest, front.length⟩ p.shape =
      .ok (p, ⟨front ++ slotsOfBytes p.data ++ rest, (front ++ slotsOfBytes p.data).length⟩) := by
  have hread := read_slotsOfBytes front rest p.data
  rw [List.length_append, length_slotsOfBytes]
  cases p with
  | bytes bs =>
    simp only [Parcel.data] at hread
    simp only [ArgReader.receive, Parcel.shape, Parcel.data, ArgReader.readBytes, hread]
    rfl
  | scalar v =>
    simp only [Parcel.data, v.length_bytes_eq] at hread
    simp only [ArgReader.receive, ArgReader.read, Parcel.shape, Parcel.data, ArgReader.readBytes,
      hread, v.length_bytes_eq]
    exact congrArg (fun u => Except.ok (Parcel.scalar u, _)) (Scalar.ofBytes_bytes_of_fits hp)

/-- Reading goes over the values in the order in which they stand. -/
lemma receiveAll_packed (front rest : Buffer) {ps : List Parcel} (hps : ∀ p ∈ ps, p.Fits) :
    ArgReader.receiveAll ⟨front ++ packed ps ++ rest, front.length⟩ (ps.map Parcel.shape) =
      .ok (ps, ⟨front ++ packed ps ++ rest, (front ++ packed ps).length⟩) := by
  induction ps generalizing front with
  | nil => simp [ArgReader.receiveAll, packed]
  | cons p ps ih =>
    obtain ⟨hp, hps⟩ := List.forall_mem_cons.mp hps
    have hfirst := receive_slots front (packed ps ++ rest) hp
    have hothers := ih (front ++ slotsOfBytes p.data) hps
    simp only [packed_cons, ← List.append_assoc] at hfirst hothers ⊢
    simp only [List.map_cons, ArgReader.receiveAll, hfirst, hothers, bind, Except.bind]
    rfl

end Lists

/-- Any values are written into any buffer, one after the other, and those that do not fit are
left out.  A value is left out only when it needs more slots than there are after the cursor.  In
the end the cursor stands after the slots of the values that were written, and a reader that asks
for their types and sizes gets these values and ends at the same cursor. -/
theorem receiveAll_of_sendAll {b : Buffer} {ps sent : List Parcel} {w : ArgWriter}
    (hps : ∀ p ∈ ps, p.Fits) (hsend : (ArgWriter.new b).sendAll ps = (sent, w)) :
    (∀ before p after e, ps = before ++ p :: after →
      ((ArgWriter.new b).sendAll before).2.send p = .error e →
      b.length < ((ArgWriter.new b).sendAll before).2.offset + Slot.count p.data.length ∧
        ∃ needed, e = .failed (.overrun needed b.length)) ∧
    w.offset = Slot.total (sent.map (·.data.length)) ∧
    (ArgReader.new w.buffer).receiveAll (sent.map Parcel.shape) =
      .ok (sent, ⟨w.buffer, w.offset⟩) := by
  have hnew : ArgWriter.new b = ⟨[] ++ b, ([] : Buffer).length⟩ := rfl
  rw [hnew] at hsend ⊢
  refine ⟨fun before p after e _ hfail => ?_, ?_⟩
  · obtain ⟨sent', -, hlen, hsend'⟩ := sendAll_eq [] b before
    have hlength : ([] ++ packed sent' ++ b.drop (packed sent').length).length = b.length := by
      simp only [List.nil_append, List.length_append, List.length_drop]
      omega
    rw [hsend'] at hfail ⊢
    rcases Nat.lt_or_ge (b.drop (packed sent').length).length (Slot.count p.data.length) with
      hroom | hroom
    · obtain ⟨needed, hover⟩ := send_of_lt ([] ++ packed sent') hroom
      rw [hover, hlength] at hfail
      cases hfail
      rw [List.length_drop] at hroom
      refine ⟨?_, needed, rfl⟩
      simp only [List.nil_append]
      omega
    · rw [send_of_le _ hroom] at hfail
      cases hfail
  · obtain ⟨sent', hsub, -, hsend'⟩ := sendAll_eq [] b ps
    rw [hsend'] at hsend
    cases hsend
    refine ⟨?_, receiveAll_packed [] _ fun p hp => hps p (hsub.subset hp)⟩
    rw [List.nil_append, length_packed]

/-- Four values for a buffer of three slots.  The second one needs three slots and is left out,
those after it are written. -/
theorem receiveAll_of_sendAll_mixed :
    ∃ w, (ArgWriter.new [7, 7, 7]).sendAll
        [.scalar (.int true .two (-3)), .bytes (List.replicate 17 1), .bytes [],
          .bytes (List.replicate 9 255)] =
        ([.scalar (.int true .two (-3)), .bytes [], .bytes (List.replicate 9 255)], w) ∧
      w.offset = 3 ∧
      (ArgReader.new w.buffer).receiveAll [.scalar (.int true .two), .bytes 0, .bytes 9] =
        .ok ([.scalar (.int true .two (-3)), .bytes [], .bytes (List.replicate 9 255)],
          ⟨w.buffer, 3⟩) := by
  obtain ⟨w, hw⟩ : ∃ w, (ArgWriter.new [7, 7, 7]).sendAll
      [.scalar (.int true .two (-3)), .bytes (List.replicate 17 1), .bytes [],
        .bytes (List.replicate 9 255)] =
      ([.scalar (.int true .two (-3)), .bytes [], .bytes (List.replicate 9 255)], w) :=
    ⟨_, Prod.ext (by decide +kernel) rfl⟩
  obtain ⟨-, hoffset, hread⟩ := receiveAll_of_sendAll (by decide) hw
  have htotal : w.offset = 3 := hoffset
  rw [htotal] at hread
  exact ⟨w, hw, htotal, hread⟩

end ManagedHost
