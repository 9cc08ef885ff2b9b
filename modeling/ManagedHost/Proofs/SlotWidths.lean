/-
# Integers that are read at another width

An integer is written with the bytes of its type, and the rest of its slot is zero.  Whoever reads
the slot as an integer of some type takes as many of its lowest bytes as that type has, and learns
nothing about the type that was written.  So a narrower type cuts the number off, and a wider one
finds zeros above it, also where the number was negative.

A scalar takes one slot.  Writing it replaces this slot by the number that its bytes form, and
reading takes the lowest bytes of this number; the two lemmas that say so, `write_scalar` and
`read_low`, leave a calculation with remainders.

* `byteSpan_eq`: the numbers that can be written with some bytes.
* `toNat_ofBytes_int`, `hasPattern_ofBytes`: the slot of an integer, and the integer that is read
  from a slot.
* `integers_at_other_widths`: the integer that is read is the one with the remaining bit pattern.
-/
import Mathlib.Algebra.Group.Int.Defs
import Mathlib.Algebra.Group.Nat.Defs
import Mathlib.Tactic.NormNum
import ManagedHost.Proofs.BufferAccess

namespace ManagedHost

/-! ## Slots and their lowest bytes -/

lemma byteSpan_eq (n : Nat) : byteSpan n = 2 ^ (8 * n) := by
  induction n with
  | zero => rfl
  | succ n ih =>
    have hbyte : (2 : Nat) ^ 8 = 256 := rfl
    rw [byteSpan, ih, Nat.mul_succ, pow_add, hbyte, mul_comm]

lemma byteSpan_cast (n : Nat) : (byteSpan n : Int) = 2 ^ (8 * n) := by
  rw [byteSpan_eq]
  norm_cast

lemma take_littleEndian {k width : Nat} (hk : k ≤ width) (n : Nat) :
    (littleEndian width n).take k = littleEndian k n := by
  induction k generalizing width n with
  | zero => rfl
  | succ k ih =>
    obtain ⟨width, rfl⟩ := Nat.exists_eq_add_of_le' (Nat.le_trans (Nat.succ_le_succ k.zero_le) hk)
    rw [littleEndian, littleEndian, List.take_succ_cons, ih (Nat.le_of_succ_le_succ hk)]

lemma Slot.take_bytes (s : Slot) {n : Nat} (hn : n ≤ 8) : s.bytes.take n = littleEndian n s.toNat :=
  take_littleEndian hn s.toNat

/-- A slot is the number that the bytes at its beginning form. -/
lemma Slot.toNat_ofBytes {bs : List UInt8} (hlen : bs.length ≤ 8) :
    (Slot.ofBytes bs).toNat = ofLittleEndian bs := by
  have hlt := ofLittleEndian_lt bs
  have hspan : byteSpan bs.length ≤ 2 ^ 64 := by
    rw [byteSpan_eq]
    exact Nat.pow_le_pow_right (by decide) (by omega)
  rw [Slot.ofBytes, UInt64.toNat_ofNat', Nat.mod_eq_of_lt (Nat.lt_of_lt_of_le hlt hspan)]

lemma ScalarType.size_pos (t : ScalarType) : 0 < t.size := by
  rcases t with _ | ⟨signed, _ | _ | _ | _⟩ | _ | _ <;> exact of_decide_eq_true rfl

lemma ScalarType.size_le (t : ScalarType) : t.size ≤ 8 := by
  rcases t with _ | ⟨signed, _ | _ | _ | _⟩ | _ | _ <;> exact of_decide_eq_true rfl

lemma Slot.count_eq_one {n : Nat} (hpos : 0 < n) (hle : n ≤ 8) : Slot.count n = 1 := by
  rw [Slot.count, Slot.size]
  omega

/-- A value of at most eight bytes is written into one slot. -/
lemma slotsOfBytes_eq_singleton {data : List UInt8} (hpos : 0 < data.length)
    (hle : data.length ≤ 8) : slotsOfBytes data = [Slot.ofBytes data] := by
  rw [slotsOfBytes_eq_cons (List.length_pos_iff.mp hpos), List.take_of_length_le hle,
    List.drop_eq_nil_of_le hle]
  rfl

namespace Buffer

variable {b : Buffer} {i : Nat}

/-- Writing a scalar replaces one slot. -/
lemma write_scalar (hi : i < b.length) (v : Scalar) :
    b.write i v.bytes = .ok (b.set i (Slot.ofBytes v.bytes)) := by
  have hpos : 0 < v.bytes.length := v.length_bytes_eq ▸ v.type.size_pos
  have hle : v.bytes.length ≤ 8 := v.length_bytes_eq ▸ v.type.size_le
  have hcount := Slot.count_eq_one hpos hle
  rw [write, check_eq_ok (by omega), hcount, slotsOfBytes_eq_singleton hpos hle,
    List.set_eq_take_append_cons_drop, if_pos hi, List.append_assoc]
  rfl

/-- Reading at most eight bytes takes the lowest ones of a slot. -/
lemma read_low {s : Slot} (hs : b[i]? = some s) {n : Nat} (hpos : 0 < n) (hle : n ≤ 8) :
    b.read i n = .ok (littleEndian n s.toNat) := by
  obtain ⟨hi, rfl⟩ := List.getElem?_eq_some_iff.mp hs
  have hcount := Slot.count_eq_one hpos hle
  have hslot : (b.drop i).take 1 = [b[i]] := by
    rw [List.drop_eq_getElem_cons hi]
    rfl
  have hbytes : (Buffer.bytes [b[i]]).take n = littleEndian n b[i].toNat := by
    rw [bytes_cons, List.take_append_of_le_length (by simpa using hle), Slot.take_bytes _ hle]
  rw [read, check_eq_ok (by omega), hcount, hslot, hbytes]
  rfl

end Buffer

/-! ## Bit patterns -/

lemma IntSize.byteSpan_even (size : IntSize) : byteSpan size.bytes % 2 = 0 := by
  cases size <;> decide

/-- The integer `u` is the one of this type whose bit pattern is the given number. -/
structure HasPattern (signed : Bool) (size : IntSize) (u pattern : Int) : Prop where
  fits : (Scalar.int signed size u).Fits
  pattern_eq : u % 2 ^ (8 * size.bytes) = pattern

namespace HasPattern

variable {signed : Bool} {size : IntSize} {u u' pattern : Int}

/-- The integer is computed from the bit pattern: the upper half of the patterns stands for the
negative numbers of a type with sign. -/
lemma eq_ite (hu : HasPattern signed size u pattern) :
    u = if signed then Int.bmod pattern (byteSpan size.bytes) else pattern := by
  obtain ⟨hfits, rfl⟩ := hu
  rw [← byteSpan_cast]
  cases signed with
  | true =>
    obtain ⟨hlo, hhi⟩ := hfits
    have heven := size.byteSpan_even
    rw [if_pos rfl, Int.emod_bmod, Int.bmod_eq_of_le (by omega) (by omega)]
  | false =>
    obtain ⟨hlo, hhi⟩ := hfits
    rw [if_neg Bool.false_ne_true, Int.emod_eq_of_lt hlo hhi]

lemma unique (hu : HasPattern signed size u pattern) (hu' : HasPattern signed size u' pattern) :
    u = u' :=
  hu.eq_ite.trans hu'.eq_ite.symm

/-- Where there is room for more than the pattern, the integer is the pattern. -/
lemma eq_pattern (hu : HasPattern signed size u pattern) (hnonneg : 0 ≤ pattern)
    (hlt : 2 * pattern < 2 ^ (8 * size.bytes)) : u = pattern := by
  have heven := size.byteSpan_even
  rw [← byteSpan_cast] at hlt
  refine hu.unique ⟨?_, ?_⟩
  · cases signed
    · exact ⟨hnonneg, by omega⟩
    · exact ⟨by omega, by omega⟩
  · rw [← byteSpan_cast, Int.emod_eq_of_lt hnonneg (by omega)]

/-- A wider type sees the whole bit pattern of a number, and zeros above it. -/
lemma eq_of_wider {width : Nat} {v : Int} (hwider : width < size.bytes)
    (hu : HasPattern signed size u (v % 2 ^ (8 * width) % 2 ^ (8 * size.bytes))) :
    u = v % 2 ^ (8 * width) := by
  have hpos : (0 : Int) < 2 ^ (8 * width) := pow_pos (by decide) _
  have hnonneg := Int.emod_nonneg v hpos.ne'
  have hlt := Int.emod_lt_of_pos v hpos
  have hroom : (2 * 2 ^ (8 * width) : Int) ≤ 2 ^ (8 * size.bytes) := by
    rw [← pow_succ']
    exact pow_le_pow_right₀ (by decide) (by omega)
  rw [Int.emod_eq_of_lt hnonneg (by omega)] at hu
  exact hu.eq_pattern hnonneg (by omega)

end HasPattern

/-- The slot of an integer is its bit pattern. -/
lemma toNat_ofBytes_int (signed : Bool) (size : IntSize) (v : Int) :
    ((Slot.ofBytes (Scalar.int signed size v).bytes).toNat : Int) = v % 2 ^ (8 * size.bytes) := by
  have hlen : (Scalar.int signed size v).bytes.length ≤ 8 := by
    rw [Scalar.length_bytes_eq]
    exact ScalarType.size_le _
  rw [Slot.toNat_ofBytes hlen, Scalar.ofLittleEndian_bytes_int, byteSpan_cast]

/-- An integer is read from the lowest bytes of a number. -/
lemma hasPattern_ofBytes (signed : Bool) (size : IntSize) (n : Nat) :
    ∃ u, Scalar.ofBytes (.int signed size) (littleEndian size.bytes n) = .int signed size u ∧
      HasPattern signed size u (n % 2 ^ (8 * size.bytes)) := by
  have hpos : 0 < byteSpan size.bytes := by cases size <;> decide
  have heven := size.byteSpan_even
  have hbytes : (ofLittleEndian (littleEndian size.bytes n) : Int) = n % byteSpan size.bytes := by
    rw [ofLittleEndian_littleEndian]
    norm_cast
  cases signed with
  | true =>
    refine ⟨_, rfl, ?_, ?_⟩
    · have hlo := Int.le_bmod (x := ofLittleEndian (littleEndian size.bytes n)) hpos
      have hhi := Int.bmod_lt (x := ofLittleEndian (littleEndian size.bytes n)) hpos
      exact ⟨by omega, by omega⟩
    · rw [← byteSpan_cast, Int.bmod_emod, hbytes, Int.emod_emod_of_dvd _ dvd_rfl]
  | false =>
    refine ⟨_, rfl, ?_, ?_⟩
    · rw [hbytes]
      exact ⟨Int.emod_nonneg _ (by omega), Int.emod_lt_of_pos _ (by omega)⟩
    · rw [← byteSpan_cast, hbytes, Int.emod_emod_of_dvd _ dvd_rfl]

/-- A truth value is read from the lowest byte of a number. -/
lemma ofBytes_bool (n : Nat) :
    Scalar.ofBytes .bool (littleEndian 1 n) = .bool (decide (n % 256 ≠ 0)) := by
  have hzero : UInt8.ofNat n = 0 ↔ n % 256 = 0 := by
    rw [← UInt8.toNat_inj, UInt8.toNat_ofNat']
    rfl
  simp only [Scalar.ofBytes, littleEndian, List.head?_cons, Scalar.bool.injEq]
  by_cases hn : n % 256 = 0
  · simp [hn, hzero.mpr hn]
  · simp [hn, mt hzero.mp hn]

/-- The lowest byte of an integer is found in its slot. -/
lemma low_byte {a : IntSize} {v : Int} {n : Nat} (hn : (n : Int) = v % 2 ^ (8 * a.bytes)) :
    decide (n % 256 ≠ 0) = decide (v % 256 ≠ 0) := by
  have hdvd : (2 ^ 8 : Int) ∣ 2 ^ (8 * a.bytes) := pow_dvd_pow 2 (by cases a <;> decide)
  have hbyte : v % 256 = (n : Int) % 256 := by
    rw [hn]
    exact (Int.emod_emod_of_dvd v hdvd).symm
  rw [hbyte]
  norm_cast

/-! ## Cursors and results -/

lemma push_scalar {b : Buffer} {cursor : Nat} (hroom : cursor < b.length) (v : Scalar) :
    ArgWriter.push ⟨b, cursor⟩ v = .ok ⟨b.set cursor (Slot.ofBytes v.bytes), cursor + 1⟩ := by
  have hcount : Slot.count v.bytes.length = 1 := by
    rw [v.length_bytes_eq]
    exact Slot.count_eq_one v.type.size_pos v.type.size_le
  rw [ArgWriter.push, ArgWriter.pushBytes, Buffer.write_scalar hroom, hcount]
  rfl

lemma read_scalar {b : Buffer} {cursor : Nat} {s : Slot} (hs : b[cursor]? = some s)
    (t : ScalarType) :
    ArgReader.read ⟨b, cursor⟩ t =
      .ok (.ofBytes t (littleEndian t.size s.toNat), ⟨b, cursor + 1⟩) := by
  rw [ArgReader.read, ArgReader.readBytes, Buffer.read_low hs t.size_pos t.size_le,
    Slot.count_eq_one t.size_pos t.size_le]
  rfl

lemma readReturn_scalar {b : Buffer} {s : Slot} (hs : b[0]? = some s) (t : ScalarType) :
    b.readReturn t = .ok (.ofBytes t (littleEndian t.size s.toNat)) := by
  rw [Buffer.readReturn, Buffer.getReturn, Buffer.read_low hs t.size_pos t.size_le]
  rfl

/-- What is written later leaves the slots before the cursor alone. -/
lemma sendAll_getElem? {w : ArgWriter} (hw : w.offset ≤ w.buffer.length) (ps : List Parcel)
    {i : Nat} (hi : i < w.offset) : (w.sendAll ps).2.buffer[i]? = w.buffer[i]? := by
  have hlen : (w.buffer.take w.offset).length = w.offset := List.length_take_of_le hw
  have hsplit : w = ⟨w.buffer.take w.offset ++ w.buffer.drop w.offset,
      (w.buffer.take w.offset).length⟩ := by
    rw [List.take_append_drop, hlen]
  obtain ⟨sent, -, -, hsend⟩ :=
    sendAll_eq (w.buffer.take w.offset) (w.buffer.drop w.offset) ps
  rw [← hsplit] at hsend
  rw [hsend, List.append_assoc, List.getElem?_append_left (by omega), List.getElem?_take_of_lt hi]

/-- An integer that is written into any slot of any buffer, as an argument or as a result, is read
there as an integer of any type.  What is read is the one integer of that type whose bit pattern is
that of the written one, cut off at the size of the type: a type that is not wider sees the number
up to multiples of its span, and a wider one sees the bit pattern itself.  What is read as a truth
value tells whether the lowest byte is zero.  Arguments that are written later change none of
this. -/
theorem integers_at_other_widths (signed signed' : Bool) (a b : IntSize) (v : Int)
    {buffer : Buffer} {cursor : Nat} (hroom : cursor < buffer.length) :
    ∃ u : Int,
      HasPattern signed' b u (v % 2 ^ (8 * a.bytes) % 2 ^ (8 * b.bytes)) ∧
      (∀ u', HasPattern signed' b u' (v % 2 ^ (8 * a.bytes) % 2 ^ (8 * b.bytes)) → u' = u) ∧
      (b.bytes ≤ a.bytes → u % 2 ^ (8 * b.bytes) = v % 2 ^ (8 * b.bytes)) ∧
      (a.bytes < b.bytes → u = v % 2 ^ (8 * a.bytes)) ∧
      (∃ w, ArgWriter.push ⟨buffer, cursor⟩ (.int signed a v) = .ok w ∧ ∀ later,
        ArgReader.read ⟨(w.sendAll later).2.buffer, cursor⟩ (.int signed' b) =
          .ok (.int signed' b u, ⟨(w.sendAll later).2.buffer, cursor + 1⟩) ∧
        ArgReader.read ⟨(w.sendAll later).2.buffer, cursor⟩ .bool =
          .ok (.bool (decide (v % 256 ≠ 0)), ⟨(w.sendAll later).2.buffer, cursor + 1⟩)) ∧
      ∃ result, buffer.writeReturn (.int signed a v) = .ok result ∧
        result.readReturn (.int signed' b) = .ok (.int signed' b u) ∧
        result.readReturn .bool = .ok (.bool (decide (v % 256 ≠ 0))) := by
  set s := Slot.ofBytes (Scalar.int signed a v).bytes
  have hslot : (s.toNat : Int) = v % 2 ^ (8 * a.bytes) := toNat_ofBytes_int signed a v
  obtain ⟨u, hint, hu⟩ := hasPattern_ofBytes signed' b s.toNat
  have hbool := (ofBytes_bool s.toNat).trans (congrArg Scalar.bool (low_byte hslot))
  rw [hslot] at hu
  refine ⟨u, hu, fun u' hu' => hu'.unique hu, fun hle => ?_, fun hlt => ?_, ?_, ?_⟩
  · rw [hu.pattern_eq, Int.emod_emod_of_dvd _ (pow_dvd_pow 2 (by omega))]
  · exact hu.eq_of_wider hlt
  · refine ⟨_, push_scalar hroom _, fun later => ?_⟩
    have hfound := sendAll_getElem? (w := ⟨buffer.set cursor s, cursor + 1⟩)
      (by rw [List.length_set]; exact hroom) later (Nat.lt_succ_self cursor)
    rw [List.getElem?_set_self hroom] at hfound
    rw [← hint, ← hbool]
    exact ⟨read_scalar hfound _, read_scalar hfound _⟩
  · have hnonempty : 0 < buffer.length := Nat.zero_lt_of_lt hroom
    refine ⟨_, Buffer.write_scalar hnonempty _, ?_⟩
    have hfound : (buffer.set 0 s)[0]? = some s := List.getElem?_set_self hnonempty
    rw [← hint, ← hbool]
    exact ⟨readReturn_scalar hfound _, readReturn_scalar hfound _⟩

/-- A negative number of two bytes in the second of three slots.  Eight bytes with sign see zeros
above it. -/
theorem integers_at_other_widths_negative :
    1 < ([7, 7, 7] : Buffer).length ∧
    ∃ w, ArgWriter.push ⟨[7, 7, 7], 1⟩ (.int true .two (-2)) = .ok w ∧
      ArgReader.read ⟨w.buffer, 1⟩ (.int true .eight) =
        .ok (.int true .eight 65534, ⟨w.buffer, 2⟩) ∧
      ArgReader.read ⟨w.buffer, 1⟩ .bool = .ok (.bool true, ⟨w.buffer, 2⟩) := by
  have hroom : 1 < ([7, 7, 7] : Buffer).length := by decide
  obtain ⟨u, -, -, -, hwider, ⟨w, hpush, hread⟩, -⟩ :=
    integers_at_other_widths true true .two .eight (-2) hroom
  have hu : u = 65534 := hwider (by decide)
  subst hu
  exact ⟨hroom, w, hpush, hread []⟩

end ManagedHost
