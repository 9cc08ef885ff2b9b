/-
# Slots

Arguments and results of calls travel in buffers of slots of eight bytes each. A value of
`n` bytes takes the least number of whole slots that hold it; its bytes come in ascending
significance, and the rest of the last slot is zero.
-/
import ManagedHost.Text.Hex

namespace ManagedHost

/-- The `width` lowest bytes of a number, least significant first. -/
def littleEndian : Nat → Nat → List UInt8
  | 0, _ => []
  | width + 1, n => UInt8.ofNat n :: littleEndian width (n / 256)

/-- The number with these bytes, least significant first. -/
def ofLittleEndian : List UInt8 → Nat
  | [] => 0
  | b :: rest => b.toNat + 256 * ofLittleEndian rest

/-- How many numbers can be written with `width` bytes. -/
def byteSpan : Nat → Nat
  | 0 => 1
  | width + 1 => 256 * byteSpan width

/-- How many sizes and positions there are: they are words of eight bytes. -/
def wordSpan : Nat :=
  byteSpan 8

/-- A number as a size or a position, which wraps around where a word ends. -/
def wrapWord (n : Nat) : Nat :=
  n % wordSpan

/-- A slot, as the number its eight bytes form. -/
abbrev Slot := UInt64

namespace Slot

/-- Number of bytes of a slot. -/
def size : Nat := 8

/-- The eight bytes of a slot. -/
def bytes (s : Slot) : List UInt8 :=
  littleEndian size s.toNat

/-- The slot that starts with the given bytes, at most eight, and is zero from there on. -/
def ofBytes (bs : List UInt8) : Slot :=
  UInt64.ofNat (ofLittleEndian bs)

/-- A slot as text. -/
def text (s : Slot) : String :=
  s!"0x{Text.hex 16 s.toNat}"

/-- A slot in the form in which records are described. -/
def describe (s : Slot) : String :=
  s!"StackObject({text s})"

/-- Number of slots that a value of `n` bytes takes. -/
def count (n : Nat) : Nat :=
  (n + 7) / size

/-- Number of slots that values of these sizes take together. -/
def total : List Nat → Nat
  | [] => 0
  | n :: rest => count n + total rest

end Slot

@[simp] theorem length_littleEndian (width n : Nat) : (littleEndian width n).length = width := by
  induction width generalizing n with
  | zero => rfl
  | succ width ih => simp [littleEndian, ih]

/-- Reading back the `width` lowest bytes of a number leaves its remainder. -/
theorem ofLittleEndian_littleEndian (width n : Nat) :
    ofLittleEndian (littleEndian width n) = n % byteSpan width := by
  induction width generalizing n with
  | zero => simp [littleEndian, ofLittleEndian, byteSpan, Nat.mod_one]
  | succ width ih =>
    have split : n % byteSpan (width + 1) = n % 256 + 256 * (n / 256 % byteSpan width) := by
      rw [byteSpan, Nat.mod_mul]
    simp only [littleEndian, ofLittleEndian, ih, UInt8.toNat_ofNat']
    exact split.symm

/-- A number with `bs.length` bytes is one of those that can be written with so many bytes. -/
theorem ofLittleEndian_lt (bs : List UInt8) : ofLittleEndian bs < byteSpan bs.length := by
  induction bs with
  | nil => simp [ofLittleEndian, byteSpan]
  | cons b rest ih =>
    have hb : b.toNat < 256 := b.toNat_lt
    simp only [ofLittleEndian, List.length_cons, byteSpan]
    omega

/-- Writing the bytes of a number that was read from bytes gives those bytes. -/
theorem littleEndian_ofLittleEndian (bs : List UInt8) :
    littleEndian bs.length (ofLittleEndian bs) = bs := by
  induction bs with
  | nil => rfl
  | cons b rest ih =>
    have hb : b.toNat < 256 := b.toNat_lt
    have hdiv : (b.toNat + 256 * ofLittleEndian rest) / 256 = ofLittleEndian rest := by omega
    have hmod : UInt8.ofNat (b.toNat + 256 * ofLittleEndian rest) = b := by
      apply UInt8.toNat_inj.mp
      simp only [UInt8.toNat_ofNat']
      omega
    simp only [ofLittleEndian, List.length_cons, littleEndian, hdiv, hmod, ih]

theorem wordSpan_eq : wordSpan = 18446744073709551616 := rfl

theorem wrapWord_of_lt {n : Nat} (hn : n < wordSpan) : wrapWord n = n :=
  Nat.mod_eq_of_lt hn

theorem wrapWord_of_le {n : Nat} (hle : wordSpan ≤ n) (hlt : n < 2 * wordSpan) :
    wrapWord n = n - wordSpan := by
  rw [wrapWord, Nat.mod_eq_sub_mod hle, Nat.mod_eq_of_lt (by omega)]

namespace Slot

@[simp] theorem length_bytes (s : Slot) : s.bytes.length = 8 := by
  simp [bytes, size]

/-- A slot is determined by its bytes. -/
@[simp] theorem ofBytes_bytes (s : Slot) : ofBytes s.bytes = s := by
  apply UInt64.toNat_inj.mp
  have h := s.toNat_lt
  simp only [ofBytes, bytes, size, ofLittleEndian_littleEndian, byteSpan, UInt64.toNat_ofNat']
  omega

/-- A slot made of eight bytes has those bytes. -/
theorem bytes_ofBytes_of_length_eq {bs : List UInt8} (h : bs.length = 8) :
    (ofBytes bs).bytes = bs := by
  have hlt := ofLittleEndian_lt bs
  simp only [h, byteSpan] at hlt
  have hmod : (UInt64.ofNat (ofLittleEndian bs)).toNat = ofLittleEndian bs := by
    simp only [UInt64.toNat_ofNat']
    omega
  have key := littleEndian_ofLittleEndian bs
  rw [h] at key
  simp only [bytes, ofBytes, size, hmod, key]

end Slot

end ManagedHost
