/-
# Scalars in slots

The plain values that code reads from and writes to slots: truth values, integers of one,
two, four and eight bytes with or without sign, and floating-point numbers, the latter as
their bit patterns. A scalar takes one slot. Reading a slot at another type than it was
written looks at the low bytes only, so a wider type sees zeros above.
-/
import ManagedHost.Slot.Buffer

namespace ManagedHost

/-- The number of bytes of an integer. -/
inductive IntSize where
  | one
  | two
  | four
  | eight
deriving Repr, DecidableEq, Inhabited

/-- The size as a number. -/
def IntSize.bytes : IntSize → Nat
  | one => 1
  | two => 2
  | four => 4
  | eight => 8

/-- The type of a scalar. -/
inductive ScalarType where
  | bool
  | int (signed : Bool) (size : IntSize)
  | float32
  | float64
deriving Repr, DecidableEq, Inhabited

namespace ScalarType

/-- Number of bytes of a scalar. -/
def size : ScalarType → Nat
  | bool => 1
  | int _ s => s.bytes
  | float32 => 4
  | float64 => 8

end ScalarType

/-- A scalar value. -/
inductive Scalar where
  | bool (b : Bool)
  | int (signed : Bool) (size : IntSize) (value : Int)
  /-- The bit pattern of a single-precision number. -/
  | float32 (bits : UInt32)
  /-- The bit pattern of a double-precision number. -/
  | float64 (bits : UInt64)
deriving Repr, DecidableEq, Inhabited

namespace Scalar

/-- The type of a scalar. -/
def type : Scalar → ScalarType
  | bool _ => .bool
  | int signed size _ => .int signed size
  | float32 _ => .float32
  | float64 _ => .float64

/-- The bytes of a scalar; integers wrap around at the size of their type. -/
def bytes : Scalar → List UInt8
  | bool b => [if b then 1 else 0]
  | int _ size v => littleEndian size.bytes (v % (byteSpan size.bytes : Int)).toNat
  | float32 bits => littleEndian 4 bits.toNat
  | float64 bits => littleEndian 8 bits.toNat

/-- The scalar of a type that the given bytes stand for. -/
def ofBytes : ScalarType → List UInt8 → Scalar
  | .bool, bs => bool (bs.head? != some 0)
  | .int true size, bs => int true size (Int.bmod (ofLittleEndian bs) (byteSpan size.bytes))
  | .int false size, bs => int false size (ofLittleEndian bs)
  | .float32, bs => float32 (UInt32.ofNat (ofLittleEndian bs))
  | .float64, bs => float64 (UInt64.ofNat (ofLittleEndian bs))

/-- The integer a scalar stands for; zero for a scalar that is none. -/
def toInt : Scalar → Int
  | int _ _ v => v
  | _ => 0

end Scalar

/-- A signed integer of four bytes. -/
abbrev ScalarType.int32 : ScalarType := .int true .four

/-- An unsigned integer of eight bytes. -/
abbrev ScalarType.word : ScalarType := .int false .eight

/-- The signed integer of four bytes with this value. -/
abbrev Scalar.int32 (v : Int) : Scalar := .int true .four v

/-- Reads the next scalar of a type. -/
def ArgReader.read (r : ArgReader) (t : ScalarType) : Except AccessFault (Scalar × ArgReader) := do
  let (bs, r) ← r.readBytes t.size
  return (.ofBytes t bs, r)

/-- Writes a scalar. -/
def ArgWriter.push (w : ArgWriter) (v : Scalar) : Except AccessFault ArgWriter :=
  w.pushBytes v.bytes

/-- The scalar of a type at the start of a buffer that received a result. -/
def Buffer.readReturn (b : Buffer) (t : ScalarType) : Except AccessFault Scalar :=
  return .ofBytes t (← b.getReturn t.size)

/-- The buffer that receives a result, with a scalar written into it. -/
def Buffer.writeReturn (b : Buffer) (v : Scalar) : Except AccessFault Buffer :=
  b.setReturn v.bytes

end ManagedHost
