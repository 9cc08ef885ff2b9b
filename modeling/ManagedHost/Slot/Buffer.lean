/-
# Slot buffers

A buffer is a row of slots. Reading and writing happen at a slot position and either
concern slots of the buffer only, or fail and change nothing. Arguments are read and
written one after the other with a cursor that moves past the slots each of them takes.

Positions are machine words. The position after the last slot of an access that starts far
beyond the end wraps around, and may then pass for one within the buffer. Such an access
breaks down at the slot where it starts.
-/
import ManagedHost.Slot
import ManagedHost.Error

namespace ManagedHost

/-- A row of slots. -/
abbrev Buffer := List Slot

/-- Why work on a buffer has no result. -/
inductive AccessFault where
  /-- It is refused. -/
  | failed (error : Error)
  /-- It breaks down, with a message. -/
  | panicked (message : String)
deriving Repr, DecidableEq, Inhabited

/-- The slots that hold the given bytes, the last one filled up with zeros. -/
def slotsOfBytes (data : List UInt8) : List Slot :=
  (List.range (Slot.count data.length)).map fun i =>
    Slot.ofBytes ((data.drop (Slot.size * i)).take Slot.size)

namespace Buffer

/-- A buffer of `n` slots, all zero. -/
def zero (n : Nat) : Buffer :=
  List.replicate n 0

/-- The bytes of all slots, one slot after the other. -/
def bytes (b : Buffer) : List UInt8 :=
  b.flatMap Slot.bytes

/-- The fault of an access to the slots from `start` on, where the buffer ends before. -/
def outOfRange (b : Buffer) (start : Nat) : AccessFault :=
  .panicked s!"range start index {start} out of range for slice of length {b.length}"

/-- Fails unless `size` bytes from slot `start` on lie within the buffer. -/
def check (b : Buffer) (start size : Nat) : Except AccessFault Unit :=
  let needed := start + Slot.count size
  if needed ≤ b.length then .ok ()
  else if b.length < start ∧ wrapWord needed ≤ b.length then .error (b.outOfRange start)
  else .error (.failed (.overrun (wrapWord needed) b.length))

/-- The first `size` bytes from slot `start` on. -/
def read (b : Buffer) (start size : Nat) : Except AccessFault (List UInt8) := do
  b.check start size
  return (bytes ((b.drop start).take (Slot.count size))).take size

/-- The buffer with the data written from slot `start` on. -/
def write (b : Buffer) (start : Nat) (data : List UInt8) : Except AccessFault Buffer := do
  b.check start data.length
  return b.take start ++ slotsOfBytes data ++ b.drop (start + Slot.count data.length)

/-- The first `size` bytes of the buffer that receives a result. -/
def getReturn (b : Buffer) (size : Nat) : Except AccessFault (List UInt8) :=
  b.read 0 size

/-- The buffer that receives a result, with the data written into it. -/
def setReturn (b : Buffer) (data : List UInt8) : Except AccessFault Buffer :=
  b.write 0 data

/-- The buffer `b` with its first slots replaced by those of `new`, as far as there is room. -/
def overlay (b new : Buffer) : Buffer :=
  new.take b.length ++ b.drop new.length

end Buffer

/-- A buffer being read from left to right. -/
structure ArgReader where
  /-- The buffer. -/
  buffer : Buffer
  /-- The slot that is read next. -/
  offset : Nat
deriving Repr, DecidableEq

namespace ArgReader

/-- A reader at the start of a buffer. -/
def new (b : Buffer) : ArgReader :=
  ⟨b, 0⟩

/-- Reads the next value of `size` bytes and moves past its slots. -/
def readBytes (r : ArgReader) (size : Nat) : Except AccessFault (List UInt8 × ArgReader) := do
  let data ← r.buffer.read r.offset size
  return (data, { r with offset := r.offset + Slot.count size })

end ArgReader

/-- A buffer being written from left to right. -/
structure ArgWriter where
  /-- The buffer. -/
  buffer : Buffer
  /-- The slot that is written next. -/
  offset : Nat
deriving Repr, DecidableEq

namespace ArgWriter

/-- A writer at the start of a buffer. -/
def new (b : Buffer) : ArgWriter :=
  ⟨b, 0⟩

/-- Writes the data and moves past the slots it takes. -/
def pushBytes (w : ArgWriter) (data : List UInt8) : Except AccessFault ArgWriter := do
  let b ← w.buffer.write w.offset data
  return { buffer := b, offset := w.offset + Slot.count data.length }

end ArgWriter

end ManagedHost
