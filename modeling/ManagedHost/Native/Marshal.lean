/-
# Calling native functions

Three invokers come with the host. Two of them pass one or two floating-point numbers. The
third passes every argument as the signature of the method demands: each argument is read
from its own slots and handed over as one word, whose bytes beyond the size of the argument
are zero, and of the returned word as many bytes are stored as the result has. A parameter
without a value has no word.
-/
import ManagedHost.Native.FloatBits
import ManagedHost.Slot.Scalar
import ManagedHost.World

namespace ManagedHost

namespace MathFunction

/-- The function on the bit patterns of its arguments. -/
def apply : MathFunction → UInt64 → UInt64 → UInt64
  | sqrt, x, _ => FloatBits.unary Float.sqrt x
  | sin, x, _ => FloatBits.unary Float.sin x
  | cos, x, _ => FloatBits.unary Float.cos x
  | floor, x, _ => FloatBits.rounding Float.floor x
  | ceiling, x, _ => FloatBits.rounding Float.ceil x
  | pow, x, y => FloatBits.pow x y

/-- The function on the words that a call passes. Words that are not given count as zero. -/
def onWords (f : MathFunction) (words : List UInt64) : UInt64 :=
  f.apply (words[0]?.getD 0) (words[1]?.getD 0)

end MathFunction

/-- Whether a value of this type can be handed to native code. -/
def Signature.isMarshallable {ρ : Type} : Signature ρ → Bool
  | .typedReference | .value _ | .parameter _ => false
  | _ => true

/-- Whether this is the type of no value. -/
def Signature.isVoid {ρ : Type} : Signature ρ → Bool
  | .void => true
  | _ => false

/-- Number of bytes that an argument of this type takes in its word. -/
def Signature.wordBytes {ρ : Type} (s : Signature ρ) : Nat :=
  min (s.fixedSize.getD 8) 8

/-- Fails unless a value of this type can be handed to native code. -/
def checkMarshallable (s : Signature ClassHandle) : Except AccessFault Unit :=
  if s.isMarshallable then .ok () else .error (.failed (.unmarshallable s.text))

/-- The words of the parameters, read one after the other. -/
def readWords : List Param → ArgReader → Except AccessFault (List UInt64 × ArgReader)
  | [], r => .ok ([], r)
  | p :: rest, r => do
    checkMarshallable p.type
    let (bs, r) ← r.readBytes p.type.wordBytes
    let (words, r) ← readWords rest r
    return (if p.type.isVoid then words else Slot.ofBytes bs :: words, r)

/-- The words that a call passes to a native function, the receiver first. -/
def marshalArguments (m : Method) (args : Buffer) : Except AccessFault (List UInt64) := do
  let start := ArgReader.new args
  let (receiver, r) ←
    if m.isInstance then do
      let (bs, r) ← start.readBytes Slot.size
      pure ([Slot.ofBytes bs], r)
    else
      pure ([], start)
  let (words, _) ← readWords m.params r
  checkMarshallable m.result
  return receiver ++ words

/-- The buffer for the result with the word that a native function returned. -/
def storeResult (m : Method) (result : Buffer) (word : UInt64) : Except AccessFault Buffer :=
  result.setReturn (littleEndian m.result.wordBytes word.toNat)

namespace Body

/-- Ends with the given buffer, or by a fault that leaves the buffer for the result as it was. -/
def ofExcept (call : Call) : Except AccessFault Buffer → Body
  | .ok result => .done .returned result
  | .error e => .done (e.ending) call.result

/-- Passes every argument as the signature of the method demands. -/
def marshalling (call : Call) : Body :=
  match call.function with
  | none =>
    .done (.failed (.invocation s!"{call.method.qualifiedName} has no native entry point"))
      call.result
  | some f =>
    match marshalArguments call.method call.args with
    | .error e => ofExcept call (.error e)
    | .ok words =>
      .native f words fun word => ofExcept call (storeResult call.method call.result word)

/-- Reads this many floating-point numbers from the arguments, as words. -/
def floatWords : Nat → ArgReader → Except AccessFault (List UInt64)
  | 0, _ => .ok []
  | n + 1, r => do
    let (bs, r) ← r.readBytes 8
    return Slot.ofBytes bs :: (← floatWords n r)

/-- Passes this many floating-point numbers and stores the one that is returned. -/
def floatCall (arity : Nat) (call : Call) : Body :=
  match call.function with
  | none =>
    .done (.failed (.invocation
      s!"{call.method.qualifiedName} was registered without a function pointer")) call.result
  | some f =>
    match floatWords arity (.new call.args) with
    | .error e => ofExcept call (.error e)
    | .ok words =>
      .native f words fun word => ofExcept call (call.result.writeReturn (.float64 word))

end Body

/-- What an invoker does in a world. -/
def Invoker.body (w : World) (i : Invoker) (journal : Journal) (call : Call) : Body :=
  match i with
  | marshalling => .marshalling call
  | unary => .floatCall 1 call
  | binary => .floatCall 2 call
  | labelled label => w.invoker label journal call

end ManagedHost
