/-
# Sample native code

Invokers and functions that scenarios register by label. The invokers exercise the ways in
which native code can treat its slots and end; the functions are small computations on
integers and floating-point numbers of all sizes.
-/
import ManagedHost.Native.Marshal

namespace ManagedHost.Sample

/-- Logs a line, then ends without touching the result. -/
def logAndReturn (line : String) (call : Call) : Body :=
  .log .native line (.done .returned call.result)

/-- Whether a call was given a native function, as text. -/
def functionText (call : Call) : String :=
  s!"func={call.function.isSome}"

/-- Ends by failing. -/
def failWith (e : Error) (call : Call) : Body :=
  .done (.failed e) call.result

/-- The sample invokers by label; an unknown label does nothing. -/
def invoker (label : String) (_ : Journal) (call : Call) : Body :=
  let m := call.method
  match label with
  | "twice" => .ofExcept call do
      let (x, _) ← (ArgReader.new call.args).read .int32
      call.result.writeReturn (.int32 (2 * x.toInt))
  | "const99" => .ofExcept call (call.result.writeReturn (.int32 99))
  | "echo" => .ofExcept call (call.result.setReturn call.args.bytes)
  | "read_past" => failWith (.overrun (call.args.length + 1) call.args.length) call
  | "sizes" =>
    logAndReturn (s!"{m.qualifiedName} {functionText call} " ++
      s!"args={call.args.length} ret={call.result.length}") call
  | "seed" =>
    let words := do
      let (this, r) ← (ArgReader.new call.args).read .word
      let (seed, _) ← r.read .int32
      return (this.toInt, seed.toInt)
    match words with
    | .ok (this, seed) =>
      logAndReturn s!"{m.name} {functionText call} this={this} seed={seed}" call
    | .error e => .done e.ending call.result
  | "reject" => failWith (.invocation s!"{m.qualifiedName} was rejected") call
  | "throw" =>
    failWith (.thrown (.caused "Host.Thrown" "from native" (.plain "Host.Inner" "cause"))) call
  | "panic_str" => .done (.panicked (some "native lost its place")) call.result
  | "panic_string" => .done (.panicked (some s!"lost in {m.name}")) call.result
  | "panic_any" => .done (.panicked none) call.result
  | _ => .done .returned call.result

/-- The low four bytes of a word as a signed integer. -/
def int32 (w : UInt64) : Int64 := w.toUInt32.toInt32.toInt64

/-- The low byte of a word as a signed integer. -/
def int8 (w : UInt64) : Int64 := w.toUInt8.toInt8.toInt64

/-- The low two bytes of a word as an integer. -/
def uint16 (w : UInt64) : Int64 := w.toUInt16.toUInt64.toInt64

/-- The sum of integers and of floating-point words, added one after the other. -/
def sum (integers : List Int64) (words : List UInt64) : UInt64 :=
  words.foldl (FloatBits.binary (· + ·))
    ((integers.map Int64.toFloat).foldl (· + ·) 0).toBits

/-- A label for the function that returns a constant. -/
def constantLabel (n : Nat) : String := s!"constant {n}"

/-- The constant of a label. -/
def constantOf? (label : String) : Option Nat :=
  if label.startsWith "constant " then
    (String.ofList (label.toList.drop 9)).toNat?
  else none

/-- The word that a sample function returns. Words that are not given count as zero. -/
def word (label : String) (words : List UInt64) : UInt64 :=
  let w (i : Nat) : UInt64 := words[i]?.getD 0
  match label with
  | "add_i32" => w 0 + w 1
  | "sub_i32" => w 0 - w 1
  | "neg_i8" | "neg_i16" | "neg_isize" => 0 - w 0
  | "inc_u8" | "inc_u16" | "inc_u32" => w 0 + 1
  | "not_bool" => if (w 0).toUInt8 = 0 then 1 else 0
  | "mul_i64" => w 0 * w 1
  | "xor_u64" => w 0 ^^^ w 1
  | "half_f32" => (SingleBits.unary (· / 2) (w 0).toUInt32).toUInt64
  | "half_f64" => FloatBits.unary (· / 2) (w 0)
  | "sub_f64" => FloatBits.binary (· - ·) (w 0) (w 1)
  | "mul_f64" => FloatBits.binary (· * ·) (w 0) (w 1)
  | "not_usize" => ~~~(w 0)
  | "this_plus" => w 0 + (int32 (w 1)).toUInt64
  | "mix" =>
    sum [int8 (w 0), uint16 (w 1), int32 (w 2), (w 3).toInt64]
      [SingleBits.widen (w 4).toUInt32, w 5]
  | "weigh" =>
    ((List.range 8).foldl (fun t i => t * 10 + int32 (w i)) (0 : Int64)).toUInt64
  | "answer" => 42
  | _ => UInt64.ofNat ((constantOf? label).getD 0)

/-- The sample functions by label. -/
def function (label : String) (_ : Journal) (words : List UInt64) : Option NativeReply :=
  match label with
  | "store_i32" =>
    let n := (int32 (words[0]?.getD 0)).toInt
    some { word := 0, lines := [s!"store {n}"] }
  | _ => some { word := word label words }

end ManagedHost.Sample
