/-
# Floating-point functions on bit patterns

Native code exchanges floating-point numbers as words. A word that stands for no number may
carry further bits, and these survive: the result of an operation on such words is the
first of them with its quiet bit set. Rounding to an integer leaves such a word alone. An
operation on numbers that has no number as its result gives one fixed word.
-/

namespace ManagedHost

namespace FloatBits

/-- Whether a word stands for no number. -/
def isNaN (w : UInt64) : Bool :=
  (w &&& 0x7fffffffffffffff) > 0x7ff0000000000000

/-- The bit that is clear in words for no number that ask for attention. -/
def quietBit : UInt64 := 0x0008000000000000

/-- The word for no number that results from `w`. -/
def quiet (w : UInt64) : UInt64 :=
  w ||| quietBit

/-- Whether a word stands for no number and asks for attention. -/
def isSignaling (w : UInt64) : Bool :=
  isNaN w && w &&& quietBit == 0

/-- The word of the number one. -/
def one : UInt64 := 0x3ff0000000000000

/-- The word of a result; one that is no number came out of an invalid operation. -/
def ofResult (x : Float) : UInt64 :=
  if x.isNaN then 0xfff8000000000000 else x.toBits

/-- A function of one number on words. -/
def unary (f : Float → Float) (x : UInt64) : UInt64 :=
  if isNaN x then quiet x else ofResult (f (Float.ofBits x))

/-- A function that rounds to an integer on words. -/
def rounding (f : Float → Float) (x : UInt64) : UInt64 :=
  if isNaN x then x else (f (Float.ofBits x)).toBits

/-- A function of two numbers on words. -/
def binary (f : Float → Float → Float) (x y : UInt64) : UInt64 :=
  if isNaN x then quiet x
  else if isNaN y then quiet y
  else ofResult (f (Float.ofBits x) (Float.ofBits y))

/-- The bit of the sign. -/
def signBit : UInt64 := 0x8000000000000000

/-- Whether a word stands for an odd integer. Below two the bit of the units is not stored;
in its place stands the lowest bit of the exponent, which is set. -/
def isOdd (w : UInt64) : Bool :=
  let exponent := (w >>> 52) &&& 0x7ff
  let unit : UInt64 := 1 <<< (1075 - exponent)
  1023 ≤ exponent && exponent ≤ 1075 && w &&& (unit - 1) == 0 && w &&& unit != 0

/-- The power on words. Anything to the power of zero and any power of one is one, even
where no number is involved, unless it asks for attention. A base that is no number loses
its sign under an odd power. -/
def pow (x y : UInt64) : UInt64 :=
  if !isSignaling x && !isSignaling y && (y <<< 1 == 0 || x == one) then one
  else if isNaN x && isOdd y then quiet x &&& ~~~signBit
  else binary Float.pow x y

end FloatBits

namespace SingleBits

/-- Whether a word of four bytes stands for no number. -/
def isNaN (w : UInt32) : Bool :=
  (w &&& 0x7fffffff) > 0x7f800000

/-- The word for no number that results from `w`. -/
def quiet (w : UInt32) : UInt32 :=
  w ||| 0x00400000

/-- The word of a result; one that is no number came out of an invalid operation. -/
def ofResult (x : Float32) : UInt32 :=
  if x.isNaN then 0xffc00000 else x.toBits

/-- A function of one single-precision number on words. -/
def unary (f : Float32 → Float32) (x : UInt32) : UInt32 :=
  if isNaN x then quiet x else ofResult (f (Float32.ofBits x))

/-- The double-precision word for a single-precision one. The bits of a word that stands for
no number move to the same places below the exponent. -/
def widen (w : UInt32) : UInt64 :=
  if isNaN w then
    let sign : UInt64 := (w >>> 31).toUInt64 <<< 63
    let bits : UInt64 := (w &&& 0x007fffff).toUInt64 <<< 29
    FloatBits.quiet (sign ||| 0x7ff0000000000000 ||| bits)
  else (Float32.ofBits w).toFloat.toBits

end SingleBits

end ManagedHost
