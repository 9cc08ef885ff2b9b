/-
# Type initializers run once, before bodies, and fail for good

The initializer of a class is asked for by every call of a method of the class.  It is run the
first time, and at no other time; the other calls go on when it has succeeded, or while it is
running, and they fail in the same way when it has failed.  To run it means to look for it, and to
hand control to it once if there is one (`InitRun`).  The statements are about every point of a run,
so they cover calls that bodies make while other calls are active.
-/
import ManagedHost.Proofs.Reached

namespace ManagedHost

open Op

variable {w : World} {handle : Handler} {fs : List Frame} {h h₁ : Host} {c : ClassHandle}
  {m : Method} {args result : Buffer} {r : Class}

/-! ## The run of an initializer -/

namespace Specimen

/-- The second method of the type of `A`. -/
def method : Method :=
  (hostWithMethods.classes.flatMap (·.methods.items)).getD 1 default

/-- The host after a call whose initializer failed. -/
def hostWithFailure : Host :=
  setup.after (.invoke method [] []) hostWithMethods

lemma reached_hostWithFailure : Reached [] hostWithFailure :=
  reached_hostWithMethods.of_isOk (by decide +kernel)

end Specimen

end ManagedHost
