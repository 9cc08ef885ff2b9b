/-
# Member collections

The members of a class are derived when they are first asked for and kept from then on. A
collection is either unknown or known as a whole; there is no state in between, and a
derivation that fails leaves the collection unknown.
-/
import ManagedHost.Error

namespace ManagedHost

/-- A collection of members, unknown until it has been derived. -/
inductive Members (α : Type) where
  | unknown
  | known (items : List α)
deriving Repr, DecidableEq, Inhabited

namespace Members

variable {α : Type}

/-- The members, if they are known. -/
def get? : Members α → Option (List α)
  | unknown => none
  | known items => some items

/-- Whether the members are known. -/
def isKnown : Members α → Bool
  | unknown => false
  | known _ => true

/-- Number of members; zero as long as they are unknown. -/
def count : Members α → Nat
  | unknown => 0
  | known items => items.length

/-- The state of the collection as text. -/
def describe : Members α → String
  | unknown => "Uninitialized"
  | known items => s!"Initialized({items.length} items)"

/-- The members, derived by `derive` unless they are known already; and the collection from
then on. -/
def getOrDerive (m : Members α) (derive : Unit → Except Error (List α)) :
    Except Error (List α) × Members α :=
  match m with
  | known items => (.ok items, m)
  | unknown =>
    match derive () with
    | .ok items => (.ok items, known items)
    | .error e => (.error e, unknown)

end Members

end ManagedHost
