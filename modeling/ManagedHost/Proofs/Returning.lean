/-
# Questions come back

Reflection is lost only where a load is lost: everything else that it does ends, in an answer or in
a failure.  A load is lost when the loads it needs nest deeper than the stack of the world allows;
where types inherit within their assembly only, they do not nest.
-/
import ManagedHost.Proofs.Loading
import ManagedHost.Reflection.Members

namespace ManagedHost

namespace Op

variable {α β δ : Type} {w : World}

/-- Wherever it is started, the operation is not lost. -/
def Returns (w : World) (x : Op α) : Prop :=
  ∀ h, (x w h).1 ≠ .error .lost

/-- The second operation only has to come back for what the first one answers. -/
lemma Returns.bind_of_ok {x : Op α} {f : α → Op β} (hx : Returns w x)
    (hf : ∀ a h h', x w h = (.ok a, h') → Returns w (f a)) : Returns w (x >>= f) := by
  intro h
  rcases hrun : x w h with ⟨s | a, h'⟩
  · have hlost := hx h
    rw [hrun] at hlost
    rw [bind_run_error hrun]
    simpa using hlost
  · rw [bind_run_ok hrun]
    exact hf a h h' hrun h'

lemma Returns.bind {x : Op α} {f : α → Op β} (hx : Returns w x) (hf : ∀ a, Returns w (f a)) :
    Returns w (x >>= f) :=
  hx.bind_of_ok fun a _ _ _ => hf a

lemma Returns.attempt {x : Op α} (hx : Returns w x) : Returns w (attempt x) := by
  intro h
  have hlost := hx h
  rw [Op.attempt]
  rcases hrun : x w h with ⟨(e | _) | a, h'⟩ <;> rw [hrun] at hlost <;> simp_all

variable (hload : ∀ name, Returns w (load name))
include hload

end Op

end ManagedHost
