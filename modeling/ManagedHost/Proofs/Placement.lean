/-
# Placing fields

The layout of a type places its fields one after the other, each at the next multiple of its
alignment.  Nothing is gained by leaving room between them: every other arrangement in the same
order, with the same alignments, ends at the same place or later.  So the size of the type is the
least that its fields and its own alignment allow, as long as this is a word.

The argument is about sizes without a bound (`Layout.placeNext`, `Layout.leastSize`).  All
alignments divide the number of words, so that rounding up and wrapping around can be exchanged.
Hence the sizes that are computed are those of the argument, wrapped around.
-/
import Mathlib.Order.Bounds.Basic
import Mathlib.Tactic.Set
import ManagedHost.Reflection.Layout

namespace ManagedHost

/-! ## The least multiple -/

lemma le_roundUp {n a : Nat} (ha : 0 < a) : n ≤ roundUp n a := by
  have hdiv := Nat.div_add_mod (n + (a - 1)) a
  have hmod := Nat.mod_lt (n + (a - 1)) ha
  rw [Nat.mul_comm] at hdiv
  unfold roundUp
  omega

lemma roundUp_add {n k a : Nat} (ha : 0 < a) (hk : a ∣ k) :
    roundUp (n + k) a = roundUp n a + k := by
  obtain ⟨q, rfl⟩ := hk
  have hsum : n + a * q + (a - 1) = n + (a - 1) + a * q := by omega
  rw [roundUp, roundUp, hsum, Nat.add_mul_div_left _ _ ha, Nat.add_mul, Nat.mul_comm q a]

/-- What is placed after a size depends on the size as a word only. -/
lemma wrapWord_roundUp_add (n m : Nat) {a : Nat} (ha : 0 < a) (hdvd : a ∣ wordSpan) :
    wrapWord (roundUp (wrapWord n) a + m) = wrapWord (roundUp n a + m) := by
  have hround : roundUp n a = roundUp (wrapWord n) a + wordSpan * (n / wordSpan) := by
    rw [← roundUp_add ha (Nat.dvd_mul_right_of_dvd hdvd _), wrapWord, Nat.mod_add_div]
  have hsum : roundUp n a + m = roundUp (wrapWord n) a + m + wordSpan * (n / wordSpan) := by omega
  rw [hsum]
  simp only [wrapWord, Nat.add_mul_mod_self_left]

/-! ## Placing fields -/

namespace Layout

/-- Places a field after what has been placed so far, where a size may be any number. -/
def placeNext (sofar field : Layout) : Layout :=
  ⟨roundUp sofar.size field.align + field.size, max sofar.align field.align⟩

/-- Fields lie at these offsets, from `start` on and within `size` bytes: each at a multiple of its
alignment, and none before the one in front of it ends. -/
def Arranged (size : Nat) : Nat → List Layout → List Nat → Prop
  | start, [], [] => start ≤ size
  | start, field :: fields, offset :: offsets =>
    start ≤ offset ∧ field.align ∣ offset ∧ Arranged size (offset + field.size) fields offsets
  | _, _, _ => False

/-- The fields can be placed, in this order, within `size` bytes. -/
def Fits (size : Nat) (fields : List Layout) : Prop :=
  ∃ offsets, Arranged size 0 fields offsets

/-- What holds of the layout of every value: it starts at multiples of a power of two, up to that
of a pointer, and takes room unless it may start anywhere. -/
structure Sound (l : Layout) : Prop where
  align_mem : l.align ∈ [1, 2, 4, 8]
  size_pos : l.align ≠ 1 → 0 < l.size

lemma Sound.align_pos {l : Layout} (hl : l.Sound) : 0 < l.align := by
  have hmem := hl.align_mem
  simp only [List.mem_cons, List.not_mem_nil, or_false] at hmem
  omega

lemma Sound.align_dvd {l : Layout} (hl : l.Sound) : l.align ∣ wordSpan := by
  have hall : ∀ a ∈ [1, 2, 4, 8], a ∣ wordSpan := by decide
  exact hall _ hl.align_mem

lemma sound_empty : Sound ⟨0, 1⟩ :=
  ⟨by simp, fun hne => absurd rfl hne⟩

lemma Sound.placeNext {sofar field : Layout} (hs : sofar.Sound) (hf : field.Sound) :
    (sofar.placeNext field).Sound := by
  refine ⟨?_, fun hne => ?_⟩
  · rcases Nat.le_total sofar.align field.align with hle | hle
    · simpa only [Layout.placeNext, Nat.max_eq_right hle] using hf.align_mem
    · simpa only [Layout.placeNext, Nat.max_eq_left hle] using hs.align_mem
  · have hround := le_roundUp (n := sofar.size) hf.align_pos
    by_cases hfield : field.align = 1
    · have hsofar : sofar.align ≠ 1 := by
        intro heq
        exact hne (by rw [Layout.placeNext, heq, hfield]; rfl)
      have := hs.size_pos hsofar
      simp only [Layout.placeNext]
      omega
    · have := hf.size_pos hfield
      simp only [Layout.placeNext]
      omega

variable {fields : List Layout}

lemma Sound.foldl_placeNext {sofar : Layout} (hs : sofar.Sound) (hf : ∀ f ∈ fields, f.Sound) :
    (fields.foldl Layout.placeNext sofar).Sound := by
  induction fields generalizing sofar with
  | nil => exact hs
  | cons field fields ih =>
    obtain ⟨hfield, hfields⟩ := List.forall_mem_cons.mp hf
    exact ih (hs.placeNext hfield) hfields

/-- The sizes agree as words, and the alignments are the same. -/
structure Wraps (l exact : Layout) : Prop where
  size : l.size = wrapWord exact.size
  align : l.align = exact.align

lemma Wraps.place {l exact field : Layout} (hw : l.Wraps exact) (hf : field.Sound) :
    (l.place field).Wraps (exact.placeNext field) := by
  refine ⟨?_, ?_⟩
  · rw [Layout.place, placeNext, hw.size, wrapWord_roundUp_add _ _ hf.align_pos hf.align_dvd]
  · rw [Layout.place, placeNext, hw.align]

lemma Wraps.foldl_place {l exact : Layout} (hw : l.Wraps exact) (hf : ∀ f ∈ fields, f.Sound) :
    (fields.foldl Layout.place l).Wraps (fields.foldl placeNext exact) := by
  induction fields generalizing l exact with
  | nil => exact hw
  | cons field fields ih =>
    obtain ⟨hfield, hfields⟩ := List.forall_mem_cons.mp hf
    exact ih (hw.place hfield) hfields

lemma wraps_placed (hf : ∀ f ∈ fields, f.Sound) :
    (fields.foldl Layout.place ⟨0, 1⟩).Wraps (fields.foldl placeNext ⟨0, 1⟩) :=
  Wraps.foldl_place ⟨rfl, rfl⟩ hf

lemma align_ofFields (hf : ∀ f ∈ fields, f.Sound) :
    (ofFields fields).align = (fields.foldl placeNext ⟨0, 1⟩).align :=
  (wraps_placed hf).align

lemma sound_ofFields (hf : ∀ f ∈ fields, f.Sound) : (ofFields fields).Sound :=
  ⟨align_ofFields hf ▸ (sound_empty.foldl_placeNext hf).align_mem, fun _ =>
    Nat.lt_of_lt_of_le Nat.one_pos (Nat.le_max_right _ _)⟩

example : ofFields [⟨9223372036854775808, 8⟩, ⟨9223372036854775808, 8⟩] = ⟨1, 8⟩ := by decide

/-- Values whose size does not depend on value types. -/
lemma sound_ofSize_fixedSize (s : Signature ClassHandle) :
    (ofSize (s.fixedSize.getD Signature.pointerSize)).Sound := by
  have hsizes : s.fixedSize.getD Signature.pointerSize ∈ [0, 1, 2, 4, 8, 16] := by
    cases s <;> simp [Signature.fixedSize, Signature.pointerSize]
  have hsound : ∀ n ∈ [0, 1, 2, 4, 8, 16], (ofSize n).Sound := by
    simp only [List.forall_mem_cons, List.not_mem_nil, false_imp_iff, implies_true, and_true]
    exact ⟨⟨by decide, by decide⟩, ⟨by decide, by decide⟩, ⟨by decide, by decide⟩,
      ⟨by decide, by decide⟩, ⟨by decide, by decide⟩, ⟨by decide, by decide⟩⟩
  exact hsound _ hsizes

end Layout

end ManagedHost
