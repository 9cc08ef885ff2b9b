/-
# Layouts that are kept are natural

A layout is kept once it has been computed, and from then on it is used for every class that
contains the class.  So it matters that nothing is kept that does not follow from the fields:

* A layout is put together from those of the instance fields.  Its size is the least that places
  them, as a word: it wraps around where the least size is none (`Layout.size_ofFields`).
* The layouts of all value types in it are kept as well, and were kept before.  This gives a
  measure that decreases from a class to what it contains (`Host.Natural`), and hence no class
  with a layout contains itself, directly or through others.
-/
import ManagedHost.Proofs.Marshalling
import ManagedHost.Proofs.Placement
import ManagedHost.Proofs.Returning

namespace ManagedHost

open Op

/-! ## Natural layouts of a host -/

/-- The layout of a value, given which layouts value types have. -/
def Signature.Extends (L : ClassHandle → Layout → Prop) : Signature ClassHandle → Layout → Prop
  | .value c, l => L c l
  | s, l => l = .ofSize (s.fixedSize.getD pointerSize)

lemma Signature.Extends.mono {L L' : ClassHandle → Layout → Prop} {s : Signature ClassHandle}
    {l : Layout} (hs : s.Extends L l) (hL : ∀ c l, L c l → L' c l) : s.Extends L' l := by
  cases s with
  | value c => exact hL c l hs
  | _ => exact hs

namespace Host

variable {w : World} {h h' : Host} {c d : ClassHandle} {r : Class} {l : Layout} {n : Nat}

/-- The layout that a class has by the fields that are known, where value types are nested less
than `depth` deep. -/
def Natural (h : Host) : (depth : Nat) → ClassHandle → Layout → Prop
  | 0, _, _ => False
  | depth + 1, c, l => ∃ r fs parts, h.cls c = .ok r ∧ r.fields = .known fs ∧
      List.Forall₂ (fun f p => (Field.type f).Extends (h.Natural depth) p)
        (fs.filter (!·.isStatic)) parts ∧ l = .ofFields parts

lemma Natural.exists_fields (hn : h.Natural n c l) :
    ∃ r fs, h.cls c = .ok r ∧ r.fields = .known fs := by
  cases n with
  | zero => exact hn.elim
  | succ n =>
    obtain ⟨r, fs, -, hr, hf, -⟩ := hn
    exact ⟨r, fs, hr, hf⟩

lemma Natural.succ (hn : h.Natural n c l) : h.Natural (n + 1) c l := by
  induction n generalizing c l with
  | zero => exact hn.elim
  | succ n ih =>
    obtain ⟨r, fs, parts, hr, hf, hparts, hl⟩ := hn
    exact ⟨r, fs, parts, hr, hf, hparts.imp fun _ _ hp => hp.mono fun _ _ hd => ih hd, hl⟩

lemma Natural.mono {n' : Nat} (hn : h.Natural n c l) (hle : n ≤ n') : h.Natural n' c l := by
  induction hle with
  | refl => exact hn
  | step _ ih => exact ih.succ

lemma Natural.of_remembers (hn : h.Natural n c l) (hk : h.Remembers h') : h'.Natural n c l := by
  induction n generalizing c l with
  | zero => exact hn.elim
  | succ n ih =>
    obtain ⟨r, fs, parts, hr, hf, hparts, hl⟩ := hn
    obtain ⟨r', hr', hf'⟩ := hk.fields hr hf
    exact ⟨r', fs, parts, hr', hf', hparts.imp fun _ _ hp => hp.mono fun _ _ hd => ih hd, hl⟩

lemma Natural.sound (hn : h.Natural n c l) : l.Sound := by
  induction n generalizing c l with
  | zero => exact hn.elim
  | succ n ih =>
    obtain ⟨r, fs, parts, -, -, hparts, rfl⟩ := hn
    refine Layout.sound_ofFields (forall_mem_of_forall₂ (hparts.imp fun f p hp => ?_))
    cases hs : f.type with
    | value d =>
      rw [hs] at hp
      exact ih hp
    | _ =>
      rw [hs] at hp
      exact hp ▸ Layout.sound_ofSize_fixedSize _

/-- Layouts that are natural to some depth each are natural to one depth. -/
lemma exists_natural_depth {fs : List Field} {parts : List Layout}
    (hparts : List.Forall₂ (fun f p => ∃ n, (Field.type f).Extends (h.Natural n) p) fs parts) :
    ∃ n, List.Forall₂ (fun f p => (Field.type f).Extends (h.Natural n) p) fs parts := by
  induction hparts with
  | nil => exact ⟨0, .nil⟩
  | cons hfirst _ ih =>
    obtain ⟨n₁, h₁⟩ := hfirst
    obtain ⟨n₂, h₂⟩ := ih
    refine ⟨max n₁ n₂, .cons (h₁.mono fun _ _ hd => hd.mono (Nat.le_max_left _ _)) ?_⟩
    exact h₂.imp fun _ _ hp => hp.mono fun _ _ hd => hd.mono (Nat.le_max_right _ _)

/-! ## Layouts that are kept -/

/-- Every layout that is kept is put together from the layouts of the instance fields, which are
kept too, and it is natural to some depth. -/
def LaidOut (h : Host) : Prop :=
  ∀ c r l, h.cls c = .ok r → r.layout = some l → h.Composed r l ∧ ∃ n, h.Natural n c l

lemma Composed.of_remembers (hc : h.Composed r l) (hk : h.Remembers h') {r' : Class}
    (hf : r'.fields = r.fields) : h'.Composed r' l := by
  obtain ⟨fs, parts, hfs, hparts, hl⟩ := hc
  exact ⟨fs, parts, hf.trans hfs, hparts.imp fun _ _ hp => hk.extent? hp, hl⟩

/-- What is put together from natural layouts is natural. -/
lemma LaidOut.natural (ho : h.LaidOut) (hr : h.cls c = .ok r) (hc : h.Composed r l) :
    ∃ n, h.Natural n c l := by
  obtain ⟨fs, parts, hfs, hparts, hl⟩ := hc
  have hnatural : List.Forall₂ (fun f p => ∃ n, (Field.type f).Extends (h.Natural n) p)
      (fs.filter (!·.isStatic)) parts := by
    refine hparts.imp fun f p hp => ?_
    cases hs : f.type with
    | value d =>
      rw [hs] at hp
      obtain ⟨rd, hrd, hld⟩ := Option.bind_eq_some_iff.mp hp
      exact (ho d rd p (cls?_eq_some_iff.mp hrd) hld).2
    | _ =>
      rw [hs] at hp
      exact ⟨0, (Option.some.inj hp).symm⟩
  obtain ⟨n, hn⟩ := exists_natural_depth hnatural
  exact ⟨n + 1, r, fs, parts, hr, hfs, hn, hl⟩

lemma LaidOut.step (ho : h.LaidOut) (hc : RunChange w h h') : h'.LaidOut := by
  intro c r' l hr' hl
  have hk := hc.remembers
  rcases hc.facet hr' .layout with hu | ⟨r, hr, heq⟩ | ⟨r, hr, hfills, hv, -⟩
  · exact absurd hu (Facet.layout_known hl)
  · have hlayout : r.layout = some l := Eq.trans (Eq.symm heq) hl
    obtain ⟨hcomposed, n, hn⟩ := ho c r l hr hlayout
    have hfields : r'.fields = r.fields := by
      obtain ⟨fs, parts, hfs, -⟩ := hcomposed
      obtain ⟨r'', hr'', hfs''⟩ := hk.fields hr hfs
      rw [hr'] at hr''
      cases hr''
      exact hfs''.trans hfs.symm
    exact ⟨.of_remembers hcomposed hk hfields, n, hn.of_remembers hk⟩
  · -- the layout was put together in the state before, from layouts that were kept there
    have hcomposed : h.Composed r' l := hv l hl
    have hfields : r'.fields = r.fields := hfills.agrees (q := .fields) (by decide)
    have hbefore : h.Composed r l := by
      obtain ⟨fs, parts, hfs, hrest⟩ := hcomposed
      exact ⟨fs, parts, hfields.symm.trans hfs, hrest⟩
    obtain ⟨n, hn⟩ := ho.natural hr hbefore
    exact ⟨.of_remembers hbefore hk hfields, n, hn.of_remembers hk⟩

lemma LaidOut.later {W : World → Prop} (ho : h.LaidOut) (hl : h.Later W h') : h'.LaidOut :=
  hl.preserves (fun _ _ _ _ hstep hg => hg.step hstep) ho

end Host

lemma laidOut_of_reached {fs : List Frame} {h : Host} (hr : Reached fs h) : h.LaidOut := by
  refine hr.invariant (fun id config c r l hcls => ?_) (fun h m ho c r l hcls hl => ?_)
    fun w g g' hstep _ hg => hg.step hstep
  · exact absurd (Host.has_iff_cls.mpr ⟨r, hcls⟩).2 (by simp [Host.blank])
  · have hk : h.Remembers { h with corlib := m } := .of_eq rfl rfl rfl rfl rfl
    obtain ⟨hcomposed, n, hn⟩ := ho c r l hcls hl
    exact ⟨.of_remembers hcomposed hk rfl, n, hn.of_remembers hk⟩

/-! ## Containment -/

namespace Host

variable {h h' : Host} {c d : ClassHandle} {l : Layout} {n : Nat}

/-- By the fields that are known, instances of the class `c` hold an instance of the value type
`d` in place. -/
def Contains (h : Host) (c d : ClassHandle) : Prop :=
  ∃ r fs, h.cls c = .ok r ∧ r.fields = .known fs ∧
    ∃ f ∈ fs, f.isStatic = false ∧ f.type = .value d

lemma Contains.of_remembers (hc : h.Contains c d) (hk : h.Remembers h') : h'.Contains c d := by
  obtain ⟨r, fs, hr, hf, hfield⟩ := hc
  obtain ⟨r', hr', hf'⟩ := hk.fields hr hf
  exact ⟨r', fs, hr', hf', hfield⟩

/-- What is contained in a class is nested less deeply. -/
lemma Natural.of_contains (hn : h.Natural n c l) (hc : h.Contains c d) :
    ∃ m < n, ∃ p, h.Natural m d p := by
  cases n with
  | zero => exact hn.elim
  | succ n =>
    obtain ⟨r, fs, parts, hr, hf, hparts, -⟩ := hn
    obtain ⟨r', fs', hr', hf', f, hmem, hstatic, htype⟩ := hc
    rw [hr] at hr'
    cases hr'
    rw [hf] at hf'
    cases hf'
    have hinstance : f ∈ fs.filter (!·.isStatic) := List.mem_filter.mpr ⟨hmem, by simp [hstatic]⟩
    obtain ⟨p, -, hp⟩ := exists_of_mem_forall₂ hparts hinstance
    rw [htype] at hp
    exact ⟨n, Nat.lt_succ_self n, p, hp⟩

end Host

/-! ## The layouts of a run -/

namespace KnotSpecimen

/-- The metadata source of the core library. -/
def source : Source :=
  { PairSpecimen.source with
    fields := fun _ => .ok [⟨"count", .int32, false⟩, ⟨"self", .value (.definition 2), false⟩] }

/-- What the host is started with. -/
def setup : Setup :=
  { Specimen.setup with resolver := some ⟨fun _ name => .ok { name }, fun _ _ => source⟩ }

/-- The host when the value type has been asked for its fields. -/
def host : Host :=
  setup.after (.fields ⟨1, 2⟩) setup.firstHost

lemma reached_host : Reached [] host :=
  Setup.reached_after (Setup.reached_firstHost (by decide +kernel)) (by decide +kernel)

end KnotSpecimen

/-! A core library with value types each of which holds two of the one before, until a size is not
a word any more. -/

namespace WideSpecimen

/-- The metadata source of the core library. -/
def source : Source :=
  { PairSpecimen.source with
    typeCount := 64
    typeDef := fun row => .ok {
      space := "System"
      name := if row = 0 then "Object" else if row = 1 then "ValueType" else "Wide"
      parent := if row = 0 then none else some (.definition (if row = 1 then 0 else 1)) }
    fields := fun row =>
      .ok (if row = 2 then [⟨"only", .int64, false⟩]
        else [⟨"low", .value (.definition (row - 1)), false⟩,
          ⟨"high", .value (.definition (row - 1)), false⟩])
    methods := fun row =>
      .ok [{ name := "copy", params := [⟨"source", .value (.definition row)⟩] }] }

/-- What the host is started with. -/
def setup : Setup :=
  { Specimen.setup with resolver := some ⟨fun _ name => .ok { name }, fun _ _ => source⟩ }

/-- The host when the last of the value types has been asked for its methods. -/
def host : Host :=
  setup.after (.methods ⟨1, 63⟩) setup.firstHost

lemma reached_host : Reached [] host :=
  Setup.reached_after (Setup.reached_firstHost (by decide +kernel)) (by decide +kernel)

end WideSpecimen

end ManagedHost
