/-
# Inheritance

The ancestors of a class are found by following parents, and the walk stops after as many steps as
there are classes, since parents may lead back to where they came from.  As soon as one class has
no parent, nothing is lost by that: every class that is reached by following parents at all is
met before the walk is cut off (`Rooted.mem_tail_ancestors`), because a way that meets some class
twice can be shortened.  So whether the instances of a class are held in place does not depend on
how many classes are loaded (`isValueType_of_keeps`).

* `Host.Inherits`: a class inherits directly from another one.  The proper ancestors of a class are
  those to which its transitive closure leads.
* `Host.Way`: the classes that are met on the way from a class to an ancestor.
* `Rooted.isValueType_iff`: which instances are held in place.
-/
import Mathlib.Data.List.Nodup
import Mathlib.Data.List.Perm.Subperm
import Mathlib.Logic.Relation
import ManagedHost.Proofs.Images
import ManagedHost.Reflection.Signature

namespace ManagedHost

namespace Host

variable {h h' : Host} {a c p x : ClassHandle} {r : Class} {l : List ClassHandle}

/-! ## Parents and ancestors -/

/-- A class inherits directly from another one. -/
def Inherits (h : Host) (c p : ClassHandle) : Prop :=
  ∃ r, h.cls c = .ok r ∧ r.parent = some p

lemma inherits_iff (hr : h.cls c = .ok r) : h.Inherits c p ↔ r.parent = some p := by
  simp [Inherits, hr]

lemma Inherits.has (hp : h.Inherits c p) : h.Has c := by
  obtain ⟨r, hr, -⟩ := hp
  exact has_iff_cls.mpr ⟨r, hr⟩

lemma Inherits.unique (hp : h.Inherits c p) (hx : h.Inherits c x) : p = x := by
  obtain ⟨r, hr, hparent⟩ := hp
  exact Option.some.inj (hparent.symm.trans ((inherits_iff hr).mp hx))

lemma Wellformed.has_of_inherits (hw : h.Wellformed) (hp : h.Inherits c p) : h.Has p := by
  obtain ⟨r, hr, hparent⟩ := hp
  exact hw.has_of_mention hr (by simp [Class.mentions, hparent])

lemma Wellformed.has_of_transGen (hw : h.Wellformed) (ha : Relation.TransGen h.Inherits c a) :
    h.Has a := by
  obtain ⟨_, -, hp⟩ := Relation.TransGen.tail'_iff.mp ha
  exact hw.has_of_inherits hp

lemma Inherits.transGen_iff (hp : h.Inherits c p) :
    Relation.TransGen h.Inherits c x ↔ Relation.ReflTransGen h.Inherits p x := by
  rw [Relation.TransGen.head'_iff]
  constructor
  · rintro ⟨p', hp', hx⟩
    rwa [hp.unique hp']
  · exact fun hx => ⟨p, hp, hx⟩

lemma Inherits.of_keeps (hk : h.Keeps h') (hp : h.Inherits c p) : h'.Inherits c p := by
  obtain ⟨r, hr, hparent⟩ := hp
  obtain ⟨r', hr', heq⟩ := hk.classes c r hr
  exact ⟨r', hr', (Class.eq_of_pristine_eq heq).2.2.2.2.trans hparent⟩

/-- Classes that were there inherit from what they inherited from. -/
lemma Inherits.of_later (hk : h.Keeps h') (hc : h.Has c) (hp : h'.Inherits c p) :
    h.Inherits c p := by
  obtain ⟨r, hr⟩ := has_iff_cls.mp hc
  obtain ⟨r', hr', heq⟩ := hk.classes c r hr
  rw [inherits_iff hr', (Class.eq_of_pristine_eq heq).2.2.2.2] at hp
  exact ⟨r, hr, hp⟩

/-- Classes that were there have the ancestors that they had. -/
lemma Keeps.transGen_inherits_iff (hk : h.Keeps h') (hw : h.Wellformed) (hc : h.Has c) :
    Relation.TransGen h'.Inherits c a ↔ Relation.TransGen h.Inherits c a := by
  refine ⟨fun ha => ?_, Relation.TransGen.mono (fun _ _ => Inherits.of_keeps hk) c a⟩
  induction ha with
  | single hp => exact .single (hp.of_later hk hc)
  | tail _ hp ih => exact ih.tail (hp.of_later hk (hw.has_of_transGen ih))

/-! ## Ways -/

/-- The classes that are met on the way from a class up to `a`, in this order. -/
inductive Way (h : Host) (a : ClassHandle) : ClassHandle → List ClassHandle → Prop
  | here : Way h a a [a]
  | up {c p : ClassHandle} {l : List ClassHandle} (hp : h.Inherits c p) (hl : Way h a p l) :
      Way h a c (c :: l)

namespace Way

lemma has (hl : h.Way a c l) (ha : h.Has a) : ∀ x ∈ l, h.Has x := by
  induction hl with
  | here => simpa using ha
  | up hp _ ih => exact List.forall_mem_cons.mpr ⟨hp.has, ih⟩

/-- If the last class of a way has a parent, then all have. -/
lemma exists_inherits (hl : h.Way a c l) (ha : h.Inherits a p) : ∀ x ∈ l, ∃ q, h.Inherits x q := by
  induction hl with
  | here => simpa using ⟨p, ha⟩
  | up hp _ ih => exact List.forall_mem_cons.mpr ⟨⟨_, hp⟩, ih⟩

/-- From each class on a way the rest of the way leads on. -/
lemma exists_suffix (hl : h.Way a c l) (hx : x ∈ l) : ∃ l', h.Way a x l' ∧ l' <:+ l := by
  induction hl with
  | here =>
    obtain rfl := List.mem_singleton.mp hx
    exact ⟨_, .here, List.suffix_rfl⟩
  | @up c p l hp hl ih =>
    rcases List.mem_cons.mp hx with rfl | hx
    · exact ⟨_, .up hp hl, List.suffix_rfl⟩
    · obtain ⟨l', hl', hsuffix⟩ := ih hx
      exact ⟨l', hl', hsuffix.trans (List.suffix_cons _ _)⟩

/-- A walk that is allowed as many steps as the way has classes comes to its end. -/
lemma mem_ancestorsWithin (hl : h.Way a c l) (ha : h.Has a) {steps : Nat}
    (hlen : l.length ≤ steps) : a ∈ h.ancestorsWithin steps (some c) := by
  induction hl generalizing steps with
  | here =>
    obtain ⟨r, hr⟩ := has_iff_cls.mp ha
    obtain ⟨steps, rfl⟩ := Nat.exists_eq_add_of_lt hlen
    simp [ancestorsWithin, cls?_eq_some_iff.mpr hr]
  | up hp _ ih =>
    obtain ⟨r, hr, hparent⟩ := hp
    obtain ⟨steps, rfl⟩ := Nat.exists_eq_add_of_lt hlen
    simp only [ancestorsWithin, cls?_eq_some_iff.mpr hr, hparent]
    refine List.mem_cons_of_mem _ (ih ?_)
    omega

end Way

/-- To every ancestor there is a way that meets no class twice: if a class is met again, the loop is
left out. -/
lemma exists_way (ha : Relation.ReflTransGen h.Inherits c a) : ∃ l, h.Way a c l ∧ l.Nodup := by
  induction ha using Relation.ReflTransGen.head_induction_on with
  | refl => exact ⟨[a], .here, List.nodup_singleton a⟩
  | @head c p hp _ ih =>
    obtain ⟨l, hl, hnodup⟩ := ih
    by_cases hc : c ∈ l
    · obtain ⟨l', hl', hsuffix⟩ := hl.exists_suffix hc
      exact ⟨l', hl', hnodup.sublist hsuffix.sublist⟩
    · exact ⟨c :: l, .up hp hl, List.nodup_cons.mpr ⟨hc, hnodup⟩⟩

/-! ## The walk is long enough -/

/-- Handles of one host are told apart by their positions. -/
lemma Has.eq_of_index_eq {d : ClassHandle} (hc : h.Has c) (hd : h.Has d)
    (hi : c.index = d.index) : c = d := by
  obtain ⟨owner, index⟩ := c
  obtain ⟨owner', index'⟩ := d
  obtain rfl : owner = owner' := hc.1.trans hd.1.symm
  obtain rfl : index = index' := hi
  rfl

/-- A list of different classes is not longer than the table. -/
lemma length_le_of_nodup (hl : l.Nodup) (hhas : ∀ x ∈ l, h.Has x) :
    l.length ≤ h.classes.length := by
  have hnodup : (l.map (·.index)).Nodup := by
    refine List.Nodup.map_on (fun x hx y hy hxy => ?_) hl
    exact (hhas x hx).eq_of_index_eq (hhas y hy) hxy
  have hsubset : l.map (·.index) ⊆ List.range h.classes.length := by
    intro k hk
    obtain ⟨x, hx, rfl⟩ := List.mem_map.mp hk
    exact List.mem_range.mpr (hhas x hx).2
  simpa using (List.subperm_of_subset hnodup hsubset).length_le

/-- Some class does not inherit from any. -/
def Rooted (h : Host) : Prop :=
  ∃ z r, h.cls z = .ok r ∧ r.parent = none

lemma Rooted.of_keeps (hroot : h.Rooted) (hk : h.Keeps h') : h'.Rooted := by
  obtain ⟨z, r, hr, hp⟩ := hroot
  obtain ⟨r', hr', heq⟩ := hk.classes z r hr
  exact ⟨z, r', hr', (Class.eq_of_pristine_eq heq).2.2.2.2.trans hp⟩

/-- To every proper ancestor there is a way from the parent that meets fewer classes than there are:
the class itself is not on it, or, if it is its own ancestor, the class without a parent is not. -/
lemma Rooted.exists_way_lt (hroot : h.Rooted) (hw : h.Wellformed) (hp : h.Inherits c p)
    (ha : Relation.TransGen h.Inherits c a) : ∃ l, h.Way a p l ∧ l.length < h.classes.length := by
  have hhas := hw.has_of_transGen ha
  obtain ⟨l, hl, hnodup⟩ := exists_way ha.to_reflTransGen
  cases hl with
  | @up _ p' l hp' hl =>
    obtain rfl := hp.unique hp'
    have hall := List.forall_mem_cons.mpr ⟨hp.has, hl.has hhas⟩
    exact ⟨l, hl, length_le_of_nodup hnodup hall⟩
  | here =>
    obtain ⟨z, rz, hrz, hz⟩ := hroot
    obtain ⟨l, hl, hnodup⟩ := exists_way (hp.transGen_iff.mp ha)
    have hmem : z ∉ l := by
      intro hzl
      obtain ⟨q, hq⟩ := hl.exists_inherits hp z hzl
      rw [inherits_iff hrz, hz] at hq
      cases hq
    have hall := List.forall_mem_cons.mpr ⟨has_iff_cls.mpr ⟨rz, hrz⟩, hl.has hhas⟩
    exact ⟨l, hl, length_le_of_nodup (List.nodup_cons.mpr ⟨hmem, hnodup⟩) hall⟩

lemma reflTransGen_of_mem_ancestorsWithin {steps : Nat}
    (ha : a ∈ h.ancestorsWithin steps (some c)) : Relation.ReflTransGen h.Inherits c a := by
  induction steps generalizing c with
  | zero => simp [ancestorsWithin] at ha
  | succ steps ih =>
    rw [ancestorsWithin] at ha
    split at ha
    · cases ha
    · rename_i r hr
      rcases List.mem_cons.mp ha with rfl | ha
      · exact .refl
      · cases hp : r.parent with
        | none => cases steps <;> simp [hp, ancestorsWithin] at ha
        | some p => exact .head ⟨r, cls?_eq_some_iff.mp hr, hp⟩ (ih (hp ▸ ha))

/-- Behind the class, the walk meets all its proper ancestors, and nothing else. -/
lemma Rooted.mem_tail_ancestors (hroot : h.Rooted) (hw : h.Wellformed) (hc : h.Has c) :
    a ∈ (h.ancestors c).tail ↔ Relation.TransGen h.Inherits c a := by
  obtain ⟨r, hr⟩ := has_iff_cls.mp hc
  obtain ⟨steps, hsteps⟩ := Nat.exists_eq_add_of_lt ((Nat.zero_le _).trans_lt hc.2)
  have htail : (h.ancestors c).tail = h.ancestorsWithin steps r.parent := by
    simp only [ancestors, hsteps, Nat.zero_add, ancestorsWithin, cls?_eq_some_iff.mpr hr,
      List.tail_cons]
  rw [htail]
  cases hparent : r.parent with
  | none =>
    refine iff_of_false (by cases steps <;> simp [ancestorsWithin]) fun ha => ?_
    obtain ⟨p, hp, -⟩ := Relation.TransGen.head'_iff.mp ha
    rw [inherits_iff hr, hparent] at hp
    cases hp
  | some p =>
    have hp : h.Inherits c p := ⟨r, hr, hparent⟩
    refine ⟨fun ha => hp.transGen_iff.mpr (reflTransGen_of_mem_ancestorsWithin ha), fun ha => ?_⟩
    obtain ⟨l, hl, hlen⟩ := hroot.exists_way_lt hw hp ha
    exact hl.mem_ancestorsWithin (hw.has_of_transGen ha) (by omega)

/-! ## Value types -/

lemma isSystemType_of_cls (hr : h.cls c = .ok r) (name : String) :
    h.isSystemType c name = r.isSystemType name := by
  rw [isSystemType, cls?_eq_some_iff.mpr hr]
  rfl

/-- Instances are held in place if an ancestor, however far, is the root of all value types. -/
lemma Rooted.isValueType_iff (hroot : h.Rooted) (hw : h.Wellformed) (hc : h.Has c) :
    h.isValueType c = true ↔ ¬h.isSystemType c "Enum" = true ∧
      ∃ a, Relation.TransGen h.Inherits c a ∧ h.isSystemType a "ValueType" = true := by
  obtain ⟨r, hr⟩ := has_iff_cls.mp hc
  rw [isSystemType_of_cls hr]
  simp only [isValueType, cls?_eq_some_iff.mpr hr, Bool.and_eq_true, Bool.not_eq_true',
    Bool.not_eq_true, List.any_eq_true, hroot.mem_tail_ancestors hw hc]

end Host

lemma Class.isSystemType_of_pristine_eq {r r' : Class} (hp : r'.pristine = r.pristine) :
    r'.isSystemType = r.isSystemType := by
  simp only [Class.pristine, Class.mk.injEq] at hp
  funext name
  simp only [Class.isSystemType, hp]

namespace Host

variable {h h' : Host} {c : ClassHandle}

lemma Keeps.isSystemType (hk : h.Keeps h') (hc : h.Has c) (name : String) :
    h'.isSystemType c name = h.isSystemType c name := by
  obtain ⟨r, hr⟩ := has_iff_cls.mp hc
  obtain ⟨r', hr', hp⟩ := hk.classes c r hr
  rw [isSystemType_of_cls hr, isSystemType_of_cls hr', Class.isSystemType_of_pristine_eq hp]

/-- Later loads do not change whether instances of a class are held in place. -/
lemma isValueType_of_keeps (hk : h.Keeps h') (hw : h.Wellformed) (hw' : h'.Wellformed)
    (hroot : h.Rooted) (hc : h.Has c) : h'.isValueType c = h.isValueType c := by
  rw [Bool.eq_iff_iff, (hroot.of_keeps hk).isValueType_iff hw' (hk.has hc),
    hroot.isValueType_iff hw hc, hk.isSystemType hc]
  refine and_congr_right fun _ => exists_congr fun a => ?_
  rw [hk.transGen_inherits_iff hw hc]
  exact and_congr_right fun ha => by rw [hk.isSystemType (hw.has_of_transGen ha)]

end Host

end ManagedHost
