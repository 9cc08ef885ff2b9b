/-
# Lines of ancestors

The walk from a class along its parents is cut off after as many steps as there are classes.  A
module is added when the parents of all its classes are known, and those in other modules stand in
the table already.  So a walk never comes back to a module that it has left, a walk that goes in a
circle stays within one module, and if no module has such a circle, then no class is visited twice
and the walk comes to its end before it is cut off.

* `Host.Layered`: parents in other modules stand before all classes of the module.
* `Host.Lineage`: a class, its parent and so on, up to a class that has no parent.
* `lineage_complete`: the walk is the line of ancestors.
-/
import Mathlib.Data.Fintype.EquivFin
import ManagedHost.Proofs.Inheritance
import ManagedHost.Proofs.Provenance

namespace ManagedHost

namespace Host

variable {h h' : Host} {c d p x : ClassHandle} {r : Class} {m : Module} {i j : Nat}

/-! ## Modules in the order in which they were added -/

/-- The class is one of those of the module of this number. -/
def InModule (h : Host) (i : Nat) (c : ClassHandle) : Prop :=
  ∃ m, h.modules[i]? = some m ∧ c ∈ m.classes

/-- The parent of a class is in the same module, or it stands in the table before all classes of
the module. -/
def Layered (h : Host) : Prop :=
  ∀ m ∈ h.modules, ∀ c ∈ m.classes, ∀ p, h.Inherits c p →
    p ∈ m.classes ∨ ∀ x ∈ m.classes, p.index < x.index

lemma InModule.has (hi : h.InModule i c) (hw : h.Wellformed) : h.Has c := by
  obtain ⟨m, hm, hc⟩ := hi
  have hmodule : h.module ⟨h.id, i⟩ = .ok m := module_eq_ok_iff.mpr ⟨rfl, hm⟩
  exact hw.has_of_mem hmodule hc

lemma Wellformed.exists_inModule (hw : h.Wellformed) (hc : h.Has c) : ∃ i, h.InModule i c := by
  obtain ⟨r, hr⟩ := has_iff_cls.mp hc
  obtain ⟨i, m, hm, -, hrow⟩ := hw.row_of_cls hr
  exact ⟨i, m, hm, List.mem_of_getElem? hrow⟩

/-- The classes of a module stand before those of the modules that were added later. -/
lemma Wellformed.index_lt_of_lt (hw : h.Wellformed) (hc : h.InModule i c) (hd : h.InModule j d)
    (hij : i < j) : c.index < d.index := by
  obtain ⟨m, hm, hc⟩ := hc
  obtain ⟨m', hm', hd⟩ := hd
  have hsorted : (h.modules.flatMap (·.classes)).Pairwise (·.index < ·.index) := by
    rw [hw.classes_eq, List.pairwise_map]
    exact List.pairwise_lt_range
  obtain ⟨hi, rfl⟩ := List.getElem?_eq_some_iff.mp hm
  obtain ⟨hj, rfl⟩ := List.getElem?_eq_some_iff.mp hm'
  have hmodules := (List.pairwise_flatMap.mp hsorted).2
  exact List.pairwise_iff_getElem.mp hmodules i j hi hj hij c hc d hd

lemma InModule.unique (hi : h.InModule i c) (hj : h.InModule j c) (hw : h.Wellformed) : i = j := by
  rcases Nat.lt_trichotomy i j with hlt | heq | hgt
  · exact absurd (hw.index_lt_of_lt hi hj hlt) (lt_irrefl _)
  · exact heq
  · exact absurd (hw.index_lt_of_lt hj hi hgt) (lt_irrefl _)

lemma Layered.of_keeps (hl : h.Layered) (hw : h.Wellformed) (hk : h.Keeps h') {m : Module}
    (hm : m ∈ h.modules) (hc : c ∈ m.classes) (hp : h'.Inherits c p) :
    p ∈ m.classes ∨ ∀ x ∈ m.classes, p.index < x.index := by
  obtain ⟨i, hi⟩ := List.mem_iff_getElem?.mp hm
  have hhas : h.Has c := InModule.has ⟨m, hi, hc⟩ hw
  exact hl m hm c hc p (hp.of_later hk hhas)

lemma Layered.commit {R : Resolver} {n : NewModule} {request : String} (hl : h.Layered)
    (hw : h.Wellformed) (hd : n.Describes R h h.assemblies.length request) :
    (h.commit request n).Layered := by
  intro m hm c hc p hp
  rcases List.mem_append.mp hm with hold | hnew
  · exact hl.of_keeps hw (.commit h request n) hold hc hp
  · obtain rfl := List.mem_singleton.mp hnew
    obtain ⟨row, hrow, rfl⟩ := List.mem_map.mp hc
    have hk := List.getElem?_eq_getElem (List.mem_range.mp hrow)
    obtain ⟨r, hr, hparent⟩ := hp
    obtain rfl := Except.ok.inj ((cls_commit_new request hk).symm.trans hr)
    obtain ⟨-, hown, hforeign⟩ := hd.fits _ (List.mem_of_getElem? hk)
    obtain ⟨q, hq, rfl⟩ := Option.map_eq_some_iff.mp hparent
    cases q with
    | own row' =>
      exact .inl (List.mem_map.mpr ⟨row', List.mem_range.mpr (hown row' hq), rfl⟩)
    | foreign target =>
      -- the target was in the table before the module was added
      refine .inr fun x hx => ?_
      obtain ⟨row', -, rfl⟩ := List.mem_map.mp hx
      exact (hforeign target hq).2.trans_le (Nat.le_add_right _ _)

end Host

lemma Underway.layered {h : Host} (hu : Underway h) : h.Layered := by
  refine hu.of_commits ?_ ?_ ?_
  · intro id config m hm
    simp [Host.blank] at hm
  · intro g g' hw hk hmodules hl m hm c hc p hp
    exact hl.of_keeps hw hk (hmodules ▸ hm) hc hp
  · intro R g request n hw hd hl
    exact hl.commit hw hd

/-! ## Circles -/

namespace Host

variable {h h' : Host} {c d p x y : ClassHandle} {r : Class} {l : List ClassHandle} {i j : Nat}

/-- A class inherits directly from a class of the same module. -/
def InheritsLocally (h : Host) (c p : ClassHandle) : Prop :=
  h.Inherits c p ∧ ∃ m ∈ h.modules, c ∈ m.classes ∧ p ∈ m.classes

/-- A parent is in the same module or in one that was added before. -/
lemma Layered.exists_le (hl : h.Layered) (hw : h.Wellformed) (hp : h.Inherits c p)
    (hi : h.InModule i c) : ∃ j ≤ i, h.InModule j p := by
  obtain ⟨m, hm, hc⟩ := hi
  rcases hl m (List.mem_of_getElem? hm) c hc p hp with hmem | hbefore
  · exact ⟨i, le_rfl, m, hm, hmem⟩
  · obtain ⟨j, hj⟩ := hw.exists_inModule (hw.has_of_inherits hp)
    refine ⟨j, ?_, hj⟩
    by_contra hlt
    have hafter := hw.index_lt_of_lt ⟨m, hm, hc⟩ hj (by omega)
    have := hbefore c hc
    omega

lemma Layered.exists_le_of_walk (hl : h.Layered) (hw : h.Wellformed)
    (hx : Relation.ReflTransGen h.Inherits c x) (hi : h.InModule i c) :
    ∃ j ≤ i, h.InModule j x := by
  induction hx with
  | refl => exact ⟨i, le_rfl, hi⟩
  | tail _ hp ih =>
    obtain ⟨j, hj, hy⟩ := ih
    obtain ⟨k, hk, hz⟩ := hl.exists_le hw hp hy
    exact ⟨k, hk.trans hj, hz⟩

/-- A walk that comes back has not left the module. -/
lemma Layered.inModule_of_circle (hl : h.Layered) (hw : h.Wellformed)
    (hx : Relation.ReflTransGen h.Inherits c x) (hback : Relation.ReflTransGen h.Inherits x c)
    (hi : h.InModule i c) : h.InModule i x := by
  obtain ⟨j, hj, hxj⟩ := hl.exists_le_of_walk hw hx hi
  obtain ⟨k, hk, hck⟩ := hl.exists_le_of_walk hw hback hxj
  obtain rfl := hi.unique hck hw
  obtain rfl : j = i := by omega
  exact hxj

/-- Classes on one circle are classes of one module. -/
lemma Layered.exists_module_of_circle (hl : h.Layered) (hw : h.Wellformed)
    (hx : Relation.TransGen h.Inherits c x) (hback : Relation.ReflTransGen h.Inherits x c) :
    ∃ m ∈ h.modules, c ∈ m.classes ∧ x ∈ m.classes := by
  obtain ⟨b, ⟨r, hr, -⟩, -⟩ := Relation.TransGen.head'_iff.mp hx
  obtain ⟨i, m, hm, hc⟩ := hw.exists_inModule (has_iff_cls.mpr ⟨r, hr⟩)
  obtain ⟨m', hm', hxm⟩ := hl.inModule_of_circle hw hx.to_reflTransGen hback ⟨m, hm, hc⟩
  obtain rfl := Option.some.inj (hm.symm.trans hm')
  exact ⟨m, List.mem_of_getElem? hm, hc, hxm⟩

lemma Layered.local_of_circle (hl : h.Layered) (hw : h.Wellformed)
    (hx : Relation.TransGen h.Inherits c x) (hback : Relation.ReflTransGen h.Inherits x c) :
    Relation.TransGen h.InheritsLocally c x := by
  induction hx with
  | single hp => exact .single ⟨hp, hl.exists_module_of_circle hw (.single hp) hback⟩
  | tail hy hp ih =>
    have hcircle := hl.exists_module_of_circle hw (.single hp) (hback.trans hy.to_reflTransGen)
    exact (ih (.head hp hback)).tail ⟨hp, hcircle⟩

/-- Where no module has a circle, there is none. -/
lemma Layered.not_circle (hl : h.Layered) (hw : h.Wellformed)
    (hlocal : ∀ c, ¬Relation.TransGen h.InheritsLocally c c) (c : ClassHandle) :
    ¬Relation.TransGen h.Inherits c c :=
  fun hc => hlocal c (hl.local_of_circle hw hc .refl)

/-! ## Lines of ancestors -/

/-- The class, its parent and so on, up to a class that has no parent. -/
inductive Lineage (h : Host) : ClassHandle → List ClassHandle → Prop
  | root {c : ClassHandle} {r : Class} (hr : h.cls c = .ok r) (hp : r.parent = none) :
      Lineage h c [c]
  | child {c p : ClassHandle} {l : List ClassHandle} (hp : h.Inherits c p)
      (hl : Lineage h p l) : Lineage h c (c :: l)

/-- A line is a way to a class that has no parent. -/
lemma Lineage.exists_way (hl : h.Lineage c l) :
    ∃ z r, h.Way z c l ∧ h.cls z = .ok r ∧ r.parent = none := by
  induction hl with
  | root hr hp => exact ⟨_, _, .here, hr, hp⟩
  | child hp _ ih =>
    obtain ⟨z, r, hway, hr, hz⟩ := ih
    exact ⟨z, r, .up hp hway, hr, hz⟩

lemma Lineage.has (hl : h.Lineage c l) : ∀ x ∈ l, h.Has x := by
  obtain ⟨z, r, hway, hr, -⟩ := hl.exists_way
  exact hway.has (has_iff_cls.mpr ⟨r, hr⟩)

lemma Lineage.rooted (hl : h.Lineage c l) : h.Rooted := by
  obtain ⟨z, r, -, hr, hz⟩ := hl.exists_way
  exact ⟨z, r, hr, hz⟩

lemma Lineage.of_keeps (hl : h.Lineage c l) (hk : h.Keeps h') : h'.Lineage c l := by
  induction hl with
  | root hr hp =>
    obtain ⟨r', hr', heq⟩ := hk.classes _ _ hr
    exact .root hr' ((Class.eq_of_pristine_eq heq).2.2.2.2.trans hp)
  | child hp _ ih => exact .child (hp.of_keeps hk) ih

/-- Behind the class, the line consists of its proper ancestors. -/
lemma Lineage.exists_cons (hl : h.Lineage c l) :
    ∃ rest, l = c :: rest ∧ ∀ x, x ∈ rest ↔ Relation.TransGen h.Inherits c x := by
  induction hl with
  | @root c r hr hp =>
    refine ⟨[], rfl, fun x => iff_of_false (by simp) fun hx => ?_⟩
    obtain ⟨p, ⟨r', hr', hparent⟩, -⟩ := Relation.TransGen.head'_iff.mp hx
    obtain rfl := Except.ok.inj (hr.symm.trans hr')
    simp [hp] at hparent
  | @child c p l hp _ ih =>
    obtain ⟨rest, rfl, hrest⟩ := ih
    refine ⟨p :: rest, rfl, fun x => ?_⟩
    rw [List.mem_cons, hrest, hp.transGen_iff, Relation.reflTransGen_iff_eq_or_transGen]

lemma Lineage.nodup (hl : h.Lineage c l) (hacyclic : ∀ c, ¬Relation.TransGen h.Inherits c c) :
    l.Nodup := by
  induction hl with
  | root => exact List.nodup_singleton _
  | @child c p l hp hl ih =>
    refine List.nodup_cons.mpr ⟨fun hmem => hacyclic c ?_, ih⟩
    obtain ⟨rest, hcons, hrest⟩ := (Lineage.child hp hl).exists_cons
    exact (hrest c).mp ((List.cons.inj hcons).2 ▸ hmem)

/-- Where no walk goes in a circle, every class has a line of ancestors. -/
lemma Wellformed.exists_lineage (hw : h.Wellformed)
    (hacyclic : ∀ c, ¬Relation.TransGen h.Inherits c c) (hc : h.Has c) : ∃ l, h.Lineage c l := by
  let above (a b : {c // h.Has c}) : Prop := Relation.TransGen h.Inherits b.1 a.1
  have hfinite : Finite {c // h.Has c} := by
    refine Finite.of_injective (fun c => (⟨c.1.index, c.2.2⟩ : Fin h.classes.length)) ?_
    intro a b hab
    exact Subtype.ext (a.2.eq_of_index_eq b.2 (congrArg Fin.val hab))
  have htrans : IsTrans {c // h.Has c} above := ⟨fun _ _ _ hab hbc => hbc.trans hab⟩
  have hirrefl : Std.Irrefl above := ⟨fun a ha => hacyclic a.1 ha⟩
  have hwf : WellFounded above := Finite.wellFounded_of_trans_of_irrefl above
  suffices hall : ∀ c : {c // h.Has c}, ∃ l, h.Lineage c.1 l from hall ⟨c, hc⟩
  intro c
  induction c using hwf.induction with
  | h c ih =>
    obtain ⟨r, hr⟩ := has_iff_cls.mp c.2
    cases hparent : r.parent with
    | none => exact ⟨_, .root hr hparent⟩
    | some p =>
      have hp : h.Inherits c.1 p := ⟨r, hr, hparent⟩
      obtain ⟨l, hl⟩ := ih ⟨p, hw.has_of_inherits hp⟩ (.single hp)
      exact ⟨c.1 :: l, .child hp hl⟩

/-- A walk that is allowed as many steps as the line has classes follows it to the end. -/
lemma Lineage.ancestorsWithin (hl : h.Lineage c l) {steps : Nat} (hlen : l.length ≤ steps) :
    h.ancestorsWithin steps (some c) = l := by
  induction hl generalizing steps with
  | root hr hp =>
    obtain ⟨steps, rfl⟩ : ∃ k, steps = k + 1 := ⟨steps - 1, by simp at hlen; omega⟩
    simp only [Host.ancestorsWithin, cls?_eq_some_iff.mpr hr, hp]
    cases steps <;> rfl
  | child hp _ ih =>
    obtain ⟨r, hr, hparent⟩ := hp
    obtain ⟨steps, rfl⟩ : ∃ k, steps = k + 1 := ⟨steps - 1, by simp at hlen; omega⟩
    simp only [Host.ancestorsWithin, cls?_eq_some_iff.mpr hr, hparent]
    rw [ih (by simpa using hlen)]

lemma length_ancestorsWithin_le (h : Host) (steps : Nat) (start : Option ClassHandle) :
    (h.ancestorsWithin steps start).length ≤ steps := by
  induction steps generalizing start with
  | zero => simp [Host.ancestorsWithin]
  | succ steps ih =>
    cases start with
    | none => simp [Host.ancestorsWithin]
    | some c =>
      simp only [Host.ancestorsWithin]
      split
      · simp
      · simpa using ih _

lemma Lineage.ancestors_eq (hl : h.Lineage c l) (hlen : l.length ≤ h.classes.length) :
    h.ancestors c = l :=
  hl.ancestorsWithin hlen

lemma isSystemType_eq_true_iff {name : String} : h.isSystemType c name = true ↔
    ∃ r, h.cls c = .ok r ∧ r.space = "System" ∧ r.name = name ∧ r.declaring = none := by
  cases hc : h.cls? c with
  | none =>
    refine iff_of_false (by simp [isSystemType, hc]) ?_
    rintro ⟨r, hr, -⟩
    simp [cls?_eq_some_iff.mpr hr] at hc
  | some r =>
    have hr := cls?_eq_some_iff.mp hc
    simp [isSystemType, hc, hr, Class.isSystemType, and_assoc]

lemma Keeps.length_classes_le (hk : h.Keeps h') : h.classes.length ≤ h'.classes.length := by
  by_contra hlt
  have hhas : h.Has ⟨h.id, h'.classes.length⟩ := ⟨rfl, by simpa using hlt⟩
  exact lt_irrefl _ (hk.has hhas).2

end Host

/-- At every point of a run, the parent of a class is in the same module or stands in the table
before all classes of the module, so classes that inherit from each other are in one module; and the
walk to the ancestors of a class is no longer than the table.  If there is no circle of parents
within a module, the walk is the whole line of ancestors, in which no class occurs twice, it stays
the same whatever happens later, and instances of the class are held in place if and only if it is
not the root of all enumerations and a proper ancestor is the root of all value types. -/
theorem lineage_complete {h : Host} (hu : Underway h) :
    (∀ m ∈ h.modules, ∀ c ∈ m.classes, ∀ p, h.Inherits c p →
      p ∈ m.classes ∨ ∀ x ∈ m.classes, p.index < x.index) ∧
    (∀ c x, Relation.TransGen h.Inherits c x → Relation.TransGen h.Inherits x c →
      ∃ m ∈ h.modules, c ∈ m.classes ∧ x ∈ m.classes) ∧
    (∀ c, (h.ancestors c).length ≤ h.classes.length) ∧
    ((∀ c, ¬Relation.TransGen h.InheritsLocally c c) → ∀ c r, h.cls c = .ok r →
      h.Lineage c (h.ancestors c) ∧ (h.ancestors c).Nodup ∧
      (∀ later, Relation.ReflTransGen Host.Proceeds h later →
        later.ancestors c = h.ancestors c) ∧
      (h.isValueType c = true ↔
        ¬(r.space = "System" ∧ r.name = "Enum" ∧ r.declaring = none) ∧
        ∃ a ra, Relation.TransGen h.Inherits c a ∧ h.cls a = .ok ra ∧
          ra.space = "System" ∧ ra.name = "ValueType" ∧ ra.declaring = none)) := by
  have hw := hu.wellformed
  have hlayered := hu.layered
  refine ⟨hlayered, ?_, ?_, ?_⟩
  · intro c x hx hback
    exact hlayered.exists_module_of_circle hw hx hback.to_reflTransGen
  · intro c
    exact h.length_ancestorsWithin_le _ _
  · intro hlocal c r hr
    have hacyclic := hlayered.not_circle hw hlocal
    have hhas : h.Has c := Host.has_iff_cls.mpr ⟨r, hr⟩
    obtain ⟨l, hl⟩ := hw.exists_lineage hacyclic hhas
    have hnodup := hl.nodup hacyclic
    have hlen := Host.length_le_of_nodup hnodup hl.has
    have heq := hl.ancestors_eq hlen
    rw [heq]
    refine ⟨hl, hnodup, ?_, ?_⟩
    · intro later hlater
      have hk := Host.keeps_of_proceeds hlater
      exact (hl.of_keeps hk).ancestors_eq (hlen.trans hk.length_classes_le)
    · rw [hl.rooted.isValueType_iff hw hhas]
      simp only [Host.isSystemType_eq_true_iff, hr, Except.ok.injEq, exists_eq_left',
        exists_and_left]

namespace ImageSpecimen

/-- The host when `Loop` has been loaded too. -/
def loadedLoop : Host :=
  (Op.loadWithin 3 "Loop" setup.world loaded).2

lemma proceeds_loadedLoop : Relation.ReflTransGen Host.Proceeds loaded loadedLoop := by
  have hrun : Op.loadWithin 3 "Loop" setup.world loaded = (.ok ⟨1, 3⟩, loadedLoop) :=
    Prod.ext (by decide +kernel) rfl
  have hloader := Op.isLoader_loadWithin setup.world 3 "Loop" loaded underway_loaded.wellformed
  exact .single (.runs (.learns (K := []) (.loads (hloader.of_ok hrun).1)))

/-- A number that is smaller for the parent of a class.  `Inner` is the only class that inherits
from one after it. -/
def rank (c : ClassHandle) : Nat :=
  if c.index = 6 then 9 else c.index

lemma rank_lt {c p : ClassHandle} (hp : loaded.Inherits c p) : rank p < rank c := by
  have hlen : loaded.classes.length = 9 := by decide +kernel
  have hid : loaded.id = 1 := by decide +kernel
  have hall : ((List.range 9).all fun i =>
      ((loaded.cls? ⟨1, i⟩).bind (·.parent)).all fun p =>
        decide (rank p < rank ⟨1, i⟩)) = true := by
    decide +kernel
  simp only [List.all_eq_true, List.mem_range, Option.all_eq_true, decide_eq_true_eq] at hall
  obtain ⟨r, hr, hparent⟩ := hp
  obtain ⟨howner, hlt⟩ := Host.has_iff_cls.mpr ⟨r, hr⟩
  obtain ⟨owner, index⟩ := c
  obtain rfl : owner = 1 := howner.trans hid
  exact hall index (hlen ▸ hlt) p (by rw [Host.cls?_eq_some_iff.mpr hr, Option.bind_some, hparent])

lemma not_circle (c : ClassHandle) : ¬Relation.TransGen loaded.InheritsLocally c c := by
  have hlt : ∀ x, Relation.TransGen loaded.InheritsLocally c x → rank x < rank c := by
    intro x hx
    induction hx with
    | single hp => exact rank_lt hp.1
    | tail _ hp ih => exact (rank_lt hp.1).trans ih
  exact fun hc => lt_irrefl _ (hlt c hc)

end ImageSpecimen

open ImageSpecimen in
/-- `Color` inherits from the root of all enumerations, which inherits from that of all value types.
Loading assemblies with circles changes nothing for it. -/
theorem lineage_complete_specimen :
    Underway loaded ∧ (∀ c, ¬Relation.TransGen loaded.InheritsLocally c c) ∧
    loaded.Lineage ⟨1, 8⟩ [⟨1, 8⟩, ⟨1, 3⟩, ⟨1, 2⟩, ⟨1, 0⟩] ∧
    loadedLoop.ancestors ⟨1, 8⟩ = [⟨1, 8⟩, ⟨1, 3⟩, ⟨1, 2⟩, ⟨1, 0⟩] ∧
    ∃ a, Relation.TransGen loaded.Inherits ⟨1, 8⟩ a ∧ loaded.isSystemType a "ValueType" = true := by
  have hu := underway_loaded
  obtain ⟨-, -, -, hlines⟩ := lineage_complete hu
  have hhas : loaded.Has ⟨1, 8⟩ := ⟨by decide +kernel, by decide +kernel⟩
  obtain ⟨r, hr⟩ := Host.has_iff_cls.mp hhas
  obtain ⟨hline, -, hlater, hvalue⟩ := hlines not_circle _ r hr
  have hancestors : loaded.ancestors ⟨1, 8⟩ = [⟨1, 8⟩, ⟨1, 3⟩, ⟨1, 2⟩, ⟨1, 0⟩] := by
    decide +kernel
  obtain ⟨-, a, ra, ha, hra⟩ := hvalue.mp (by decide +kernel)
  refine ⟨hu, not_circle, hancestors ▸ hline, ?_, a, ha, ?_⟩
  · exact (hlater _ proceeds_loadedLoop).trans hancestors
  · exact Host.isSystemType_eq_true_iff.mpr ⟨ra, hra⟩

end ManagedHost
