/-
# The tables of a host fit together

The tables of a host refer to each other by position: an assembly to its module and back, a
module to its classes, a class to its parent, to the classes around it and to all classes that
its members mention.  A host is *well-formed* when none of these references leads astray.
This file says what that means, and that it survives the two ways in which tables change: a
record is replaced by one that knows more, and a module is added.
-/
import Mathlib.Data.List.Basic
import Mathlib.Data.List.Range
import ManagedHost.Loading.Commit

namespace ManagedHost

/-! ## The classes that a record mentions -/

/-- The classes named in a signature. -/
def Signature.classes {ρ : Type} : Signature ρ → List ρ
  | .byRef s => s.classes
  | .reference r => [r]
  | .value r => [r]
  | _ => []

/-- The members that are known. -/
def Members.items {α : Type} (m : Members α) : List α :=
  m.get?.getD []

@[simp] lemma Members.items_unknown {α : Type} : (Members.unknown : Members α).items = [] := rfl

@[simp] lemma Members.items_known {α : Type} (xs : List α) : (Members.known xs).items = xs := rfl

/-- The classes that a method mentions: the one that declares it and those in its signature. -/
def Method.classes (m : Method) : List ClassHandle :=
  m.owner :: (m.params.flatMap (·.type.classes) ++ m.result.classes)

/-- The classes that a field mentions. -/
def Field.classes (f : Field) : List ClassHandle :=
  f.owner :: f.type.classes

/-- The classes that a property mentions, those of its accessors included. -/
def Property.classes (p : Property) : List ClassHandle :=
  p.owner :: (p.type.classes ++ (p.getter.toList ++ p.setter.toList).flatMap (·.classes))

/-- The classes that an event mentions, those of its accessors included. -/
def Event.classes (e : Event) : List ClassHandle :=
  e.owner :: (e.add.toList ++ e.remove.toList ++ e.raise.toList).flatMap (·.classes)

/-- All classes that the record of a class mentions. -/
def Class.mentions (c : Class) : List ClassHandle :=
  c.handle :: (c.parent.toList ++ c.declaring.toList ++ c.interfaces.items ++ c.nested.items ++
    c.methods.items.flatMap (·.classes) ++ c.fields.items.flatMap (·.classes) ++
    c.properties.items.flatMap (·.classes) ++ c.events.items.flatMap (·.classes) ++
    c.byValue.toList.flatMap (·.classes))

namespace Host

/-- A class handle that leads to a record of this host. -/
def Has (h : Host) (c : ClassHandle) : Prop :=
  c.owner = h.id ∧ c.index < h.classes.length

/-- Tables fit together: every reference leads where it should. -/
structure Wellformed (h : Host) : Prop where
  /-- There is one module for each assembly. -/
  length_modules : h.modules.length = h.assemblies.length
  /-- An assembly carries the handle of its position and points at the module beside it. -/
  of_assembly : ∀ (i : Nat) (a : Assembly), h.assemblies[i]? = some a →
    a.handle = ⟨h.id, i⟩ ∧ a.module = ⟨h.id, i⟩
  /-- A module carries the handle of its position and points at the assembly beside it. -/
  of_module : ∀ (i : Nat) (m : Module), h.modules[i]? = some m →
    m.handle = ⟨h.id, i⟩ ∧ m.assembly = ⟨h.id, i⟩
  /-- The classes of the modules, one module after the other, are all classes in order. -/
  classes_eq : h.modules.flatMap (·.classes) = (List.range h.classes.length).map (⟨h.id, ·⟩)
  /-- A class of a module has a record with its handle, its module and its row. -/
  of_class : ∀ (k : Nat) (m : Module) (r : Nat) (c : ClassHandle),
    h.modules[k]? = some m → m.classes[r]? = some c →
      ∃ record, h.cls c = .ok record ∧ record.handle = c ∧ record.module = ⟨h.id, k⟩ ∧
        record.row = r
  /-- A name stands for an assembly that exists. -/
  of_name : ∀ e ∈ h.names, e.2.owner = h.id ∧ e.2.index < h.assemblies.length
  /-- Every class that a record mentions exists. -/
  of_mention : ∀ c ∈ h.classes, ∀ x ∈ c.mentions, h.Has x

/-! ## Looking up records -/

variable {h h' : Host}

lemma cls_eq_ok_iff {c : ClassHandle} {r : Class} :
    h.cls c = .ok r ↔ c.owner = h.id ∧ h.classes[c.index]? = some r := by
  unfold cls
  by_cases ho : c.owner = h.id
  · rw [if_pos ho]
    cases hr : h.classes[c.index]? with
    | none => simp
    | some r' => simp [ho]
  · rw [if_neg ho]
    simp [ho]

lemma module_eq_ok_iff {m : ModuleHandle} {r : Module} :
    h.module m = .ok r ↔ m.owner = h.id ∧ h.modules[m.index]? = some r := by
  unfold Host.module
  by_cases ho : m.owner = h.id
  · rw [if_pos ho]
    cases hr : h.modules[m.index]? with
    | none => simp
    | some r' => simp [ho]
  · rw [if_neg ho]
    simp [ho]

lemma assembly_eq_ok_iff {a : AssemblyHandle} {r : Assembly} :
    h.assembly a = .ok r ↔ a.owner = h.id ∧ h.assemblies[a.index]? = some r := by
  unfold assembly
  by_cases ho : a.owner = h.id
  · rw [if_pos ho]
    cases hr : h.assemblies[a.index]? with
    | none => simp
    | some r' => simp [ho]
  · rw [if_neg ho]
    simp [ho]

lemma cls?_eq_some_iff {c : ClassHandle} {r : Class} : h.cls? c = some r ↔ h.cls c = .ok r := by
  unfold cls?
  cases h.cls c with
  | ok r' => simp [Except.toOption]
  | error e => simp [Except.toOption]

lemma has_iff_cls {c : ClassHandle} : h.Has c ↔ ∃ r, h.cls c = .ok r := by
  constructor
  · rintro ⟨ho, hlt⟩
    exact ⟨h.classes[c.index], cls_eq_ok_iff.mpr ⟨ho, List.getElem?_eq_getElem hlt⟩⟩
  · rintro ⟨r, hr⟩
    obtain ⟨ho, hget⟩ := cls_eq_ok_iff.mp hr
    exact ⟨ho, (List.getElem?_eq_some_iff.mp hget).1⟩

/-- What is found among candidate classes is one of them and exists. -/
lemma findClass_eq_some {cs : List ClassHandle} {p : Class → Bool} {c : ClassHandle}
    (hf : h.findClass cs p = some c) : c ∈ cs ∧ h.Has c := by
  refine ⟨List.mem_of_find?_eq_some hf, ?_⟩
  have hp := List.find?_some hf
  rw [has_iff_cls]
  cases hc : h.cls? c with
  | none => simp [hc] at hp
  | some r => exact ⟨r, cls?_eq_some_iff.mp hc⟩

/-- A chain of inheritance does not start at a class that the host does not have. -/
lemma ancestorsWithin_eq_nil {c : ClassHandle} (hc : h.cls? c = none) (steps : Nat) :
    h.ancestorsWithin steps (some c) = [] := by
  cases steps with
  | zero => rfl
  | succ steps => rw [ancestorsWithin, hc]

lemma isExportedWithin_eq_false {c : ClassHandle} (hc : h.cls? c = none) (steps : Nat) :
    h.isExportedWithin steps c = false := by
  cases steps with
  | zero => rfl
  | succ steps => rw [isExportedWithin, hc]

/-- Classes are not forgotten while the table of classes grows. -/
lemma Has.mono {c : ClassHandle} (hc : h.Has c) (hid : h'.id = h.id)
    (hlen : h.classes.length ≤ h'.classes.length) : h'.Has c :=
  ⟨hc.1.trans hid.symm, hc.2.trans_le hlen⟩

namespace Wellformed

/-- Only the tables and the names matter. -/
lemma congr (hw : h.Wellformed) (hid : h'.id = h.id) (ha : h'.assemblies = h.assemblies)
    (hm : h'.modules = h.modules) (hc : h'.classes = h.classes) (hn : h'.names = h.names) :
    h'.Wellformed := by
  have hhas : ∀ x, h.Has x → h'.Has x := fun x hx => hx.mono hid (by rw [hc])
  have hcls : ∀ x, h'.cls x = h.cls x := fun x => by simp only [cls, hid, hc]
  constructor
  · rw [ha, hm]
    exact hw.length_modules
  · rw [ha, hid]
    exact hw.of_assembly
  · rw [hm, hid]
    exact hw.of_module
  · rw [hm, hc, hid]
    exact hw.classes_eq
  · intro k m r c hk hr
    rw [hm] at hk
    rw [hcls, hid]
    exact hw.of_class k m r c hk hr
  · rw [hn, ha, hid]
    exact hw.of_name
  · intro c hmem x hx
    rw [hc] at hmem
    exact hhas x (hw.of_mention c hmem x hx)

lemma note (hw : h.Wellformed) (e : JournalEntry) : (h.note e).Wellformed :=
  hw.congr rfl rfl rfl rfl rfl

/-- The classes of a module exist. -/
lemma has_of_mem (hw : h.Wellformed) {mh : ModuleHandle} {m : Module} {c : ClassHandle}
    (hm : h.module mh = .ok m) (hc : c ∈ m.classes) : h.Has c := by
  have hmem : c ∈ h.modules.flatMap (·.classes) :=
    List.mem_flatMap.mpr ⟨m, List.mem_of_getElem? (module_eq_ok_iff.mp hm).2, hc⟩
  rw [hw.classes_eq, List.mem_map] at hmem
  obtain ⟨i, hi, rfl⟩ := hmem
  exact ⟨rfl, List.mem_range.mp hi⟩

/-- A class has its row in the module that its record names. -/
lemma row_of_cls (hw : h.Wellformed) {c : ClassHandle} {r : Class} (hr : h.cls c = .ok r) :
    ∃ i m, h.modules[i]? = some m ∧ r.module = ⟨h.id, i⟩ ∧ m.classes[r.row]? = some c := by
  obtain ⟨ho, hlt⟩ := has_iff_cls.mpr ⟨r, hr⟩
  have hmem : c ∈ h.modules.flatMap (·.classes) := by
    rw [hw.classes_eq, List.mem_map]
    exact ⟨c.index, List.mem_range.mpr hlt, by rw [← ho]⟩
  obtain ⟨m, hm, hc⟩ := List.mem_flatMap.mp hmem
  obtain ⟨i, hi⟩ := List.mem_iff_getElem?.mp hm
  obtain ⟨row, hrow⟩ := List.mem_iff_getElem?.mp hc
  obtain ⟨record, hrec, -, hmod, rfl⟩ := hw.of_class i m row c hi hrow
  rw [hr] at hrec
  cases hrec
  exact ⟨i, m, hi, hmod, hrow⟩

/-- The module of a class exists. -/
lemma module_of_cls (hw : h.Wellformed) {c : ClassHandle} {r : Class} (hr : h.cls c = .ok r) :
    ∃ m, h.module r.module = .ok m := by
  obtain ⟨i, m, hi, hmod, -⟩ := hw.row_of_cls hr
  exact ⟨m, module_eq_ok_iff.mpr (by rw [hmod]; exact ⟨rfl, hi⟩)⟩

/-- What the record of a class mentions exists. -/
lemma has_of_mention (hw : h.Wellformed) {c x : ClassHandle} {r : Class} (hr : h.cls c = .ok r)
    (hx : x ∈ r.mentions) : h.Has x :=
  hw.of_mention r (List.mem_of_getElem? (cls_eq_ok_iff.mp hr).2) x hx

end Wellformed

/-! ## Replacing a record -/

@[simp] lemma id_modifyClass (c : ClassHandle) (f : Class → Class) :
    (h.modifyClass c f).id = h.id := by
  unfold modifyClass
  split <;> rfl

@[simp] lemma length_classes_modifyClass (c : ClassHandle) (f : Class → Class) :
    (h.modifyClass c f).classes.length = h.classes.length := by
  unfold modifyClass
  split <;> simp

/-- Replacing a record changes what is known of its class and of no other. -/
lemma cls_modifyClass (c x : ClassHandle) (f : Class → Class) :
    (h.modifyClass c f).cls x = if x = c then (h.cls c).map f else h.cls x := by
  unfold modifyClass
  by_cases ho : c.owner = h.id
  · rw [if_pos ho]
    by_cases hx : x = c
    · subst hx
      cases hr : h.classes[x.index]? with
      | none => simp [cls, ho, hr, Except.map]
      | some r => simp [cls, ho, hr, Except.map]
    · rw [if_neg hx]
      by_cases hxo : x.owner = h.id
      · -- two handles of this host differ in their positions
        have hi : c.index ≠ x.index := by
          intro hi
          obtain ⟨xo, xi⟩ := x
          obtain ⟨co, ci⟩ := c
          simp only at hi ho hxo
          subst hi hxo ho
          exact hx rfl
        simp [cls, hxo, hi]
      · simp [cls, hxo]
  · rw [if_neg ho]
    by_cases hx : x = c
    · subst hx
      simp [cls, ho, Except.map]
    · rw [if_neg hx]

lemma has_modifyClass {c x : ClassHandle} {f : Class → Class} :
    (h.modifyClass c f).Has x ↔ h.Has x := by
  simp [Has]

/-- Tables still fit together when a record is replaced by one of the same class that mentions
only classes that exist. -/
lemma Wellformed.modifyClass (hw : h.Wellformed) {c : ClassHandle} {f : Class → Class}
    (hf : ∀ r, h.cls c = .ok r → (f r).handle = r.handle ∧ (f r).module = r.module ∧
      (f r).row = r.row ∧ ∀ x ∈ (f r).mentions, h.Has x) :
    (h.modifyClass c f).Wellformed := by
  by_cases ho : c.owner = h.id
  swap
  · rw [Host.modifyClass, if_neg ho]
    exact hw
  have htab : (h.modifyClass c f).assemblies = h.assemblies ∧
      (h.modifyClass c f).modules = h.modules ∧ (h.modifyClass c f).names = h.names := by
    rw [Host.modifyClass, if_pos ho]
    exact ⟨rfl, rfl, rfl⟩
  obtain ⟨ha, hm, hn⟩ := htab
  constructor
  · rw [ha, hm]
    exact hw.length_modules
  · rw [ha, id_modifyClass]
    exact hw.of_assembly
  · rw [hm, id_modifyClass]
    exact hw.of_module
  · rw [hm, length_classes_modifyClass, id_modifyClass]
    exact hw.classes_eq
  · intro k m r x hk hr
    rw [hm] at hk
    rw [cls_modifyClass, id_modifyClass]
    obtain ⟨record, hrec, hh, hmod, hrow⟩ := hw.of_class k m r x hk hr
    by_cases hx : x = c
    · subst hx
      obtain ⟨h1, h2, h3, -⟩ := hf record hrec
      exact ⟨f record, by simp [hrec, Except.map], h1.trans hh, h2.trans hmod, h3.trans hrow⟩
    · rw [if_neg hx]
      exact ⟨record, hrec, hh, hmod, hrow⟩
  · rw [hn, ha, id_modifyClass]
    exact hw.of_name
  · intro r hr x hx
    rw [has_modifyClass]
    rw [Host.modifyClass, if_pos ho] at hr
    obtain ⟨i, hi⟩ := List.mem_iff_getElem?.mp hr
    rw [List.getElem?_modify] at hi
    -- the record at the position of `c` is the new one, all others are as before
    by_cases hic : c.index = i
    · subst hic
      rw [Option.map_eq_map, Option.map_eq_some_iff] at hi
      obtain ⟨r₀, hr₀, hr₁⟩ := hi
      rw [if_pos rfl] at hr₁
      subst hr₁
      exact (hf r₀ (cls_eq_ok_iff.mpr ⟨ho, hr₀⟩)).2.2.2 x hx
    · simp only [hic, if_false] at hi
      exact hw.of_mention r (List.mem_of_getElem? (by simpa using hi)) x hx

/-! ## Adding a module -/

end Host

/-- A new module fits a host: its classes refer to each other by rows that exist, and to other
classes of the host. -/
def NewModule.Fits (n : NewModule) (h : Host) : Prop :=
  ∀ c ∈ n.classes, (∀ e, c.definition.encloser = some e → e < n.classes.length) ∧
    (∀ r, c.parent = some (.own r) → r < n.classes.length) ∧
    (∀ x, c.parent = some (.foreign x) → h.Has x)

/-- The record of a new class mentions the class itself, its parent and its encloser. -/
lemma NewClass.mem_mentions_record {c : NewClass} {id base : Nat} {m : ModuleHandle} {row : Nat}
    {x : ClassHandle} (hx : x ∈ (c.record id base m row).mentions) :
    x = ⟨id, base + row⟩ ∨ (∃ r, c.parent = some (.own r) ∧ x = ⟨id, base + r⟩) ∨
      c.parent = some (.foreign x) ∨
      ∃ e, c.definition.encloser = some e ∧ x = ⟨id, base + e⟩ := by
  simp only [Class.mentions, NewClass.record, Members.items_unknown, Option.toList_none,
    List.flatMap_nil, List.append_nil, List.mem_cons, List.mem_append, Option.mem_toList,
    Option.map_eq_some_iff] at hx
  rcases hx with rfl | ⟨p, hp, hx⟩ | ⟨e, he, hx⟩
  · exact .inl rfl
  · cases p with
    | own r => exact .inr (.inl ⟨r, hp, hx.symm⟩)
    | foreign y =>
      simp only at hx
      subst hx
      exact .inr (.inr (.inl hp))
  · exact .inr (.inr (.inr ⟨e, he, hx.symm⟩))

namespace Host

variable {h : Host}

@[simp] lemma length_assemblies_commit (name : String) (n : NewModule) :
    (h.commit name n).assemblies.length = h.assemblies.length + 1 := by
  simp [commit]

@[simp] lemma length_classes_commit (name : String) (n : NewModule) :
    (h.commit name n).classes.length = h.classes.length + n.classes.length := by
  simp [commit]

lemma has_commit {name : String} {n : NewModule} {x : ClassHandle} (hx : h.Has x) :
    (h.commit name n).Has x :=
  hx.mono rfl (by simp)

/-- The classes of the new module come after those that were there. -/
lemma has_commit_new (name : String) {n : NewModule} {r : Nat} (hr : r < n.classes.length) :
    (h.commit name n).Has ⟨h.id, h.classes.length + r⟩ :=
  ⟨rfl, by simpa using hr⟩

lemma cls_commit_old {name : String} {n : NewModule} {c : ClassHandle} {r : Class}
    (hr : h.cls c = .ok r) : (h.commit name n).cls c = .ok r := by
  obtain ⟨ho, hget⟩ := cls_eq_ok_iff.mp hr
  refine cls_eq_ok_iff.mpr ⟨ho, ?_⟩
  rw [commit, List.getElem?_append_left (List.getElem?_eq_some_iff.mp hget).1]
  exact hget

lemma cls_commit_new (name : String) {n : NewModule} {r : Nat} {c : NewClass}
    (hc : n.classes[r]? = some c) :
    (h.commit name n).cls ⟨h.id, h.classes.length + r⟩ =
      .ok (c.record h.id h.classes.length ⟨h.id, h.modules.length⟩ r) := by
  refine cls_eq_ok_iff.mpr ⟨rfl, ?_⟩
  simp [commit, List.getElem?_append_right, hc]

/-- Every record after adding a module is an old one or that of a new class. -/
lemma mem_classes_commit {name : String} {n : NewModule} {r : Class}
    (hr : r ∈ (h.commit name n).classes) :
    r ∈ h.classes ∨ ∃ c ∈ n.classes, ∃ row < n.classes.length,
      r = c.record h.id h.classes.length ⟨h.id, h.modules.length⟩ row := by
  simp only [commit, List.mem_append, List.mem_map, Prod.exists] at hr
  rcases hr with hr | ⟨c, row, hmem, rfl⟩
  · exact .inl hr
  · rw [List.mk_mem_zipIdx_iff_getElem?] at hmem
    exact .inr ⟨c, List.mem_of_getElem? hmem, row, (List.getElem?_eq_some_iff.mp hmem).1, rfl⟩

/-- An entry of a list to which one has been added is an old one or the added one. -/
lemma eq_some_of_append_singleton {α : Type} {xs : List α} {x y : α} {i : Nat}
    (hi : (xs ++ [x])[i]? = some y) : xs[i]? = some y ∨ i = xs.length ∧ y = x := by
  rw [List.getElem?_append] at hi
  split at hi
  · exact .inl hi
  · rw [List.getElem?_singleton] at hi
    split at hi
    · exact .inr ⟨by omega, (Option.some.inj hi).symm⟩
    · simp at hi

/-- Tables still fit together when a module that fits is added. -/
lemma Wellformed.commit (hw : h.Wellformed) (name : String) {n : NewModule} (hn : n.Fits h) :
    (h.commit name n).Wellformed := by
  have hlen := hw.length_modules
  constructor
  · simp [Host.commit, hlen]
  · intro i a hi
    rcases eq_some_of_append_singleton hi with hi | ⟨rfl, rfl⟩
    · exact hw.of_assembly i a hi
    · exact ⟨rfl, by rw [← hlen]; rfl⟩
  · intro i m hi
    rcases eq_some_of_append_singleton hi with hi | ⟨rfl, rfl⟩
    · exact hw.of_module i m hi
    · exact ⟨rfl, by rw [hlen]; rfl⟩
  · -- the rows of the new module continue the positions
    rw [length_classes_commit, List.range_add, List.map_append]
    simp only [Host.commit, List.flatMap_append, List.flatMap_singleton, hw.classes_eq,
      List.map_map]
    rfl
  · intro k m r c hk hr
    rcases eq_some_of_append_singleton hk with hk | ⟨rfl, rfl⟩
    · obtain ⟨record, hrec, hrest⟩ := hw.of_class k m r c hk hr
      exact ⟨record, cls_commit_old hrec, hrest⟩
    · simp only [List.getElem?_map, Option.map_eq_some_iff] at hr
      obtain ⟨row, hrow, rfl⟩ := hr
      obtain ⟨hlt, hget⟩ := List.getElem?_eq_some_iff.mp hrow
      rw [List.length_range] at hlt
      rw [List.getElem_range] at hget
      subst hget
      exact ⟨_, cls_commit_new name (List.getElem?_eq_getElem hlt), rfl, rfl, rfl⟩
  · intro e he
    rw [length_assemblies_commit]
    have hcases : e ∈ h.names ∨ e.2 = ⟨h.id, h.assemblies.length⟩ := by
      simp only [Host.commit] at he
      split at he
      · rcases List.mem_cons.mp he with rfl | he
        · exact .inr rfl
        · exact .inl he
      · rcases List.mem_cons.mp he with rfl | he
        · exact .inr rfl
        · rcases List.mem_cons.mp he with rfl | he
          · exact .inr rfl
          · exact .inl he
    rcases hcases with he | he
    · obtain ⟨ho, hlt⟩ := hw.of_name e he
      exact ⟨ho, by omega⟩
    · rw [he]
      exact ⟨rfl, by simp⟩
  · intro r hr x hx
    rcases mem_classes_commit hr with hr | ⟨c, hc, row, hrow, rfl⟩
    · exact has_commit (hw.of_mention r hr x hx)
    · obtain ⟨henc, hown, hforeign⟩ := hn c hc
      rcases c.mem_mentions_record hx with rfl | ⟨p, hp, rfl⟩ | hp | ⟨e, he, rfl⟩
      · exact has_commit_new name hrow
      · exact has_commit_new name (hown p hp)
      · exact has_commit (hforeign x hp)
      · exact has_commit_new name (henc e he)

/-! ## The empty host -/

lemma wellformed_blank (id : Nat) (config : Config) : (blank id config).Wellformed := by
  constructor <;> simp [blank]

end Host

end ManagedHost
