/-
# Loaded modules are images of their sources

What a host knows of a module from the beginning, before any members are derived, is an image of
what the source said when the module was added: one class for each type definition, with the
names and enclosers of the definitions, and with the parents to which their references lead.  A
reference into another assembly leads to its class by a path through the tables: the assemblies
on the path were there before the module was added, and each but the last forwards the type to the
next.

* `Host.Keeps`: the tables are continued, and what a record says from the beginning is kept.
* `Host.Leads`: the path by which a reference leads to a class.
* `NewModule.Describes`: a module that is about to be added says what its source says.
* `Host.Embodies`: an assembly of a host is the image of such a module.  It stays so
  (`Embodies.of_keeps`).
-/
import Mathlib.Data.List.Infix
import Mathlib.Order.Defs.Unbundled
import ManagedHost.Proofs.Wellformed
import ManagedHost.Start

namespace ManagedHost

/-- The resolver of a world. -/
def World.resolver (w : World) : Resolver :=
  ⟨w.resolve, w.source⟩

/-- The record of a class as it was when the class was added. -/
def Class.pristine (r : Class) : Class :=
  { r with
    interfaces := .unknown
    nested := .unknown
    methods := .unknown
    fields := .unknown
    properties := .unknown
    events := .unknown
    layout := none
    byValue := none
    init := .untouched }

lemma Class.eq_of_pristine_eq {r r' : Class} (hp : r'.pristine = r.pristine) :
    r'.handle = r.handle ∧ r'.module = r.module ∧ r'.row = r.row ∧ r'.fullName = r.fullName ∧
      r'.parent = r.parent := by
  simp only [Class.pristine, Class.mk.injEq] at hp
  simp only [hp, and_self]

lemma getElem?_of_prefix {α : Type} {xs ys : List α} (hp : xs <+: ys) {i : Nat} {x : α}
    (hi : xs[i]? = some x) : ys[i]? = some x := by
  obtain ⟨hlt, rfl⟩ := List.getElem?_eq_some_iff.mp hi
  exact List.prefix_iff_getElem?.mp hp i hlt

namespace Host

variable {R : Resolver} {h h₁ h' : Host} {bound : Nat}

/-! ## What is kept -/

/-- The tables are continued, names that have been entered lead to added assemblies, and records
say what they said from the beginning. -/
structure Keeps (h h' : Host) : Prop where
  id_eq : h'.id = h.id
  assemblies : h.assemblies <+: h'.assemblies
  modules : h.modules <+: h'.modules
  names : h.names <:+ h'.names
  names_new : ∀ e ∈ h'.names, e ∈ h.names ∨ h.assemblies.length ≤ e.2.index
  classes : ∀ c r, h.cls c = .ok r → ∃ r', h'.cls c = .ok r' ∧ r'.pristine = r.pristine

namespace Keeps

lemma rfl' (h : Host) : h.Keeps h :=
  ⟨rfl, List.prefix_rfl, List.prefix_rfl, List.suffix_rfl, fun _ he => .inl he,
    fun _ r hr => ⟨r, hr, rfl⟩⟩

lemma trans (h01 : h.Keeps h₁) (h12 : h₁.Keeps h') : h.Keeps h' := by
  refine ⟨h12.id_eq.trans h01.id_eq, h01.assemblies.trans h12.assemblies,
    h01.modules.trans h12.modules, h01.names.trans h12.names, fun e he => ?_, fun c r hr => ?_⟩
  · have hlen := h01.assemblies.length_le
    rcases h12.names_new e he with he | he
    · exact h01.names_new e he
    · exact .inr (hlen.trans he)
  · obtain ⟨r₁, hr₁, hp₁⟩ := h01.classes c r hr
    obtain ⟨r₂, hr₂, hp₂⟩ := h12.classes c r₁ hr₁
    exact ⟨r₂, hr₂, hp₂.trans hp₁⟩

/-- Only the tables and the names matter. -/
lemma of_eq (hid : h'.id = h.id) (ha : h'.assemblies = h.assemblies) (hm : h'.modules = h.modules)
    (hc : h'.classes = h.classes) (hn : h'.names = h.names) : h.Keeps h' := by
  refine ⟨hid, by rw [ha], by rw [hm], by rw [hn], fun e he => .inl (hn ▸ he), fun c r hr => ?_⟩
  rw [cls_eq_ok_iff] at hr
  exact ⟨r, cls_eq_ok_iff.mpr ⟨hid ▸ hr.1, hc ▸ hr.2⟩, rfl⟩

lemma note (h : Host) (e : JournalEntry) : h.Keeps (h.note e) :=
  of_eq rfl rfl rfl rfl rfl

lemma modifyClass {c : ClassHandle} {f : Class → Class}
    (hf : ∀ r, h.cls c = .ok r → (f r).pristine = r.pristine) : h.Keeps (h.modifyClass c f) := by
  have htab : (h.modifyClass c f).assemblies = h.assemblies ∧
      (h.modifyClass c f).modules = h.modules ∧ (h.modifyClass c f).names = h.names := by
    unfold Host.modifyClass
    split <;> exact ⟨rfl, rfl, rfl⟩
  obtain ⟨ha, hm, hn⟩ := htab
  refine ⟨id_modifyClass c f, by rw [ha], by rw [hm], by rw [hn], fun e he => .inl (hn ▸ he),
    fun x r hr => ?_⟩
  rw [cls_modifyClass]
  by_cases hx : x = c
  · subst hx
    rw [if_pos rfl, hr]
    exact ⟨f r, rfl, hf r hr⟩
  · rw [if_neg hx]
    exact ⟨r, hr, rfl⟩

lemma commit (h : Host) (name : String) (n : NewModule) : h.Keeps (h.commit name n) := by
  refine ⟨rfl, List.prefix_append _ _, List.prefix_append _ _, ?_, fun e he => ?_, fun c r hr =>
    ⟨r, cls_commit_old hr, rfl⟩⟩
  · simp only [Host.commit]
    split
    · exact List.suffix_cons _ _
    · exact (List.suffix_cons _ _).trans (List.suffix_cons _ _)
  · simp only [Host.commit] at he
    split at he
    · rcases List.mem_cons.mp he with rfl | he
      · exact .inr le_rfl
      · exact .inl he
    · rcases List.mem_cons.mp he with rfl | he
      · exact .inr le_rfl
      · rcases List.mem_cons.mp he with rfl | he
        · exact .inr le_rfl
        · exact .inl he

lemma has (hk : h.Keeps h') {c : ClassHandle} (hc : h.Has c) : h'.Has c := by
  obtain ⟨r, hr⟩ := has_iff_cls.mp hc
  obtain ⟨r', hr', -⟩ := hk.classes c r hr
  exact has_iff_cls.mpr ⟨r', hr'⟩

lemma module (hk : h.Keeps h') {mh : ModuleHandle} {m : Module} (hm : h.module mh = .ok m) :
    h'.module mh = .ok m := by
  obtain ⟨ho, hget⟩ := module_eq_ok_iff.mp hm
  exact module_eq_ok_iff.mpr ⟨ho.trans hk.id_eq.symm, getElem?_of_prefix hk.modules hget⟩

/-- What is looked for by full name among classes that exist is found in the same place. -/
lemma findClass (hk : h.Keeps h') {cs : List ClassHandle} (hcs : ∀ c ∈ cs, h.Has c)
    (fullName : String) :
    h'.findClass cs (·.fullName == fullName) = h.findClass cs (·.fullName == fullName) := by
  induction cs with
  | nil => rfl
  | cons c cs ih =>
    obtain ⟨hc, hcs⟩ := List.forall_mem_cons.mp hcs
    obtain ⟨r, hr⟩ := has_iff_cls.mp hc
    obtain ⟨r', hr', hp⟩ := hk.classes c r hr
    have hname := (Class.eq_of_pristine_eq hp).2.2.2.1
    have ih := ih hcs
    rw [← cls?_eq_some_iff] at hr hr'
    simp only [Host.findClass, List.find?_cons, hr, hr', hname, Option.map_some,
      Option.getD_some] at ih ⊢
    rw [ih]

/-- No name has been entered for an assembly that was there. -/
lemma mem_names_iff (hk : h.Keeps h') {i : Nat} (hi : i < h.assemblies.length) (name : String) :
    (name, (⟨h.id, i⟩ : AssemblyHandle)) ∈ h'.names ↔
      (name, (⟨h.id, i⟩ : AssemblyHandle)) ∈ h.names := by
  refine ⟨fun hmem => ?_, fun hmem => hk.names.subset hmem⟩
  rcases hk.names_new _ hmem with hold | hnew
  · exact hold
  · exact absurd hi (Nat.not_lt.mpr hnew)

end Keeps

/-! ## Paths of references -/

/-- A name leads to an assembly of a number below `bound`, whose module is `m`. -/
def Opens (h : Host) (bound : Nat) (target : String) (m : Module) : Prop :=
  ∃ i < bound, (target, (⟨h.id, i⟩ : AssemblyHandle)) ∈ h.names ∧ h.modules[i]? = some m ∧
    ∀ c ∈ m.classes, h.Has c

/-- A type that is searched in an assembly is found there or in one to which it has moved.  The
assemblies on the way have numbers below `bound`. -/
inductive Finds (R : Resolver) (h : Host) (bound : Nat) (space name : String) :
    Nat → String → ClassHandle → Prop
  /-- The assembly defines the type. -/
  | here {steps : Nat} {target : String} {m : Module} {c : ClassHandle}
      (ho : h.Opens bound target m)
      (hc : h.findClass m.classes (·.fullName == inSpace space name) = some c) :
      Finds R h bound space name (steps + 1) target c
  /-- The assembly forwards the type. -/
  | moved {steps : Nat} {target next : String} {m : Module} {c : ClassHandle} {j : Journal}
      (ho : h.Opens bound target m)
      (hc : h.findClass m.classes (·.fullName == inSpace space name) = none)
      (hf : (R.source j m.source).forwarded space name = some next)
      (hnext : Finds R h bound space name steps next c) :
      Finds R h bound space name (steps + 1) target c

/-- A reference into other assemblies leads to a class. -/
inductive Leads (R : Resolver) (h : Host) (bound : Nat) : TypeRef → ClassHandle → Prop
  | external {target space name : String} {c : ClassHandle}
      (hf : h.Finds R bound space name maxForwards target c) :
      Leads R h bound (.external target space name) c
  | nested {outer : TypeRef} {name : String} {o c : ClassHandle} {r : Class} {m : Module}
      (ho : Leads R h bound outer o) (hr : h.cls o = .ok r) (hm : h.module r.module = .ok m)
      (hcs : ∀ c ∈ m.classes, h.Has c)
      (hc : h.findClass m.classes (·.fullName == r.fullName ++ "/" ++ name) = some c) :
      Leads R h bound (.nested outer name) c

lemma Opens.of_keeps {bound' : Nat} {target : String} {m : Module} (ho : h.Opens bound target m)
    (hk : h.Keeps h') (hb : bound ≤ bound') : h'.Opens bound' target m := by
  obtain ⟨i, hi, hname, hm, hcs⟩ := ho
  exact ⟨i, by omega, hk.id_eq ▸ hk.names.subset hname, getElem?_of_prefix hk.modules hm,
    fun c hc => hk.has (hcs c hc)⟩

lemma Opens.has {target : String} {m : Module} (ho : h.Opens bound target m) :
    ∀ c ∈ m.classes, h.Has c := by
  obtain ⟨-, -, -, -, hcs⟩ := ho
  exact hcs

lemma Finds.of_keeps {bound' steps : Nat} {space name target : String} {c : ClassHandle}
    (hf : h.Finds R bound space name steps target c) (hk : h.Keeps h') (hb : bound ≤ bound') :
    h'.Finds R bound' space name steps target c := by
  induction hf with
  | here ho hc => exact .here (ho.of_keeps hk hb) ((hk.findClass ho.has _).trans hc)
  | moved ho hc hf _ ih => exact .moved (ho.of_keeps hk hb) ((hk.findClass ho.has _).trans hc) hf ih

lemma Leads.of_keeps {bound' : Nat} {r : TypeRef} {c : ClassHandle} (hl : h.Leads R bound r c)
    (hk : h.Keeps h') (hb : bound ≤ bound') : h'.Leads R bound' r c := by
  induction hl with
  | external hf => exact .external (hf.of_keeps hk hb)
  | nested _ hr hm hcs hc ih =>
    obtain ⟨r', hr', hp⟩ := hk.classes _ _ hr
    obtain ⟨-, hmod, -, hname, -⟩ := Class.eq_of_pristine_eq hp
    refine .nested ih hr' (hmod ▸ hk.module hm) (fun c hc => hk.has (hcs c hc)) ?_
    rw [hname]
    exact (hk.findClass hcs _).trans hc

lemma Finds.has {steps : Nat} {space name target : String} {c : ClassHandle}
    (hf : h.Finds R bound space name steps target c) : h.Has c := by
  induction hf with
  | here _ hc => exact (findClass_eq_some hc).2
  | moved _ _ _ _ ih => exact ih

lemma Leads.has {r : TypeRef} {c : ClassHandle} (hl : h.Leads R bound r c) : h.Has c := by
  cases hl with
  | external hf => exact hf.has
  | nested _ _ _ _ hc => exact (findClass_eq_some hc).2

end Host

/-! ## Rows that a list of definitions names -/

/-- A reference within a module leads to a row of the module. -/
lemma localRow_lt {defs : List TypeDef} {r : TypeRef} {row : Nat}
    (hr : localRow defs r = .ok row) : row < defs.length := by
  cases r with
  | definition i =>
    rw [localRow] at hr
    split at hr
    · cases hr
      assumption
    · simp at hr
  | external a s n => simp [localRow] at hr
  | nested outer name =>
    rw [localRow] at hr
    rcases ho : localRow defs outer with e | o
    · simp [ho, bind, Except.bind] at hr
    · simp only [ho, bind, Except.bind] at hr
      split at hr
      · rename_i inner hinner
        cases hr
        exact (List.findIdx?_eq_some_iff_getElem.mp hinner).1
      · simp [throw, throwThe, MonadExceptOf.throw] at hr

/-- A type whose enclosers could be followed has one that exists, if it has one at all. -/
lemma encloser_lt_of_qualifiedName {defs : List TypeDef} {d : TypeDef} {name : String}
    (hn : qualifiedName defs d = .ok name) {e : Nat} (he : d.encloser = some e) :
    e < defs.length := by
  rw [qualifiedName, climb, he] at hn
  by_contra hlt
  simp [List.getElem?_eq_none (Nat.not_lt.mp hlt)] at hn

/-- A list is mapped element by element. -/
lemma mapM_eq_ok_iff {α β ε : Type} {f : α → Except ε β} {xs : List α} {ys : List β} :
    xs.mapM f = .ok ys ↔ List.Forall₂ (fun x y => f x = .ok y) xs ys := by
  induction xs generalizing ys with
  | nil =>
    rw [List.mapM_nil, List.forall₂_nil_left_iff]
    exact ⟨fun hm => by cases hm; rfl, fun hm => by rw [hm]; rfl⟩
  | cons x xs ih =>
    rw [List.mapM_cons, List.forall₂_cons_left_iff]
    simp only [← ih]
    cases hx : f x <;> cases hxs : xs.mapM f <;>
      simp [bind, Except.bind, pure, Except.pure, eq_comm]

lemma qualifiedNames_eq_ok {defs : List TypeDef} {names : List String}
    (hn : qualifiedNames defs = .ok names) :
    names.length = defs.length ∧ ∀ d ∈ defs, ∀ e, d.encloser = some e → e < defs.length := by
  have hall := mapM_eq_ok_iff.mp hn
  refine ⟨hall.length_eq.symm, fun d hd e he => ?_⟩
  obtain ⟨row, hrow, rfl⟩ := List.getElem_of_mem hd
  exact encloser_lt_of_qualifiedName (hall.get hrow (hall.length_eq ▸ hrow)) he

/-! ## Modules that are about to be added -/

/-- What the parent of a new class is, given the reference in its definition. -/
inductive NewParent.Answers (R : Resolver) (h : Host) (bound : Nat) (defs : List TypeDef) :
    Option TypeRef → Option NewParent → Prop
  | root : Answers R h bound defs none none
  | own {r : TypeRef} {row : Nat} (hl : r.isLocal) (hr : localRow defs r = .ok row) :
      Answers R h bound defs (some r) (some (.own row))
  | foreign {r : TypeRef} {c : ClassHandle} (hl : r.isLocal = false) (hc : h.Leads R bound r c) :
      Answers R h bound defs (some r) (some (.foreign c))

/-- The definitions from which the classes of a new module are made. -/
def NewModule.definitions (n : NewModule) : List TypeDef :=
  n.classes.map (·.definition)

/-- A new module says what the source found for a name says.  All that its references lead to is in
assemblies of numbers below `bound`. -/
structure NewModule.Describes (n : NewModule) (R : Resolver) (h : Host) (bound : Nat)
    (request : String) : Prop where
  resolved : ∃ j, R.resolve j request = .ok n.source
  reported : ∃ j, (R.source j n.source).assemblyName = n.assemblyName
  counted : ∃ j, (R.source j n.source).typeCount = n.classes.length
  defined : ∀ row d, n.definitions[row]? = some d → ∃ j, (R.source j n.source).typeDef row = .ok d
  named : qualifiedNames n.definitions = .ok (n.classes.map (·.fullName))
  parents : ∀ c ∈ n.classes,
    NewParent.Answers R h bound n.definitions c.definition.parent c.parent

namespace NewParent.Answers

variable {R : Resolver} {h h' : Host} {bound : Nat} {defs : List TypeDef}
  {reference : Option TypeRef} {p : Option NewParent}

lemma of_keeps {bound' : Nat} (ha : NewParent.Answers R h bound defs reference p)
    (hk : h.Keeps h') (hb : bound ≤ bound') : NewParent.Answers R h' bound' defs reference p := by
  cases ha with
  | root => exact .root
  | own hl hr => exact .own hl hr
  | foreign hl hc => exact .foreign hl (hc.of_keeps hk hb)

lemma own_lt (ha : NewParent.Answers R h bound defs reference p) {row : Nat}
    (hp : p = some (.own row)) : row < defs.length := by
  cases ha with
  | root => cases hp
  | own hl hr =>
    cases hp
    exact localRow_lt hr
  | foreign hl hc => cases hp

lemma foreign_has (ha : NewParent.Answers R h bound defs reference p) {c : ClassHandle}
    (hp : p = some (.foreign c)) : h.Has c := by
  cases ha with
  | root => cases hp
  | own hl hr => cases hp
  | foreign hl hc =>
    cases hp
    exact hc.has

end NewParent.Answers

namespace NewModule.Describes

variable {n : NewModule} {R : Resolver} {h h' : Host} {bound : Nat} {request : String}

lemma of_keeps (hd : n.Describes R h bound request) (hk : h.Keeps h') :
    n.Describes R h' bound request :=
  ⟨hd.resolved, hd.reported, hd.counted, hd.defined, hd.named,
    fun c hc => (hd.parents c hc).of_keeps hk le_rfl⟩

/-- What a source says about a module was checked so far that the module can be added. -/
lemma fits (hd : n.Describes R h bound request) : n.Fits h := by
  obtain ⟨-, henc⟩ := qualifiedNames_eq_ok hd.named
  have hlen : n.definitions.length = n.classes.length := List.length_map _
  intro c hc
  have hdef : c.definition ∈ n.definitions := List.mem_map_of_mem hc
  have hp := hd.parents c hc
  exact ⟨fun e he => hlen ▸ henc _ hdef e he, fun row hrow => hlen ▸ hp.own_lt hrow,
    fun x hx => hp.foreign_has hx⟩

end NewModule.Describes

/-! ## Images -/

namespace Host

variable {R : Resolver} {h h' : Host} {i : Nat} {request : String} {n : NewModule}

/-- The assembly of number `i` is the image of a module that was asked for under a name. -/
structure Embodies (h : Host) (R : Resolver) (i : Nat) (request : String) (n : NewModule) :
    Prop where
  describes : n.Describes R h i request
  assembly : h.assemblies[i]? = some ⟨⟨h.id, i⟩, n.assemblyName, ⟨h.id, i⟩⟩
  /-- The classes of the module stand one after the other in the table of classes. -/
  module : ∃ base m, h.modules[i]? = some m ∧ m.source = n.source ∧
    m.classes = (List.range n.classes.length).map (fun row => ⟨h.id, base + row⟩) ∧
    ∀ row c, n.classes[row]? = some c → ∃ r, h.cls ⟨h.id, base + row⟩ = .ok r ∧
      r.pristine = c.record h.id base ⟨h.id, i⟩ row
  /-- The assembly goes by the name that was asked for and by the name that its source reports. -/
  names : ∀ name, (name, (⟨h.id, i⟩ : AssemblyHandle)) ∈ h.names ↔
    name = request ∨ name = n.assemblyName

lemma Embodies.lt (he : h.Embodies R i request n) : i < h.assemblies.length :=
  (List.getElem?_eq_some_iff.mp he.assembly).1

/-- An image stays what it is. -/
lemma Embodies.of_keeps (he : h.Embodies R i request n) (hk : h.Keeps h') :
    h'.Embodies R i request n := by
  have hid := hk.id_eq
  refine ⟨he.describes.of_keeps hk, hid ▸ getElem?_of_prefix hk.assemblies he.assembly, ?_,
    fun name => ?_⟩
  · obtain ⟨base, m, hm, hs, hcs, hrec⟩ := he.module
    refine ⟨base, m, getElem?_of_prefix hk.modules hm, hs, hid ▸ hcs, fun row c hc => ?_⟩
    obtain ⟨r, hr, hp⟩ := hrec row c hc
    obtain ⟨r', hr', hp'⟩ := hk.classes _ r hr
    exact ⟨r', hid ▸ hr', hid ▸ hp'.trans hp⟩
  · rw [hid, ← he.names name]
    exact hk.mem_names_iff he.lt name

/-- Adding a module that says what its source says makes an image of it. -/
lemma embodies_commit (hw : h.Wellformed) (hd : n.Describes R h h.assemblies.length request) :
    (h.commit request n).Embodies R h.assemblies.length request n := by
  have hlen := hw.length_modules
  refine ⟨hd.of_keeps (.commit h request n), ?_, ?_, fun name => ?_⟩
  · simp [Host.commit, hlen]
  · refine ⟨h.classes.length, _, hlen ▸ List.getElem?_concat_length, rfl, rfl, fun row c hc => ?_⟩
    exact ⟨_, cls_commit_new request hc, by rw [hlen]; rfl⟩
  · -- no name led to the number of the new assembly before
    have hold : ∀ name, (name, (⟨h.id, h.assemblies.length⟩ : AssemblyHandle)) ∉ h.names :=
      fun name hmem => lt_irrefl _ (hw.of_name _ hmem).2
    simp only [Host.commit]
    split
    · rename_i heq
      simp [hold, heq]
    · simp [hold]

/-- Every assembly is an image. -/
def Pictured (R : Resolver) (h : Host) : Prop :=
  ∀ i < h.assemblies.length, ∃ request n, h.Embodies R i request n

lemma Pictured.of_keeps (hp : h.Pictured R) (hk : h.Keeps h')
    (hlen : h'.assemblies.length = h.assemblies.length) : h'.Pictured R := by
  intro i hi
  obtain ⟨request, n, he⟩ := hp i (hlen ▸ hi)
  exact ⟨request, n, he.of_keeps hk⟩

lemma Pictured.commit (hp : h.Pictured R) (hw : h.Wellformed)
    (hd : n.Describes R h h.assemblies.length request) : (h.commit request n).Pictured R := by
  intro i hi
  rw [length_assemblies_commit] at hi
  rcases Nat.lt_succ_iff_lt_or_eq.mp hi with hlt | rfl
  · obtain ⟨request', n', he⟩ := hp i hlt
    exact ⟨request', n', he.of_keeps (.commit h request n)⟩
  · exact ⟨request, n, embodies_commit hw hd⟩

end Host

end ManagedHost
