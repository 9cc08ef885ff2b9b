/-
# What loading does to a host

Loading puts questions to the resolver and to sources, and it adds modules that say what their
sources say; nothing else.  Every load, however deep it nests, is a sequence of these steps
(`Host.LoadChange`), and what follows from the steps alone is collected in `Host.Extends`: all
tables are continued, everything else is kept.

Which assemblies a load adds is more than the steps tell.  A name is asked for on behalf of one
assembly at most, and not at all while it is known or its own load is under way.
`Host.Loads` is the relation between the states before and after loads that have ended, with
this history; it is a preorder.
-/
import Mathlib.Logic.Relation
import ManagedHost.Proofs.Images

namespace ManagedHost

/-- The journal notes a question to the resolver, or to a source about a type that has not been
loaded. -/
def JournalEntry.IsQuestion : JournalEntry → Prop
  | .resolved _ => True
  | .asked _ _ _ none => True
  | _ => False

namespace Host

variable {w : World} {h h₁ h' : Host}

/-! ## The steps -/

/-- One step of loading. -/
inductive LoadChange (w : World) : Host → Host → Prop
  /-- A question is put to the outside. -/
  | question (h : Host) (e : JournalEntry) (he : e.IsQuestion) : LoadChange w h (h.note e)
  /-- A module is added, which says what its source says. -/
  | commit (h : Host) (name : String) (n : NewModule)
      (hd : n.Describes w.resolver h h.assemblies.length name) : LoadChange w h (h.commit name n)

/-- The tables are continued, and everything else is kept. -/
structure Extends (h h' : Host) : Prop where
  id_eq : h'.id = h.id
  config_eq : h'.config = h.config
  pending_eq : h'.pending = h.pending
  corlib_eq : h'.corlib = h.corlib
  natives_eq : h'.natives = h.natives
  libraries_eq : h'.libraries = h.libraries
  assemblies : h.assemblies <+: h'.assemblies
  modules : h.modules <+: h'.modules
  classes : h.classes <+: h'.classes
  names : h.names <:+ h'.names
  /-- Nothing has been derived of a class that was not there, and its initializer has not been
  asked for. -/
  fresh : ∀ c r, h'.cls c = .ok r → h.Has c ∨ r.pristine = r
  /-- Only questions were noted. -/
  journal : ∃ new, h'.journal = new ++ h.journal ∧ ∀ e ∈ new, e.IsQuestion

namespace Extends

lemma rfl' (h : Host) : h.Extends h :=
  ⟨rfl, rfl, rfl, rfl, rfl, rfl, List.prefix_rfl, List.prefix_rfl, List.prefix_rfl,
    List.suffix_rfl, fun _ r hr => .inl (has_iff_cls.mpr ⟨r, hr⟩), [], rfl, by simp⟩

lemma cls (he : h.Extends h') {c : ClassHandle} {r : Class} (hr : h.cls c = .ok r) :
    h'.cls c = .ok r := by
  obtain ⟨ho, hget⟩ := cls_eq_ok_iff.mp hr
  exact cls_eq_ok_iff.mpr ⟨ho.trans he.id_eq.symm, getElem?_of_prefix he.classes hget⟩

lemma trans (h01 : h.Extends h₁) (h12 : h₁.Extends h') : h.Extends h' := by
  obtain ⟨new₁, hj₁, hq₁⟩ := h01.journal
  obtain ⟨new₂, hj₂, hq₂⟩ := h12.journal
  refine ⟨h12.id_eq.trans h01.id_eq, h12.config_eq.trans h01.config_eq,
    h12.pending_eq.trans h01.pending_eq, h12.corlib_eq.trans h01.corlib_eq,
    h12.natives_eq.trans h01.natives_eq, h12.libraries_eq.trans h01.libraries_eq,
    h01.assemblies.trans h12.assemblies, h01.modules.trans h12.modules,
    h01.classes.trans h12.classes, h01.names.trans h12.names, ?_, ?_⟩
  · intro c r hr
    rcases h12.fresh c r hr with hc | hi
    · obtain ⟨r₁, hr₁⟩ := has_iff_cls.mp hc
      have hr' := h12.cls hr₁
      rw [hr] at hr'
      cases hr'
      exact h01.fresh c r hr₁
    · exact .inr hi
  · refine ⟨new₂ ++ new₁, by rw [hj₂, hj₁, List.append_assoc], fun e he => ?_⟩
    rcases List.mem_append.mp he with he | he
    · exact hq₂ e he
    · exact hq₁ e he

end Extends

lemma LoadChange.extends (hc : LoadChange w h h') : h.Extends h' := by
  cases hc with
  | question e he =>
    exact { Extends.rfl' h with
      fresh := fun _ r hr => .inl (has_iff_cls.mpr ⟨r, hr⟩)
      journal := ⟨[e], rfl, by simpa using he⟩ }
  | commit name n hd =>
    have hk := Keeps.commit h name n
    refine ⟨rfl, rfl, rfl, rfl, rfl, rfl, hk.assemblies, hk.modules, List.prefix_append _ _,
      hk.names, ?_, [], rfl, by simp⟩
    · intro c r hr
      obtain ⟨ho, hget⟩ := cls_eq_ok_iff.mp hr
      rw [Host.commit, List.getElem?_append] at hget
      split at hget
      · exact .inl ⟨ho, ‹_›⟩
      · simp only [List.getElem?_map, Option.map_eq_some_iff] at hget
        obtain ⟨p, -, rfl⟩ := hget
        exact .inr rfl

lemma LoadChange.wellformed (hc : LoadChange w h h') (hw : h.Wellformed) : h'.Wellformed := by
  cases hc with
  | question e _ => exact hw.note e
  | commit name n hd => exact hw.commit name hd.fits

lemma LoadChange.keeps (hc : LoadChange w h h') : h.Keeps h' := by
  cases hc with
  | question e _ => exact .note h e
  | commit name n _ => exact .commit h name n

/-- Assemblies are added as images of their sources. -/
lemma LoadChange.pictured (hc : LoadChange w h h') (hw : h.Wellformed)
    (hp : h.Pictured w.resolver) : h'.Pictured w.resolver := by
  cases hc with
  | question e _ => exact hp.of_keeps (.note h e) rfl
  | commit name n hd => exact hp.commit hw hd

lemma extends_of_loadChanges (hc : Relation.ReflTransGen (LoadChange w) h h') :
    h.Extends h' := by
  induction hc with
  | refl => exact .rfl' h
  | tail _ hstep ih => exact ih.trans hstep.extends

lemma wellformed_of_loadChanges (hc : Relation.ReflTransGen (LoadChange w) h h')
    (hw : h.Wellformed) : h'.Wellformed := by
  induction hc with
  | refl => exact hw
  | tail _ hstep ih => exact hstep.wellformed ih

lemma keeps_of_loadChanges (hc : Relation.ReflTransGen (LoadChange w) h h') : h.Keeps h' := by
  induction hc with
  | refl => exact .rfl' h
  | tail _ hstep ih => exact ih.trans hstep.keeps

lemma pictured_of_loadChanges (hc : Relation.ReflTransGen (LoadChange w) h h')
    (hw : h.Wellformed) (hp : h.Pictured w.resolver) : h'.Pictured w.resolver := by
  induction hc with
  | refl => exact hp
  | tail hsteps hstep ih => exact hstep.pictured (wellformed_of_loadChanges hsteps hw) ih

/-- The steps of loading do not look at the names whose load is under way. -/
lemma LoadChange.setPending (hc : LoadChange w h h') (ps : List String) :
    LoadChange w { h with pending := ps } { h' with pending := ps } := by
  cases hc with
  | question e he => exact .question { h with pending := ps } e he
  | commit name n hd =>
    exact .commit { h with pending := ps } name n (hd.of_keeps (.of_eq rfl rfl rfl rfl rfl))

lemma loadChanges_setPending (hc : Relation.ReflTransGen (LoadChange w) h h')
    (ps : List String) :
    Relation.ReflTransGen (LoadChange w) { h with pending := ps } { h' with pending := ps } :=
  hc.lift (fun g => { g with pending := ps }) fun _ _ hstep => hstep.setPending ps

/-! ## Names and the requests behind them -/

/-- The name under which an assembly was asked for: of the names that lead to it, the one that
was entered last. -/
def requestOf (h : Host) (a : AssemblyHandle) : Option String :=
  (h.names.find? (·.2 = a)).map (·.1)

lemma findAssembly_eq_none_iff {name : String} :
    h.findAssembly name = none ↔ ∀ e ∈ h.names, e.1 ≠ name := by
  rw [findAssembly, List.lookup_eq_none_iff]
  constructor
  · intro hall e he heq
    simpa [heq] using hall e he
  · intro hall e he
    simpa using fun heq : name = e.1 => hall e he heq.symm

lemma mem_names_of_findAssembly {name : String} {a : AssemblyHandle}
    (hn : h.findAssembly name = some a) : (name, a) ∈ h.names := by
  obtain ⟨l₁, l₂, hnames, -⟩ := List.lookup_eq_some_iff.mp hn
  simp [hnames]

/-- A name that was asked for is known. -/
lemma findAssembly_ne_none_of_requestOf {a : AssemblyHandle} {name : String}
    (hr : h.requestOf a = some name) : h.findAssembly name ≠ none := by
  obtain ⟨e, he, rfl⟩ := Option.map_eq_some_iff.mp hr
  intro hnone
  exact findAssembly_eq_none_iff.mp hnone e (List.mem_of_find?_eq_some he) rfl

/-- The names that adding a module enters. -/
lemma findAssembly_commit (name other : String) (n : NewModule) :
    (h.commit name n).findAssembly other =
      if other = name ∨ other = n.assemblyName then some h.nextAssembly
      else h.findAssembly other := by
  simp only [findAssembly, commit, nextAssembly]
  by_cases ho : other = name
  · subst ho
    split <;> simp
  · have hb : (other == name) = false := by simpa using ho
    by_cases hsame : name = n.assemblyName
    · rw [if_pos hsame, ← hsame]
      simp [ho, List.lookup_cons, hb]
    · rw [if_neg hsame]
      by_cases ho' : other = n.assemblyName
      · subst ho'
        simp [List.lookup_cons, hb]
      · have hb' : (other == n.assemblyName) = false := by simpa using ho'
        simp [ho, ho', List.lookup_cons, hb, hb']

lemma requestOf_commit_new (name : String) (n : NewModule) :
    (h.commit name n).requestOf ⟨h.id, h.assemblies.length⟩ = some name := by
  simp only [requestOf, commit]
  split <;> simp

lemma requestOf_commit_old (name : String) (n : NewModule) {a : AssemblyHandle}
    (ha : a.index < h.assemblies.length) : (h.commit name n).requestOf a = h.requestOf a := by
  have hne : ⟨h.id, h.assemblies.length⟩ ≠ a := by
    rintro rfl
    exact lt_irrefl _ ha
  simp only [requestOf, commit]
  split <;> simp [hne]

lemma LoadChange.requestOf (hc : LoadChange w h h') {a : AssemblyHandle}
    (ha : a.index < h.assemblies.length) : h'.requestOf a = h.requestOf a := by
  cases hc with
  | question e _ => rfl
  | commit name n _ => exact requestOf_commit_old name n ha

/-- What an assembly was asked for as does not change. -/
lemma requestOf_of_loadChanges (hc : Relation.ReflTransGen (LoadChange w) h h')
    {a : AssemblyHandle} (ha : a.index < h.assemblies.length) : h'.requestOf a = h.requestOf a := by
  induction hc with
  | refl => rfl
  | tail hsteps hstep ih =>
    have hlen := (extends_of_loadChanges hsteps).assemblies.length_le
    rw [hstep.requestOf (by omega), ih]

/-- A name that is known stays known. -/
lemma Extends.findAssembly_eq_none (he : h.Extends h') {name : String}
    (hn : h'.findAssembly name = none) : h.findAssembly name = none := by
  rw [findAssembly_eq_none_iff] at hn ⊢
  exact fun e hmem => hn e (he.names.subset hmem)

/-! ## Loads that have ended -/

/-- An assembly of `h'` was added by the load of a name, which began in a state that continues
`h` and ended in one that `h'` continues. -/
def AddedBy (w : World) (h h' : Host) (a : AssemblyHandle) (name : String) : Prop :=
  ∃ depth h₁ h₂, Op.loadWithin depth name w h₁ = (.ok a, h₂) ∧
    h.assemblies <+: h₁.assemblies ∧ h₁.assemblies.length ≤ a.index ∧
    h₂.assemblies <+: h'.assemblies ∧ a.index < h₂.assemblies.length

/-- `h'` arises from `h` by loads that have ended, successfully or not. -/
structure Loads (w : World) (h h' : Host) : Prop where
  changes : Relation.ReflTransGen (LoadChange w) h h'
  /-- Every assembly that was added is that of a name which was not known before and whose load
  was not under way, and a load of this name added it. -/
  requests : ∀ i, h.assemblies.length ≤ i → i < h'.assemblies.length →
    ∃ name, h'.requestOf ⟨h.id, i⟩ = some name ∧ name ∉ h.pending ∧
      h.findAssembly name = none ∧ AddedBy w h h' ⟨h.id, i⟩ name
  /-- No two assemblies were added for one name. -/
  distinct : ∀ i j, h.assemblies.length ≤ i → i < j → j < h'.assemblies.length →
    h'.requestOf ⟨h.id, i⟩ ≠ h'.requestOf ⟨h.id, j⟩

namespace Loads

lemma toExtends (hl : h.Loads w h') : h.Extends h' :=
  extends_of_loadChanges hl.changes

lemma wellformed (hl : h.Loads w h') (hw : h.Wellformed) : h'.Wellformed :=
  wellformed_of_loadChanges hl.changes hw

/-- What every change keeps is kept. -/
lemma preserves {P : Host → Prop} (hl : h.Loads w h') (hw : h.Wellformed)
    (hstep : ∀ g g', LoadChange w g g' → g.Wellformed → P g → P g') (hp : P h) : P h' := by
  obtain ⟨hchanges, -, -⟩ := hl
  induction hchanges with
  | refl => exact hp
  | tail hbefore hlast ih => exact hstep _ _ hlast (wellformed_of_loadChanges hbefore hw) ih

lemma keeps (hl : h.Loads w h') : h.Keeps h' :=
  keeps_of_loadChanges hl.changes

lemma question (w : World) (h : Host) {e : JournalEntry} (he : e.IsQuestion) :
    h.Loads w (h.note e) := by
  refine ⟨.single (.question h e he), fun i hi hlt => ?_, fun i j hi hij hlt => ?_⟩
  · exact absurd hlt (Nat.not_lt.mpr hi)
  · exact absurd hlt (Nat.not_lt.mpr (hi.trans hij.le))

lemma rfl' (w : World) (h : Host) : h.Loads w h := by
  refine ⟨.refl, fun i hi hlt => ?_, fun i j hi hij hlt => ?_⟩
  · exact absurd hlt (Nat.not_lt.mpr hi)
  · exact absurd hlt (Nat.not_lt.mpr (hi.trans hij.le))

lemma trans (h01 : h.Loads w h₁) (h12 : h₁.Loads w h') : h.Loads w h' := by
  have e01 := h01.toExtends
  have e12 := h12.toExtends
  have hold : ∀ i, i < h₁.assemblies.length →
      h'.requestOf ⟨h.id, i⟩ = h₁.requestOf ⟨h.id, i⟩ :=
    fun i hi => requestOf_of_loadChanges h12.changes hi
  refine ⟨h01.changes.trans h12.changes, fun i hi hlt => ?_, fun i j hi hij hlt => ?_⟩
  · rcases Nat.lt_or_ge i h₁.assemblies.length with hi₁ | hi₁
    · obtain ⟨name, hreq, hpend, hnone, d, g₁, g₂, hrun, hpre, hle, hpost, hlt'⟩ :=
        h01.requests i hi hi₁
      exact ⟨name, (hold i hi₁).trans hreq, hpend, hnone, d, g₁, g₂, hrun, hpre, hle,
        hpost.trans e12.assemblies, hlt'⟩
    · obtain ⟨name, hreq, hpend, hnone, d, g₁, g₂, hrun, hpre, hle, hpost, hlt'⟩ :=
        h12.requests i hi₁ hlt
      rw [e01.id_eq] at hreq hrun
      exact ⟨name, hreq, e01.pending_eq ▸ hpend, e01.findAssembly_eq_none hnone, d, g₁, g₂,
        hrun, e01.assemblies.trans hpre, hle, hpost, hlt'⟩
  · rcases Nat.lt_or_ge j h₁.assemblies.length with hj₁ | hj₁
    · rw [hold i (hij.trans hj₁), hold j hj₁]
      exact h01.distinct i j hi hij hj₁
    · rcases Nat.lt_or_ge i h₁.assemblies.length with hi₁ | hi₁
      · -- the name of `j` was unknown when that of `i` had been entered
        obtain ⟨name, hreq, -⟩ := h01.requests i hi hi₁
        obtain ⟨name', hreq', -, hnone, -⟩ := h12.requests j hj₁ hlt
        rw [e01.id_eq] at hreq'
        rw [hold i hi₁, hreq, hreq']
        rintro ⟨⟩
        exact findAssembly_ne_none_of_requestOf hreq hnone
      · have hd := h12.distinct i j hi₁ hij hlt
        rwa [e01.id_eq] at hd

instance (w : World) : IsPreorder Host (Loads w) where
  refl := rfl' w
  trans _ _ _ := Loads.trans

end Loads

end Host

end ManagedHost
