/-
# The history of loads

Loads happen in the middle of other things: a command loads assemblies between the questions it
asks and the facets it fills in, and a load asks for further loads before it ends.  `Underway h`
says that a run can pass through the state `h`, also there.

The main results say what a load leaves behind, wherever it happens and however it ends, and what
becomes of the meaning of a name while a run goes on.

* `readNew_congr`: the loads that a load asks for are asked for in such states.
* `load_of_underway`: loads continue the tables, restore the list of loads under way, and leave no
  trace of a request that failed.
* `findAssembly_of_later`: a name keeps its meaning exactly as long as no assembly is added whose
  source reports this name.
-/
import Mathlib.Data.List.Nodup
import ManagedHost.Proofs.Reached

namespace ManagedHost

open Op

variable {w : World} {fs : List Frame} {h h₁ h' : Host} {name : String}

/-! ## States within commands and within loads -/

/-- A run can pass through this state, possibly in the middle of commands and loads. -/
inductive Underway : Host → Prop
  /-- The state of a point of the run. -/
  | reached {fs : List Frame} {h : Host} (hr : Reached fs h) : Underway h
  /-- Within a command, questions have been asked, loads have ended or a facet has been filled
  in. -/
  | learned {w : World} {K : List Facet} {h h' : Host} (hu : Underway h)
      (hl : Host.LearnChange w K h h') : Underway h'
  /-- A load has begun, of a name that is not known and whose load is not under way. -/
  | requested {h : Host} {name : String} (hu : Underway h) (hn : h.findAssembly name = none)
      (hp : name ∉ h.pending) : Underway (h.beginLoad name)

namespace Underway

lemma wellformed (hu : Underway h) : h.Wellformed := by
  induction hu with
  | reached hr => exact hr.sound.settled.wellformed
  | learned _ hl ih => exact hl.wellformed ih
  | requested _ _ _ ih => exact ih.congr rfl rfl rfl rfl rfl

/-- The list of loads under way is kept by everything but the start of a load, which adds a name
that is not in it. -/
lemma nodup_pending (hu : Underway h) : h.pending.Nodup := by
  induction hu with
  | reached hr =>
    rw [hr.sound.settled.pending_eq]
    exact List.nodup_nil
  | @learned w K h h' _ hl ih =>
    have heq : h'.pending = h.pending := by
      rcases (Host.RunChange.learns hl).loads_or_sameNames with hl | hn
      · exact hl.toExtends.pending_eq
      · exact hn.pending_eq
    rw [heq]
    exact ih
  | requested _ _ hp ih =>
    exact List.nodup_append.mpr ⟨ih, List.nodup_singleton _, fun x hx y hy heq =>
      hp (List.mem_singleton.mp hy ▸ heq ▸ hx)⟩

lemma requested_of (hu : Underway h) : h.Requested := by
  induction hu with
  | reached hr => exact hr.sound.settled.requested
  | learned _ hl ih =>
    rcases (Host.RunChange.learns hl).loads_or_sameNames with hl | hn
    · exact ih.of_loads hl
    · exact ih.of_sameNames hn
  | requested _ _ _ ih => exact ⟨ih.request, ih.distinct⟩

end Underway

/-! ## Loads within a load -/

section Within

variable {depth : Nat} {load : String → Op AssemblyHandle}

/-- A way to load assemblies that does what the host does in all states through which a run can
pass; elsewhere it may do anything. -/
def AgreesUnderway (w : World) (depth : Nat) (load : String → Op AssemblyHandle) : Prop :=
  ∀ name h, Underway h → load name w h = loadWithin depth name w h

/-- An operation that keeps to the relation of loads leads from states of a run to states of a
run. -/
lemma Underway.of_obeys {α : Type} {x : Op α} {Q : α → Host → Prop} (hu : Underway h)
    (hx : x.Obeys w (Host.Loads w) h Q) {a : α} (hrun : x w h = (.ok a, h')) : Underway h' :=
  hu.learned (K := []) (.loads (hx.of_ok hrun).1)

lemma search_congr (ha : AgreesUnderway w depth load) (space name : String) (steps : Nat)
    (target : String) (hu : Underway h) :
    search load space name steps target w h =
      search (loadWithin depth) space name steps target w h := by
  induction steps generalizing h target with
  | zero => rfl
  | succ steps ih =>
    unfold search
    refine bind_run_congr (ha target h hu) fun a h₁ hload => ?_
    have hu₁ := hu.of_obeys (isLoader_loadWithin w depth target h hu.wellformed) hload
    refine bind_run_congr rfl fun record h₂ hrec => ?_
    obtain ⟨rfl, -⟩ := (obeys_assembly (R := Eq) a).of_ok hrec
    refine bind_run_congr rfl fun m h₃ hmod => ?_
    obtain ⟨rfl, -⟩ := (obeys_module (R := Eq) record.module).of_ok hmod
    refine bind_run_congr rfl fun g h₄ hhost => ?_
    cases hhost
    cases h₁.findClass m.classes (·.fullName == inSpace space name) with
    | some c => rfl
    | none =>
      refine bind_run_congr rfl fun v h₅ hworld => ?_
      cases hworld
      cases (w.source h₁.journal m.source).forwarded space name with
      | some next => exact ih next hu₁
      | none => rfl

lemma resolveWith_congr (ha : AgreesUnderway w depth load) (origin : Option Module) (r : TypeRef)
    (hu : Underway h) :
    resolveWith load origin r w h = resolveWith (loadWithin depth) origin r w h := by
  induction r with
  | definition row => rfl
  | external target space name => exact search_congr ha space name maxForwards target hu
  | nested outer name ih => exact bind_run_congr ih fun _ _ _ => rfl

lemma newParent_congr (ha : AgreesUnderway w depth load) (defs : List TypeDef) (d : TypeDef)
    (hu : Underway h) :
    newParent load defs d w h = newParent (loadWithin depth) defs d w h := by
  unfold newParent
  cases d.parent with
  | none => rfl
  | some r =>
    by_cases hr : r.isLocal
    · simp only [hr, if_true]
    · simp only [hr]
      exact bind_run_congr (resolveWith_congr ha none r hu) fun _ _ _ => rfl

lemma newParents_congr (ha : AgreesUnderway w depth load) (defs ds : List TypeDef)
    (hu : Underway h) :
    each (newParent load defs) ds w h = each (newParent (loadWithin depth) defs) ds w h := by
  induction ds generalizing h with
  | nil => simp only [each]
  | cons d ds ih =>
    simp only [each]
    refine bind_run_congr (newParent_congr ha defs d hu) fun p h₁ hp => ?_
    have hobeys := newParent_obeys (isLoader_loadWithin w depth) defs d hu.wellformed
    exact bind_run_congr (ih (hu.of_obeys hobeys hp)) fun _ _ _ => rfl

/-- The loads that a load asks for are asked for in states through which the run passes. -/
theorem readNew_congr (ha : AgreesUnderway w depth load) (hu : Underway h)
    (hn : h.findAssembly name = none) (hp : name ∉ h.pending) :
    readNew load name w (h.beginLoad name) =
      readNew (loadWithin depth) name w (h.beginLoad name) := by
  have hu₀ := hu.requested hn hp
  refine bind_run_congr rfl fun _ h₁ hnote => ?_
  cases hnote
  have hu₁ : Underway ((h.beginLoad name).note (.resolved name)) :=
    hu₀.learned (K := []) (.loads (.question w _ trivial))
  iterate 2
    refine bind_run_congr rfl fun _ _ hlook => ?_
    cases hlook
  refine bind_run_congr rfl fun source h₂ hsource => ?_
  obtain ⟨rfl, -⟩ := (obeys_liftM (R := Eq) _).of_ok hsource
  unfold readModule
  iterate 2
    refine bind_run_congr rfl fun _ _ hlook => ?_
    cases hlook
  refine bind_run_congr rfl fun defs h₃ hdefs => ?_
  have hu₃ := hu₁.of_obeys (typeDefs_obeys source _ 0) hdefs
  refine bind_run_congr rfl fun names h₄ hnames => ?_
  obtain ⟨rfl, -⟩ := (obeys_liftM (R := Eq) _).of_ok hnames
  exact bind_run_congr (newParents_congr ha defs defs hu₃) fun _ _ _ => rfl

end Within

/-! ## What a load leaves behind -/

/-- The load of a name, wherever it happens in a run:

* the loads under way are all of different names, and no two assemblies have been added for
  requests of the same name;
* however the load ends, the tables are continued, and the list of loads under way is what it was;
* when it succeeds, the name leads to the assembly it answers with, and if the name was not known
  before, then the resolver has answered with a source for it, from which the module of the assembly
  comes, and the name that this source reports leads to the assembly as well;
* when it fails, every assembly that has been added was added by the load of another name, which
  began and ended within this one and succeeded. -/
theorem load_of_underway (hu : Underway h) (w : World) (depth : Nat) (name : String) :
    h.pending.Nodup ∧
    (∀ i j, i < h.assemblies.length → j < h.assemblies.length →
      h.requestOf ⟨h.id, i⟩ = h.requestOf ⟨h.id, j⟩ → i = j) ∧
    (∀ i < h.assemblies.length, ∃ request, h.requestOf ⟨h.id, i⟩ = some request) ∧
    ∀ answer h', loadWithin depth name w h = (answer, h') → answer ≠ .error .lost →
      h.assemblies <+: h'.assemblies ∧ h.modules <+: h'.modules ∧ h.classes <+: h'.classes ∧
      h'.pending = h.pending ∧
      (∀ a, answer = .ok a → h'.findAssembly name = some a ∧
        (h.findAssembly name = none →
          ∃ source record m, w.resolve (.resolved name :: h.journal) name = .ok source ∧
            h'.assembly a = .ok record ∧ h'.module record.module = .ok m ∧ m.source = source ∧
            record.name = (w.source h'.journal source).assemblyName ∧
            h'.findAssembly record.name = some a)) ∧
      ∀ e, answer = .error (.failed e) → ∀ i, h.assemblies.length ≤ i →
        i < h'.assemblies.length → ∃ other, other ≠ name ∧
          h'.requestOf ⟨h.id, i⟩ = some other ∧ Host.AddedBy w h h' ⟨h.id, i⟩ other := by
  have hreq := hu.requested_of
  have hw := hu.wellformed
  have hobeys := isLoader_loadWithin w depth name h hw
  refine ⟨hu.nodup_pending, fun i j hi hj heq => hreq.eq_of_requestOf_eq hi hj heq, hreq.request,
    fun answer h' hrun hlost => ?_⟩
  have hloads : h.Loads w h' := by
    have hrel := hobeys.rel
    rw [hrun] at hrel
    exact hrel hlost
  have hext := hloads.toExtends
  refine ⟨hext.assemblies, hext.modules, hext.classes, hext.pending_eq, ?_, ?_⟩
  · rintro a rfl
    exact ⟨(hobeys.of_ok hrun).2, fun hnone => reported_of_loadWithin_ok hnone hrun⟩
  · rintro e rfl i hi hlt
    obtain ⟨other, hother, -, -, hadded⟩ := hloads.requests i hi hlt
    refine ⟨other, ?_, hother, hadded⟩
    rintro rfl
    exact requestOf_ne_of_loadWithin_failed hw hrun hi hlt hother

namespace Specimen

/-- The host that tries to load `C`. -/
def hostAfterC : Host :=
  (loadWithin 3 "C" setup.world setup.firstHost).2

/-- The host that has loaded `B`. -/
def hostWithB : Host :=
  (loadWithin 3 "B" setup.world setup.firstHost).2

lemma load_C : loadWithin 3 "C" setup.world setup.firstHost =
    (.error (.failed (.typeNotFound "N.U in assembly A")), hostAfterC) :=
  Prod.ext (by decide +kernel) rfl

lemma load_B : loadWithin 3 "B" setup.world setup.firstHost = (.ok ⟨1, 1⟩, hostWithB) :=
  Prod.ext (by decide +kernel) rfl

end Specimen

open Specimen in
/-- The load of `C` fails after it has loaded `A`.  The load of `B` succeeds, and `A`, which the
source of `B` reports as its name, leads to the new assembly from then on. -/
theorem load_of_underway_specimen :
    Underway setup.firstHost ∧
    (∃ e, loadWithin 3 "C" setup.world setup.firstHost = (.error (.failed e), hostAfterC) ∧
      hostAfterC.assemblies.map (·.name) = ["mscorlib", "A"] ∧
      ∃ other, other ≠ "C" ∧ hostAfterC.requestOf ⟨1, 1⟩ = some other ∧
        Host.AddedBy setup.world setup.firstHost hostAfterC ⟨1, 1⟩ other) ∧
    loadWithin 3 "B" setup.world setup.firstHost = (.ok ⟨1, 1⟩, hostWithB) ∧
    setup.firstHost.findAssembly "A" = none ∧ setup.firstHost.findAssembly "B" = none ∧
    hostWithB.findAssembly "B" = some ⟨1, 1⟩ ∧
    ∃ record, hostWithB.assembly ⟨1, 1⟩ = .ok record ∧ record.name = "A" ∧
      hostWithB.findAssembly "A" = some ⟨1, 1⟩ := by
  have hu : Underway setup.firstHost := .reached reached_firstHost
  have hB : setup.firstHost.findAssembly "B" = none := by decide +kernel
  refine ⟨hu, ⟨_, load_C, by decide +kernel, ?_⟩, load_B, by decide +kernel, hB, ?_⟩
  · obtain ⟨-, -, -, hload⟩ := load_of_underway hu setup.world 3 "C"
    obtain ⟨-, -, -, -, -, hfailed⟩ := hload _ _ load_C (by simp)
    have hnew := hfailed _ rfl 1 (by decide +kernel) (by decide +kernel)
    rwa [show setup.firstHost.id = 1 by decide +kernel] at hnew
  · obtain ⟨-, -, -, hload⟩ := load_of_underway hu setup.world 3 "B"
    obtain ⟨-, -, -, -, hok, -⟩ := hload _ _ load_B (by simp)
    obtain ⟨hname, hnew⟩ := hok _ rfl
    obtain ⟨source, record, m, hsource, hrecord, -, -, hreported, hfound⟩ := hnew hB
    -- the resolver answers with the source of `B`, which calls itself `A`
    cases hsource
    have hA : record.name = "A" := hreported
    exact ⟨hname, record, hrecord, hA, hA ▸ hfound⟩

/-! ## What becomes of the meaning of a name -/

namespace Host

/-- How the meaning of a name develops: it stays as long as no added assembly reports the name,
and otherwise the name leads to an added assembly. -/
def Follows (name : String) (h h' : Host) : Prop :=
  h'.id = h.id ∧ ∃ new, h'.assemblies = h.assemblies ++ new ∧
    ((∀ r ∈ new, r.name ≠ name) ∧ h'.findAssembly name = h.findAssembly name ∨
      (∃ r ∈ new, r.name = name) ∧
        ∃ i, h.assemblies.length ≤ i ∧ h'.findAssembly name = some ⟨h.id, i⟩)

namespace Follows

lemma rfl' (name : String) (h : Host) : h.Follows name h :=
  ⟨rfl, [], by simp, .inl ⟨by simp, rfl⟩⟩

lemma of_sameNames (hs : h.SameNames h') : h.Follows name h' := by
  refine ⟨hs.id_eq, [], by simp [hs.assemblies_eq], .inl ⟨by simp, ?_⟩⟩
  rw [findAssembly, findAssembly, hs.names_eq]

lemma trans (h01 : h.Follows name h₁) (h12 : h₁.Follows name h') : h.Follows name h' := by
  obtain ⟨hid₁, new₁, ha₁, hm₁⟩ := h01
  obtain ⟨hid₂, new₂, ha₂, hm₂⟩ := h12
  refine ⟨hid₂.trans hid₁, new₁ ++ new₂, by rw [ha₂, ha₁, List.append_assoc], ?_⟩
  -- the last assembly that reports the name decides
  rcases hm₂ with ⟨hno₂, heq₂⟩ | ⟨⟨r, hr, hname⟩, i, hi, heq₂⟩
  · rcases hm₁ with ⟨hno₁, heq₁⟩ | ⟨⟨r, hr, hname⟩, i, hi, heq₁⟩
    · refine .inl ⟨fun r hr => ?_, heq₂.trans heq₁⟩
      exact (List.mem_append.mp hr).elim (hno₁ r) (hno₂ r)
    · exact .inr ⟨⟨r, List.mem_append_left _ hr, hname⟩, i, hi, heq₂.trans heq₁⟩
  · refine .inr ⟨⟨r, List.mem_append_right _ hr, hname⟩, i, ?_, hid₁ ▸ heq₂⟩
    have hlen : h₁.assemblies.length = h.assemblies.length + new₁.length := by simp [ha₁]
    omega

/-- A name that is known stays known. -/
lemma known (hf : h.Follows name h') (hn : h.findAssembly name ≠ none) :
    h'.findAssembly name ≠ none := by
  obtain ⟨-, new, -, ⟨-, heq⟩ | ⟨-, i, -, heq⟩⟩ := hf
  · rwa [heq]
  · simp [heq]

/-- Adding a module that was asked for under another name. -/
lemma commit (n : NewModule) {request : String} (hne : request ≠ name) :
    h.Follows name (h.commit request n) := by
  refine ⟨rfl, [_], rfl, ?_⟩
  rw [findAssembly_commit]
  by_cases hname : n.assemblyName = name
  · exact .inr ⟨⟨_, List.mem_singleton.mpr rfl, hname⟩, h.assemblies.length, le_rfl,
      by simp [hname, nextAssembly]⟩
  · refine .inl ⟨fun r hr => ?_, by simp [Ne.symm hne, Ne.symm hname]⟩
    rw [List.mem_singleton] at hr
    subst hr
    exact hname

/-- Loads follow a name for which no assembly was asked for. -/
lemma of_loadChanges (hc : Relation.ReflTransGen (LoadChange w) h h')
    (hreq : ∀ i, h.assemblies.length ≤ i → i < h'.assemblies.length →
      h'.requestOf ⟨h.id, i⟩ ≠ some name) : h.Follows name h' := by
  induction hc with
  | refl => exact .rfl' name h
  | @tail h₁ h₂ hsteps hstep ih =>
    have hext := extends_of_loadChanges hsteps
    have hlen := hstep.extends.assemblies.length_le
    have h01 := ih fun i hi hlt => by
      rw [← hstep.requestOf hlt]
      exact hreq i hi (hlt.trans_le hlen)
    cases hstep with
    | question e he => exact h01.trans (.of_sameNames ⟨rfl, rfl, rfl, rfl, rfl, rfl⟩)
    | commit request n hn =>
      refine h01.trans (.commit n fun heq => ?_)
      have hnew := requestOf_commit_new (h := h₁) request n
      rw [hext.id_eq] at hnew
      exact hreq _ hext.assemblies.length_le (by simp) (heq ▸ hnew)

lemma of_loads (hl : h.Loads w h') (hn : h.findAssembly name ≠ none) : h.Follows name h' := by
  refine .of_loadChanges hl.changes fun i hi hlt heq => ?_
  obtain ⟨other, hother, -, hnone, -⟩ := hl.requests i hi hlt
  rw [heq] at hother
  cases hother
  exact hn hnone

/-- A run follows a name that is known. -/
lemma of_later {W : World → Prop} (hl : h.Later W h') (hn : h.findAssembly name ≠ none) :
    h.Follows name h' := by
  refine hl.preserves (fun w _ g g' hstep hg => hg.trans ?_) (.rfl' name h)
  rcases hstep.loads_or_sameNames with hl | hs
  · exact .of_loads hl (hg.known hn)
  · exact .of_sameNames hs

end Follows

/-- An assembly that a name leads to is in the table. -/
lemma Wellformed.index_lt (hw : h.Wellformed) {a : AssemblyHandle}
    (hn : h.findAssembly name = some a) : a.index < h.assemblies.length := by
  obtain ⟨l₁, l₂, hnames, -⟩ := List.lookup_eq_some_iff.mp hn
  exact (hw.of_name (name, a) (by simp [hnames])).2

/-- A command has been carried out in the first state, successfully or not, and has led to the
second.  The surroundings were such that `W` holds. -/
def Performs (W : World → Prop) (h h' : Host) : Prop :=
  ∃ w depth c, W w ∧ (performWithin depth c w h).1 ≠ .error .lost ∧
    (performWithin depth c w h).2 = h'

/-- A sequence of commands is a part of a run. -/
lemma later_of_performs {W : World → Prop} (hw : h.Wellformed)
    (hp : Relation.ReflTransGen (Performs W) h h') : h.Later W h' := by
  induction hp with
  | refl => exact .refl
  | tail _ hstep ih =>
    obtain ⟨w, depth, c, hW, hc, rfl⟩ := hstep
    exact ih.trans (later_of_performWithin (ih.wellformed hw) hW hc)

end Host

/-- A name that leads to an assembly at some point of a run leads to the same assembly later
exactly if no assembly has been added in between whose record has this name; and the name in the
record of an assembly that has been added is the one that its source reports.  In any case the name
leads to an assembly, and loading it answers with this assembly and changes nothing. -/
theorem findAssembly_of_later (hr : Reached fs h) {W : World → Prop} {a : AssemblyHandle}
    (hn : h.findAssembly name = some a)
    (hl : Relation.ReflTransGen (Host.Performs W) h h') :
    (h'.findAssembly name = some a ↔
      ∀ r ∈ h'.assemblies.drop h.assemblies.length, r.name ≠ name) ∧
    (∀ r ∈ h'.assemblies.drop h.assemblies.length, h'.Reports W r) ∧
    ∃ a', h'.findAssembly name = some a' ∧ ∀ w, load name w h' = (.ok a', h') := by
  have hw := hr.sound.settled.wellformed
  have hlater := Host.later_of_performs hw hl
  have hne : h.findAssembly name ≠ none := by simp [hn]
  have hfollows : h.Follows name h' := .of_later hlater hne
  have hknown := hfollows.known hne
  obtain ⟨-, new, hnew, hmeaning⟩ := hfollows
  refine ⟨?_, hlater.reports le_rfl (by simp), ?_⟩
  · rw [hnew, List.drop_left]
    rcases hmeaning with ⟨hno, heq⟩ | ⟨⟨r, hr, hname⟩, i, hi, heq⟩
    · exact iff_of_true (heq.trans hn) hno
    · refine iff_of_false (fun hsame => ?_) fun hno => hno r hr hname
      -- the name would lead to an old assembly and to an added one
      rw [heq] at hsame
      cases hsame
      exact absurd (hw.index_lt hn) (Nat.not_lt.mpr hi)
  · obtain ⟨a', ha'⟩ := Option.ne_none_iff_exists'.mp hknown
    exact ⟨a', ha', fun w => loadWithin_known w.depth ha'⟩

namespace Specimen

/-- The host with the assembly `A`. -/
def hostWithA : Host :=
  setup.after (.load "A") setup.firstHost

lemma reached_hostWithA : Reached [] hostWithA :=
  Setup.reached_after reached_firstHost (by decide +kernel)

end Specimen

open Specimen in
/-- Loading `B`, whose source reports the name `A`, makes `A` lead to another assembly. -/
theorem findAssembly_of_later_specimen :
    hostWithA.findAssembly "A" = some ⟨1, 1⟩ ∧
    ∃ h', Host.Performs (· = setup.world) hostWithA h' ∧ h'.findAssembly "A" ≠ some ⟨1, 1⟩ ∧
      (∃ r ∈ h'.assemblies.drop hostWithA.assemblies.length,
        r.name = "A" ∧ h'.Reports (· = setup.world) r) ∧
      ∃ a', h'.findAssembly "A" = some a' ∧ ∀ w, load "A" w h' = (.ok a', h') := by
  have hn : hostWithA.findAssembly "A" = some ⟨1, 1⟩ := by decide +kernel
  have hp : Host.Performs (· = setup.world) hostWithA (setup.after (.load "B") hostWithA) :=
    ⟨_, 3, .load "B", rfl, by decide +kernel, rfl⟩
  obtain ⟨hiff, hreports, hload⟩ := findAssembly_of_later reached_hostWithA hn (.single hp)
  have hnew : ∃ r ∈ (setup.after (.load "B") hostWithA).assemblies.drop
      hostWithA.assemblies.length, r.name = "A" := by decide +kernel
  obtain ⟨r, hr, hname⟩ := hnew
  exact ⟨hn, _, hp, fun hsame => hiff.mp hsame r hr hname, ⟨r, hr, hname, hreports r hr⟩, hload⟩

end ManagedHost
