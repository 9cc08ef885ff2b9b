/-
# The outcome of a load does not depend on history

Hosts that use one reliable resolver may have loaded different things, in a different order, and may
have been left with the remains of loads that failed.  A load of a name comes to the same in all of
them: it succeeds in one exactly if it succeeds in the other, it fails with the same error, and the
parents of all types of the assembly are the same classes.

The reason is that a load of a faithful host comes to what a load comes to that remembers nothing.
`Op.Tracks` says so of an operation and a computation without a host, and each part of a load is
followed along the corresponding part of `Resolver.outcomeWithin`.

* `Op.loadWithin_tracks`: a load that remembers and one that remembers nothing.
* `load_of_later`: loads at two points of a run.
-/
import ManagedHost.Proofs.Faithful

namespace ManagedHost

lemma Host.Wellformed.records_of_name {h : Host} (hw : h.Wellformed) {name : String}
    {a : AssemblyHandle} (ha : h.findAssembly name = some a) :
    ∃ record m, h.assembly a = .ok record ∧ h.module record.module = .ok m := by
  obtain ⟨ho, hlt⟩ := hw.of_name _ (Host.mem_names_of_findAssembly ha)
  have hget := List.getElem?_eq_getElem hlt
  have hmod := (hw.of_assembly _ _ hget).2
  have hlt' : a.index < h.modules.length := hw.length_modules ▸ hlt
  refine ⟨_, h.modules[a.index], Host.assembly_eq_ok_iff.mpr ⟨ho, hget⟩, ?_⟩
  rw [hmod]
  exact Host.module_eq_ok_iff.mpr ⟨rfl, List.getElem?_eq_getElem hlt'⟩

namespace Op

variable {α β γ δ : Type} {w : World} {h h' : Host} {depth : Nat}

/-! ## Operations and what they come to -/

/-- Started in state `h`, the operation ends by loads as the computation `p` does that has no host:
both answer, with `Q` between the answers, or both fail for the same reason.  The operation is lost
only where the stack is too shallow for the computation, too. -/
inductive Tracks (x : Op α) (w : World) (h : Host) (depth : Nat) (p : Nat → Except Stop β)
    (Q : α → β → Host → Prop) : Prop
  | answered {a : α} {b : β} {h' : Host} (hrun : x w h = (.ok a, h')) (hl : h.Loads w h')
      (hs : Settles p (.ok b)) (hq : Q a b h') : Tracks x w h depth p Q
  | failed {e : Error} {h' : Host} (hrun : x w h = (.error (.failed e), h')) (hl : h.Loads w h')
      (hs : Settles p (.error (.failed e))) : Tracks x w h depth p Q
  | lost {h' : Host} (hrun : x w h = (.error .lost, h')) (hp : p depth = .error .lost) :
      Tracks x w h depth p Q

namespace Tracks

variable {x : Op α} {f : α → Op γ} {p : Nat → Except Stop β} {g : Nat → β → Except Stop δ}
  {Q : α → β → Host → Prop} {Q' : γ → δ → Host → Prop}

lemma bind (hx : x.Tracks w h depth p Q)
    (hf : ∀ a b h', h.Loads w h' → Q a b h' → (f a).Tracks w h' depth (g · b) Q') :
    (x >>= f).Tracks w h depth (fun k => p k >>= g k) Q' := by
  cases hx with
  | @answered a b h₁ hrun hl hs hq =>
    have hrest := bind_run_ok (f := f) hrun
    cases hf a b h₁ hl hq with
    | answered hrun' hl' hs' hq' =>
      exact .answered (hrest.trans hrun') (hl.trans hl') (hs.bind hs') hq'
    | failed hrun' hl' hs' => exact .failed (hrest.trans hrun') (hl.trans hl') (hs.bind hs')
    | lost hrun' hp =>
      refine .lost (hrest.trans hrun') ?_
      -- the stack may have been too shallow for the first computation already
      rcases hs.eq_or_lost depth with heq | heq
      · rw [heq]
        exact hp
      · rw [heq]
        rfl
  | failed hrun hl hs => exact .failed (bind_run_error hrun) hl hs.bind_failed
  | lost hrun hp =>
    refine .lost (bind_run_error hrun) ?_
    rw [hp]
    rfl

/-- A second step that does not fail. -/
lemma andThen (hx : x.Tracks w h depth p Q) {Q' : γ → β → Host → Prop}
    (hf : ∀ a b h', h.Loads w h' → Q a b h' → (f a).Tracks w h' depth (fun _ => .ok b) Q') :
    (x >>= f).Tracks w h depth p Q' := by
  have hboth := hx.bind (g := fun _ b => pure b) hf
  simpa only [bind_pure] using hboth

/-- A first step that puts questions at most. -/
lemma after {a : γ} {z : Op γ} {f : γ → Op α} (hz : z w h = (.ok a, h')) (hl : h.Loads w h')
    (hf : (f a).Tracks w h' depth p Q) : (z >>= f).Tracks w h depth p Q := by
  have hrest := bind_run_ok (f := f) hz
  cases hf with
  | answered hrun hl' hs hq => exact .answered (hrest.trans hrun) (hl.trans hl') hs hq
  | failed hrun hl' hs => exact .failed (hrest.trans hrun) (hl.trans hl') hs
  | lost hrun hp => exact .lost (hrest.trans hrun) hp

/-- An operation answers where the computation does, unless the stack is too shallow. -/
lemma ends {F L : Prop} {b : β} (hx : x.Tracks w h depth p Q) (hp : Settles p (.ok b))
    (hL : p depth = .error .lost → L) :
    x.Ends w h F L fun a h' => h.Loads w h' ∧ Q a b h' := by
  cases hx with
  | answered hrun hl hs hq =>
    obtain rfl := Except.ok.inj (hp.unique hs)
    exact .of_run hrun ⟨hl, hq⟩
  | failed _ _ hs => cases hp.unique hs
  | lost hrun hlost =>
    rw [Ends, hrun]
    exact hL hlost

/-- A first step that only looks at the host. -/
lemma looking {a : γ} {z : Op γ} {f : γ → Op α} (hz : z w h = (.ok a, h))
    (hf : (f a).Tracks w h depth p Q) : (z >>= f).Tracks w h depth p Q :=
  .after hz (.rfl' w h) hf

end Tracks

lemma tracks_pure {a : α} {b : β} {Q : α → β → Host → Prop} (hq : Q a b h) :
    (pure a : Op α).Tracks w h depth (fun _ => .ok b) Q :=
  .answered rfl (.rfl' w h) (settles_ok b) hq

lemma tracks_fail {e : Error} {Q : α → β → Host → Prop} :
    (fail e : Op α).Tracks w h depth (fun _ => .error (.failed e)) Q :=
  .failed rfl (.rfl' w h) (settles_failed e)

/-- An operation that consists of questions and ends as something that is known. -/
lemma tracks_of_run {x : Op α} {o : Except Error α} (hrun : x w h = (o.mapError .failed, h'))
    (hl : h.Loads w h') : x.Tracks w h depth (fun _ => liftM o) fun a b _ => a = b := by
  cases o with
  | ok a => exact .answered hrun hl (settles_ok a) rfl
  | error e => exact .failed hrun hl (settles_failed e)

lemma tracks_each {f : α → Op β} {g : Nat → α → Except Stop γ} {xs : List α}
    (hf : ∀ a ∈ xs, ∀ h₁, h.Loads w h₁ →
      (f a).Tracks w h₁ depth (g · a) fun _ _ _ => True) :
    (each f xs).Tracks w h depth (fun k => xs.mapM (g k)) fun _ _ _ => True := by
  induction xs generalizing h with
  | nil => exact tracks_pure trivial
  | cons a rest ih =>
    simp only [List.mapM_cons]
    refine (hf a (by simp) h (.rfl' w h)).bind fun _ _ h₁ h01 _ => ?_
    refine (ih fun a' ha' h₂ h12 => hf a' (by simp [ha']) h₂ (h01.trans h12)).bind
      fun _ _ h₂ _ _ => ?_
    exact tracks_pure trivial

/-! ## The parts of a load -/

/-- A way to load assemblies that comes to what a load comes to that remembers nothing. -/
def IsTracked (w : World) (depth : Nat) (load : String → Op AssemblyHandle) : Prop :=
  ∀ name h, h.Faithful w.resolver →
    (load name).Tracks w h depth (fun k => w.resolver.outcomeWithin k h.pending name)
      fun a _ h' => h'.findAssembly name = some a

section Parts

variable {load : String → Op AssemblyHandle} (hl : IsTracked w depth load)
  (hR : w.resolver.Reliable)

include hl hR

lemma search_tracks (space name : String) (steps : Nat) (target : String)
    (hf : h.Faithful w.resolver) :
    (search load space name steps target).Tracks w h depth
      (fun k => w.resolver.searchHome (w.resolver.outcomeWithin k h.pending) space name steps
        target)
      fun c home h' => h'.homeOf c = some home := by
  induction steps generalizing h target with
  | zero => exact tracks_fail
  | succ steps ih =>
    refine (hl target h hf).bind fun a _ h₁ h01 ha => ?_
    have hf₁ := hf.of_loads hR h01
    have hpending : h₁.pending = h.pending := h01.toExtends.pending_eq
    obtain ⟨record, m, hrec, hm⟩ := hf₁.wellformed.records_of_name ha
    -- the assembly may have been known before or loaded now: it shows what the resolver says
    obtain ⟨names, hx⟩ := hf₁.exhibits_of_opens hR (hf₁.wellformed.opens ha hrec hm)
    refine .looking (assembly_run hrec) (.looking (module_run hm) (.looking (a := h₁) rfl ?_))
    split
    · rename_i c hc
      obtain ⟨home, hhome, hfound⟩ := hx.homeOrNext_found hc
      simp only [hfound]
      exact tracks_pure hhome
    · rename_i hc
      refine .looking (a := w) rfl ?_
      split
      · rename_i next hnext
        simp only [hx.homeOrNext_moved hR hc hnext]
        exact hpending ▸ ih next hf₁
      · rename_i hnext
        simp only [hx.homeOrNext_missing hR hc hnext]
        exact tracks_fail

lemma resolveWith_tracks (r : TypeRef) (hf : h.Faithful w.resolver) :
    (resolveWith load none r).Tracks w h depth
      (fun k => w.resolver.homeOf (w.resolver.outcomeWithin k h.pending) r)
      fun c home h' => h'.homeOf c = some home := by
  induction r with
  | definition row => exact tracks_fail
  | external target space name => exact search_tracks hl hR space name maxForwards target hf
  | nested outer name ih =>
    refine ih.bind fun o home h₁ h01 hhome => ?_
    have hf₁ := hf.of_loads hR h01
    obtain ⟨r, m, -, hr, hm, -, -⟩ := Host.homeOf_eq_some_iff.mp hhome
    obtain ⟨names, hx, hname⟩ := hf₁.exhibits_of_home hR hr hm hhome
    refine .looking (cls_run hr) (.looking (module_run hm) (.looking (a := h₁) rfl ?_))
    split
    · rename_i c hc
      obtain ⟨inner, hinner, hfound⟩ := hx.innerHome_found hname hc
      simp only [hfound]
      exact tracks_pure hinner
    · rename_i hc
      simp only [hx.innerHome_missing hname hc]
      exact tracks_fail

lemma newParent_tracks (self : String) (defs : List TypeDef) (d : TypeDef)
    (hf : h.Faithful w.resolver) :
    (newParent load defs d).Tracks w h depth
      (fun k => w.resolver.parentHome (w.resolver.outcomeWithin k h.pending) self defs d)
      fun _ _ _ => True := by
  rcases hd : d.parent with _ | r
  · simp only [newParent, Resolver.parentHome, hd]
    exact tracks_pure trivial
  · simp only [newParent, Resolver.parentHome, hd]
    split
    · refine (tracks_of_run (liftM_run (localRow defs r)) (.rfl' w h)).bind fun _ _ _ _ _ => ?_
      exact tracks_pure trivial
    · refine (resolveWith_tracks hl hR r hf).bind fun _ _ _ _ _ => ?_
      exact tracks_pure trivial

omit hl in
lemma ask_run (source : SourceId) (row : Nat) :
    ask source .typeDef row none Source.typeDef w h =
      (((w.source [] source).typeDef row).mapError .failed,
        h.note (.asked source .typeDef row none)) := by
  have hsource : ∀ j, w.source j source = w.source [] source := fun j => hR.source_eq j [] source
  have hnote : note (.asked source .typeDef row none) w h =
      (.ok (), h.note (.asked source .typeDef row none)) := rfl
  unfold ask
  rw [bind_run_ok hnote, bind_run_ok (a := w) rfl, bind_run_ok rfl, liftM_run, hsource]

omit hl in
/-- The definitions of the types are what the source says. -/
lemma typeDefs_run (source : SourceId) (count row : Nat) :
    ∃ h', h.Loads w h' ∧ typeDefs source count row w h =
      (((List.range' row count).mapM (w.source [] source).typeDef).mapError .failed, h') := by
  induction count generalizing h row with
  | zero => exact ⟨h, .rfl' w h, rfl⟩
  | succ count ih =>
    have hask := ask_run (h := h) hR source row
    have h01 := Host.Loads.question (e := .asked source .typeDef row none) w h trivial
    rw [List.range'_succ, List.mapM_cons]
    rcases hd : (w.source [] source).typeDef row with e | d
    · rw [hd] at hask
      exact ⟨_, h01, bind_run_error hask⟩
    · rw [hd] at hask
      obtain ⟨h₂, h12, hmore⟩ := ih (h := h.note (.asked source .typeDef row none)) (row + 1)
      refine ⟨h₂, h01.trans h12, (bind_run_ok hask).trans ?_⟩
      rcases hds : (List.range' (row + 1) count).mapM (w.source [] source).typeDef with e | ds
      · rw [hds] at hmore
        exact bind_run_error hmore
      · rw [hds] at hmore
        exact bind_run_ok hmore

lemma readNew_tracks (name : String) (hf : h.Faithful w.resolver) :
    (readNew load name).Tracks w h depth
      (fun k => w.resolver.parentHomes (w.resolver.outcomeWithin k h.pending) name)
      fun _ _ _ => True := by
  have h01 := Host.Loads.question (e := .resolved name) w h trivial
  refine .after (z := note (.resolved name)) rfl h01 (.looking (a := w) rfl (.looking rfl ?_))
  have hresolve : ∀ j, w.resolve j name = w.resolve [] name := fun j => hR.resolve_eq j [] name
  have hsource : ∀ j id, w.source j id = w.source [] id := fun j id => hR.source_eq j [] id
  rw [hresolve]
  rcases hid : w.resolve [] name with e | id
  · have hdefs : w.resolver.definitions name = .error e := by
      simp [Resolver.definitions, Resolver.sourceOf, World.resolver, hid, Except.map, bind,
        Except.bind]
    refine .failed (bind_run_error (liftM_run _)) (.rfl' w _) ?_
    simp only [Resolver.parentHomes, hdefs]
    exact settles_failed e
  · have hdefs : w.resolver.definitions name =
        (List.range' 0 (w.source [] id).typeCount).mapM (w.source [] id).typeDef := by
      simp [Resolver.definitions, Resolver.sourceOf, World.resolver, hid, Except.map, bind,
        Except.bind]
    refine .looking (a := id) (liftM_run _) (.looking (a := w) rfl (.looking rfl ?_))
    rw [hsource]
    obtain ⟨h₂, h12, hrun⟩ := typeDefs_run (h := h.note (.resolved name)) hR id
      (w.source [] id).typeCount 0
    rw [← hdefs] at hrun
    refine (tracks_of_run hrun h12).bind fun defs _ h₂ h12 hdefs => ?_
    subst hdefs
    refine (tracks_of_run (liftM_run (qualifiedNames defs)) (.rfl' w h₂)).bind
      fun names _ h₃ h23 _ => ?_
    refine (tracks_each (g := fun k => w.resolver.parentHome (w.resolver.outcomeWithin k h.pending)
      name defs) fun d _ h₄ h34 => ?_).andThen fun _ _ h₅ _ _ => ?_
    · -- the parents before this one may have loaded assemblies
      have h04 := h01.trans (h12.trans (h23.trans h34))
      exact h04.toExtends.pending_eq ▸ newParent_tracks hl hR name defs d (hf.of_loads hR h04)
    · exact .looking (a := w) rfl (.looking rfl (tracks_pure trivial))

end Parts

/-! ## Whole loads -/

/-- A load that is spared or refused. -/
lemma loadWithin_tracks_of_spared {name : String} (hR : w.resolver.Reliable)
    (hf : h.Faithful w.resolver) (hs : h.findAssembly name ≠ none ∨ name ∈ h.pending) :
    (loadWithin depth name).Tracks w h depth
      (fun k => w.resolver.outcomeWithin k h.pending name)
      fun a _ h' => h'.findAssembly name = some a := by
  rcases hn : h.findAssembly name with _ | a
  · have hp := hs.resolve_left fun hne => hne hn
    refine .failed (loadWithin_pending depth hn hp) (.rfl' w h) ?_
    simp only [Resolver.outcomeWithin_pending hp]
    exact settles_failed _
  · obtain ⟨homes, hs, -⟩ := hf.settles hR hn
    exact .answered (loadWithin_known depth hn) (.rfl' w h) hs hn

/-- A load that remembers comes to what a load comes to that remembers nothing. -/
theorem loadWithin_tracks (hR : w.resolver.Reliable) (depth : Nat) :
    IsTracked w depth (loadWithin depth) := by
  induction depth with
  | zero =>
    intro name h hf
    by_cases hs : h.findAssembly name ≠ none ∨ name ∈ h.pending
    · exact loadWithin_tracks_of_spared hR hf hs
    · simp only [not_or, not_not] at hs
      exact .lost (loadWithin_zero hs.1 hs.2) (Resolver.outcomeWithin_zero hs.2)
  | succ depth ih =>
    intro name h hf
    by_cases hs : h.findAssembly name ≠ none ∨ name ∈ h.pending
    · exact loadWithin_tracks_of_spared hR hf hs
    simp only [not_or, not_not] at hs
    obtain ⟨hn, hp⟩ := hs
    have hrun := loadWithin_succ (w := w) depth hn hp
    have hobeys := isLoader_loadWithin w (depth + 1) name h hf.wellformed
    have hdeeper : ∀ {q}, Settles (fun k => w.resolver.parentHomes
          (w.resolver.outcomeWithin k (h.beginLoad name).pending) name) q →
        Settles (fun k => w.resolver.outcomeWithin k h.pending name) q := by
      intro q hq
      refine .of_succ (Resolver.outcomeWithin_zero hp) ?_
      simp only [Resolver.outcomeWithin_succ hp]
      exact hq
    cases readNew_tracks ih hR name (hf.beginLoad hn) with
    | answered hread hl hs _ =>
      rw [hread] at hrun
      obtain ⟨hloads, hloaded⟩ := hobeys.of_ok hrun
      exact .answered hrun hloads (hdeeper hs) hloaded
    | failed hread hl hs =>
      rw [hread] at hrun
      exact .failed hrun (hobeys.of_failed hrun) (hdeeper hs)
    | lost hread hq =>
      rw [hread] at hrun
      exact .lost hrun ((Resolver.outcomeWithin_succ hp).trans hq)

lemma load_tracks (hR : w.resolver.Reliable) : IsTracked w w.depth load := by
  intro name h hf
  cases loadWithin_tracks hR w.depth name h hf with
  | answered hrun hl hs ha => exact .answered hrun hl hs ha
  | failed hrun hl hs => exact .failed hrun hl hs
  | lost hrun hp => exact .lost hrun hp

end Op

/-! ## Loads at two points of a run -/

open Op

/-- What the end of a load tells about the outcome of the name. -/
lemma settles_of_load {R : Resolver} {w : World} {h h' : Host} {name : String}
    {answer : Except Stop AssemblyHandle} (hR : R.Reliable) (hw : w.resolver = R)
    (hf : h.Faithful R) (hrun : load name w h = (answer, h')) (hlost : answer ≠ .error .lost) :
    (∃ e, answer = .error (.failed e) ∧
      Settles (fun k => R.outcomeWithin k h.pending name) (.error (.failed e))) ∨
    ∃ a homes, answer = .ok a ∧
      Settles (fun k => R.outcomeWithin k h.pending name) (.ok homes) ∧
      h'.parentHomes a = homes.map (·.map some) := by
  subst hw
  have hrun : loadWithin w.depth name w h = (answer, h') := hrun
  cases loadWithin_tracks hR w.depth name h hf with
  | answered hrun' hl hs ha =>
    rw [hrun] at hrun'
    cases hrun'
    -- what was loaded is remembered
    obtain ⟨homes, hs', hparents⟩ := (hf.of_loads hR hl).settles hR ha
    rw [hl.toExtends.pending_eq] at hs'
    exact .inr ⟨_, homes, rfl, hs', hparents⟩
  | failed hrun' _ hs =>
    rw [hrun] at hrun'
    cases hrun'
    exact .inl ⟨_, rfl, hs⟩
  | lost hrun' _ =>
    rw [hrun] at hrun'
    cases hrun'
    exact absurd rfl hlost

/-- If a load ends in one of two hosts, it ends in the other, provided that the stack is deep
enough there. -/
lemma exists_load_of_load {R : Resolver} {h₁ h₂ : Host} {name : String} (hR : R.Reliable)
    (hf₁ : h₁.Faithful R) (hf₂ : h₂.Faithful R) (hp : h₂.pending = h₁.pending)
    (hends : ∃ w, w.resolver = R ∧ (load name w h₁).1 ≠ .error .lost) :
    ∃ w, w.resolver = R ∧ (load name w h₂).1 ≠ .error .lost := by
  obtain ⟨w, hw, hends⟩ := hends
  obtain ⟨q, hs⟩ : ∃ q, Settles (fun k => R.outcomeWithin k h₂.pending name) q := by
    rw [hp]
    rcases settles_of_load hR hw hf₁ rfl hends with ⟨e, -, hs⟩ | ⟨a, homes, -, hs, -⟩
    · exact ⟨_, hs⟩
    · exact ⟨_, hs⟩
  obtain ⟨depth, hdepth⟩ := hs.exists_eq
  subst hw
  refine ⟨{ w with depth }, rfl, fun hlost => ?_⟩
  change (loadWithin depth name { w with depth } h₂).1 = _ at hlost
  cases loadWithin_tracks (w := { w with depth }) hR depth name h₂ hf₂ with
  | answered hrun _ _ _ => simp [hrun] at hlost
  | failed hrun _ _ => simp [hrun] at hlost
  | lost _ hp => exact hs.1 (hdepth.symm.trans hp)

/-- Let `h₀` be the state of a host that has just been started with a reliable resolver, and `h` any
later state of a run that uses this resolver.  The load of a name ends in one of them exactly if it
ends in the other, when the stack is deep enough.  And when it ends in both, on whatever stacks,

* it succeeds in one exactly if it succeeds in the other;
* it fails in both with the same error;
* when it succeeds, the parents of all classes of the assembly are in both the classes of the same
  assembly names and rows. -/
theorem load_of_later {s : Setup} {R : Resolver} {next rest : Nat} {h₀ h : Host}
    (hc : s.chosenResolver = some R) (hR : R.Reliable) (hs : s.start next = (.ok h₀, rest))
    (hl : h₀.Later (·.resolver = R) h) (name : String) :
    ((∃ w, w.resolver = R ∧ (load name w h₀).1 ≠ .error .lost) ↔
      ∃ w, w.resolver = R ∧ (load name w h).1 ≠ .error .lost) ∧
    ∀ w₀ w answer₀ answer h₀' h', w₀.resolver = R → w.resolver = R →
      load name w₀ h₀ = (answer₀, h₀') → answer₀ ≠ .error .lost →
      load name w h = (answer, h') → answer ≠ .error .lost →
        ((∃ a, answer₀ = .ok a) ↔ ∃ a, answer = .ok a) ∧
        (∀ e, answer₀ = .error (.failed e) ↔ answer = .error (.failed e)) ∧
        ∀ a₀ a, answer₀ = .ok a₀ → answer = .ok a → h'.parentHomes a = h₀'.parentHomes a₀ := by
  have hf₀ := faithful_of_start hc hR hs
  have hf := hl.faithful hR hf₀
  have hsettled := (sound_start hs).settled
  have hp : h.pending = h₀.pending :=
    (hl.settled hsettled).pending_eq.trans hsettled.pending_eq.symm
  refine ⟨⟨exists_load_of_load hR hf₀ hf hp, exists_load_of_load hR hf hf₀ hp.symm⟩, ?_⟩
  intro w₀ w answer₀ answer h₀' h' hw₀ hw hrun₀ hends₀ hrun hends
  have hs₀ := settles_of_load hR hw₀ hf₀ hrun₀ hends₀
  have hs := settles_of_load hR hw hf hrun hends
  rw [hp] at hs
  -- both ends tell about the outcome of the name, and there is only one
  rcases hs₀ with ⟨e₀, rfl, hs₀⟩ | ⟨a₀, homes₀, rfl, hs₀, hparents₀⟩ <;>
    rcases hs with ⟨e, rfl, hs⟩ | ⟨a, homes, rfl, hs, hparents⟩ <;>
    have heq := hs₀.unique hs
  · cases heq
    exact ⟨by simp, fun _ => Iff.rfl, by simp⟩
  · cases heq
  · cases heq
  · cases heq
    refine ⟨by simp, by simp, fun b₀ b hb₀ hb => ?_⟩
    cases hb₀
    cases hb
    exact hparents.trans hparents₀.symm

namespace ReliableSpecimen

/-- The metadata source of an assembly.  The type of `D` and the first type of `C` inherit from the
type of `A`, and the second type of `C` from one that does not exist. -/
def source (name : String) : Source :=
  { (default : Source) with
    moduleName := name
    assemblyName := name
    typeCount := if name = "C" then 2 else 1
    typeDef := fun row => .ok {
      space := "N"
      name := "T"
      parent :=
        if name = "mscorlib" then none
        else if name = "C" ∧ row = 1 then some (.external "A" "N" "U")
        else if name = "C" ∨ name = "D" then some (.external "A" "N" "T")
        else some (.external "mscorlib" "N" "T") } }

/-- Every name is found, and its source reports the name. -/
def resolver : Resolver where
  resolve _ name := .ok { name }
  source _ id := source id.name

lemma reliable_resolver : resolver.Reliable := by
  refine ⟨fun _ _ _ => rfl, fun _ _ _ => rfl, fun _ _ name id hid => ?_⟩
  cases hid
  rfl

/-- What the host is started with. -/
def setup : Setup :=
  { Specimen.setup with resolver := some resolver }

/-- The host after `E` has been loaded, and `C`, which failed and left `A` behind. -/
def laterHost : Host :=
  setup.after (.load "C") (setup.after (.load "E") setup.firstHost)

end ReliableSpecimen

open ReliableSpecimen in
/-- `D` has another handle in the later host, and so has the parent of its type. -/
theorem load_of_later_specimen :
    laterHost.assemblies.map (·.name) = ["mscorlib", "E", "A"] ∧
    (∃ a₀ a h₀' h', load "D" setup.world setup.firstHost = (.ok a₀, h₀') ∧
      load "D" setup.world laterHost = (.ok a, h') ∧ a₀ ≠ a ∧
      h₀'.parentHomes a₀ = [some (some ⟨"A", 0⟩)] ∧
      h'.parentHomes a = [some (some ⟨"A", 0⟩)]) ∧
    (load "C" setup.world laterHost).1 = .error (.failed (.typeNotFound "N.U in assembly A")) := by
  have hstart : setup.start 1 = (.ok setup.firstHost, 2) := by decide +kernel
  have hlater : setup.firstHost.Later (·.resolver = resolver) laterHost := by
    have hE : ReachedFrom (·.resolver = resolver) setup.firstHost []
        (setup.after (.load "E") setup.firstHost) :=
      Setup.reachedFrom_after (s := setup) (by rfl) .here (by decide +kernel)
    have hC : ReachedFrom (·.resolver = resolver) setup.firstHost [] laterHost :=
      Setup.reachedFrom_after (s := setup) (by rfl) hE (by decide +kernel)
    exact hC.later (sound_start hstart)
  obtain ⟨-, hD⟩ := load_of_later rfl reliable_resolver hstart hlater "D"
  obtain ⟨-, hC⟩ := load_of_later rfl reliable_resolver hstart hlater "C"
  have hD₀ : load "D" setup.world setup.firstHost =
      (.ok ⟨1, 2⟩, (load "D" setup.world setup.firstHost).2) :=
    Prod.ext (by decide +kernel) rfl
  have hD₁ : load "D" setup.world laterHost = (.ok ⟨1, 3⟩, (load "D" setup.world laterHost).2) :=
    Prod.ext (by decide +kernel) rfl
  have hparents₀ : (load "D" setup.world setup.firstHost).2.parentHomes ⟨1, 2⟩ =
      [some (some ⟨"A", 0⟩)] := by decide +kernel
  obtain ⟨-, -, hparents⟩ := hD setup.world setup.world _ _ _ _ rfl rfl hD₀ (by simp) hD₁ (by simp)
  have hC₀ : (load "C" setup.world setup.firstHost).1 =
      .error (.failed (.typeNotFound "N.U in assembly A")) := by decide +kernel
  have hends₀ : (load "C" setup.world setup.firstHost).1 ≠ .error .lost := by
    rw [hC₀]
    simp
  have hends : (load "C" setup.world laterHost).1 ≠ .error .lost := by decide +kernel
  obtain ⟨-, herror, -⟩ := hC setup.world setup.world _ _ _ _ rfl rfl rfl hends₀ rfl hends
  exact ⟨by decide +kernel, ⟨_, _, _, _, hD₀, hD₁, by decide, hparents₀,
    (hparents _ _ rfl rfl).trans hparents₀⟩, (herror _).mp hC₀⟩

end ManagedHost
