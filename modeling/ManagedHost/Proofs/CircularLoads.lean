/-
# Circular loads

A load is refused as circular if its name is in the list of loads under way.  This file says that
such an answer is true: the assemblies do need each other.  The list is the chain of requests that
have led to the refused one, the name in question is one of them, and each request in the chain was
made for the parent of a type of the assembly before it.  So if a load fails with this error at the
outermost level, and the error did not come from outside, then the name needs itself.

* `Op.FailsBy`: what holds of the state in which an operation has failed with an error.
* `Host.Forwards`: a type has moved from one assembly to the next.
* `Host.Needs`: the load of a name has asked for another one.
* `circular_load_needs_itself`: what a refused load says about the names.
-/
import ManagedHost.Proofs.Provenance

namespace ManagedHost

/-! ## How operations fail -/

namespace Op

variable {α β : Type} {w : World} {h : Host} {e : Error} {F G : Host → Prop}

/-- When the operation fails with this error, the state in which it ends satisfies `F`. -/
def FailsBy (x : Op α) (w : World) (h : Host) (e : Error) (F : Host → Prop) : Prop :=
  ∀ h', x w h = (.error (.failed e), h') → F h'

lemma FailsBy.mono {x : Op α} (hx : x.FailsBy w h e F) (hFG : ∀ h', F h' → G h') :
    x.FailsBy w h e G :=
  fun h' hrun => hFG h' (hx h' hrun)

lemma failsBy_pure (a : α) : (pure a : Op α).FailsBy w h e F := by
  intro h' hrun
  cases hrun

lemma failsBy_fail {e' : Error} (hne : e' ≠ e) : (fail e' : Op α).FailsBy w h e F := by
  intro h' hrun
  cases hrun
  exact absurd rfl hne

/-- Lifting a computation fails where it was started. -/
lemma failsBy_liftM {x : Except Error α} (hx : x = .error e → F h) :
    (liftM x : Op α).FailsBy w h e F := by
  intro h' hrun
  rw [liftM_run] at hrun
  cases x with
  | ok a => cases hrun
  | error e' =>
    cases hrun
    exact hx rfl

lemma failsBy_host_bind {f : Host → Op α} :
    (host >>= f).FailsBy w h e F ↔ (f h).FailsBy w h e F :=
  Iff.rfl

lemma failsBy_world_bind {f : World → Op α} :
    (world >>= f).FailsBy w h e F ↔ (f w).FailsBy w h e F :=
  Iff.rfl

lemma failsBy_note_bind {entry : JournalEntry} {f : Unit → Op α} :
    (note entry >>= f).FailsBy w h e F ↔ (f ()).FailsBy w (h.note entry) e F :=
  Iff.rfl

/-- A sequence fails in its first part, or in the second when the first has answered. -/
lemma FailsBy.bind {x : Op α} {f : α → Op β} (hx : x.FailsBy w h e F)
    (hf : ∀ a h₁, x w h = (.ok a, h₁) → (f a).FailsBy w h₁ e F) :
    (x >>= f).FailsBy w h e F := by
  intro h' hrun
  rcases hfirst : x w h with ⟨s | a, h₁⟩
  · rw [bind_run_error hfirst] at hrun
    cases hrun
    exact hx h' hfirst
  · rw [bind_run_ok hfirst] at hrun
    exact hf a h₁ hfirst h' hrun

/-- If an operation fails on the elements of a list, it fails on one of them. -/
lemma failsBy_each {R : Host → Host → Prop} [IsPreorder Host R] {f : α → Op β} {xs : List α}
    {Q : α → β → Host → Prop} {F : α → Host → Prop}
    (hobeys : ∀ a ∈ xs, ∀ h₁, R h h₁ → (f a).Obeys w R h₁ (Q a))
    (hf : ∀ a ∈ xs, ∀ h₁, R h h₁ → (f a).FailsBy w h₁ e (F a)) :
    (each f xs).FailsBy w h e fun h' => ∃ a ∈ xs, F a h' := by
  induction xs generalizing h with
  | nil => exact failsBy_pure []
  | cons a rest ih =>
    have hhead := hf a (by simp) h (refl_of R h)
    refine (hhead.mono fun h' ha => ⟨a, by simp, ha⟩).bind fun b h₁ hb => ?_
    have hr : R h h₁ := ((hobeys a (by simp) h (refl_of R h)).of_ok hb).1
    have hrest := ih (fun a' ha' h₂ hr₂ => hobeys a' (by simp [ha']) h₂ (trans_of R hr hr₂))
      fun a' ha' h₂ hr₂ => hf a' (by simp [ha']) h₂ (trans_of R hr hr₂)
    refine (hrest.mono ?_).bind fun bs h₂ _ => failsBy_pure (b :: bs)
    rintro h' ⟨a', ha', hF⟩
    exact ⟨a', by simp [ha'], hF⟩

end Op

/-! ## Errors that are not circular loads -/

variable {w : World} {h h₁ h' : Host} {m : String}

lemma Host.assembly_ne_circular (a : AssemblyHandle) :
    h.assembly a ≠ .error (.circularDependency m) := by
  unfold Host.assembly
  split <;> simp

lemma Host.module_ne_circular (mh : ModuleHandle) :
    h.module mh ≠ .error (.circularDependency m) := by
  unfold Host.module
  split <;> simp

lemma Host.cls_ne_circular (c : ClassHandle) : h.cls c ≠ .error (.circularDependency m) := by
  unfold Host.cls
  split <;> simp

lemma climb_ne_circular {defs : List TypeDef} {innermost : String} {steps : Nat} {d : TypeDef}
    {segments : List String} :
    climb defs innermost steps d segments ≠ .error (.circularDependency m) := by
  fun_induction climb defs innermost steps d segments with
  | case1 => simp
  | case2 => simp
  | case3 => simp
  | case4 d segments e he outer houter steps ih => exact ih

lemma mapM_ne_error {α β ε : Type} {f : α → Except ε β} {e : ε} {xs : List α}
    (hf : ∀ x ∈ xs, f x ≠ .error e) : xs.mapM f ≠ .error e := by
  induction xs with
  | nil => simp [pure, Except.pure]
  | cons x xs ih =>
    obtain ⟨hx, hxs⟩ := List.forall_mem_cons.mp hf
    have ih := ih hxs
    rw [List.mapM_cons]
    cases hfx : f x with
    | error e' => simpa [hfx, bind, Except.bind] using hx
    | ok y =>
      cases hm : xs.mapM f with
      | error e' => simpa [hm, bind, Except.bind] using ih
      | ok ys => simp [bind, Except.bind, pure, Except.pure]

lemma qualifiedNames_ne_circular (defs : List TypeDef) :
    qualifiedNames defs ≠ .error (.circularDependency m) :=
  mapM_ne_error fun _ _ => climb_ne_circular

lemma localRow_ne_circular (defs : List TypeDef) (r : TypeRef) :
    localRow defs r ≠ .error (.circularDependency m) := by
  induction r with
  | definition row =>
    unfold localRow
    split <;> simp
  | external => simp [localRow]
  | nested outer name ih =>
    rw [localRow]
    cases ho : localRow defs outer with
    | error e' => simpa [ho, bind, Except.bind] using ih
    | ok row =>
      simp only [bind, Except.bind]
      split <;> simp [pure, Except.pure, throw, throwThe, MonadExceptOf.throw]

/-! ## What a failed load has asked for -/

/-- Of the answers that were given between two journals, one by the resolver or by a source is this
error. -/
inductive Receives (w : World) (start stop : Journal) (e : Error) : Prop
  | fromResolver {request : String} {j : Journal} (hstart : start <:+ j)
      (hstop : .resolved request :: j <:+ stop)
      (he : w.resolve (.resolved request :: j) request = .error e)
  | fromSource {source : SourceId} {row : Nat} {j : Journal} (hstart : start <:+ j)
      (hstop : .asked source .typeDef row none :: j <:+ stop)
      (he : (w.source (.asked source .typeDef row none :: j) source).typeDef row = .error e)

lemma Receives.mono {start start' stop stop' : Journal} {e : Error} (hr : Receives w start stop e)
    (hstart : start' <:+ start) (hstop : stop <:+ stop') : Receives w start' stop' e := by
  cases hr with
  | fromResolver hs ht he => exact .fromResolver (hstart.trans hs) (ht.trans hstop) he
  | fromSource hs ht he => exact .fromSource (hstart.trans hs) (ht.trans hstop) he

/-- What was asked first stands at the end of the journal. -/
lemma questions_suffix (source : SourceId) (row : Nat) {k count : Nat} (hk : k ≤ count) :
    questions source row k <:+ questions source row count := by
  obtain ⟨more, rfl⟩ := Nat.exists_eq_add_of_le hk
  rw [questions, questions, ← List.range'_append_1, List.map_append, List.reverse_append]
  exact List.suffix_append _ _

/-- The assembly, the namespace and the name of the outermost type of a reference into another
assembly. -/
def TypeRef.outermost? : TypeRef → Option (String × String × String)
  | definition _ => none
  | external target space name => some (target, space, name)
  | nested outer _ => outer.outermost?

namespace Host

/-- Looking for a type in an assembly one has been sent on to another one, at most `hops` times.
The answers were given after those in the journal `start`. -/
inductive Forwards (R : Resolver) (start : Journal) (h : Host) (space name : String) :
    Nat → String → String → Prop
  | here (hops : Nat) (target : String) : Forwards R start h space name hops target target
  | hop {hops : Nat} {target next last : String} {m : Module} {j : Journal}
      (ho : h.Opens h.assemblies.length target m)
      (hc : h.findClass m.classes (·.fullName == inSpace space name) = none)
      (hstart : start <:+ j) (hj : j <:+ h.journal)
      (hf : (R.source j m.source).forwarded space name = some next)
      (hnext : Forwards R start h space name hops next last) :
      Forwards R start h space name (hops + 1) target last

lemma Forwards.of_keeps {R : Resolver} {start start' : Journal} {space name target last : String}
    {hops : Nat} (hf : h.Forwards R start space name hops target last) (hk : h.Keeps h')
    (hj : h.journal <:+ h'.journal) (hs : start' <:+ start) :
    h'.Forwards R start' space name hops target last := by
  induction hf with
  | here => exact .here _ _
  | hop ho hc hstart hjournal hnext _ ih =>
    exact .hop (ho.of_keeps hk hk.assemblies.length_le) ((hk.findClass ho.has _).trans hc)
      (hs.trans hstart) (hjournal.trans hj) hnext ih

/-- Between two states, the load of a name was asked for, and this failed in the second one. -/
def Requests (w : World) (load : String → Op AssemblyHandle) (h h' : Host) (e : Error)
    (name : String) : Prop :=
  ∃ g, h.Loads w g ∧ load name w g = (.error (.failed e), h')

lemma Requests.of_loads {load : String → Op AssemblyHandle} {e : Error} {name : String}
    (hr : h₁.Requests w load h' e name) (hl : h.Loads w h₁) : h.Requests w load h' e name := by
  obtain ⟨g, hg, hrun⟩ := hr
  exact ⟨g, hl.trans hg, hrun⟩

lemma Loads.journal_suffix (hl : h.Loads w h') : h.journal <:+ h'.journal := by
  obtain ⟨new, hj, -⟩ := hl.toExtends.journal
  exact ⟨new, hj.symm⟩

end Host

/-- With a reference, the load of `b` is asked for between two states, and fails. -/
def TypeRef.AsksFor (w : World) (load : String → Op AssemblyHandle) (h h' : Host) (e : Error)
    (r : TypeRef) (b : String) : Prop :=
  ∃ target space name, r.outermost? = some (target, space, name) ∧
    h'.Forwards w.resolver h.journal space name 7 target b ∧ h.Requests w load h' e b

lemma TypeRef.AsksFor.of_loads {load : String → Op AssemblyHandle} {e : Error} {r : TypeRef}
    {b : String} (ha : r.AsksFor w load h₁ h' e b) (hl : h.Loads w h₁) :
    r.AsksFor w load h h' e b := by
  obtain ⟨target, space, name, hr, hf, hreq⟩ := ha
  refine ⟨target, space, name, hr, ?_, hreq.of_loads hl⟩
  exact hf.of_keeps (.rfl' h') List.suffix_rfl hl.journal_suffix

namespace Op

variable {load : String → Op AssemblyHandle}

lemma loads_of_requests (hl : IsLoader w load) {e : Error} {b : String}
    (hr : h.Requests w load h' e b) (hw : h.Wellformed) : h.Loads w h' := by
  obtain ⟨g, hg, hrun⟩ := hr
  exact hg.trans ((hl b g (hg.wellformed hw)).of_failed hrun)

lemma journal_suffix_of_asksFor (hl : IsLoader w load) {e : Error} {r : TypeRef} {b : String}
    (ha : r.AsksFor w load h h' e b) (hw : h.Wellformed) : h.journal <:+ h'.journal := by
  obtain ⟨-, -, -, -, -, hr⟩ := ha
  exact (loads_of_requests hl hr hw).journal_suffix

lemma search_failsBy (hl : IsLoader w load) (space name : String) (steps : Nat) (target : String)
    (hw : h.Wellformed) :
    (search load space name steps target).FailsBy w h (.circularDependency m) fun h' =>
      ∃ b, h'.Forwards w.resolver h.journal space name (steps - 1) target b ∧
        h.Requests w load h' (.circularDependency m) b := by
  induction steps generalizing h target with
  | zero => exact failsBy_fail (by simp)
  | succ steps ih =>
    unfold search
    refine FailsBy.bind ?_ fun a h₁ ha => ?_
    · intro h' hrun
      exact ⟨target, .here _ _, h, .rfl' w h, hrun⟩
    obtain ⟨h01, hknown⟩ := (hl target h hw).of_ok ha
    have hw₁ := h01.wellformed hw
    refine FailsBy.bind ?_ fun record h₂ hrecord => ?_
    · exact failsBy_liftM fun he => absurd he (h₁.assembly_ne_circular a)
    obtain ⟨-, rfl, hrecord⟩ := (obeys_assembly (R := Host.Loads w) a).of_ok hrecord
    refine FailsBy.bind ?_ fun mod h₃ hmod => ?_
    · exact failsBy_liftM fun he => absurd he (h₂.module_ne_circular record.module)
    obtain ⟨-, rfl, hmod⟩ := (obeys_module (R := Host.Loads w) record.module).of_ok hmod
    have hopen := hw₁.opens hknown hrecord hmod
    rw [failsBy_host_bind]
    split
    · exact failsBy_pure _
    · rename_i hnone
      rw [failsBy_world_bind]
      split
      · rename_i next hnext
        cases steps with
        | zero => exact failsBy_fail (by simp)
        | succ steps =>
          refine (ih next hw₁).mono ?_
          rintro h' ⟨b, hforwards, hrequests⟩
          -- the assembly that forwards the type stays what it is until the request fails
          have h1' := loads_of_requests hl hrequests hw₁
          have hk := h1'.keeps
          refine ⟨b, .hop (hopen.of_keeps hk hk.assemblies.length_le)
            ((hk.findClass hopen.has _).trans hnone) h01.journal_suffix h1'.journal_suffix hnext
            ?_, hrequests.of_loads h01⟩
          exact hforwards.of_keeps (.rfl' h') List.suffix_rfl h01.journal_suffix
      · exact failsBy_fail (by simp)

lemma resolveWith_failsBy (hl : IsLoader w load) (r : TypeRef) (hw : h.Wellformed) :
    (resolveWith load none r).FailsBy w h (.circularDependency m) fun h' =>
      ∃ b, r.AsksFor w load h h' (.circularDependency m) b := by
  induction r with
  | definition row => exact failsBy_fail (by simp)
  | external target space name =>
    refine (search_failsBy hl space name maxForwards target hw).mono ?_
    rintro h' ⟨b, hforwards, hrequests⟩
    exact ⟨b, target, space, name, rfl, hforwards, hrequests⟩
  | nested outer name ih =>
    rw [resolveWith]
    refine ih.bind fun c h₁ _ => ?_
    refine FailsBy.bind ?_ fun o h₂ _ => ?_
    · exact failsBy_liftM fun he => absurd he (h₁.cls_ne_circular c)
    refine FailsBy.bind ?_ fun mod h₃ _ => ?_
    · exact failsBy_liftM fun he => absurd he (h₂.module_ne_circular o.module)
    rw [failsBy_host_bind]
    split
    · exact failsBy_pure _
    · exact failsBy_fail (by simp)

lemma newParent_failsBy (hl : IsLoader w load) (defs : List TypeDef) (d : TypeDef)
    (hw : h.Wellformed) :
    (newParent load defs d).FailsBy w h (.circularDependency m) fun h' =>
      ∃ r b, d.parent = some r ∧ r.AsksFor w load h h' (.circularDependency m) b := by
  unfold newParent
  split
  · exact failsBy_pure none
  · rename_i r hd
    split
    · refine FailsBy.bind ?_ fun row h₁ _ => failsBy_pure _
      exact failsBy_liftM fun he => absurd he (localRow_ne_circular defs r)
    · refine FailsBy.bind ?_ fun c h₁ _ => failsBy_pure _
      refine (resolveWith_failsBy hl r hw).mono ?_
      rintro h' ⟨b, hb⟩
      exact ⟨r, b, hd, hb⟩

lemma typeDefs_failsBy {e : Error} (source : SourceId) (count row : Nat) :
    (typeDefs source count row).FailsBy w h e fun h' => Receives w h.journal h'.journal e := by
  induction count generalizing h row with
  | zero => exact failsBy_pure []
  | succ count ih =>
    rw [typeDefs]
    refine FailsBy.bind ?_ fun d h₁ hd => ?_
    · unfold ask
      rw [failsBy_note_bind, failsBy_world_bind, failsBy_host_bind]
      exact failsBy_liftM fun he => .fromSource List.suffix_rfl List.suffix_rfl he
    · have hq := Host.Loads.question (e := .asked source .typeDef row none) w h trivial
      have h01 := ((obeys_ask hq).of_ok hd).1
      refine FailsBy.bind ?_ fun more h₂ _ => failsBy_pure _
      exact (ih (row + 1)).mono fun h' hr => hr.mono h01.journal_suffix List.suffix_rfl

lemma readModule_failsBy (hl : IsLoader w load) (source : SourceId) (hw : h.Wellformed) :
    (readModule load source).FailsBy w h (.circularDependency m) fun h' =>
      Receives w h.journal h'.journal (.circularDependency m) ∨
      ∃ row d r b,
        (w.source (questions source 0 (row + 1) ++ h.journal) source).typeDef row = .ok d ∧
        questions source 0 (row + 1) ++ h.journal <:+ h'.journal ∧
        d.parent = some r ∧ r.AsksFor w load h h' (.circularDependency m) b := by
  unfold readModule
  rw [failsBy_world_bind, failsBy_host_bind]
  refine FailsBy.bind ?_ fun defs h₁ hdefs => ?_
  · exact (typeDefs_failsBy source _ 0).mono fun h' hr => .inl hr
  have h01 := ((typeDefs_obeys source _ 0).of_ok hdefs).1
  obtain ⟨hj, hlen, hanswers⟩ := typeDefs_eq_ok hdefs
  refine FailsBy.bind ?_ fun names h₂ hnames => ?_
  · exact failsBy_liftM fun he => absurd he (qualifiedNames_ne_circular defs)
  obtain ⟨-, rfl, -⟩ := (obeys_liftM (R := Host.Loads w) (qualifiedNames defs)).of_ok hnames
  have hw₂ := h01.wellformed hw
  have heach : (each (newParent load defs) defs).FailsBy w h₂ (.circularDependency m) fun h' =>
      ∃ d ∈ defs, ∃ r b, d.parent = some r ∧
        r.AsksFor w load h₂ h' (.circularDependency m) b := by
    refine failsBy_each (R := Host.Loads w)
      (fun d _ g hg => newParent_obeys hl defs d (hg.wellformed hw₂)) fun d _ g hg => ?_
    refine (newParent_failsBy hl defs d (hg.wellformed hw₂)).mono ?_
    rintro h' ⟨r, b, hd, hb⟩
    exact ⟨r, b, hd, hb.of_loads hg⟩
  refine FailsBy.bind (heach.mono ?_) fun parents h₃ _ => ?_
  · rintro h' ⟨d, hd, r, b, hparent, hb⟩
    obtain ⟨row, hrow⟩ := List.mem_iff_getElem?.mp hd
    refine .inr ⟨row, d, r, b, by simpa using hanswers row d hrow, ?_, hparent, hb.of_loads h01⟩
    -- all questions about definitions were asked before the first parent was looked for
    have hlt : row < (w.source h.journal source).typeCount :=
      hlen ▸ (List.getElem?_eq_some_iff.mp hrow).1
    have h2' : h₂.journal <:+ h'.journal := journal_suffix_of_asksFor hl hb hw₂
    obtain ⟨later, hlater⟩ := questions_suffix source 0 (Nat.succ_le_of_lt hlt)
    refine List.IsSuffix.trans ⟨later, ?_⟩ h2'
    rw [hj, ← hlater, List.append_assoc]
  · rw [failsBy_world_bind, failsBy_host_bind]
    exact failsBy_pure _

lemma readNew_failsBy (hl : IsLoader w load) (name : String) (hw : h.Wellformed) :
    (readNew load name).FailsBy w h (.circularDependency m) fun h' =>
      Receives w h.journal h'.journal (.circularDependency m) ∨
      ∃ source row d r b, w.resolve (.resolved name :: h.journal) name = .ok source ∧
        (w.source (questions source 0 (row + 1) ++ .resolved name :: h.journal) source).typeDef
          row = .ok d ∧
        questions source 0 (row + 1) ++ .resolved name :: h.journal <:+ h'.journal ∧
        d.parent = some r ∧ r.AsksFor w load h h' (.circularDependency m) b := by
  have hq : h.Loads w (h.note (.resolved name)) := .question w h trivial
  unfold readNew
  rw [failsBy_note_bind, failsBy_world_bind, failsBy_host_bind]
  refine FailsBy.bind ?_ fun source h₂ hanswer => ?_
  · exact failsBy_liftM fun he => .inl (.fromResolver List.suffix_rfl List.suffix_rfl he)
  obtain ⟨-, rfl, hsource⟩ := (obeys_liftM (R := Host.Loads w) _).of_ok hanswer
  refine (readModule_failsBy hl source (hq.wellformed hw)).mono ?_
  rintro h' (hr | ⟨row, d, r, b, hd, hsuffix, hparent, hb⟩)
  · exact .inl (hr.mono hq.journal_suffix List.suffix_rfl)
  · exact .inr ⟨source, row, d, r, b, hsource, hd, hsuffix, hparent, hb.of_loads hq⟩

end Op

/-! ## Names that need each other -/

namespace Host

open Op

lemma Proceeds.journal_suffix (hp : h.Proceeds h') : h.journal <:+ h'.journal := by
  cases hp with
  | runs hc => exact hc.journal_suffix
  | loads hc =>
    cases hc with
    | question e _ => exact List.suffix_cons e _
    | commit => exact List.suffix_rfl
  | begins => exact List.suffix_rfl
  | ends => exact List.suffix_rfl
  | starts => exact List.suffix_rfl

lemma journal_suffix_of_proceeds (hp : Relation.ReflTransGen Proceeds h h') :
    h.journal <:+ h'.journal := by
  induction hp with
  | refl => exact List.suffix_rfl
  | tail _ hstep ih => exact ih.trans hstep.journal_suffix

lemma Loads.proceeds (hl : h.Loads w h') : h.Proceeds h' :=
  .runs (.learns (K := []) (.loads hl))

/-- Between two states, the load of `a` has found a source, and the source has given a definition
whose parent is in another assembly.  With the name of that assembly, or with the last of at most
seven to which the type has moved from there, `b` has been requested by the load of `a`, and this
has failed because the load of `m` was under way. -/
inductive Needs (w : World) (h h' : Host) (m : String) : String → String → Prop
  | parent {a b target space name : String} {j : Journal} {source : SourceId} {row depth : Nat}
      {d : TypeDef} {r : TypeRef} {g g' : Host} (hj : h.journal <:+ j)
      (hsource : w.resolve (.resolved a :: j) a = .ok source)
      (hd : (w.source (questions source 0 (row + 1) ++ .resolved a :: j) source).typeDef row =
        .ok d)
      (hj' : questions source 0 (row + 1) ++ .resolved a :: j <:+ h'.journal)
      (hparent : d.parent = some r) (hr : r.outermost? = some (target, space, name))
      (hf : h'.Forwards w.resolver h.journal space name 7 target b)
      (hbefore : Relation.ReflTransGen Proceeds h g) (hlast : g.pending.getLast? = some a)
      (hrun : loadWithin depth b w g = (.error (.failed (.circularDependency m)), g'))
      (hafter : Relation.ReflTransGen Proceeds g' h') : Needs w h h' m a b

/-- No assembly was added for a request of this name. -/
def Unmet (h : Host) (name : String) : Prop :=
  ∀ i < h.assemblies.length, h.requestOf ⟨h.id, i⟩ ≠ some name

lemma Needs.mono {g g' : Host} {a b : String} (hn : g.Needs w g' m a b)
    (hbefore : Relation.ReflTransGen Proceeds h g)
    (hafter : Relation.ReflTransGen Proceeds g' h') : h.Needs w h' m a b := by
  have hstart := journal_suffix_of_proceeds hbefore
  have hstop := journal_suffix_of_proceeds hafter
  cases hn with
  | parent hj hsource hd hj' hparent hr hf hfirst hlast hrun hsecond =>
    exact .parent (hstart.trans hj) hsource hd (hj'.trans hstop) hparent hr
      (hf.of_keeps (keeps_of_proceeds hafter) hstop hstart) (hbefore.trans hfirst) hlast hrun
      (hsecond.trans hafter)

/-- A load that fails has added nothing for its name, and neither has an earlier one. -/
lemma unmet_of_failed {depth : Nat} {name : String} {e : Error} (hw : h.Wellformed)
    (hn : h.findAssembly name = none)
    (hrun : loadWithin depth name w h = (.error (.failed e), h')) : h'.Unmet name := by
  have hloads := (isLoader_loadWithin w depth name h hw).of_failed hrun
  intro i hi
  rw [hloads.toExtends.id_eq]
  rcases Nat.lt_or_ge i h.assemblies.length with hold | hnew
  · intro hrequest
    rw [requestOf_of_loadChanges hloads.changes hold] at hrequest
    exact findAssembly_ne_none_of_requestOf hrequest hn
  · exact requestOf_ne_of_loadWithin_failed hw hrun hnew hi

end Host

namespace Op

/-- A load that fails was refused, or has failed to read the module. -/
lemma loadWithin_eq_failed {depth : Nat} {name : String} {e : Error}
    (hrun : loadWithin depth name w h = (.error (.failed e), h')) :
    h.findAssembly name = none ∧
      ((name ∈ h.pending ∧ e = .circularDependency name) ∨
        name ∉ h.pending ∧ ∃ less h₁, depth = less + 1 ∧
          readNew (loadWithin less) name w (h.beginLoad name) = (.error (.failed e), h₁) ∧
          h' = h₁.endLoad name) := by
  rcases hn : h.findAssembly name with _ | a
  swap
  · rw [loadWithin_known _ hn] at hrun
    cases hrun
  refine ⟨rfl, ?_⟩
  by_cases hp : name ∈ h.pending
  · rw [loadWithin_pending _ hn hp] at hrun
    cases hrun
    exact .inl ⟨hp, rfl⟩
  refine .inr ⟨hp, ?_⟩
  cases depth with
  | zero =>
    rw [loadWithin_zero hn hp] at hrun
    cases hrun
  | succ depth =>
    rw [loadWithin_succ depth hn hp] at hrun
    split at hrun
    · cases hrun
    · rename_i h₁ hread
      cases hrun
      exact ⟨depth, h₁, rfl, hread, rfl⟩
    · cases hrun

/-- A load that is refused as circular leads to one that is under way, or has come back to a name
that it has asked for itself. -/
lemma loadWithin_failsBy (depth : Nat) (name : String) (hw : h.Wellformed) :
    (loadWithin depth name).FailsBy w h (.circularDependency m) fun h' =>
      Receives w h.journal h'.journal (.circularDependency m) ∨
      (m ∈ h.pending ∧
        Relation.ReflTransGen (fun a b => h.Needs w h' m a b ∧ h'.Unmet a) name m) ∨
      Relation.TransGen (fun a b => h.Needs w h' m a b ∧ h'.Unmet a) m m := by
  induction depth using Nat.strong_induction_on generalizing h name with
  | h depth ih =>
    intro h' hrun
    obtain ⟨hn, ⟨hp, hcircular⟩ | ⟨hp, less, h₁, rfl, hread, rfl⟩⟩ := loadWithin_eq_failed hrun
    · obtain rfl := Error.circularDependency.inj hcircular
      exact .inr (.inl ⟨hp, .refl⟩)
    have hunmet := Host.unmet_of_failed hw hn hrun
    have hw₀ : (h.beginLoad name).Wellformed := hw.congr rfl rfl rfl rfl rfl
    rcases readNew_failsBy (isLoader_loadWithin w less) name hw₀ h₁ hread with
      hr | ⟨source, row, d, r, b, hsource, hd, hj, hparent, hasks⟩
    · exact .inl hr
    obtain ⟨target, space, type, hr, hf, g, hg, hfail⟩ := hasks
    -- the request that has failed was made in a state `g` of the load of `name`
    have hpending : g.pending = h.pending ++ [name] := hg.toExtends.pending_eq
    have hbefore : Relation.ReflTransGen Host.Proceeds h g :=
      .tail (.single (.begins h name)) hg.proceeds
    have hafter : Relation.ReflTransGen Host.Proceeds h₁ (h₁.endLoad name) :=
      .single (.ends h₁ name)
    have hneeds : h.Needs w (h₁.endLoad name) m name b :=
      .parent List.suffix_rfl hsource hd hj hparent hr
        (hf.of_keeps (Host.keeps_of_proceeds hafter) List.suffix_rfl List.suffix_rfl) hbefore
        (by simp [hpending]) hfail hafter
    have hlift : ∀ a b, g.Needs w h₁ m a b ∧ h₁.Unmet a →
        h.Needs w (h₁.endLoad name) m a b ∧ (h₁.endLoad name).Unmet a :=
      fun a b hab => ⟨hab.1.mono hbefore hafter, hab.2⟩
    rcases ih less (Nat.lt_succ_self less) b (hg.wellformed hw₀) h₁ hfail with
      hr | ⟨hmem, hchain⟩ | hcircle
    · exact .inl (hr.mono (Host.journal_suffix_of_proceeds hbefore) List.suffix_rfl)
    · have hrest := Relation.ReflTransGen.mono hlift _ _ hchain
      rw [hpending, List.mem_append, List.mem_singleton] at hmem
      rcases hmem with hmem | rfl
      · exact .inr (.inl ⟨hmem, .head ⟨hneeds, hunmet⟩ hrest⟩)
      · exact .inr (.inr (.head' ⟨hneeds, hunmet⟩ hrest))
    · exact .inr (.inr (Relation.TransGen.mono hlift _ _ hcircle))

end Op

/-- A load at the outermost level, from any point of a run or when the host is started, that fails
because of a circular dependency on `m`, with an error that neither the resolver nor a source has
given: `m` needs itself, by way of names each of which needs the next one, and no request for one of
these names has added an assembly. -/
theorem circular_load_needs_itself (hs : Underway h ∨ h = .blank h.id h.config)
    (hp : h.pending = []) {depth : Nat} {name : String}
    (hrun : Op.loadWithin depth name w h = (.error (.failed (.circularDependency m)), h'))
    (hown : ¬Receives w h.journal h'.journal (.circularDependency m)) :
    Relation.TransGen (fun a b => h.Needs w h' m a b ∧ h'.Unmet a) m m := by
  have hw := wellformed_of_underway_or_blank hs
  rcases Op.loadWithin_failsBy depth name hw h' hrun with hr | ⟨hmem, -⟩ | hcircle
  · exact absurd hr hown
  · rw [hp] at hmem
    cases hmem
  · exact hcircle

namespace ImageSpecimen

/-- The host when the load of `East` has been refused. -/
def refused : Host :=
  (Op.loadWithin 4 "East" setup.world setup.firstHost).2

lemma not_receives_circular (start stop : Journal) (name : String) :
    ¬Receives setup.world start stop (.circularDependency name) := by
  intro hr
  cases hr with
  | fromResolver _ _ he => cases he
  | @fromSource source row j _ _ he =>
    have he : ((types source.name)[row]?).elim (Except.error default) Except.ok =
        Except.error (Error.circularDependency name) := he
    cases hrow : (types source.name)[row]? with
    | none =>
      rw [hrow] at he
      cases he
    | some d =>
      rw [hrow] at he
      cases he

end ImageSpecimen

open ImageSpecimen in
/-- `East` needs `West`, to which `Gate` sends it on, and `West` needs `East`. -/
theorem circular_load_needs_itself_specimen :
    Underway setup.firstHost ∧ setup.firstHost.pending = [] ∧
    Op.loadWithin 4 "East" setup.world setup.firstHost =
      (.error (.failed (.circularDependency "East")), refused) ∧
    ¬Receives setup.world setup.firstHost.journal refused.journal (.circularDependency "East") ∧
    Relation.TransGen
      (fun a b => setup.firstHost.Needs setup.world refused "East" a b ∧ refused.Unmet a)
      "East" "East" := by
  have hu : Underway setup.firstHost := .reached reached_firstHost
  have hp : setup.firstHost.pending = [] := by decide +kernel
  have hrun : Op.loadWithin 4 "East" setup.world setup.firstHost =
      (.error (.failed (.circularDependency "East")), refused) :=
    Prod.ext (by decide +kernel) rfl
  have hown := not_receives_circular setup.firstHost.journal refused.journal "East"
  exact ⟨hu, hp, hrun, hown, circular_load_needs_itself (.inl hu) hp hrun hown⟩

end ManagedHost
