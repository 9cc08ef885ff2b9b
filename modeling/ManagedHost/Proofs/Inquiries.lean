/-
# Loading and reflection run no code

Loading and reflection reach far: the methods of a class need the layouts of value types, these
need the fields of other classes, and those may lead to assemblies that have not been loaded.  None
of these ways leads to code.  This is said twice.

* Whatever loading and reflection do is the same in a world that has no code at all, no
  interpreter, no invokers, no native functions and no libraries on disk (`Op.IgnoresCode`).
* Between the states before and after, nothing is noted but questions to the resolver and to
  sources, no initializer has come any further, and the native tables are the same (`Host.Idle`).

Both hold of every program that is made of such operations (`Inquiry`).
-/
import ManagedHost.Proofs.Collections
import ManagedHost.Proofs.Initializers

namespace ManagedHost

/-! ## Worlds without code -/

/-- The world with all code taken away. -/
def World.withoutCode (w : World) : World :=
  { w with
    interpreter := none
    invoker := fun _ _ _ => default
    function := fun _ _ _ => none
    disk := default }

namespace Op

variable {α β δ : Type}

/-- What the operation does does not depend on the code in the world. -/
def IgnoresCode (x : Op α) : Prop :=
  ∀ w h, x w.withoutCode h = x w h

lemma ignoresCode_pure (a : α) : IgnoresCode (pure a) := fun _ _ => rfl

lemma ignoresCode_fail (e : Error) : IgnoresCode (fail e : Op α) := fun _ _ => rfl

lemma ignoresCode_modify (f : Host → Host) : IgnoresCode (modify f) := fun _ _ => rfl

lemma ignoresCode_host : IgnoresCode host := fun _ _ => rfl

lemma ignoresCode_ofExcept (x : Except Error α) : IgnoresCode (ofExcept x) := by
  cases x <;> exact fun _ _ => rfl

lemma IgnoresCode.bind {x : Op α} {f : α → Op β} (hx : IgnoresCode x)
    (hf : ∀ a, IgnoresCode (f a)) : IgnoresCode (x >>= f) := by
  intro w h
  rcases hend : x w h with ⟨s | a, h'⟩
  · rw [bind_run_error hend, bind_run_error ((hx w h).trans hend)]
  · rw [bind_run_ok hend, bind_run_ok ((hx w h).trans hend), hf a w h']

/-- Looking at the parts of the world that are not code. -/
lemma ignoresCode_world_bind {f : World → Op α} (hsame : ∀ w, f w.withoutCode = f w)
    (hf : ∀ w, IgnoresCode (f w)) : IgnoresCode (world >>= f) := by
  intro w h
  change f w.withoutCode w.withoutCode h = f w w h
  rw [hsame, hf]

lemma ignoresCode_host_bind {f : Host → Op α} (hf : ∀ h, IgnoresCode (f h)) :
    IgnoresCode (host >>= f) :=
  ignoresCode_host.bind hf

lemma IgnoresCode.attempt {x : Op α} (hx : IgnoresCode x) : IgnoresCode (attempt x) := by
  intro w h
  rw [Op.attempt, Op.attempt, hx w h]

lemma ignoresCode_each {f : α → Op β} (hf : ∀ a, IgnoresCode (f a)) (xs : List α) :
    IgnoresCode (each f xs) := by
  induction xs with
  | nil => exact ignoresCode_pure []
  | cons a rest ih => exact (hf a).bind fun b => ih.bind fun bs => ignoresCode_pure _

lemma ignoresCode_assembly (a : AssemblyHandle) : IgnoresCode (assembly a) :=
  ignoresCode_host_bind fun h => ignoresCode_ofExcept (h.assembly a)

lemma ignoresCode_module (m : ModuleHandle) : IgnoresCode (module m) :=
  ignoresCode_host_bind fun h => ignoresCode_ofExcept (h.module m)

lemma ignoresCode_cls (c : ClassHandle) : IgnoresCode (cls c) :=
  ignoresCode_host_bind fun h => ignoresCode_ofExcept (h.cls c)

/-- Sources belong to the metadata, not to the code. -/
lemma ignoresCode_ask (source : SourceId) (query : Query) (row : Nat)
    (target : Option ClassHandle) (answer : Source → Nat → Except Error α) :
    IgnoresCode (ask source query row target answer) :=
  (ignoresCode_modify _).bind fun _ => ignoresCode_world_bind (fun _ => rfl) fun _ =>
    ignoresCode_host_bind fun _ => ignoresCode_ofExcept _

/-! ### Loading -/

section Loader

variable {load : String → Op AssemblyHandle} (hl : ∀ name, IgnoresCode (load name))
include hl

lemma ignoresCode_search (space name : String) (steps : Nat) (target : String) :
    IgnoresCode (search load space name steps target) := by
  induction steps generalizing target with
  | zero => exact ignoresCode_fail _
  | succ steps ih =>
    refine (hl target).bind fun a => (ignoresCode_assembly a).bind fun record =>
      (ignoresCode_module _).bind fun m => ignoresCode_host_bind fun h => ?_
    split
    · exact ignoresCode_pure _
    · refine ignoresCode_world_bind (fun _ => rfl) fun w => ?_
      split
      · exact ih _
      · exact ignoresCode_fail _

lemma ignoresCode_resolveWith (origin : Option Module) (r : TypeRef) :
    IgnoresCode (resolveWith load origin r) := by
  induction r with
  | definition row =>
    rw [resolveWith]
    split
    · exact ignoresCode_pure _
    · exact ignoresCode_fail _
  | external target space name => exact ignoresCode_search hl space name _ target
  | nested outer name ih =>
    rw [resolveWith]
    refine ih.bind fun c => (ignoresCode_cls c).bind fun o => (ignoresCode_module _).bind fun m =>
      ignoresCode_host_bind fun h => ?_
    split
    · exact ignoresCode_pure _
    · exact ignoresCode_fail _

lemma ignoresCode_newParent (defs : List TypeDef) (d : TypeDef) :
    IgnoresCode (newParent load defs d) := by
  unfold newParent
  split
  · exact ignoresCode_pure _
  · split
    · exact (ignoresCode_ofExcept _).bind fun _ => ignoresCode_pure _
    · exact (ignoresCode_resolveWith hl none _).bind fun _ => ignoresCode_pure _

omit hl in
lemma ignoresCode_typeDefs (source : SourceId) (count row : Nat) :
    IgnoresCode (typeDefs source count row) := by
  induction count generalizing row with
  | zero => exact ignoresCode_pure []
  | succ count ih =>
    exact (ignoresCode_ask _ _ _ _ _).bind fun d => (ih _).bind fun more => ignoresCode_pure _

lemma ignoresCode_readModule (source : SourceId) : IgnoresCode (readModule load source) := by
  refine ignoresCode_world_bind (fun _ => rfl) fun w => ignoresCode_host_bind fun h => ?_
  refine (ignoresCode_typeDefs source _ 0).bind fun defs =>
    (ignoresCode_ofExcept _).bind fun names =>
    (ignoresCode_each (ignoresCode_newParent hl defs) defs).bind fun parents => ?_
  exact ignoresCode_world_bind (fun _ => rfl) fun _ =>
    ignoresCode_host_bind fun _ => ignoresCode_pure _

lemma ignoresCode_loadNew (name : String) : IgnoresCode (loadNew load name) := by
  refine (ignoresCode_modify _).bind fun _ => ignoresCode_world_bind (fun _ => rfl) fun w =>
    ignoresCode_host_bind fun h => (ignoresCode_ofExcept _).bind fun source => ?_
  exact (ignoresCode_readModule hl source).bind fun n => ignoresCode_host_bind fun _ =>
    (ignoresCode_modify _).bind fun _ => ignoresCode_pure _

end Loader

lemma ignoresCode_loadWithin (depth : Nat) (name : String) :
    IgnoresCode (loadWithin depth name) := by
  induction depth generalizing name with
  | zero =>
    rw [loadWithin]
    refine ignoresCode_host_bind fun h => ?_
    split
    · exact ignoresCode_pure _
    · split
      · exact ignoresCode_fail _
      · exact fun _ _ => rfl
  | succ depth ih =>
    rw [loadWithin]
    refine ignoresCode_host_bind fun h => ?_
    split
    · exact ignoresCode_pure _
    · split
      · exact ignoresCode_fail _
      · exact (ignoresCode_modify _).bind fun _ => (ignoresCode_loadNew ih name).attempt.bind
          fun answer => (ignoresCode_modify _).bind fun _ => ignoresCode_ofExcept answer

lemma ignoresCode_load (name : String) : IgnoresCode (load name) :=
  ignoresCode_world_bind (fun _ => rfl) fun w => ignoresCode_loadWithin w.depth name

/-! ### Reflection -/

lemma ignoresCode_resolve (m : Module) (r : TypeRef) : IgnoresCode (resolve m r) :=
  ignoresCode_resolveWith ignoresCode_load (some m) r

lemma ignoresCode_byValue (c : ClassHandle) : IgnoresCode (byValue c) := by
  refine (ignoresCode_cls c).bind fun record => ?_
  split
  · exact ignoresCode_pure _
  · exact (ignoresCode_module _).bind fun m => ignoresCode_host_bind fun h =>
      (ignoresCode_modify _).bind fun _ => ignoresCode_pure _

lemma ignoresCode_expand {ρ σ : Type} {f g : ρ → Op (Signature σ)} (hf : ∀ r, IgnoresCode (f r))
    (hg : ∀ r, IgnoresCode (g r)) (s : Signature ρ) : IgnoresCode (s.expand f g) := by
  induction s with
  | byRef s ih => exact ih.bind fun _ => ignoresCode_pure _
  | reference r => exact hf r
  | value r => exact hg r
  | _ => exact ignoresCode_pure _

lemma ignoresCode_signature (m : Module) (s : Signature TypeRef) : IgnoresCode (signature m s) :=
  ignoresCode_expand
    (fun r => (ignoresCode_resolve m r).bind ignoresCode_byValue)
    (fun r => (ignoresCode_resolve m r).bind ignoresCode_byValue) s

lemma ignoresCode_collect (k : Collection δ α) (c : ClassHandle)
    {build : Class → Module → List δ → Op (List α)}
    (hb : ∀ r m defs, IgnoresCode (build r m defs)) : IgnoresCode (collect k c build) := by
  refine (ignoresCode_cls c).bind fun record => ?_
  split
  · exact ignoresCode_pure _
  · exact (ignoresCode_module _).bind fun m => (ignoresCode_ask _ _ _ _ _).bind fun defs =>
      (hb _ _ _).bind fun items => (ignoresCode_modify _).bind fun _ => ignoresCode_pure _

lemma ignoresCode_field (c : ClassHandle) (m : Module) (d : FieldDef) :
    IgnoresCode (field c m d) :=
  (ignoresCode_signature m d.type).bind fun _ => ignoresCode_pure _

lemma ignoresCode_fields (c : ClassHandle) : IgnoresCode (fields c) :=
  ignoresCode_collect _ c fun _ m defs => ignoresCode_each (ignoresCode_field c m) defs

lemma ignoresCode_extent {layoutOf : ClassHandle → Op Layout}
    (hl : ∀ c, IgnoresCode (layoutOf c)) (s : Signature ClassHandle) :
    IgnoresCode (extent layoutOf s) := by
  cases s with
  | value c => exact hl c
  | _ => exact ignoresCode_pure _

lemma ignoresCode_keepLayout (c : ClassHandle) (l : Layout) : IgnoresCode (keepLayout c l) := by
  refine (ignoresCode_cls c).bind fun record => ?_
  split
  · exact ignoresCode_pure _
  · exact (ignoresCode_modify _).bind fun _ => ignoresCode_pure _

lemma ignoresCode_layoutWithin (depth : Nat) (c : ClassHandle) :
    IgnoresCode (layoutWithin depth c) := by
  induction depth generalizing c with
  | zero =>
    rw [layoutWithin]
    refine (ignoresCode_cls c).bind fun record => ?_
    split
    · exact ignoresCode_pure _
    · exact ignoresCode_fail _
  | succ depth ih =>
    rw [layoutWithin]
    refine (ignoresCode_cls c).bind fun record => ?_
    split
    · exact ignoresCode_pure _
    · exact (ignoresCode_fields c).bind fun fs =>
        (ignoresCode_each (fun f => ignoresCode_extent ih (Field.type f)) _).bind
          fun parts => ignoresCode_keepLayout c _

lemma ignoresCode_sizeOf (s : Signature ClassHandle) : IgnoresCode (sizeOf s) :=
  (ignoresCode_extent (fun c => ignoresCode_layoutWithin _ c) s).bind fun _ => ignoresCode_pure _

lemma ignoresCode_method (r : Class) (m : Module) (row : Nat) (d : MethodDef) :
    IgnoresCode (method r m row d) := by
  refine (ignoresCode_each (fun p => (ignoresCode_signature m (ParamDef.type p)).bind
    fun _ => ignoresCode_pure _) _).bind fun params => ?_
  refine (ignoresCode_signature m d.result).bind fun result => ?_
  exact (ignoresCode_each (fun p => ignoresCode_sizeOf (Param.type p)) params).bind fun sizes =>
    (ignoresCode_sizeOf result).bind fun _ => ignoresCode_pure _

lemma ignoresCode_methods (c : ClassHandle) : IgnoresCode (methods c) :=
  ignoresCode_collect _ c fun r m _ =>
    ignoresCode_each (fun (d, row) => ignoresCode_method r m row d) _

lemma ignoresCode_accessor (c : ClassHandle) (name : Option String) :
    IgnoresCode (accessor c name) := by
  cases name with
  | none => exact ignoresCode_pure _
  | some name => exact (ignoresCode_methods c).bind fun _ => ignoresCode_pure _

lemma ignoresCode_property (c : ClassHandle) (m : Module) (d : PropertyDef) :
    IgnoresCode (property c m d) :=
  (ignoresCode_signature m d.type).bind fun _ => (ignoresCode_accessor c d.getter).bind fun _ =>
    (ignoresCode_accessor c d.setter).bind fun _ => ignoresCode_pure _

lemma ignoresCode_event (c : ClassHandle) (d : EventDef) : IgnoresCode (event c d) :=
  (ignoresCode_accessor c d.add).bind fun _ => (ignoresCode_accessor c d.remove).bind fun _ =>
    (ignoresCode_accessor c d.raise).bind fun _ => ignoresCode_pure _

lemma ignoresCode_nestedRow (c : ClassHandle) (r : Class) (m : Module) (row : Nat) :
    IgnoresCode (nestedRow c r m row) := by
  unfold nestedRow
  split
  · exact ignoresCode_fail _
  · refine (ignoresCode_cls _).bind fun r' => ?_
    split
    · exact ignoresCode_pure _
    · exact ignoresCode_fail _

lemma ignoresCode_request (k : Kind) (c : ClassHandle) : IgnoresCode (k.request c) := by
  cases k with
  | interfaces =>
    exact ignoresCode_collect _ c fun _ m refs => ignoresCode_each (ignoresCode_resolve m) refs
  | nested =>
    exact ignoresCode_collect _ c fun r m rows =>
      ignoresCode_each (ignoresCode_nestedRow c r m) rows
  | methods => exact ignoresCode_methods c
  | fields => exact ignoresCode_fields c
  | properties =>
    exact ignoresCode_collect _ c fun _ m defs => ignoresCode_each (ignoresCode_property c m) defs
  | events =>
    exact ignoresCode_collect _ c fun _ _ defs => ignoresCode_each (ignoresCode_event c) defs

end Op

/-! ## All facets -/

/-- Every part of a record that is derived. -/
def Facet.all : List Facet :=
  [.interfaces, .nested, .methods, .fields, .properties, .events, .layout, .byValue]

lemma Facet.mem_all (p : Facet) : p ∈ Facet.all := by
  cases p <;> decide

/-! ## Inquiries -/

/-- The operations that load and reflect, and the programs that are made of them. -/
inductive Inquiry : {α : Type} → Op α → Prop
  /-- A question that the tables of the host answer: the record behind a handle, a class by its
  name, the ancestors of a class, whether it is a value type. -/
  | query {α : Type} (f : Host → Except Error α) : Inquiry (do f (← Op.host))
  | load (name : String) : Inquiry (Op.load name)
  | members (k : Kind) (c : ClassHandle) : Inquiry (k.request c)
  | lookup {k : Kind} {c : ClassHandle} {x : Op (Option k.Item)} (hx : k.Lookup c x) : Inquiry x
  | byValue (c : ClassHandle) : Inquiry (Op.byValue c)
  | byReference (c : ClassHandle) : Inquiry (Op.byReference c)
  | layout (c : ClassHandle) : Inquiry (Op.layout c)
  | sizeOf (s : Signature ClassHandle) : Inquiry (Op.sizeOf s)
  /-- Failures may be caught, also as exception objects. -/
  | attempt {α : Type} {x : Op α} (hx : Inquiry x) : Inquiry (Op.attempt x)
  | raising {α : Type} {x : Op α} (hx : Inquiry x) : Inquiry (Op.raising x)
  /-- One inquiry may follow another and depend on its answer. -/
  | bind {α β : Type} {x : Op α} {f : α → Op β} (hx : Inquiry x) (hf : ∀ a, Inquiry (f a)) :
      Inquiry (x >>= f)

namespace Inquiry

open Op

variable {α : Type} {x : Op α}

lemma ignoresCode (hx : Inquiry x) : IgnoresCode x := by
  induction hx with
  | query f => exact ignoresCode_host_bind fun h => ignoresCode_ofExcept (f h)
  | load name => exact ignoresCode_load name
  | members k c => exact ignoresCode_request k c
  | @lookup k c _ hx =>
    obtain ⟨pred, rfl⟩ := hx.exists_eq
    exact (ignoresCode_request k c).bind fun _ => ignoresCode_pure _
  | byValue c => exact ignoresCode_byValue c
  | byReference c => exact (ignoresCode_byValue c).bind fun _ => ignoresCode_pure _
  | layout c => exact ignoresCode_layoutWithin _ c
  | sizeOf s => exact ignoresCode_sizeOf s
  | attempt _ ih => exact ih.attempt
  | raising _ ih =>
    refine ih.attempt.bind fun answer => ?_
    split
    · exact ignoresCode_pure _
    · exact ignoresCode_world_bind (fun _ => rfl) fun _ => ignoresCode_pure _
  | bind _ _ ihx ihf => exact ihx.bind ihf

/-- Whatever an inquiry is made of, it takes the steps of reflection. -/
lemma obeys (hx : Inquiry x) {w : World} {h : Host} (hw : h.Wellformed) :
    x.Obeys w (Host.Learns w Facet.all) h fun _ _ => True := by
  have hall : ∀ K : List Facet, K ⊆ Facet.all := fun K p _ => p.mem_all
  have hmembers : ∀ (k : Kind) (c : ClassHandle) {g : Host}, g.Wellformed →
      (k.request c).Obeys w (Host.Learns w Facet.all) g fun _ _ => True := by
    intro k c g hg
    obtain ⟨K, hobeys⟩ := (k.collects_request c).obeys_learns (w := w) hg
    exact (hobeys.weaken (hall K)).trivial_post
  have hbyValue : ∀ (c : ClassHandle) {g : Host}, g.Wellformed →
      (Op.byValue c).Obeys w (Host.Learns w Facet.all) g fun _ _ => True :=
    fun c g hg => ((byValue_obeys c hg).weaken (hall _)).trivial_post
  induction hx generalizing h with
  | query f => exact obeys_host_bind.mpr (obeys_ofExcept (f h)).trivial_post
  | load name => exact ((isLoader_load w name h hw).learns (K := Facet.all)).trivial_post
  | members k c => exact hmembers k c hw
  | @lookup k c _ hx =>
    obtain ⟨pred, rfl⟩ := hx.exists_eq
    exact (hmembers k c hw).bind fun _ _ _ _ => obeys_pure trivial
  | byValue c => exact hbyValue c hw
  | byReference c => exact (hbyValue c hw).bind fun _ _ _ _ => obeys_pure trivial
  | layout c => exact ((layout_obeys c hw).weaken (hall _)).trivial_post
  | sizeOf s => exact ((sizeOf_obeys s hw).weaken (hall _)).trivial_post
  | attempt _ ih => exact (ih hw).attempt.trivial_post
  | raising _ ih =>
    refine (ih hw).attempt.bind fun answer h₁ _ _ => ?_
    split
    · exact obeys_pure trivial
    · exact obeys_world_bind.mpr (obeys_pure trivial)
  | bind _ _ ihx ihf => exact (ihx hw).bind fun a h₁ hl _ => ihf a (hl.wellformed hw)

end Inquiry

/-- An inquiry at any point of a run, however many assemblies it loads and whether it succeeds or
fails, does what it would do in a world without code.  It enters no body, and notes nothing but
questions to the resolver and to sources.  The initializers of all classes that were there are
where they were, those of the classes that have been added are untouched, and the three native
tables are the same. -/
theorem inquiries_run_no_code {fs : List Frame} {h : Host} (hr : Reached fs h) (w : World)
    {α : Type} {x : Op α} (hx : Inquiry x) :
    x w h = x w.withoutCode h ∧
    ∀ answer h', x w h = (answer, h') → answer ≠ .error .lost →
      (∃ new, h'.journal = new ++ h.journal ∧ ∀ e ∈ new, e.IsInquiry) ∧
      (∀ c r, h.cls c = .ok r → ∃ r', h'.cls c = .ok r' ∧ r'.init = r.init) ∧
      (∀ c r', h'.cls c = .ok r' → ¬h.Has c → r'.init = .untouched) ∧
      h'.natives = h.natives := by
  refine ⟨(hx.ignoresCode w h).symm, fun answer h' hrun hlost => ?_⟩
  have hw := hr.sound.settled.wellformed
  have hlearns : h.Learns w Facet.all h' := by
    have hrel := (hx.obeys (w := w) hw).rel (by rw [hrun]; exact hlost)
    rwa [hrun] at hrel
  have hidle := hlearns.idle
  refine ⟨hidle.journal, fun c r hc => ?_, fun c r' hc hnew => ?_, hidle.natives_eq⟩
  · obtain ⟨r', hr', -⟩ := hlearns.cls hc
    have hinit := hidle.initOf_eq c
    rw [Host.initOf_of_cls hc, Host.initOf_of_cls hr'] at hinit
    exact ⟨r', hr', hinit⟩
  · rw [← Host.initOf_of_cls hc, hidle.initOf_eq, Host.initOf_of_not_has hnew]

namespace Specimen

/-- Load `B`, then ask for the fields of the type of `A`, which its source does not know. -/
def loadThenFields : Op (List Field) := do
  let _ ← Op.load "B"
  Op.fields ⟨1, 1⟩

lemma inquiry_loadThenFields : Inquiry loadThenFields :=
  .bind (.load "B") fun _ => .members .fields ⟨1, 1⟩

end Specimen

/-- An inquiry that adds a class and fails then, in a host where an initializer has failed. -/
theorem inquiries_run_no_code_specimen :
    ∃ h', Specimen.loadThenFields Specimen.setup.world Specimen.hostWithFailure =
        (.error (.failed (.startup "")), h') ∧
      Specimen.loadThenFields Specimen.setup.world.withoutCode Specimen.hostWithFailure =
        (.error (.failed (.startup "")), h') ∧
      ¬Specimen.hostWithFailure.Has ⟨1, 2⟩ ∧
      h'.natives = Specimen.hostWithFailure.natives ∧
      (∃ r, h'.cls ⟨1, 1⟩ = .ok r ∧ r.init = .failed (.invocation "broken")) ∧
      ∃ r, h'.cls ⟨1, 2⟩ = .ok r ∧ r.init = .untouched := by
  have hrun : (Specimen.loadThenFields Specimen.setup.world Specimen.hostWithFailure).1 =
      .error (.failed (.startup "")) := by decide +kernel
  have hold : (Specimen.hostWithFailure.cls? ⟨1, 1⟩).map (·.init) =
      some (.failed (.invocation "broken")) := by decide +kernel
  have hnew :
      (Specimen.loadThenFields Specimen.setup.world Specimen.hostWithFailure).2.Has ⟨1, 2⟩ := by
    constructor <;> decide +kernel
  have hno : ¬Specimen.hostWithFailure.Has ⟨1, 2⟩ := by
    rintro ⟨-, hlt⟩
    exact absurd hlt (by decide +kernel)
  obtain ⟨hcode, hidle⟩ := inquiries_run_no_code Specimen.reached_hostWithFailure
    Specimen.setup.world Specimen.inquiry_loadThenFields
  obtain ⟨-, hkept, huntouched, hnatives⟩ := hidle _ _ (Prod.ext hrun rfl) (by simp)
  obtain ⟨r, hr, hinit⟩ := Option.map_eq_some_iff.mp hold
  obtain ⟨r₁, hr₁, hsame⟩ := hkept _ r (Host.cls?_eq_some_iff.mp hr)
  obtain ⟨r₂, hr₂⟩ := Host.has_iff_cls.mp hnew
  exact ⟨_, Prod.ext hrun rfl, hcode.symm.trans (Prod.ext hrun rfl), hno, hnatives,
    ⟨r₁, hr₁, hsame.trans hinit⟩, r₂, hr₂, huntouched _ r₂ hr₂ hno⟩

end ManagedHost
