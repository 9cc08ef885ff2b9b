/-
# Loads within loads come to an end

Looking for the parents of its types, a load asks for further loads, and nothing keeps the sources
from sending it round in circles.  Still it ends.  A load is begun only for a name that is not known
and whose load is not under way; if the resolver finds a source for it, the name is under way from
then on, and otherwise the load fails at once, and with it all loads around it.  So if only finitely
many names can be found at all, each of them is asked for once at most, and one that cannot be found
is asked for last.

* `World.openNames`: how many names can be found whose load is not under way.
* `Host.Seeks`: for which names the resolver was asked by loads that have ended.
* `Op.Concludes`: an operation ends, and another one does the same.
* `loads_terminate`: how deep loads nest, and how many of them there are.
-/
import Mathlib.Data.Set.Card
import ManagedHost.Proofs.Provenance

namespace ManagedHost

variable {w : World} {h h₁ h' : Host} {name : String} {names names₁ names₂ : List String}

/-! ## Names that can be found -/

/-- At some time the resolver finds a source for this name. -/
def World.Resolvable (w : World) (name : String) : Prop :=
  ∃ j source, w.resolve j name = .ok source

/-- How many names can be found whose load is not under way. -/
noncomputable def World.openNames (w : World) (pending : List String) : Nat :=
  {name | w.Resolvable name ∧ name ∉ pending}.ncard

section Finite

variable (hfin : {name | w.Resolvable name}.Finite) {pending : List String}

include hfin

lemma World.openNames_begun (hname : w.Resolvable name) (hp : name ∉ pending) :
    w.openNames (pending ++ [name]) < w.openNames pending := by
  refine Set.ncard_lt_ncard ?_ (hfin.subset fun n hn => hn.1)
  rw [Set.ssubset_iff_of_subset]
  · exact ⟨name, ⟨hname, hp⟩, fun hn => hn.2 (by simp)⟩
  · exact fun n hn => ⟨hn.1, fun hmem => hn.2 (List.mem_append_left _ hmem)⟩

lemma World.length_le_openNames (hnodup : names.Nodup)
    (hopen : ∀ n ∈ names, w.Resolvable n ∧ n ∉ pending) : names.length ≤ w.openNames pending := by
  rw [← List.toFinset_card_of_nodup hnodup, ← Set.ncard_coe_finset]
  refine Set.ncard_le_ncard (fun n hn => hopen n (by simpa using hn)) ?_
  exact hfin.subset fun n hn => hn.1

end Finite

/-! ## What was asked of the resolver -/

namespace Host

/-- The names for which the resolver was asked, the last one first. -/
def sought (h : Host) : List String :=
  h.journal.filterMap fun
    | .resolved name => some name
    | _ => none

/-- By loads that have ended, `h'` arises from `h`, and for these names loads were begun, the last
one first. -/
structure Seeks (w : World) (h h' : Host) (names : List String) : Prop where
  loads : h.Loads w h'
  sought_eq : h'.sought = names ++ h.sought
  nodup : names.Nodup
  /-- No load is begun for a name that is known or whose load is under way. -/
  fresh : ∀ n ∈ names, h.findAssembly n = none ∧ n ∉ h.pending
  /-- After a name that was not found no load is begun. -/
  found : ∀ n ∈ names.tail, w.Resolvable n

namespace Seeks

lemma of_quiet (hl : h.Loads w h') (hs : h'.sought = h.sought) : h.Seeks w h' [] :=
  ⟨hl, hs, List.nodup_nil, by simp, by simp⟩

lemma rfl' (w : World) (h : Host) : h.Seeks w h [] :=
  .of_quiet (.rfl' w h) rfl

/-- If all loads have succeeded, more of them can follow. -/
lemma trans (h01 : h.Seeks w h₁ names₁)
    (hmet : ∀ n ∈ names₁, h₁.findAssembly n ≠ none ∧ w.Resolvable n)
    (h12 : h₁.Seeks w h' names₂) : h.Seeks w h' (names₂ ++ names₁) := by
  have hext := h01.loads.toExtends
  refine ⟨h01.loads.trans h12.loads, ?_, ?_, fun n hn => ?_, fun n hn => ?_⟩
  · rw [h12.sought_eq, h01.sought_eq, List.append_assoc]
  · -- what was asked for before is known now, and is not asked for again
    refine List.nodup_append'.mpr ⟨h12.nodup, h01.nodup, fun n hn₂ hn₁ => ?_⟩
    exact (hmet n hn₁).1 (h12.fresh n hn₂).1
  · rcases List.mem_append.mp hn with hn | hn
    · obtain ⟨hnone, hp⟩ := h12.fresh n hn
      exact ⟨hext.findAssembly_eq_none hnone, hext.pending_eq ▸ hp⟩
    · exact h01.fresh n hn
  · cases names₂ with
    | nil => exact h01.found n hn
    | cons last rest =>
      rcases List.mem_append.mp hn with hn | hn
      · exact h12.found n hn
      · exact (hmet n hn).2

/-- A load that is neither spared nor refused asks the resolver for its name first. -/
lemma of_begun (hs : ((h.beginLoad name).note (.resolved name)).Seeks w h₁ names)
    (hl : h.Loads w h') (heq : h'.sought = h₁.sought) (hn : h.findAssembly name = none)
    (hp : name ∉ h.pending) (hname : names ≠ [] → w.Resolvable name) :
    h.Seeks w h' (names ++ [name]) := by
  have hfresh : ∀ n ∈ names, h.findAssembly n = none ∧ n ∉ h.pending ∧ n ≠ name := by
    intro n hn
    obtain ⟨hnone, hpending⟩ := hs.fresh n hn
    have hpending : n ∉ h.pending ++ [name] := hpending
    simp only [List.mem_append, List.mem_singleton, not_or] at hpending
    exact ⟨hnone, hpending.1, hpending.2⟩
  refine ⟨hl, ?_, ?_, fun n hmem => ?_, fun n hmem => ?_⟩
  · rw [heq, hs.sought_eq, List.append_assoc]
    rfl
  · refine List.nodup_append'.mpr ⟨hs.nodup, List.nodup_singleton name, fun n hn hmem => ?_⟩
    exact (hfresh n hn).2.2 (List.mem_singleton.mp hmem)
  · rcases List.mem_append.mp hmem with hmem | hmem
    · exact ⟨(hfresh n hmem).1, (hfresh n hmem).2.1⟩
    · rw [List.mem_singleton.mp hmem]
      exact ⟨hn, hp⟩
  · cases names with
    | nil => simp at hmem
    | cons last rest =>
      rcases List.mem_append.mp hmem with hmem | hmem
      · exact hs.found n hmem
      · rw [List.mem_singleton.mp hmem]
        exact hname (by simp)

/-- At most one of the names cannot be found. -/
lemma length_le (hs : h.Seeks w h' names) (hfin : {name | w.Resolvable name}.Finite) :
    names.length ≤ w.openNames h.pending + 1 := by
  have htail : names.tail.length ≤ w.openNames h.pending :=
    w.length_le_openNames hfin hs.nodup.tail fun n hn =>
      ⟨hs.found n hn, (hs.fresh n (List.mem_of_mem_tail hn)).2⟩
  rw [List.length_tail] at htail
  omega

end Seeks

end Host

/-! ## Operations that end -/

namespace Op

variable {α β : Type} {x y : Op α} {f g : α → Op β}

/-- Started in state `h`, the operation is not lost, the operation `y` does the same, and the loads
that were begun meanwhile have ended.  If it answers, they have all succeeded. -/
inductive Concludes (x y : Op α) (w : World) (h : Host) : Prop
  | answered {a : α} {h' : Host} {names : List String} (hx : x w h = (.ok a, h'))
      (hy : y w h = (.ok a, h')) (hs : h.Seeks w h' names)
      (hmet : ∀ n ∈ names, h'.findAssembly n ≠ none ∧ w.Resolvable n)
  | failed {e : Error} {h' : Host} {names : List String} (hx : x w h = (.error (.failed e), h'))
      (hy : y w h = (.error (.failed e), h')) (hs : h.Seeks w h' names)

namespace Concludes

/-- An operation by which no load is begun. -/
lemma of_run {o : Except Error α} (hrun : x w h = (o.mapError .failed, h'))
    (hl : h.Loads w h') (hs : h'.sought = h.sought) : x.Concludes x w h := by
  cases o with
  | ok a => exact .answered hrun hrun (.of_quiet hl hs) (by simp)
  | error e => exact .failed hrun hrun (.of_quiet hl hs)

lemma of_liftM (o : Except Error α) : (liftM o : Op α).Concludes (liftM o) w h :=
  .of_run (liftM_run o) (.rfl' w h) rfl

lemma pure (a : α) : (Pure.pure a : Op α).Concludes (Pure.pure a) w h :=
  .of_liftM (.ok a)

lemma fail (e : Error) : (Op.fail e : Op α).Concludes (Op.fail e) w h :=
  .of_liftM (.error e)

lemma assembly (a : AssemblyHandle) : (Op.assembly a).Concludes (Op.assembly a) w h :=
  .of_run (liftM_run (h.assembly a)) (.rfl' w h) rfl

lemma module (m : ModuleHandle) : (Op.module m).Concludes (Op.module m) w h :=
  .of_run (liftM_run (h.module m)) (.rfl' w h) rfl

lemma cls (c : ClassHandle) : (Op.cls c).Concludes (Op.cls c) w h :=
  .of_run (liftM_run (h.cls c)) (.rfl' w h) rfl

lemma bind (hx : x.Concludes y w h)
    (hf : ∀ a h', h.Loads w h' → (f a).Concludes (g a) w h') :
    (x >>= f).Concludes (y >>= g) w h := by
  cases hx with
  | @answered a h₁ names hx hy hs hmet =>
    cases hf a h₁ hs.loads with
    | @answered b h₂ names' hfa hga hs' hmet' =>
      refine .answered ((bind_run_ok hx).trans hfa) ((bind_run_ok hy).trans hga)
        (hs.trans hmet hs') fun n hn => ?_
      rcases List.mem_append.mp hn with hn | hn
      · exact hmet' n hn
      · obtain ⟨hknown, hfound⟩ := hmet n hn
        exact ⟨fun hnone => hknown (hs'.loads.toExtends.findAssembly_eq_none hnone), hfound⟩
    | failed hfa hga hs' =>
      exact .failed ((bind_run_ok hx).trans hfa) ((bind_run_ok hy).trans hga) (hs.trans hmet hs')
  | failed hx hy hs => exact .failed (bind_run_error hx) (bind_run_error hy) hs

lemma run_eq (hx : x.Concludes y w h) : y w h = x w h := by
  cases hx with
  | answered hx hy => exact hy.trans hx.symm
  | failed hx hy => exact hy.trans hx.symm

lemma congr {y' : Op α} (hx : x.Concludes y w h) (heq : y' w h = y w h) :
    x.Concludes y' w h := by
  cases hx with
  | answered hx hy hs hmet => exact .answered hx (heq.trans hy) hs hmet
  | failed hx hy hs => exact .failed hx (heq.trans hy) hs

/-- A first step that only looks at the host. -/
lemma looking {z : Op β} {f g : β → Op α} {b : β} (hz : z w h = (.ok b, h))
    (hf : (f b).Concludes (g b) w h) : (z >>= f).Concludes (z >>= g) w h := by
  have hfz := bind_run_ok (f := f) hz
  have hgz := bind_run_ok (f := g) hz
  cases hf with
  | answered hx hy hs hmet => exact .answered (hfz.trans hx) (hgz.trans hy) hs hmet
  | failed hx hy hs => exact .failed (hfz.trans hx) (hgz.trans hy) hs

end Concludes

lemma each_concludes {f g : α → Op β} (xs : List α)
    (hf : ∀ a ∈ xs, ∀ h₁, h.Loads w h₁ → (f a).Concludes (g a) w h₁) :
    (each f xs).Concludes (each g xs) w h := by
  induction xs generalizing h with
  | nil => exact .pure []
  | cons a rest ih =>
    refine (hf a (by simp) h (.rfl' w h)).bind fun b h₁ h01 => ?_
    refine (ih fun a' ha' h₂ h12 => hf a' (by simp [ha']) h₂ (h01.trans h12)).bind
      fun bs h₂ _ => ?_
    exact .pure (b :: bs)

/-! ## The parts of a load -/

/-- Two ways to load assemblies that end and do the same while just the loads of these names are
under way. -/
def Agree (w : World) (pending : List String) (load load' : String → Op AssemblyHandle) : Prop :=
  ∀ name h, h.Wellformed → h.pending = pending → (load name).Concludes (load' name) w h

section Parts

variable {pending : List String} {load load' : String → Op AssemblyHandle}
  (hl : Agree w pending load load')

include hl

lemma search_concludes (space name : String) (steps : Nat) (target : String) (hw : h.Wellformed)
    (hp : h.pending = pending) :
    (search load space name steps target).Concludes (search load' space name steps target) w h := by
  induction steps generalizing h target with
  | zero => exact .fail _
  | succ steps ih =>
    refine (hl target h hw hp).bind fun a h₁ h01 => ?_
    refine (Concludes.assembly a).bind fun record h₂ h12 => ?_
    refine (Concludes.module record.module).bind fun m h₃ h23 => ?_
    refine .looking (b := h₃) rfl ?_
    cases h₃.findClass m.classes (·.fullName == inSpace space name) with
    | some c => exact .pure c
    | none =>
      refine .looking (b := w) rfl ?_
      cases (w.source h₃.journal m.source).forwarded space name with
      | none => exact .fail _
      | some next =>
        have h03 := h01.trans (h12.trans h23)
        exact ih next (h03.wellformed hw) (h03.toExtends.pending_eq.trans hp)

lemma resolveWith_concludes (origin : Option Module) (r : TypeRef) (hw : h.Wellformed)
    (hp : h.pending = pending) :
    (resolveWith load origin r).Concludes (resolveWith load' origin r) w h := by
  induction r with
  | definition row =>
    rw [resolveWith, resolveWith]
    cases origin.bind (·.classes[row]?) with
    | some c => exact .pure c
    | none => exact .fail _
  | external target space name => exact search_concludes hl space name maxForwards target hw hp
  | nested outer name ih =>
    refine ih.bind fun c h₁ _ => ?_
    refine (Concludes.cls c).bind fun o h₂ _ => ?_
    refine (Concludes.module o.module).bind fun m h₃ _ => ?_
    refine .looking (b := h₃) rfl ?_
    cases h₃.findClass m.classes (·.fullName == o.fullName ++ "/" ++ name) with
    | some c => exact .pure c
    | none => exact .fail _

lemma newParent_concludes (defs : List TypeDef) (d : TypeDef) (hw : h.Wellformed)
    (hp : h.pending = pending) :
    (newParent load defs d).Concludes (newParent load' defs d) w h := by
  unfold newParent
  cases d.parent with
  | none => exact .pure none
  | some r =>
    by_cases hr : r.isLocal
    · simp only [hr, if_true]
      exact (Concludes.of_liftM (localRow defs r)).bind
        fun row _ _ => .pure (some (NewParent.own row))
    · simp only [hr]
      exact (resolveWith_concludes hl none r hw hp).bind
        fun c _ _ => .pure (some (NewParent.foreign c))

omit hl in
lemma typeDefs_concludes (source : SourceId) (count row : Nat) :
    (typeDefs source count row).Concludes (typeDefs source count row) w h := by
  induction count generalizing h row with
  | zero => exact .pure []
  | succ count ih =>
    have hask : ask source .typeDef row none Source.typeDef w h =
        (((w.source (.asked source .typeDef row none :: h.journal) source).typeDef row).mapError
          .failed, h.note (.asked source .typeDef row none)) := liftM_run _
    refine (Concludes.of_run hask (.question w h trivial) rfl).bind fun d h₁ _ => ?_
    exact (ih (row + 1)).bind fun more _ _ => .pure (d :: more)

lemma readModule_concludes (source : SourceId) (hw : h.Wellformed) (hp : h.pending = pending) :
    (readModule load source).Concludes (readModule load' source) w h := by
  refine .looking (b := w) rfl (.looking (b := h) rfl ?_)
  refine (typeDefs_concludes source _ 0).bind fun defs h₁ h01 => ?_
  refine (Concludes.of_liftM (qualifiedNames defs)).bind fun names h₂ h12 => ?_
  refine (each_concludes defs fun d _ h₃ h23 => ?_).bind fun parents h₄ _ => ?_
  · have h03 := h01.trans (h12.trans h23)
    exact newParent_concludes hl defs d (h03.wellformed hw) (h03.toExtends.pending_eq.trans hp)
  · exact .looking (b := w) rfl (.looking (b := h₄) rfl (.pure _))

end Parts

/-! ## Whole loads -/

variable {load : String → Op AssemblyHandle}

lemma readNew_run_found {source : SourceId}
    (hs : w.resolve (.resolved name :: h.journal) name = .ok source) :
    readNew load name w h = readModule load source w (h.note (.resolved name)) := by
  have hlift : (liftM (w.resolve (.resolved name :: h.journal) name) : Op SourceId) w
      (h.note (.resolved name)) = (.ok source, h.note (.resolved name)) := by
    rw [hs]
    rfl
  exact bind_run_ok hlift

lemma readNew_run_missing {e : Error}
    (hs : w.resolve (.resolved name :: h.journal) name = .error e) :
    readNew load name w h = (.error (.failed e), h.note (.resolved name)) := by
  have hlift : (liftM (w.resolve (.resolved name :: h.journal) name) : Op SourceId) w
      (h.note (.resolved name)) = (.error (.failed e), h.note (.resolved name)) := by
    rw [hs]
    rfl
  exact bind_run_error (x := liftM (w.resolve (.resolved name :: h.journal) name)) hlift

/-- A load whose name has been found ends if its further loads do. -/
lemma loadWithin_concludes_of_found {depth depth' : Nat} {source : SourceId} (hw : h.Wellformed)
    (hn : h.findAssembly name = none) (hp : name ∉ h.pending)
    (hsource : w.resolve (.resolved name :: h.journal) name = .ok source)
    (hl : Agree w (h.pending ++ [name]) (loadWithin depth) (loadWithin depth')) :
    (loadWithin (depth + 1) name).Concludes (loadWithin (depth' + 1) name) w h := by
  have hfound : w.Resolvable name := ⟨_, source, hsource⟩
  have hrel := isLoader_loadWithin w (depth + 1) name h hw
  have hx := loadWithin_succ (w := w) depth hn hp
  have hy := loadWithin_succ (w := w) depth' hn hp
  rw [readNew_run_found (h := h.beginLoad name) hsource] at hx hy
  have hread := readModule_concludes (h := (h.beginLoad name).note (.resolved name)) hl source
    (hw.congr rfl rfl rfl rfl rfl) rfl
  cases hread with
  | @answered n h₁ names hrun hrun' hs hmet =>
    rw [hrun] at hx
    rw [hrun'] at hy
    have hloads := (hrel.of_ok hx).1
    refine .answered hx hy (hs.of_begun hloads rfl hn hp fun _ => hfound) fun other hmem => ?_
    have hcommit : ((h₁.commit name n).endLoad name).findAssembly other =
        (h₁.commit name n).findAssembly other := rfl
    rw [hcommit, Host.findAssembly_commit]
    rcases List.mem_append.mp hmem with hmem | hmem
    · obtain ⟨hknown, hother⟩ := hmet other hmem
      split
      · exact ⟨by simp, hother⟩
      · exact ⟨hknown, hother⟩
    · rw [List.mem_singleton.mp hmem]
      exact ⟨by simp, hfound⟩
  | failed hrun hrun' hs =>
    rw [hrun] at hx
    rw [hrun'] at hy
    exact .failed hx hy (hs.of_begun (hrel.of_failed hx) rfl hn hp fun _ => hfound)

/-- A load whose name is not found ends at once. -/
lemma loadWithin_concludes_of_missing {e : Error} (depth depth' : Nat) (hw : h.Wellformed)
    (hn : h.findAssembly name = none) (hp : name ∉ h.pending)
    (hmissing : w.resolve (.resolved name :: h.journal) name = .error e) :
    (loadWithin (depth + 1) name).Concludes (loadWithin (depth' + 1) name) w h := by
  have hx := loadWithin_succ (w := w) depth hn hp
  have hy := loadWithin_succ (w := w) depth' hn hp
  rw [readNew_run_missing (h := h.beginLoad name) hmissing] at hx hy
  have hloads := (isLoader_loadWithin w (depth + 1) name h hw).of_failed hx
  exact .failed hx hy ((Host.Seeks.rfl' w _).of_begun hloads rfl hn hp (by simp))

/-- Loads end, and they do so in the same way, as soon as they may nest deeper than there are names
to be found. -/
lemma loadWithin_concludes (hfin : {name | w.Resolvable name}.Finite) (depth depth' : Nat)
    (name : String) (hw : h.Wellformed) (hd : w.openNames h.pending < depth)
    (hd' : w.openNames h.pending < depth') :
    (loadWithin depth name).Concludes (loadWithin depth' name) w h := by
  induction depth generalizing depth' name h with
  | zero => exact absurd hd (Nat.not_lt_zero _)
  | succ depth ih =>
    obtain ⟨depth', rfl⟩ := Nat.exists_eq_add_one_of_ne_zero (Nat.ne_zero_of_lt hd')
    rcases hn : h.findAssembly name with _ | a
    swap
    · exact .answered (loadWithin_known _ hn) (loadWithin_known _ hn) (.rfl' w h) (by simp)
    by_cases hp : name ∈ h.pending
    · exact .failed (loadWithin_pending _ hn hp) (loadWithin_pending _ hn hp) (.rfl' w h)
    rcases hsource : w.resolve (.resolved name :: h.journal) name with e | source
    · exact loadWithin_concludes_of_missing depth depth' hw hn hp hsource
    · refine loadWithin_concludes_of_found hw hn hp hsource fun other g hg hpending => ?_
      -- one name less is open while this load is under way
      have hless := w.openNames_begun hfin ⟨_, source, hsource⟩ hp
      rw [← hpending] at hless
      exact ih depth' other hg (by omega) (by omega)

/-- Given a stack on which loads may nest this deep, or a deeper one, the operation comes to the
same end, and in its course no more loads than this are begun, all of different names. -/
def FinishesWithin (x : Nat → Op α) (w : World) (h : Host) (bound : Nat) : Prop :=
  ∃ (answer : Except Error α) (h' : Host) (names : List String),
    (∀ depth, bound ≤ depth → x depth w h = (answer.mapError .failed, h')) ∧
    h'.sought = names ++ h.sought ∧ names.Nodup ∧ names.length ≤ bound

lemma finishesWithin_of_concludes {x : Nat → Op α} (hfin : {name | w.Resolvable name}.Finite)
    (hx : ∀ depth, w.openNames h.pending < depth →
      (x (w.openNames h.pending + 1)).Concludes (x depth) w h) :
    FinishesWithin x w h (w.openNames h.pending + 1) := by
  cases hx _ (Nat.lt_succ_self _) with
  | @answered a h' names hrun _ hs _ =>
    exact ⟨.ok a, h', names, fun depth hd => (hx depth hd).run_eq.trans hrun, hs.sought_eq,
      hs.nodup, hs.length_le hfin⟩
  | @failed e h' names hrun _ hs =>
    exact ⟨.error e, h', names, fun depth hd => (hx depth hd).run_eq.trans hrun, hs.sought_eq,
      hs.nodup, hs.length_le hfin⟩

end Op

open Op

/-- Suppose that the resolver finds finitely many names at most, whatever it says about them and
whatever their sources say.  Wherever in a run, or when the host is started, a load of any name and
the resolution of any reference from anywhere end with an answer or an error; they need a stack on
which loads nest at most one deeper than there are names to be found whose load is not under way,
and no more loads than that are begun altogether. -/
theorem loads_terminate (hfin : {name | w.Resolvable name}.Finite)
    (hs : Underway h ∨ h = .blank h.id h.config) :
    (∀ name, FinishesWithin (loadWithin · name) w h (w.openNames h.pending + 1)) ∧
    (∀ origin r, FinishesWithin (fun depth => resolveWith (loadWithin depth) origin r) w h
      (w.openNames h.pending + 1)) ∧
    (w.openNames h.pending < w.depth →
      (∀ name, ∃ (answer : Except Error AssemblyHandle) (h' : Host),
        load name w h = (answer.mapError .failed, h')) ∧
      ∀ m r, ∃ (answer : Except Error ClassHandle) (h' : Host),
        resolve m r w h = (answer.mapError .failed, h')) := by
  have hw := wellformed_of_underway_or_blank hs
  have hagree : ∀ depth, w.openNames h.pending < depth →
      Agree w h.pending (loadWithin (w.openNames h.pending + 1)) (loadWithin depth) := by
    intro depth hd name g hg hp
    rw [← hp] at hd ⊢
    exact loadWithin_concludes hfin _ depth name hg (Nat.lt_succ_self _) hd
  have hload : ∀ name, FinishesWithin (loadWithin · name) w h (w.openNames h.pending + 1) :=
    fun name => finishesWithin_of_concludes hfin fun depth hd => hagree depth hd name h hw rfl
  have hresolve : ∀ origin r, FinishesWithin
      (fun depth => resolveWith (loadWithin depth) origin r) w h (w.openNames h.pending + 1) :=
    fun origin r => finishesWithin_of_concludes hfin fun depth hd =>
      resolveWith_concludes (hagree depth hd) origin r hw rfl
  refine ⟨hload, hresolve, fun hd => ⟨fun name => ?_, fun m r => ?_⟩⟩
  · obtain ⟨answer, h', -, hrun, -⟩ := hload name
    exact ⟨answer, h', hrun w.depth hd⟩
  · obtain ⟨answer, h', -, hrun, -⟩ := hresolve (some m) r
    have hset : Agree w h.pending (loadWithin (w.openNames h.pending + 1)) load :=
      fun name g hg hp => (hagree w.depth hd name g hg hp).congr rfl
    have hown := resolveWith_concludes hset (some m) r hw rfl
    exact ⟨answer, h', hown.run_eq.trans (hrun _ le_rfl)⟩

/-! A world of three assemblies.  The type of `A` inherits from one in `B`, that of `B` from one in
`C`, and that of `C` from one in `D`, which is not found. -/

namespace ChainSpecimen

/-- The assembly of the parent of the type of an assembly. -/
def next : String → Option String
  | "A" => some "B"
  | "B" => some "C"
  | "C" => some "D"
  | _ => none

/-- The names that are found. -/
def found : List String :=
  ["A", "B", "C"]

/-- The surroundings of the host. -/
def world : World :=
  { (default : World) with
    depth := 4
    resolve := fun _ name => if name ∈ found then .ok { name } else .error (.fileNotFound name)
    source := fun _ id =>
      { (default : Source) with
        assemblyName := id.name
        typeCount := 1
        typeDef := fun _ =>
          .ok { space := "N", name := "T", parent := (next id.name).map (.external · "N" "T") } } }

/-- A host before it is started. -/
def host : Host :=
  .blank 1 .standard

lemma resolvable_iff : world.Resolvable name ↔ name ∈ found := by
  constructor
  · rintro ⟨j, source, hs⟩
    by_contra hname
    have hs : (if name ∈ found then Except.ok { name } else .error (Error.fileNotFound name)) =
        .ok source := hs
    rw [if_neg hname] at hs
    cases hs
  · exact fun hname => ⟨[], { name }, if_pos hname⟩

lemma finite_resolvable : {name | world.Resolvable name}.Finite := by
  simp only [resolvable_iff]
  exact List.finite_toSet found

lemma openNames_eq : world.openNames host.pending = 3 := by
  have hset : {name | world.Resolvable name ∧ name ∉ host.pending} =
      (found.toFinset : Set String) := by
    ext name
    simp [resolvable_iff, host, Host.blank]
  rw [World.openNames, hset, Set.ncard_coe_finset]
  decide

end ChainSpecimen

open ChainSpecimen in
/-- Loads nest four deep when `A` is loaded, one deeper than there are names to be found, and a
stack of depth three is too small for them. -/
theorem loads_terminate_specimen :
    {name | world.Resolvable name}.Finite ∧ (host : Host) = .blank host.id host.config ∧
    world.openNames host.pending = 3 ∧ (loadWithin 3 "A" world host).1 = .error .lost ∧
    (∀ depth, 4 ≤ depth →
      (loadWithin depth "A" world host).1 = .error (.failed (.fileNotFound "D"))) ∧
    world.openNames host.pending < world.depth ∧
    ∃ (answer : Except Error AssemblyHandle) (h' : Host),
      load "A" world host = (answer.mapError .failed, h') := by
  have hd : world.openNames host.pending < world.depth := by
    rw [openNames_eq]
    decide
  obtain ⟨hload, -, hown⟩ := loads_terminate (h := host) finite_resolvable (.inr rfl)
  refine ⟨finite_resolvable, rfl, openNames_eq, by decide +kernel, fun depth hdepth => ?_, hd,
    (hown hd).1 "A"⟩
  obtain ⟨answer, h', -, hrun, -⟩ := hload "A"
  rw [openNames_eq] at hrun
  have hfour : (loadWithin 4 "A" world host).1 = .error (.failed (.fileNotFound "D")) := by
    decide +kernel
  have hsame := (hrun depth hdepth).trans (hrun 4 le_rfl).symm
  exact (congrArg Prod.fst hsame).trans hfour

end ManagedHost
