/-
# Contracts of operations

An operation is a function on states, but what is known of most operations is a relation: how
the state in which one ends is related to the state in which it was started, and what can be
said of its answer there.  `Op.Obeys` is such a contract, for one operation started in one
state.  A lost operation ends nowhere, so nothing is asked of it.  The relation is a preorder
in every use, which makes contracts compose along the sequencing of operations.
-/
import Mathlib.Data.List.Forall2
import Mathlib.Logic.Relation
import Mathlib.Order.Defs.Unbundled
import ManagedHost.Op

namespace ManagedHost
namespace Op

variable {α β : Type} {w : World} {h : Host} {R S : Host → Host → Prop}

/-! ## Running the building blocks -/

lemma pure_run (a : α) : (pure a : Op α) w h = (.ok a, h) := rfl

lemma fail_run (e : Error) : (fail e : Op α) w h = (.error (.failed e), h) := rfl

lemma bind_run_ok {x : Op α} {f : α → Op β} {a : α} {h' : Host} (hx : x w h = (.ok a, h')) :
    (x >>= f) w h = f a w h' := by
  change Op.bind x f w h = _
  rw [Op.bind, hx]

lemma bind_run_error {x : Op α} {f : α → Op β} {s : Stop} {h' : Host}
    (hx : x w h = (.error s, h')) : (x >>= f) w h = (.error s, h') := by
  change Op.bind x f w h = _
  rw [Op.bind, hx]

lemma liftM_run (x : Except Error α) :
    (liftM x : Op α) w h = (x.mapError .failed, h) := by
  cases x <;> rfl

lemma assembly_run {a : AssemblyHandle} {record : Assembly} (hr : h.assembly a = .ok record) :
    assembly a w h = (.ok record, h) := by
  change (liftM (h.assembly a) : Op Assembly) w h = _
  rw [liftM_run, hr]
  rfl

lemma module_run {m : ModuleHandle} {record : Module} (hr : h.module m = .ok record) :
    module m w h = (.ok record, h) := by
  change (liftM (h.module m) : Op Module) w h = _
  rw [liftM_run, hr]
  rfl

lemma cls_run {c : ClassHandle} {r : Class} (hr : h.cls c = .ok r) :
    cls c w h = (.ok r, h) := by
  change (liftM (h.cls c) : Op Class) w h = _
  rw [liftM_run, hr]
  rfl

lemma cls_run_error {c : ClassHandle} {e : Error} (hr : h.cls c = .error e) :
    cls c w h = (.error (.failed e), h) := by
  change (liftM (h.cls c) : Op Class) w h = _
  rw [liftM_run, hr]
  rfl

instance : LawfulMonad Op := by
  refine LawfulMonad.mk' Op (fun x => ?_) (fun _ _ => rfl) (fun x f g => ?_)
  · funext w h
    change Op.bind x _ w h = _
    rw [Op.bind]
    rcases x w h with ⟨_ | _, _⟩ <;> rfl
  · funext w h
    change Op.bind (Op.bind x f) g w h = Op.bind x (fun a => Op.bind (f a) g) w h
    simp only [Op.bind]
    rcases x w h with ⟨_ | _, _⟩ <;> rfl

/-- The first of two operations has answered when both have. -/
lemma bind_run_eq_ok {x : Op α} {f : α → Op β} {b : β} {h' : Host}
    (hb : (x >>= f) w h = (.ok b, h')) :
    ∃ a h₁, x w h = (.ok a, h₁) ∧ f a w h₁ = (.ok b, h') := by
  rcases hx : x w h with ⟨a | a, h₁⟩
  · rw [bind_run_error hx] at hb
    simp at hb
  · rw [bind_run_ok hx] at hb
    exact ⟨a, h₁, rfl, hb⟩

/-- An attempt that succeeded did what was attempted. -/
lemma attempt_run_eq_ok {x : Op α} {a : α} {h' : Host}
    (hx : attempt x w h = (.ok (.ok a), h')) : x w h = (.ok a, h') := by
  rw [attempt] at hx
  split at hx
  · rename_i b g hb
    cases hx
    exact hb
  · cases hx
  · cases hx

/-- Sequences of operations do the same when their parts do the same where they are started. -/
lemma bind_run_congr {x y : Op α} {f g : α → Op β} (hxy : x w h = y w h)
    (hfg : ∀ a h', y w h = (.ok a, h') → f a w h' = g a w h') :
    (x >>= f) w h = (y >>= g) w h := by
  rcases hy : y w h with ⟨s | a, h'⟩
  · rw [bind_run_error hy, bind_run_error (hxy.trans hy)]
  · rw [bind_run_ok hy, bind_run_ok (hxy.trans hy)]
    exact hfg a h' hy

/-! ## Contracts -/

/-- Started in state `h`, the operation is lost or ends in a state to which `R` leads from `h`;
and when it answers, the answer and that state satisfy `Q`. -/
def Obeys (x : Op α) (w : World) (R : Host → Host → Prop) (h : Host) (Q : α → Host → Prop) :
    Prop :=
  match x w h with
  | (.ok a, h') => R h h' ∧ Q a h'
  | (.error (.failed _), h') => R h h'
  | (.error .lost, _) => True

lemma Obeys.of_ok {x : Op α} {Q : α → Host → Prop} (hx : x.Obeys w R h Q) {a : α} {h' : Host}
    (hrun : x w h = (.ok a, h')) : R h h' ∧ Q a h' := by
  rw [Obeys, hrun] at hx
  exact hx

lemma Obeys.of_failed {x : Op α} {Q : α → Host → Prop} (hx : x.Obeys w R h Q) {e : Error}
    {h' : Host} (hrun : x w h = (.error (.failed e), h')) : R h h' := by
  rw [Obeys, hrun] at hx
  exact hx

/-- An operation that is not lost ends where its relation leads. -/
lemma Obeys.rel {x : Op α} {Q : α → Host → Prop} (hx : x.Obeys w R h Q)
    (hrun : (x w h).1 ≠ .error .lost) : R h (x w h).2 := by
  rcases heq : x w h with ⟨(e | _) | a, h'⟩
  · exact hx.of_failed heq
  · simp [heq] at hrun
  · exact (hx.of_ok heq).1

/-- A contract from the three ways in which the operation can end. -/
lemma Obeys.intro {x : Op α} {Q : α → Host → Prop}
    (hok : ∀ a h', x w h = (.ok a, h') → R h h' ∧ Q a h')
    (hfailed : ∀ e h', x w h = (.error (.failed e), h') → R h h') : x.Obeys w R h Q := by
  unfold Obeys
  split
  · exact hok _ _ ‹_›
  · exact hfailed _ _ ‹_›
  · trivial

lemma Obeys.mono {x : Op α} {Q Q' : α → Host → Prop} (hx : x.Obeys w R h Q)
    (hR : ∀ h', R h h' → S h h') (hQ : ∀ a h', R h h' → Q a h' → Q' a h') :
    x.Obeys w S h Q' := by
  refine .intro (fun a h' hrun => ?_) (fun e h' hrun => hR h' (hx.of_failed hrun))
  obtain ⟨hr, hq⟩ := hx.of_ok hrun
  exact ⟨hR h' hr, hQ a h' hr hq⟩

lemma Obeys.post {x : Op α} {Q Q' : α → Host → Prop} (hx : x.Obeys w R h Q)
    (hQ : ∀ a h', R h h' → Q a h' → Q' a h') : x.Obeys w R h Q' :=
  hx.mono (fun _ hr => hr) hQ

/-- An answer is the one with which the operation has ended. -/
lemma Obeys.and_run {x : Op α} {Q : α → Host → Prop} (hx : x.Obeys w R h Q) :
    x.Obeys w R h fun a h' => Q a h' ∧ x w h = (.ok a, h') := by
  refine .intro (fun a h' hrun => ?_) fun e h' hrun => hx.of_failed hrun
  obtain ⟨hr, hq⟩ := hx.of_ok hrun
  exact ⟨hr, hq, hrun⟩

lemma Obeys.trivial_post {x : Op α} {Q : α → Host → Prop} (hx : x.Obeys w R h Q) :
    x.Obeys w R h fun _ _ => True :=
  hx.post fun _ _ _ _ => True.intro

lemma obeys_lose {Q : α → Host → Prop} : (lose : Op α).Obeys w R h Q := True.intro

lemma obeys_host_bind {f : Host → Op β} {Q : β → Host → Prop} :
    (host >>= f).Obeys w R h Q ↔ (f h).Obeys w R h Q := Iff.rfl

lemma obeys_world_bind {f : World → Op β} {Q : β → Host → Prop} :
    (world >>= f).Obeys w R h Q ↔ (f w).Obeys w R h Q := Iff.rfl

lemma obeys_modify {f : Host → Host} (hr : R h (f h)) :
    (modify f).Obeys w R h fun _ h' => h' = f h :=
  ⟨hr, rfl⟩

lemma obeys_note {e : JournalEntry} (hr : R h (h.note e)) :
    (note e).Obeys w R h fun _ h' => h' = h.note e :=
  ⟨hr, rfl⟩

/-- An operation whose failure is caught ends as the operation itself does. -/
lemma Obeys.attempt {x : Op α} {Q : α → Host → Prop} (hx : x.Obeys w R h Q) :
    (attempt x).Obeys w R h fun r h' => ∀ a, r = .ok a → Q a h' := by
  rcases heq : x w h with ⟨(e | _) | a, h₁⟩
  · have hr := hx.of_failed heq
    simp only [Obeys, Op.attempt, heq]
    exact ⟨hr, by simp⟩
  · simp only [Obeys, Op.attempt, heq]
  · obtain ⟨hr, hq⟩ := hx.of_ok heq
    simp only [Obeys, Op.attempt, heq]
    refine ⟨hr, fun b hb => ?_⟩
    cases hb
    exact hq

section Preorder

variable [IsPreorder Host R]

lemma obeys_pure {a : α} {Q : α → Host → Prop} (hq : Q a h) : (pure a : Op α).Obeys w R h Q :=
  ⟨refl_of R h, hq⟩

lemma obeys_fail {e : Error} {Q : α → Host → Prop} : (fail e : Op α).Obeys w R h Q :=
  refl_of R h

/-- Contracts compose: the second operation starts where the first one ended. -/
lemma Obeys.bind {x : Op α} {f : α → Op β} {Q : α → Host → Prop} {Q' : β → Host → Prop}
    (hx : x.Obeys w R h Q)
    (hf : ∀ a h', R h h' → Q a h' → (f a).Obeys w R h' Q') : (x >>= f).Obeys w R h Q' := by
  rcases heq : x w h with ⟨(e | _) | a, h₁⟩
  · rw [Obeys, bind_run_error heq]
    exact hx.of_failed heq
  · rw [Obeys, bind_run_error heq]
    trivial
  · obtain ⟨hr, hq⟩ := hx.of_ok heq
    have hfa := hf a h₁ hr hq
    refine .intro (fun b h' hrun => ?_) (fun e h' hrun => ?_)
    · rw [bind_run_ok heq] at hrun
      obtain ⟨hr', hq'⟩ := hfa.of_ok hrun
      exact ⟨trans_of R hr hr', hq'⟩
    · rw [bind_run_ok heq] at hrun
      exact trans_of R hr (hfa.of_failed hrun)

/-! ## Contracts of the building blocks -/

lemma obeys_ofExcept (x : Except Error α) :
    (ofExcept x).Obeys w R h fun a h' => h' = h ∧ x = .ok a := by
  cases x with
  | ok a => exact ⟨refl_of R h, rfl, rfl⟩
  | error e => exact obeys_fail

lemma obeys_liftM (x : Except Error α) :
    (liftM x : Op α).Obeys w R h fun a h' => h' = h ∧ x = .ok a :=
  obeys_ofExcept x

lemma obeys_assembly (a : AssemblyHandle) :
    (assembly a).Obeys w R h fun record h' => h' = h ∧ h.assembly a = .ok record :=
  obeys_liftM (h.assembly a)

lemma obeys_module (m : ModuleHandle) :
    (module m).Obeys w R h fun record h' => h' = h ∧ h.module m = .ok record :=
  obeys_liftM (h.module m)

lemma obeys_cls (c : ClassHandle) :
    (cls c).Obeys w R h fun record h' => h' = h ∧ h.cls c = .ok record :=
  obeys_liftM (h.cls c)

/-- Asking a source adds the question to the journal and changes nothing else. -/
lemma obeys_ask {source : SourceId} {query : Query} {row : Nat} {target : Option ClassHandle}
    {answer : Source → Nat → Except Error α} (hr : R h (h.note (.asked source query row target))) :
    (ask source query row target answer).Obeys w R h fun a h' =>
      h' = h.note (.asked source query row target) ∧
        answer (w.source h'.journal source) row = .ok a := by
  refine (obeys_note hr).bind fun _ h₁ _ h₁eq => ?_
  subst h₁eq
  refine (obeys_liftM (answer (w.source _ source) row)).post fun a h₂ _ hq => ?_
  obtain ⟨rfl, ha⟩ := hq
  exact ⟨rfl, ha⟩

omit [IsPreorder Host R] in
lemma forall_mem_of_forall₂ {xs : List α} {ys : List β} {P : β → Prop}
    (hp : List.Forall₂ (fun _ => P) xs ys) : ∀ b ∈ ys, P b := by
  induction hp with
  | nil => simp
  | cons hb _ ih => exact List.forall_mem_cons.mpr ⟨hb, ih⟩

omit [IsPreorder Host R] in
lemma exists_of_mem_forall₂ {xs : List α} {ys : List β} {P : α → β → Prop}
    (hp : List.Forall₂ P xs ys) {a : α} (ha : a ∈ xs) : ∃ b ∈ ys, P a b := by
  induction hp with
  | nil => simp at ha
  | @cons x y _ _ hb _ ih =>
    rcases List.mem_cons.mp ha with rfl | ha
    · exact ⟨y, List.mem_cons_self, hb⟩
    · obtain ⟨b, hmem, hab⟩ := ih ha
      exact ⟨b, List.mem_cons_of_mem _ hmem, hab⟩

/-- Operations on the elements of a list, one after the other.  What an answer satisfies has to
survive the operations that come after it. -/
lemma obeys_each₂ {f : α → Op β} {xs : List α} {P : α → β → Host → Prop}
    (hstable : ∀ a b h₁ h₂, R h₁ h₂ → P a b h₁ → P a b h₂)
    (hf : ∀ a ∈ xs, ∀ h₁, R h h₁ → (f a).Obeys w R h₁ (P a)) :
    (each f xs).Obeys w R h fun bs h' => List.Forall₂ (P · · h') xs bs := by
  induction xs generalizing h with
  | nil => exact ⟨refl_of R h, .nil⟩
  | cons a rest ih =>
    refine (hf a (by simp) h (refl_of R h)).bind fun b h₁ hr₁ hb => ?_
    refine (ih fun a' ha' h₂ hr₂ =>
      hf a' (by simp [ha']) h₂ (trans_of R hr₁ hr₂)).bind fun bs h₂ hr₂ hbs => ?_
    exact obeys_pure (.cons (hstable a b h₁ h₂ hr₂ hb) hbs)

lemma obeys_each {f : α → Op β} {xs : List α} {P : β → Host → Prop}
    (hstable : ∀ b h₁ h₂, R h₁ h₂ → P b h₁ → P b h₂)
    (hf : ∀ a ∈ xs, ∀ h₁, R h h₁ → (f a).Obeys w R h₁ P) :
    (each f xs).Obeys w R h fun bs h' => ∀ b ∈ bs, P b h' :=
  (obeys_each₂ (P := fun _ => P) (fun _ => hstable) hf).post fun _ _ _ hbs =>
    forall_mem_of_forall₂ hbs

end Preorder

/-! ## How operations end -/

/-- Started in state `h`, the operation answers, and the answer and the state in which it ends
satisfy `Q`; unless it fails, which takes `F`, or is lost, which takes `L`. -/
def Ends (x : Op α) (w : World) (h : Host) (F L : Prop) (Q : α → Host → Prop) : Prop :=
  match x w h with
  | (.ok a, h') => Q a h'
  | (.error (.failed _), _) => F
  | (.error .lost, _) => L

/-- Started in state `h`, the operation does not fail; if it is not lost, then its answer and the
state in which it ends satisfy `Q`. -/
abbrev Answers (x : Op α) (w : World) (h : Host) (Q : α → Host → Prop) : Prop :=
  x.Ends w h False True Q

section Ends

variable {F F' L : Prop} {x : Op α} {Q Q' : α → Host → Prop} {P : β → Host → Prop}

namespace Ends

lemma of_ok (hx : x.Ends w h F L Q) {a : α} {h' : Host} (hrun : x w h = (.ok a, h')) : Q a h' := by
  rw [Ends, hrun] at hx
  exact hx

lemma of_failed (hx : x.Ends w h F L Q) {e : Error} {h' : Host}
    (hrun : x w h = (.error (.failed e), h')) : F := by
  rw [Ends, hrun] at hx
  exact hx

lemma of_lost (hx : x.Ends w h F L Q) {h' : Host} (hrun : x w h = (.error .lost, h')) : L := by
  rw [Ends, hrun] at hx
  exact hx

lemma intro (hok : ∀ a h', x w h = (.ok a, h') → Q a h')
    (hfailed : ∀ e h', x w h = (.error (.failed e), h') → F)
    (hlost : ∀ h', x w h = (.error .lost, h') → L) : x.Ends w h F L Q := by
  unfold Ends
  split
  · exact hok _ _ ‹_›
  · exact hfailed _ _ ‹_›
  · exact hlost _ ‹_›

lemma of_run {a : α} {h' : Host} (hrun : x w h = (.ok a, h')) (hq : Q a h') :
    x.Ends w h F L Q := by
  rw [Ends, hrun]
  exact hq

/-- A failure may be given another reason, and the answer may be said less of. -/
lemma mono (hx : x.Ends w h F L Q) (hF : F → F') (hQ : ∀ a h', Q a h' → Q' a h') :
    x.Ends w h F' L Q' :=
  .intro (fun a h' hrun => hQ a h' (hx.of_ok hrun)) (fun _ _ hrun => hF (hx.of_failed hrun))
    fun _ hrun => hx.of_lost hrun

lemma trivial_post (hx : x.Ends w h F L Q) : x.Ends w h F L fun _ _ => True :=
  hx.mono id fun _ _ _ => True.intro

lemma bind {f : α → Op β} (hx : x.Ends w h F L Q)
    (hf : ∀ a h', Q a h' → (f a).Ends w h' F L P) : (x >>= f).Ends w h F L P := by
  rcases hrun : x w h with ⟨(e | _) | a, h'⟩
  · rw [Ends, bind_run_error hrun]
    exact hx.of_failed hrun
  · rw [Ends, bind_run_error hrun]
    exact hx.of_lost hrun
  · rw [Ends, bind_run_ok hrun]
    exact hf a h' (hx.of_ok hrun)

/-- A first step of which it is known how it ends. -/
lemma after {z : Op β} {f : β → Op α} {b : β} {h' : Host} (hz : z w h = (.ok b, h'))
    (hf : (f b).Ends w h' F L Q) : (z >>= f).Ends w h F L Q := by
  rw [Ends, bind_run_ok hz]
  exact hf

/-- What a contract says of the answer holds as well. -/
lemma and_obeys (hx : x.Ends w h F L Q) (ho : x.Obeys w R h Q') :
    x.Ends w h F L fun a h' => Q a h' ∧ R h h' ∧ Q' a h' :=
  .intro (fun _ _ hrun => ⟨hx.of_ok hrun, ho.of_ok hrun⟩) (fun _ _ hrun => hx.of_failed hrun)
    fun _ hrun => hx.of_lost hrun

lemma obeying (hx : x.Ends w h F L Q) (ho : x.Obeys w R h Q') :
    x.Ends w h F L fun _ h' => R h h' :=
  (hx.and_obeys ho).mono id fun _ _ hq => hq.2.1

/-- The second operation may rely on what a contract says of the first. -/
lemma bind_obeys {f : α → Op β} (hx : x.Ends w h F L Q) (ho : x.Obeys w R h Q')
    (hf : ∀ a h', R h h' → Q' a h' → (f a).Ends w h' F L P) : (x >>= f).Ends w h F L P :=
  (hx.and_obeys ho).bind fun a h' hq => hf a h' hq.2.1 hq.2.2

end Ends

lemma ends_pure {a : α} (hq : Q a h) : (pure a : Op α).Ends w h F L Q :=
  hq

lemma ends_fail {e : Error} (hF : F) : (fail e : Op α).Ends w h F L Q :=
  hF

lemma ends_lose (hL : L) : (lose : Op α).Ends w h F L Q :=
  hL

lemma ends_host_bind {f : Host → Op β} : (host >>= f).Ends w h F L P ↔ (f h).Ends w h F L P :=
  Iff.rfl

lemma ends_world_bind {f : World → Op β} : (world >>= f).Ends w h F L P ↔ (f w).Ends w h F L P :=
  Iff.rfl

lemma ends_modify {f : Host → Host} : (modify f).Ends w h F L fun _ h' => h' = f h :=
  rfl

lemma ends_attempt (x : Op α) : (attempt x).Answers w h fun _ _ => True := by
  rw [Answers, Ends, attempt]
  rcases x w h with ⟨(e | _) | a, h'⟩ <;> trivial

lemma ends_each [IsPreorder Host R] {f : α → Op β} {xs : List α}
    (hf : ∀ a ∈ xs, ∀ h₁, R h h₁ → (f a).Ends w h₁ F L fun _ h₂ => R h₁ h₂) :
    (each f xs).Ends w h F L fun _ h' => R h h' := by
  induction xs generalizing h with
  | nil => exact ends_pure (refl_of R h)
  | cons a rest ih =>
    refine (hf a (by simp) h (refl_of R h)).bind fun _ h₁ h01 => ?_
    refine (ih fun a' ha' h₂ h12 => hf a' (by simp [ha']) h₂ (trans_of R h01 h12)).bind
      fun _ h₂ h12 => ?_
    exact ends_pure (trans_of R h01 h12)

end Ends

end Op
end ManagedHost
