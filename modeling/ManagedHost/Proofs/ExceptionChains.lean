/-
# The causes of an exception are the levels of its error

When an initializer fails while another one is running, the error of the outer one keeps that of the
inner one as its source, and so on to the error that was there first.  The exception object for such
an error has one link for each level, and the exception of the first error at the end.  A thrown
exception is an object of its own already, with causes of its own; it is not made again but put at
the end of the chain as it is.

Exceptions are values here, so a thrown exception and a copy of it are the same.  To tell them apart
one has to look at where objects lie: `Error.construct` makes the objects in a store and answers
with the place of the outermost one.  What it makes has the value that `Error.toException` gives,
and the place at the end of the chain is that of the thrown exception.

* `Error.nested`: the errors of initializers that failed inside each other.
* `toException_nested`: the exception of such an error as a whole.
* `holds_construct`, `along_construct`: the objects that are made have this value, and lead to the
  thrown one.
* `exceptions_mirror_nesting`: the links of the chain, with and without a message and a cause that
  are given.
-/
import Mathlib.Data.Option.Defs
import Mathlib.Data.List.Basic
import ManagedHost.Error

namespace ManagedHost

namespace Error

/-- The error when the initializers of the types failed inside each other, the outermost one first,
and the innermost one for the reason `base`. -/
def nested (types : List String) (base : Error) : Error :=
  types.foldr initializerFailed base

/-- The error is not that of a failed initializer. -/
def IsBase (e : Error) : Prop :=
  ∀ typeName source, e ≠ initializerFailed typeName source

@[simp] lemma nested_cons (t : String) (types : List String) (base : Error) :
    nested (t :: types) base = initializerFailed t (nested types base) := rfl

/-- The exception of a failed initializer, apart from its cause. -/
def initializerLink (typeName : String) : Exception → Exception :=
  .caused "System.TypeInitializationException"
    s!"The type initializer for '{typeName}' threw an exception"

section Values

variable {e base : Error} {message : Option String} {inner : Option Exception}

/-- A message that is given replaces the text of the error, and a cause that is given replaces the
one that the error has. -/
lemma toException_eq_of (hthrown : ∀ x, e ≠ thrown x) :
    e.toException message inner =
      .of e.exceptionType (message.getD e.message) (inner.or (e.toException none none).inner?) := by
  cases e with
  | thrown x => exact absurd rfl (hthrown x)
  | initializerFailed t source => cases inner <;> rfl
  | _ => cases inner <;> rfl

/-- The exception of an error that has no levels: there is one link, unless it was thrown. -/
lemma toException_of_isBase (hbase : base.IsBase) (hthrown : ∀ x, base ≠ thrown x) :
    base.toException none none = .plain base.exceptionType base.message := by
  cases base with
  | initializerFailed t source => exact absurd rfl (hbase t source)
  | thrown x => exact absurd rfl (hthrown x)
  | _ => rfl

/-- The exception of an error with levels. -/
lemma toException_nested (types : List String) (base : Error) :
    (nested types base).toException none none =
      types.foldr initializerLink (base.toException none none) := by
  induction types with
  | nil => rfl
  | cons t types ih =>
    rw [List.foldr_cons, ← ih]
    rfl

lemma chain_foldr (types : List String) (x : Exception) :
    (((types.foldr initializerLink x).chain.take types.length).map fun link =>
        (link.typeName, link.message)) =
      types.map (fun t => ("System.TypeInitializationException",
        s!"The type initializer for '{t}' threw an exception")) ∧
    (types.foldr initializerLink x).chain.drop types.length = x.chain := by
  induction types with
  | nil => exact ⟨rfl, rfl⟩
  | cons t types ih =>
    rw [List.foldr_cons]
    refine ⟨?_, ih.2⟩
    rw [List.map_cons, ← ih.1]
    rfl

/-- An error has one reason. -/
lemma base_eq {types types' : List String} {base' : Error} (hbase : base.IsBase)
    (hbase' : base'.IsBase) (heq : nested types base = nested types' base') : base = base' := by
  induction types generalizing types' with
  | nil =>
    cases types' with
    | nil => exact heq
    | cons t types' => exact absurd heq (hbase t _)
  | cons t types ih =>
    cases types' with
    | nil => exact absurd heq.symm (hbase' t _)
    | cons t' types' => exact ih (initializerFailed.inj heq).2

end Values

end Error

/-! ## Objects and their places -/

/-- An exception object in memory.  Its cause is known by the place where it lies. -/
structure ExceptionCell where
  /-- The full name of the exception's type. -/
  typeName : String
  /-- The message of the exception itself. -/
  message : String
  /-- The place of the cause. -/
  inner : Option Nat
deriving Repr, DecidableEq

/-- The exception objects that have been made, each at its place.  None of them is ever changed. -/
abbrev ExceptionStore := List ExceptionCell

namespace ExceptionStore

variable {σ σ' : ExceptionStore} {place : Nat} {x : Exception}

/-- The object at a place has this value, together with its causes. -/
inductive Holds (σ : ExceptionStore) : Nat → Exception → Prop
  | plain {place : Nat} {typeName message : String}
      (hcell : σ[place]? = some ⟨typeName, message, none⟩) :
      Holds σ place (.plain typeName message)
  | caused {place cause : Nat} {typeName message : String} {x : Exception}
      (hcell : σ[place]? = some ⟨typeName, message, some cause⟩) (hcause : Holds σ cause x) :
      Holds σ place (.caused typeName message x)

/-- The place that is reached from a place along so many causes. -/
def along (σ : ExceptionStore) : Nat → Nat → Option Nat
  | 0, place => some place
  | n + 1, place => ((σ[place]?).bind (·.inner)).bind (along σ n)

/-- All objects are where they were. -/
def Keeps (σ σ' : ExceptionStore) : Prop :=
  ∀ (place : Nat) (cell : ExceptionCell), σ[place]? = some cell → σ'[place]? = some cell

/-- Makes an object, at a new place. -/
def add (σ : ExceptionStore) (cell : ExceptionCell) : Nat × ExceptionStore :=
  (σ.length, σ ++ [cell])

lemma add_getElem? (σ : ExceptionStore) (cell : ExceptionCell) :
    (σ.add cell).2[(σ.add cell).1]? = some cell :=
  List.getElem?_concat_length

lemma keeps_add (σ : ExceptionStore) (cell : ExceptionCell) : σ.Keeps (σ.add cell).2 := by
  intro place old hold
  obtain ⟨hlt, -⟩ := List.getElem?_eq_some_iff.mp hold
  rw [add, List.getElem?_append_left hlt, hold]

lemma Keeps.trans {σ'' : ExceptionStore} (h : σ.Keeps σ') (h' : σ'.Keeps σ'') : σ.Keeps σ'' :=
  fun place cell hcell => h' place cell (h place cell hcell)

lemma Holds.of_keeps (hx : σ.Holds place x) (hk : σ.Keeps σ') : σ'.Holds place x := by
  induction hx with
  | plain hcell => exact .plain (hk _ _ hcell)
  | caused hcell _ ih => exact .caused (hk _ _ hcell) ih

lemma along_of_keeps {n target : Nat} (hk : σ.Keeps σ') (h : σ.along n place = some target) :
    σ'.along n place = some target := by
  induction n generalizing place with
  | zero => exact h
  | succ n ih =>
    obtain ⟨cause, hcause, hrest⟩ := Option.bind_eq_some_iff.mp h
    obtain ⟨cell, hcell, hinner⟩ := Option.bind_eq_some_iff.mp hcause
    rw [along, hk _ _ hcell, Option.bind_some, hinner]
    exact ih hrest

end ExceptionStore

namespace Error

open ExceptionStore

/-- Makes the exception object for an error, and answers with its place.  A thrown exception lies at
the place `thrownAt` already. -/
def construct (thrownAt : Nat) :
    Error → Option String → Option Nat → ExceptionStore → Nat × ExceptionStore
  | thrown _, _, _, σ => (thrownAt, σ)
  | e@(initializerFailed _ source), message, inner, σ =>
    let cause := inner.elim (source.construct thrownAt none none σ) (·, σ)
    cause.2.add ⟨e.exceptionType, message.getD e.message, some cause.1⟩
  | e, message, inner, σ => σ.add ⟨e.exceptionType, message.getD e.message, inner⟩

variable {σ : ExceptionStore} {thrownAt : Nat}

lemma keeps_construct (e : Error) (message : Option String) (inner : Option Nat) :
    σ.Keeps (e.construct thrownAt message inner σ).2 := by
  induction e generalizing message inner σ with
  | thrown x => exact fun _ _ hcell => hcell
  | initializerFailed t source ih =>
    cases inner with
    | some place => exact keeps_add σ _
    | none => exact (ih none none).trans (keeps_add _ _)
  | _ => exact keeps_add σ _

/-- The object that is made has the value that is given for the error. -/
lemma holds_construct (e : Error) (message : Option String) {innerAt : Option Nat}
    {inner : Option Exception} (hinner : Option.Rel σ.Holds innerAt inner)
    (hthrown : ∀ types x, e = nested types (.thrown x) → σ.Holds thrownAt x) :
    (e.construct thrownAt message innerAt σ).2.Holds (e.construct thrownAt message innerAt σ).1
      (e.toException message inner) := by
  induction e generalizing message innerAt inner σ with
  | thrown x => exact hthrown [] x rfl
  | initializerFailed t source ih =>
    cases hinner with
    | some hplace => exact .caused (add_getElem? σ _) (hplace.of_keeps (keeps_add σ _))
    | none =>
      have hsource := ih none .none fun types x hx => hthrown (t :: types) x (by rw [hx]; rfl)
      exact .caused (add_getElem? _ _) (hsource.of_keeps (keeps_add _ _))
  | _ =>
    cases hinner with
    | some hplace => exact .caused (add_getElem? σ _) (hplace.of_keeps (keeps_add σ _))
    | none => exact .plain (add_getElem? σ _)

/-- Along the levels of the error, one comes to the thrown exception itself. -/
lemma along_construct (types : List String) (x : Exception) :
    ((nested types (thrown x)).construct thrownAt none none σ).2.along types.length
      ((nested types (thrown x)).construct thrownAt none none σ).1 = some thrownAt := by
  induction types with
  | nil => rfl
  | cons t types ih =>
    rw [List.length_cons, along, nested_cons, construct]
    simp only [Option.elim_none]
    rw [add_getElem?]
    exact along_of_keeps (keeps_add _ _) ih

/-- A cause that is given is itself the cause of the object that is made. -/
lemma along_construct_of_inner {e : Error} (hthrown : ∀ x, e ≠ thrown x) (message : Option String)
    (place : Nat) :
    (e.construct thrownAt message (some place) σ).2.along 1
      (e.construct thrownAt message (some place) σ).1 = some place := by
  have hcell : ∃ cell, e.construct thrownAt message (some place) σ = σ.add cell ∧
      cell.inner = some place := by
    cases e with
    | thrown x => exact absurd rfl (hthrown x)
    | _ => exact ⟨_, rfl, rfl⟩
  obtain ⟨cell, hadd, hinner⟩ := hcell
  rw [hadd, along, add_getElem?, Option.bind_some, hinner]
  rfl

end Error

open Error

/-- For all initializers that failed inside each other, and every reason: the exception has one link
for each of them, from the outermost to the innermost, which names the type, and ends with the
exception of the reason.  This is the thrown exception with its causes, or else a single link.  A
message that is given replaces the outermost message only, and a cause that is given replaces
everything below the outermost link, unless the error is a thrown exception itself.  The objects
that are made have these values; all others stay as they are, and a thrown exception or a cause that
is given is found at its own place in the chain. -/
theorem exceptions_mirror_nesting (types : List String) {base : Error} (hbase : base.IsBase) :
    let e := nested types base
    let made := e.toException none none
    (((made.chain.take types.length).map fun link => (link.typeName, link.message)) =
      types.map fun t => ("System.TypeInitializationException",
        s!"The type initializer for '{t}' threw an exception")) ∧
    (∀ x, base = .thrown x → made.chain.drop types.length = x.chain) ∧
    ((∀ x, base ≠ .thrown x) →
      made.chain.drop types.length = [.plain base.exceptionType base.message]) ∧
    -- a message and a cause that are given
    ((∀ x, e ≠ .thrown x) → ∀ message inner,
      (e.toException message inner).typeName = made.typeName ∧
      (e.toException message inner).message = message.getD made.message ∧
      (e.toException message inner).inner? = inner.or made.inner?) ∧
    (∀ x, e = .thrown x → ∀ message inner, e.toException message inner = x) ∧
    -- objects and their places
    ∀ (σ : ExceptionStore) (thrownAt : Nat), (∀ x, base = .thrown x → σ.Holds thrownAt x) →
      (∀ message innerAt inner, Option.Rel σ.Holds innerAt inner →
        σ.Keeps (e.construct thrownAt message innerAt σ).2 ∧
        (e.construct thrownAt message innerAt σ).2.Holds
          (e.construct thrownAt message innerAt σ).1 (e.toException message inner)) ∧
      (∀ x, base = .thrown x → (e.construct thrownAt none none σ).2.along types.length
        (e.construct thrownAt none none σ).1 = some thrownAt) ∧
      ((∀ x, e ≠ .thrown x) → ∀ message place,
        (e.construct thrownAt message (some place) σ).2.along 1
          (e.construct thrownAt message (some place) σ).1 = some place) ∧
      (∀ x, e = .thrown x → ∀ message innerAt,
        e.construct thrownAt message innerAt σ = (thrownAt, σ)) := by
  intro e made
  have hmade : made = types.foldr initializerLink (base.toException none none) :=
    toException_nested types base
  obtain ⟨hlinks, hrest⟩ := chain_foldr types (base.toException none none)
  rw [← hmade] at hlinks hrest
  refine ⟨hlinks, ?_, ?_, ?_, ?_, ?_⟩
  · rintro x rfl
    exact hrest
  · intro hthrown
    rw [hrest, toException_of_isBase hbase hthrown]
    rfl
  · intro hthrown message inner
    have hgiven : e.toException message inner = _ := toException_eq_of hthrown
    have hnone : made = _ := toException_eq_of hthrown
    rw [hgiven, hnone]
    simp
  · intro x hx message inner
    rw [hx]
    rfl
  · intro σ thrownAt hheld
    refine ⟨fun message innerAt inner hinner => ⟨keeps_construct e _ _, ?_⟩, ?_, ?_, ?_⟩
    · exact holds_construct e message hinner fun types' x hx => hheld x
        (base_eq hbase (by simp [IsBase]) hx)
    · rintro x rfl
      exact along_construct types x
    · exact fun hthrown message place => along_construct_of_inner hthrown message place
    · intro x hx message innerAt
      rw [hx]
      rfl

/-- Two initializers and an exception with a cause, which lies at the second place. -/
theorem exceptions_mirror_nesting_thrown :
    ∃ x : Exception, x.inner?.isSome ∧ IsBase (.thrown x) ∧
      ((nested ["App.Outer", "App.Inner"] (.thrown x)).toException none none).chain.drop 2 =
        x.chain ∧
      ((nested ["App.Outer", "App.Inner"] (.thrown x)).toException (some "given") none).message =
        "given" ∧
      ∃ σ : ExceptionStore, σ.Holds 1 x ∧
        ((nested ["App.Outer", "App.Inner"] (.thrown x)).construct 1 none none σ).2.along 2
          ((nested ["App.Outer", "App.Inner"] (.thrown x)).construct 1 none none σ).1 = some 1 := by
  have hbase : IsBase (.thrown (.caused "App.Broken" "no" (.plain "App.Reason" "why"))) := by
    simp [IsBase]
  have hheld : ExceptionStore.Holds [⟨"App.Reason", "why", none⟩, ⟨"App.Broken", "no", some 0⟩] 1
      (.caused "App.Broken" "no" (.plain "App.Reason" "why")) := .caused rfl (.plain rfl)
  obtain ⟨-, hend, -, hgiven, -, hplaces⟩ :=
    exceptions_mirror_nesting ["App.Outer", "App.Inner"] hbase
  refine ⟨_, rfl, hbase, hend _ rfl, (hgiven (by simp) (some "given") none).2.1, _, hheld, ?_⟩
  exact (hplaces _ 1 fun x hx => Error.thrown.inj hx ▸ hheld).2.1 _ rfl

end ManagedHost
