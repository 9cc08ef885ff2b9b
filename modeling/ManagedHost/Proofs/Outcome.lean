/-
# The outcome of a load

A host remembers what it has loaded.  What a load comes to can be said without this memory: the
source of the name is asked for its definitions, and every type is given the home of its parent,
where all assemblies that have to be searched on the way are loaded anew, each time.
`Resolver.outcomeWithin` is this load that remembers nothing.  Only the names whose load is under
way are known to it, since they make a load fail that depends on itself.

Loads nest, and a stack that is too shallow is exhausted.  `Settles` says what a computation comes
to on any stack that is deep enough.
-/
import Mathlib.Data.List.Forall2
import ManagedHost.Start

namespace ManagedHost

/-- Where a class is, whatever its handle: the name of its assembly, and its row there. -/
structure Home where
  /-- Name of the assembly. -/
  assembly : String
  /-- Row of the class. -/
  row : Nat
deriving Repr, DecidableEq, Inhabited

instance : MonadLift (Except Error) (Except Stop) where
  monadLift := Except.mapError .failed

namespace Resolver

variable (R : Resolver)

/-! ## What sources say -/

/-- What the source that is found for a name says. -/
def sourceOf (name : String) : Except Error Source :=
  (R.resolve [] name).map (R.source [])

/-- The definitions of all types of an assembly. -/
def definitions (name : String) : Except Error (List TypeDef) := do
  let s ← R.sourceOf name
  (List.range' 0 s.typeCount).mapM s.typeDef

/-- The full names of all types of an assembly. -/
def fullNames (name : String) : Except Error (List String) := do
  qualifiedNames (← R.definitions name)

/-- What the search for a type comes to in an assembly: the home of the type, or the name of the
assembly to which it has moved. -/
def homeOrNext (space name target : String) : Except Error (Home ⊕ String) := do
  let names ← R.fullNames target
  match names.findIdx? (· == inSpace space name) with
  | some row => return .inl ⟨target, row⟩
  | none =>
    match (← R.sourceOf target).forwarded space name with
    | some next => return .inr next
    | none => throw (.typeNotFound s!"{inSpace space name} in assembly {target}")

/-- The home of a type that is nested in the type of a home. -/
def innerHome (outer : Home) (name : String) : Except Error Home := do
  let names ← R.fullNames outer.assembly
  let fullName := names[outer.row]?.getD "" ++ "/" ++ name
  match names.findIdx? (· == fullName) with
  | some row => return ⟨outer.assembly, row⟩
  | none => throw (.typeNotFound fullName)

/-! ## Loads that remember nothing -/

section Parents

variable (load : String → Except Stop (List (Option Home)))

/-- The home of a type that is searched in an assembly and in those it has moved to. -/
def searchHome (space name : String) : Nat → String → Except Stop Home
  | 0, target => .error (.failed (.typeNotFound s!"{inSpace space name} in assembly {target}"))
  | steps + 1, target => do
    let _ ← load target
    match ← R.homeOrNext space name target with
    | .inl home => return home
    | .inr next => searchHome space name steps next

/-- The home of the class to which a reference into other assemblies leads. -/
def homeOf : TypeRef → Except Stop Home
  | .definition row => .error (.failed (.malformed s!"type row {row} does not exist"))
  | .external target space name => R.searchHome load space name maxForwards target
  | .nested outer name => do
    let o ← homeOf outer
    R.innerHome o name

/-- The home of the parent of a type of an assembly. -/
def parentHome (self : String) (defs : List TypeDef) (d : TypeDef) : Except Stop (Option Home) :=
  match d.parent with
  | none => return none
  | some r => do
    if r.isLocal then
      return some ⟨self, ← localRow defs r⟩
    else
      return some (← R.homeOf load r)

/-- The homes of the parents of all types of an assembly, by row. -/
def parentHomes (name : String) : Except Stop (List (Option Home)) := do
  let defs ← R.definitions name
  let _ ← qualifiedNames defs
  defs.mapM (R.parentHome load name defs)

end Parents

/-- The load of a name that remembers nothing but the names whose load is under way.  It answers
with the homes of the parents of all types. -/
def outcomeWithin (depth : Nat) (pending : List String) (name : String) :
    Except Stop (List (Option Home)) :=
  if name ∈ pending then
    .error (.failed (.circularDependency name))
  else
    match depth with
    | 0 => .error .lost
    | depth + 1 => R.parentHomes (outcomeWithin depth (pending ++ [name])) name

variable {R} {depth : Nat} {pending : List String} {name : String}

lemma parentHomes_of_ok {load : String → Except Stop (List (Option Home))} {defs : List TypeDef}
    {names : List String} (hd : R.definitions name = .ok defs)
    (hn : qualifiedNames defs = .ok names) :
    R.parentHomes load name = defs.mapM (R.parentHome load name defs) := by
  rw [parentHomes, hd]
  change (liftM (qualifiedNames defs) >>= fun _ => defs.mapM (R.parentHome load name defs)) = _
  rw [hn]
  rfl

lemma outcomeWithin_pending (hp : name ∈ pending) :
    R.outcomeWithin depth pending name = .error (.failed (.circularDependency name)) := by
  unfold outcomeWithin
  rw [if_pos hp]

lemma outcomeWithin_zero (hp : name ∉ pending) :
    R.outcomeWithin 0 pending name = .error .lost := by
  rw [outcomeWithin, if_neg hp]

lemma outcomeWithin_succ (hp : name ∉ pending) :
    R.outcomeWithin (depth + 1) pending name =
      R.parentHomes (R.outcomeWithin depth (pending ++ [name])) name := by
  rw [outcomeWithin, if_neg hp]

end Resolver

/-! ## Stacks that are deep enough -/

variable {α β : Type} {p : Nat → Except Stop α} {q q' : Except Stop α}

/-- A computation comes to `q` when the stack is deep enough, and is lost otherwise. -/
def Settles (p : Nat → Except Stop α) (q : Except Stop α) : Prop :=
  q ≠ .error .lost ∧ ∃ enough, ∀ depth, p depth = q ∨ depth < enough ∧ p depth = .error .lost

lemma settles_const (hq : q ≠ .error .lost) : Settles (fun _ => q) q :=
  ⟨hq, 0, fun _ => .inl rfl⟩

lemma settles_ok (a : α) : Settles (fun _ => .ok a) (.ok a) :=
  settles_const (by simp)

lemma settles_failed (e : Error) :
    Settles (fun _ => .error (.failed e)) (.error (.failed e) : Except Stop α) :=
  settles_const (by simp)

namespace Settles

lemma eq_or_lost (hs : Settles p q) (depth : Nat) : p depth = q ∨ p depth = .error .lost := by
  obtain ⟨-, enough, hall⟩ := hs
  exact (hall depth).imp_right And.right

/-- Some stack is deep enough. -/
lemma exists_eq (hs : Settles p q) : ∃ depth, p depth = q := by
  obtain ⟨-, enough, hall⟩ := hs
  exact ⟨enough, (hall enough).resolve_right fun hlt => Nat.lt_irrefl _ hlt.1⟩

lemma unique (hs : Settles p q) (hs' : Settles p q') : q = q' := by
  obtain ⟨depth, hd⟩ := hs.exists_eq
  rcases hs'.eq_or_lost depth with hd' | hd'
  · exact hd.symm.trans hd'
  · exact absurd (hd.symm.trans hd') hs.1

lemma bind {f : Nat → α → Except Stop β} {a : α} {r : Except Stop β} (hs : Settles p (.ok a))
    (hf : Settles (f · a) r) : Settles (fun depth => p depth >>= f depth) r := by
  obtain ⟨-, enough, hall⟩ := hs
  obtain ⟨hr, enough', hall'⟩ := hf
  refine ⟨hr, max enough enough', fun depth => ?_⟩
  rcases hall depth with hp | ⟨hlt, hp⟩
  · simp only [hp]
    rcases hall' depth with hf | ⟨hlt, hf⟩
    · exact .inl hf
    · exact .inr ⟨by omega, hf⟩
  · simp only [hp]
    exact .inr ⟨by omega, rfl⟩

lemma bind_failed {f : Nat → α → Except Stop β} {e : Error}
    (hs : Settles p (.error (.failed e))) :
    Settles (fun depth => p depth >>= f depth) (.error (.failed e)) := by
  obtain ⟨-, enough, hall⟩ := hs
  refine ⟨by simp, enough, fun depth => ?_⟩
  rcases hall depth with hp | ⟨hlt, hp⟩
  · simp only [hp]
    exact .inl rfl
  · simp only [hp]
    exact .inr ⟨hlt, rfl⟩

/-- A computation that needs one more level of the stack. -/
lemma of_succ (hzero : p 0 = .error .lost) (hs : Settles (fun depth => p (depth + 1)) q) :
    Settles p q := by
  obtain ⟨hq, enough, hall⟩ := hs
  refine ⟨hq, enough + 1, fun depth => ?_⟩
  cases depth with
  | zero => exact .inr ⟨Nat.succ_pos enough, hzero⟩
  | succ depth => exact (hall depth).imp_right fun ⟨hlt, hp⟩ => ⟨Nat.succ_lt_succ hlt, hp⟩

end Settles

lemma settles_mapM {f : Nat → α → Except Stop β} {xs : List α} {ys : List β}
    (hall : List.Forall₂ (fun x y => Settles (f · x) (.ok y)) xs ys) :
    Settles (fun depth => xs.mapM (f depth)) (.ok ys) := by
  induction hall with
  | nil => exact settles_ok []
  | cons hx _ ih =>
    simp only [List.mapM_cons]
    exact hx.bind (ih.bind (settles_ok _))

end ManagedHost
