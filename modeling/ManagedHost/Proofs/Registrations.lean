/-
# What the native tables hold after a history of registrations

The native tables change by registrations only.  Each registration sets the binding at one place,
which is given by a table, a name and the variant, for all methods or for instance constructors.
What the tables hold is therefore what was registered last at each place, and which binding they
choose for a method can be read off the history of registrations (`Registration.Chosen`).

* `NativeTables.entry_record`: what a registration does to the places.
* `NativeTables.entry_after_iff`: the tables hold the last registration at every place.
* `NativeTables.find_after_iff`: the choice of a binding for a method.
* `Registration.chosen_insert`: registrations that do not matter to a choice may be left out.
-/
import Mathlib.Data.List.Basic
import Mathlib.Data.List.Induction
import ManagedHost.World

namespace ManagedHost

/-! ## Places and registrations -/

/-- A place for a binding in the native tables. -/
structure Place where
  kind : NativeKind
  name : String
  /-- Whether the binding is for instance constructors only. -/
  constructors : Bool
deriving DecidableEq

/-- A registration of native code. -/
inductive Registration where
  /-- A function with its invoker, for all methods. -/
  | plain (kind : NativeKind) (name : String) (function : NativeFunction) (invoker : Invoker)
  /-- An invoker for instance constructors. -/
  | constructors (kind : NativeKind) (name : String) (invoker : Invoker)
deriving DecidableEq

namespace Registration

/-- The place whose binding is set. -/
def place : Registration → Place
  | plain kind name _ _ => ⟨kind, name, false⟩
  | constructors kind name _ => ⟨kind, name, true⟩

/-- The binding that is set. -/
def binding : Registration → Binding
  | plain _ _ f i => ⟨some f, i⟩
  | constructors _ _ i => ⟨none, i⟩

/-- The command that makes the registration. -/
def command : Registration → Command
  | plain kind name f i => .register kind name f i
  | constructors kind name i => .registerConstructor kind name i

/-- The registrations that a host makes when it is started. -/
def builtins : List Registration :=
  .plain .intrinsic "System.Math::Pow" (.math .pow) .binary ::
    [("System.Math::Sqrt", .sqrt), ("System.Math::Sin", .sin), ("System.Math::Cos", .cos),
      ("System.Math::Floor", .floor), ("System.Math::Ceiling", .ceiling)].map fun x =>
        .plain .intrinsic x.1 (.math x.2) .unary

end Registration

namespace NativeTables

/-- The tables after a registration. -/
def record (ts : NativeTables) : Registration → NativeTables
  | .plain kind name f i => ts.modify kind (·.register name f i)
  | .constructors kind name i => ts.modify kind (·.registerConstructor name i)

/-- The tables of a host after the given registrations. -/
def after (rs : List Registration) : NativeTables :=
  rs.foldl record initial

/-- The binding at a place. -/
def entry (ts : NativeTables) (p : Place) : Option Binding :=
  if p.constructors then (ts.table p.kind).lookupConstructor p.name
  else (ts.table p.kind).lookup p.name

lemma initial_eq : initial = Registration.builtins.foldl record {} := by
  decide +kernel

lemma after_concat (rs : List Registration) (r : Registration) :
    after (rs ++ [r]) = (after rs).record r := by
  rw [after, List.foldl_concat, after]

lemma table_modify (ts : NativeTables) (kind k : NativeKind) (f : NativeTable → NativeTable) :
    (ts.modify kind f).table k = if k = kind then f (ts.table k) else ts.table k := by
  cases kind <;> cases k <;> rfl

end NativeTables

lemma lookup_assign {α : Type} (entries : List (String × α)) (name x : String) (value : α) :
    (assign entries name value).lookup x = if x = name then some value else entries.lookup x := by
  rw [assign, List.lookup_cons]
  by_cases hx : x = name
  · simp [hx]
  · have hrest : (entries.filter (·.1 ≠ name)).lookup x = entries.lookup x := by
      induction entries with
      | nil => rfl
      | cons e entries ih =>
        by_cases he : e.1 = name
        · have hne : x ≠ e.1 := fun heq => hx (heq.trans he)
          rw [List.filter_cons_of_neg (by simpa using he), ih, List.lookup_cons,
            beq_false_of_ne hne]
        · rw [List.filter_cons_of_pos (by simpa using he), List.lookup_cons, List.lookup_cons, ih]
    rw [beq_false_of_ne hx, if_neg hx]
    exact hrest

namespace NativeTables

/-- A registration sets the binding at its place, and leaves all others as they are. -/
lemma entry_record (ts : NativeTables) (r : Registration) (p : Place) :
    (ts.record r).entry p = if p = r.place then some r.binding else ts.entry p := by
  obtain ⟨k, x, constructors⟩ := p
  cases r with
  | plain kind name f i =>
    simp only [record, entry, table_modify, Registration.place, Registration.binding,
      Place.mk.injEq]
    by_cases hk : k = kind
    · cases constructors <;>
        simp [hk, NativeTable.lookup, NativeTable.lookupConstructor, NativeTable.register,
          lookup_assign]
    · simp [hk]
  | constructors kind name i =>
    simp only [record, entry, table_modify, Registration.place, Registration.binding,
      Place.mk.injEq]
    by_cases hk : k = kind
    · cases constructors <;>
        simp [hk, NativeTable.lookup, NativeTable.lookupConstructor,
          NativeTable.registerConstructor, lookup_assign]
    · simp [hk]

end NativeTables

/-! ## The last registration at a place -/

namespace Registration

variable {rs before extra rest : List Registration} {p : Place} {b : Binding}
  {kind : NativeKind} {name : String} {m : Method}

/-- The binding was registered at the place, and none was registered there since. -/
def LastAt (rs : List Registration) (p : Place) (b : Binding) : Prop :=
  ∃ before r since, rs = before ++ r :: since ∧ r.place = p ∧ r.binding = b ∧
    ∀ x ∈ since, x.place ≠ p

lemma not_lastAt_nil : ¬LastAt [] p b := by
  rintro ⟨before, r, since, heq, -⟩
  simp at heq

lemma lastAt_concat (rs : List Registration) (r : Registration) :
    LastAt (rs ++ [r]) p b ↔ if p = r.place then b = r.binding else LastAt rs p b := by
  constructor
  · rintro ⟨before, x, since, heq, hx, hb, hsince⟩
    rcases List.eq_nil_or_concat' since with rfl | ⟨since, y, rfl⟩
    · obtain ⟨-, rfl⟩ := List.append_inj' heq rfl |>.imp_right List.singleton_inj.mp
      rw [if_pos hx.symm, hb]
    · rw [← List.cons_append, ← List.append_assoc] at heq
      obtain ⟨rfl, hy⟩ := List.append_inj' heq rfl
      cases hy
      rw [if_neg (hsince r (by simp)).symm]
      exact ⟨before, x, since, rfl, hx, hb, fun z hz => hsince z (by simp [hz])⟩
  · split
    · rename_i hp
      rintro rfl
      exact ⟨rs, r, [], rfl, hp.symm, rfl, by simp⟩
    · rename_i hp
      rintro ⟨before, x, since, rfl, hx, hb, hsince⟩
      refine ⟨before, x, since ++ [r], by simp, hx, hb, fun y hy => ?_⟩
      rcases List.mem_append.mp hy with hy | hy
      · exact hsince y hy
      · rw [List.mem_singleton.mp hy]
        exact Ne.symm hp

/-- Registrations at other places do not matter. -/
lemma lastAt_insert (hextra : ∀ r ∈ extra, r.place ≠ p) :
    LastAt (before ++ extra ++ rest) p b ↔ LastAt (before ++ rest) p b := by
  induction rest using List.reverseRecOn with
  | nil =>
    induction extra using List.reverseRecOn with
    | nil => simp
    | append_singleton extra r ih =>
      have hr : p ≠ r.place := (hextra r (by simp)).symm
      rw [List.append_nil, ← List.append_assoc, lastAt_concat, if_neg hr]
      simpa using ih fun x hx => hextra x (by simp [hx])
  | append_singleton rest r ih =>
    rw [← List.append_assoc, ← List.append_assoc, lastAt_concat, lastAt_concat, ih]

lemma exists_lastAt_iff : (∃ b, LastAt rs p b) ↔ ∃ r ∈ rs, r.place = p := by
  constructor
  · rintro ⟨b, before, r, since, rfl, hr, -⟩
    exact ⟨r, by simp, hr⟩
  · rintro ⟨r, hr, hp⟩
    induction rs using List.reverseRecOn with
    | nil => cases hr
    | append_singleton rs x ih =>
      simp only [lastAt_concat]
      by_cases hx : p = x.place
      · exact ⟨x.binding, by rw [if_pos hx]⟩
      · simp only [if_neg hx]
        refine ih ?_
        rcases List.mem_append.mp hr with hr | hr
        · exact hr
        · rw [List.mem_singleton] at hr
          exact absurd (hr ▸ hp.symm) hx

end Registration

namespace NativeTables

open Registration

lemma entry_foldl (rs : List Registration) (p : Place) (b : Binding) :
    (rs.foldl record {}).entry p = some b ↔ LastAt rs p b := by
  induction rs using List.reverseRecOn with
  | nil =>
    refine iff_of_false ?_ not_lastAt_nil
    obtain ⟨kind, name, constructors⟩ := p
    cases kind <;> cases constructors <;> simp [entry, table, NativeTable.lookup,
      NativeTable.lookupConstructor]
  | append_singleton rs r ih =>
    rw [List.foldl_append, List.foldl_cons, List.foldl_nil, entry_record, lastAt_concat]
    split
    · rw [Option.some_inj, eq_comm]
    · exact ih

/-- The tables hold what was registered last at each place, by the host itself or after it was
started. -/
lemma entry_after_iff {rs : List Registration} {p : Place} {b : Binding} :
    (after rs).entry p = some b ↔ LastAt (builtins ++ rs) p b := by
  rw [after, initial_eq, ← List.foldl_append]
  exact entry_foldl _ p b

lemma entry_after_eq_none_iff {rs : List Registration} {p : Place} :
    (after rs).entry p = none ↔ ∀ r ∈ builtins ++ rs, r.place ≠ p := by
  rw [Option.eq_none_iff_forall_ne_some]
  simp only [ne_eq, entry_after_iff, ← not_exists, exists_lastAt_iff]
  simp

end NativeTables

/-! ## The choice of a binding -/

namespace Registration

variable {rs before extra rest : List Registration} {b : Binding} {kind : NativeKind}
  {name : String} {m : Method}

/-- The place that decides in a table on a method: that for constructors, if the method is one and
there have been registrations for constructors, and the one for all methods otherwise. -/
def decisive (rs : List Registration) (kind : NativeKind) (name : String) (m : Method) : Place :=
  ⟨kind, name, m.isConstructor && rs.any (·.place = ⟨kind, name, true⟩)⟩

/-- The binding that the history of registrations gives to a method in a table under a name. -/
def Chosen (rs : List Registration) (kind : NativeKind) (name : String) (m : Method)
    (b : Binding) : Prop :=
  LastAt rs (decisive rs kind name m) b

/-- The registration takes part in the choice: it is made at the place that decides, or it would
make the place for constructors decide. -/
def Matters (r : Registration) (rs : List Registration) (kind : NativeKind) (name : String)
    (m : Method) : Prop :=
  r.place = decisive rs kind name m ∨ m.isConstructor = true ∧ r.place = ⟨kind, name, true⟩

instance (r : Registration) (rs : List Registration) (kind : NativeKind) (name : String)
    (m : Method) : Decidable (r.Matters rs kind name m) :=
  inferInstanceAs (Decidable (_ ∨ _))

/-- Registrations under other names, in other tables, or of a variant that does not take part in
the choice may be left out. -/
lemma chosen_insert (hextra : ∀ r ∈ extra, ¬r.Matters (before ++ rest) kind name m) :
    Chosen (before ++ extra ++ rest) kind name m b ↔ Chosen (before ++ rest) kind name m b := by
  have hplace : decisive (before ++ extra ++ rest) kind name m =
      decisive (before ++ rest) kind name m := by
    by_cases hm : m.isConstructor = true
    · have hnone : extra.any (·.place = ⟨kind, name, true⟩) = false := by
        rw [List.any_eq_false]
        intro r hr hplace
        exact hextra r hr (.inr ⟨hm, of_decide_eq_true hplace⟩)
      simp only [decisive, List.any_append, hnone, Bool.or_false]
    · simp [decisive, hm]
  rw [Chosen, Chosen, hplace]
  exact lastAt_insert fun r hr heq => hextra r hr (.inl heq)

end Registration

/-- The tables choose as the history of registrations demands. -/
lemma NativeTables.find_after_iff {rs : List Registration} {kind : NativeKind} {name : String}
    {m : Method} {b : Binding} : ((after rs).table kind).find name m = some b ↔
      Registration.Chosen (Registration.builtins ++ rs) kind name m b := by
  have hfind : ((after rs).table kind).find name m =
      (if m.isConstructor then (after rs).entry ⟨kind, name, true⟩ else none).or
        ((after rs).entry ⟨kind, name, false⟩) := rfl
  rw [Registration.Chosen, ← entry_after_iff, hfind, Registration.decisive]
  by_cases hm : m.isConstructor = true
  · rw [if_pos hm, hm, Bool.true_and]
    rcases hentry : (after rs).entry ⟨kind, name, true⟩ with _ | b'
    · have hno : (Registration.builtins ++ rs).any (·.place = ⟨kind, name, true⟩) = false := by
        rw [List.any_eq_false]
        intro r hr
        simpa using entry_after_eq_none_iff.mp hentry r hr
      rw [hno, Option.none_or]
    · have hyes : (Registration.builtins ++ rs).any (·.place = ⟨kind, name, true⟩) = true := by
        obtain ⟨r, hr, hplace⟩ := Registration.exists_lastAt_iff.mp ⟨b', entry_after_iff.mp hentry⟩
        exact List.any_eq_true.mpr ⟨r, hr, decide_eq_true hplace⟩
      rw [hyes, hentry, Option.some_or]
  · rw [if_neg hm, Option.none_or, Bool.eq_false_iff.mpr hm, Bool.false_and]

end ManagedHost
