/-
# Types that have moved

An assembly that does not define a type may forward it: the type has moved to another assembly,
which may forward it again.  Looking for the type one is sent from assembly to assembly, and each of
them is loaded when its turn comes, so the state of the host changes on the way.  This file says
where such a search ends: at the first definition on the way, or where the way breaks off.

* `Host.Provides`: the load of a name and the module to which it leads.
* `Host.Sent`: the way from one assembly to another, with the number of modules that were searched
  in vain.
* `Host.SearchEnds`: how a search ends that may look into so many modules.
* `Op.search_iff`: every search ends in one of these ways, and in one only.
* `search_finds_first_definition`: the same for the searches that references lead to.
-/
import ManagedHost.Proofs.LoadOutcome
import ManagedHost.Proofs.Provenance

namespace ManagedHost

variable {w : World} {load : String → Op AssemblyHandle} {space name target t t' : String}
  {h h' g g' g'' : Host} {k n steps : Nat}

namespace Host

/-! ## The first class with a name -/

/-- The class has this full name. -/
def GoesBy (h : Host) (c : ClassHandle) (fullName : String) : Prop :=
  ∃ r, h.cls c = .ok r ∧ r.fullName = fullName

/-- Of these classes, this is the first one with the full name. -/
def IsFirst (h : Host) (cs : List ClassHandle) (fullName : String) (c : ClassHandle) : Prop :=
  h.GoesBy c fullName ∧ ∃ row : Nat, cs[row]? = some c ∧
    ∀ i < row, ∀ c', cs[i]? = some c' → ¬h.GoesBy c' fullName

lemma goesBy_iff {c : ClassHandle} {fullName : String} :
    ((h.cls? c).map (·.fullName == fullName)).getD false = true ↔ h.GoesBy c fullName := by
  rw [cls?]
  rcases hr : h.cls c with e | r <;> simp [GoesBy, hr, Except.toOption]

lemma findClass_eq_some_iff {cs : List ClassHandle} {fullName : String} {c : ClassHandle} :
    h.findClass cs (·.fullName == fullName) = some c ↔ h.IsFirst cs fullName c := by
  rw [findClass, List.find?_eq_some_iff_getElem, goesBy_iff, IsFirst]
  refine and_congr_right fun _ => exists_congr fun row => ?_
  constructor
  · rintro ⟨hlt, rfl, hbefore⟩
    refine ⟨List.getElem?_eq_getElem hlt, fun i hi c' hc' hgoes => ?_⟩
    obtain ⟨hlt', rfl⟩ := List.getElem?_eq_some_iff.mp hc'
    have hnot := hbefore i hi
    rw [goesBy_iff.mpr hgoes] at hnot
    cases hnot
  · rintro ⟨hrow, hbefore⟩
    obtain ⟨hlt, heq⟩ := List.getElem?_eq_some_iff.mp hrow
    refine ⟨hlt, heq, fun i hi => ?_⟩
    have hnot := hbefore i hi _ (List.getElem?_eq_getElem (hi.trans hlt))
    rw [← goesBy_iff] at hnot
    simpa using hnot

lemma findClass_eq_none_iff {cs : List ClassHandle} {fullName : String} :
    h.findClass cs (·.fullName == fullName) = none ↔ ∀ c ∈ cs, ¬h.GoesBy c fullName := by
  rw [findClass, List.find?_eq_none]
  exact forall₂_congr fun c _ => not_congr goesBy_iff

/-! ## The way of a search -/

/-- In the state `g`, the load of the name `t` answers with an assembly whose module is `m`; it ends
in the state `g'`. -/
def Provides (w : World) (load : String → Op AssemblyHandle) (g : Host) (t : String) (m : Module)
    (g' : Host) : Prop :=
  ∃ a record, load t w g = (.ok a, g') ∧ g'.assembly a = .ok record ∧
    g'.module record.module = .ok m

/-- Looking for a type from the name `t` on, one is sent to the name `t'`; on the way, `k` modules
have been loaded, of which none defines the type and each forwards it to the next name.  The states
at the two ends are `g` and `g'`. -/
inductive Sent (w : World) (load : String → Op AssemblyHandle) (space name : String) :
    Nat → String → Host → String → Host → Prop
  | start (t : String) (g : Host) : Sent w load space name 0 t g t g
  | hop {k : Nat} {t next t' : String} {g g₁ g' : Host} {m : Module}
      (hm : g.Provides w load t m g₁)
      (hnone : ∀ c ∈ m.classes, ¬g₁.GoesBy c (inSpace space name))
      (hnext : (w.source g₁.journal m.source).forwarded space name = some next)
      (hrest : Sent w load space name k next g₁ t' g') :
      Sent w load space name (k + 1) t g t' g'

/-- How a search for a type ends that begins with the name `t` and may look into `steps` modules. -/
inductive SearchEnds (w : World) (load : String → Op AssemblyHandle) (space name : String)
    (steps : Nat) (t : String) (g : Host) : Except Stop ClassHandle → Host → Prop
  /-- The type is defined where the search has come to. -/
  | found {k : Nat} {t' : String} {g' g'' : Host} {m : Module} {c : ClassHandle} (hk : k < steps)
      (hs : Sent w load space name k t g t' g') (hm : g'.Provides w load t' m g'')
      (hc : g''.IsFirst m.classes (inSpace space name) c) :
      SearchEnds w load space name steps t g (.ok c) g''
  /-- A load gives no answer. -/
  | stopped {k : Nat} {t' : String} {g' g'' : Host} {s : Stop} (hk : k < steps)
      (hs : Sent w load space name k t g t' g') (hload : load t' w g' = (.error s, g'')) :
      SearchEnds w load space name steps t g (.error s) g''
  /-- The type is neither defined nor forwarded. -/
  | missing {k : Nat} {last : String} {g' g'' : Host} {m : Module} (hk : k < steps)
      (hs : Sent w load space name k t g last g') (hm : g'.Provides w load last m g'')
      (hnone : ∀ c ∈ m.classes, ¬g''.GoesBy c (inSpace space name))
      (hnext : (w.source g''.journal m.source).forwarded space name = none) :
      SearchEnds w load space name steps t g
        (.error (.failed (.typeNotFound s!"{inSpace space name} in assembly {last}"))) g''
  /-- No more modules may be looked into. -/
  | exhausted {last : String} {g' : Host} (hs : Sent w load space name steps t g last g') :
      SearchEnds w load space name steps t g
        (.error (.failed (.typeNotFound s!"{inSpace space name} in assembly {last}"))) g'

namespace Sent

lemma trans (hs : Sent w load space name k t g t' g')
    (hs' : Sent w load space name n t' g' target g'') :
    Sent w load space name (k + n) t g target g'' := by
  induction hs with
  | start => rwa [Nat.zero_add]
  | @hop k _ _ _ _ _ _ _ hm hnone hnext _ ih =>
    rw [Nat.add_right_comm]
    exact .hop hm hnone hnext (ih hs')

/-- Every part of the way from its beginning is a way. -/
lemma take (hs : Sent w load space name k t g t' g') (hn : n ≤ k) :
    ∃ t₁ g₁, Sent w load space name n t g t₁ g₁ := by
  induction hs generalizing n with
  | start t g =>
    obtain rfl := Nat.le_zero.mp hn
    exact ⟨t, g, .start t g⟩
  | hop hm hnone hnext _ ih =>
    cases n with
    | zero => exact ⟨_, _, .start _ _⟩
    | succ n =>
      obtain ⟨t₁, g₁, hs₁⟩ := ih (Nat.le_of_succ_le_succ hn)
      exact ⟨t₁, g₁, .hop hm hnone hnext hs₁⟩

/-- A circle can be followed any number of times. -/
lemma repeat_circle (hs : Sent w load space name k t g t g) (times : Nat) :
    Sent w load space name (times * k) t g t g := by
  induction times with
  | zero =>
    rw [Nat.zero_mul]
    exact .start t g
  | succ times ih =>
    rw [Nat.succ_mul]
    exact ih.trans hs

/-- From a circle there is no way out. -/
lemma exists_of_circle (hs : Sent w load space name n target h t g)
    (hcircle : Sent w load space name k t g t g) (hk : 0 < k) (steps : Nat) :
    ∃ t' g', Sent w load space name steps target h t' g' := by
  refine (hs.trans (hcircle.repeat_circle steps)).take ?_
  exact (Nat.le_mul_of_pos_right steps hk).trans (Nat.le_add_left _ n)

end Sent

end Host

/-! ## Searches follow their way -/

namespace Op

open Host

/-- What a search does with the module of the name it has come to. -/
lemma search_run {m : Module} (hm : g.Provides w load t m g') :
    search load space name (steps + 1) t w g =
      match g'.findClass m.classes (·.fullName == inSpace space name) with
      | some c => (.ok c, g')
      | none =>
        match (w.source g'.journal m.source).forwarded space name with
        | some next => search load space name steps next w g'
        | none =>
          (.error (.failed (.typeNotFound s!"{inSpace space name} in assembly {t}")), g') := by
  obtain ⟨a, record, hload, ha, hrecord⟩ := hm
  rw [search, bind_run_ok hload, bind_run_ok (assembly_run ha), bind_run_ok (module_run hrecord),
    bind_run_ok (show host w g' = (.ok g', g') from rfl)]
  cases g'.findClass m.classes (·.fullName == inSpace space name) with
  | some c => rfl
  | none =>
    simp only
    rw [bind_run_ok (show world w g' = (.ok w, g') from rfl)]
    cases (w.source g'.journal m.source).forwarded space name <;> rfl

/-- A search goes on where it has been sent. -/
lemma search_of_sent (hs : Sent w load space name k t g t' g') (steps : Nat) :
    search load space name (k + steps) t w g = search load space name steps t' w g' := by
  induction hs with
  | start => rw [Nat.zero_add]
  | hop hm hnone hnext _ ih =>
    rw [Nat.add_right_comm, search_run hm, findClass_eq_none_iff.mpr hnone]
    simp only [hnext]
    exact ih

lemma search_of_searchEnds {answer : Except Stop ClassHandle}
    (he : SearchEnds w load space name steps t g answer g') :
    search load space name steps t w g = (answer, g') := by
  -- at least one module is left to look into when the search has come to its last name
  have hleft : ∀ {k t' g'}, k < steps → Sent w load space name k t g t' g' →
      ∃ rest, search load space name steps t w g =
        search load space name (rest + 1) t' w g' := by
    intro k t' g' hk hs
    obtain ⟨rest, rfl⟩ := Nat.exists_eq_add_of_lt hk
    rw [Nat.add_assoc]
    exact ⟨rest, search_of_sent hs (rest + 1)⟩
  cases he with
  | found hk hs hm hc =>
    obtain ⟨rest, hrest⟩ := hleft hk hs
    rw [hrest, search_run hm, findClass_eq_some_iff.mpr hc]
  | stopped hk hs hload =>
    obtain ⟨rest, hrest⟩ := hleft hk hs
    rw [hrest, search, bind_run_error hload]
  | missing hk hs hm hnone hnext =>
    obtain ⟨rest, hrest⟩ := hleft hk hs
    rw [hrest, search_run hm, findClass_eq_none_iff.mpr hnone]
    simp only [hnext]
  | exhausted hs => exact search_of_sent hs 0

/-- A search whose loads lead to modules ends in one of the ways. -/
lemma searchEnds_of_isLoader (hl : IsLoader w load) (steps : Nat) (t : String)
    (hw : g.Wellformed) :
    SearchEnds w load space name steps t g (search load space name steps t w g).1
      (search load space name steps t w g).2 := by
  induction steps generalizing t g with
  | zero => exact .exhausted (.start t g)
  | succ steps ih =>
    rcases hload : load t w g with ⟨s | a, g'⟩
    · rw [search, bind_run_error hload]
      exact .stopped steps.succ_pos (.start t g) hload
    obtain ⟨hloads, hknown⟩ := (hl t g hw).of_ok hload
    have hw' := hloads.wellformed hw
    obtain ⟨record, m, ha, hrecord⟩ := hw'.records_of_name hknown
    have hm : g.Provides w load t m g' := ⟨a, record, hload, ha, hrecord⟩
    rw [search_run hm]
    cases hfind : g'.findClass m.classes (·.fullName == inSpace space name) with
    | some c =>
      exact .found steps.succ_pos (.start t g) hm (findClass_eq_some_iff.mp hfind)
    | none =>
      rw [findClass_eq_none_iff] at hfind
      cases hnext : (w.source g'.journal m.source).forwarded space name with
      | none => exact .missing steps.succ_pos (.start t g) hm hfind hnext
      | some next =>
        have hrest := ih next hw'
        simp only
        generalize search load space name steps next w g' = outcome at hrest ⊢
        obtain ⟨answer, g''⟩ := outcome
        cases hrest with
        | found hk hs hm' hc =>
          exact .found (Nat.succ_lt_succ hk) (.hop hm hfind hnext hs) hm' hc
        | stopped hk hs hload' =>
          exact .stopped (Nat.succ_lt_succ hk) (.hop hm hfind hnext hs) hload'
        | missing hk hs hm' hnone' hnext' =>
          exact .missing (Nat.succ_lt_succ hk) (.hop hm hfind hnext hs) hm' hnone' hnext'
        | exhausted hs => exact .exhausted (.hop hm hfind hnext hs)

theorem search_iff (hl : IsLoader w load) (hw : g.Wellformed)
    {answer : Except Stop ClassHandle} :
    search load space name steps t w g = (answer, g') ↔
      SearchEnds w load space name steps t g answer g' := by
  refine ⟨fun hrun => ?_, search_of_searchEnds⟩
  have hends : SearchEnds w load space name steps t g (search load space name steps t w g).1
      (search load space name steps t w g).2 := searchEnds_of_isLoader hl steps t hw
  rwa [hrun] at hends

end Op

open Op

/-- The search for a type, wherever it happens in a run or when the host is started, goes from the
assembly named `target` to those to which the type has moved.

* It answers with a class exactly if there is a way to it over less than eight modules that do not
  define the type, and the class is the first one of the type's name in the module that comes next.
* It fails for three reasons.  A load on this way fails, and the error is that of the load; or the
  way ends with a module by which the type is neither defined nor forwarded, or eight modules have
  been searched in vain, and the error names the type and the assembly one was sent to last.
* It gets lost exactly if a load on this way does.
* If the way comes back to where it was, then the search ends after the eighth module. -/
theorem search_finds_first_definition (hs : Underway h ∨ h = .blank h.id h.config) (depth : Nat)
    (space name target : String) :
    (∀ c h', search (loadWithin depth) space name maxForwards target w h = (.ok c, h') ↔
      ∃ k t g m, k < 8 ∧ Host.Sent w (loadWithin depth) space name k target h t g ∧
        g.Provides w (loadWithin depth) t m h' ∧ h'.IsFirst m.classes (inSpace space name) c) ∧
    (∀ e h', search (loadWithin depth) space name maxForwards target w h =
        (.error (.failed e), h') ↔
      (∃ k t g, k < 8 ∧ Host.Sent w (loadWithin depth) space name k target h t g ∧
        loadWithin depth t w g = (.error (.failed e), h')) ∨
      ∃ t, e = .typeNotFound s!"{inSpace space name} in assembly {t}" ∧
        ((∃ k g m, k < 8 ∧ Host.Sent w (loadWithin depth) space name k target h t g ∧
          g.Provides w (loadWithin depth) t m h' ∧
          (∀ c ∈ m.classes, ¬h'.GoesBy c (inSpace space name)) ∧
          (w.source h'.journal m.source).forwarded space name = none) ∨
        Host.Sent w (loadWithin depth) space name 8 target h t h')) ∧
    (∀ h', search (loadWithin depth) space name maxForwards target w h = (.error .lost, h') ↔
      ∃ k t g, k < 8 ∧ Host.Sent w (loadWithin depth) space name k target h t g ∧
        loadWithin depth t w g = (.error .lost, h')) ∧
    ∀ n k t g, Host.Sent w (loadWithin depth) space name n target h t g →
      Host.Sent w (loadWithin depth) space name k t g t g → 0 < k →
      ∃ last h', Host.Sent w (loadWithin depth) space name 8 target h last h' ∧
        search (loadWithin depth) space name maxForwards target w h =
          (.error (.failed (.typeNotFound s!"{inSpace space name} in assembly {last}")), h') := by
  have hw := wellformed_of_underway_or_blank hs
  have hiff : ∀ answer h', search (loadWithin depth) space name maxForwards target w h =
      (answer, h') ↔ Host.SearchEnds w (loadWithin depth) space name 8 target h answer h' :=
    fun answer h' => search_iff (isLoader_loadWithin w depth) hw
  refine ⟨fun c h' => (hiff _ _).trans ⟨fun he => ?_, ?_⟩,
    fun e h' => (hiff _ _).trans ⟨fun he => ?_, ?_⟩,
    fun h' => (hiff _ _).trans ⟨fun he => ?_, ?_⟩, fun n k t g hto hcircle hk => ?_⟩
  · cases he with
    | found hk hsent hm hc => exact ⟨_, _, _, _, hk, hsent, hm, hc⟩
  · rintro ⟨k, t, g, m, hk, hsent, hm, hc⟩
    exact .found hk hsent hm hc
  · cases he with
    | stopped hk hsent hload => exact .inl ⟨_, _, _, hk, hsent, hload⟩
    | missing hk hsent hm hnone hnext =>
      exact .inr ⟨_, rfl, .inl ⟨_, _, _, hk, hsent, hm, hnone, hnext⟩⟩
    | exhausted hsent => exact .inr ⟨_, rfl, .inr hsent⟩
  · rintro (⟨k, t, g, hk, hsent, hload⟩ | ⟨t, rfl, ⟨k, g, m, hk, hsent, hm, hnone, hnext⟩ | hsent⟩)
    · exact .stopped hk hsent hload
    · exact .missing hk hsent hm hnone hnext
    · exact .exhausted hsent
  · cases he with
    | stopped hk hsent hload => exact ⟨_, _, _, hk, hsent, hload⟩
  · rintro ⟨k, t, g, hk, hsent, hload⟩
    exact .stopped hk hsent hload
  · obtain ⟨last, h', hsent⟩ := hto.exists_of_circle hcircle hk 8
    exact ⟨last, h', hsent, (hiff _ _).mpr (.exhausted hsent)⟩

/-! A world of assemblies that forward all types, `0` to `1`, `1` to `2` and so on, up to `8`, which
defines one; and `Ring` to itself. -/

namespace MovedSpecimen

/-- The assembly to which an assembly forwards its types. -/
def next : String → Option String
  | "0" => some "1"
  | "1" => some "2"
  | "2" => some "3"
  | "3" => some "4"
  | "4" => some "5"
  | "5" => some "6"
  | "6" => some "7"
  | "7" => some "8"
  | "Ring" => some "Ring"
  | _ => none

/-- The surroundings of the host. -/
def world : World :=
  { (default : World) with
    resolve := fun _ name => .ok { name }
    source := fun _ id =>
      { (default : Source) with
        assemblyName := id.name
        typeCount := if id.name = "8" then 1 else 0
        typeDef := fun _ => .ok { space := "N", name := "T" }
        forwarded := fun _ _ => next id.name } }

/-- A host before it is started. -/
def host : Host :=
  .blank 1 .standard

/-- The host when `Ring` has been loaded. -/
def hostWithRing : Host :=
  (loadWithin 1 "Ring" world host).2

/-- `Ring` sends every search to itself. -/
lemma sent_ring {g : Host} (hload : loadWithin 1 "Ring" world g = (.ok ⟨1, 0⟩, hostWithRing)) :
    Host.Sent world (loadWithin 1) "N" "T" 1 "Ring" g "Ring" hostWithRing := by
  have hassembly : hostWithRing.assembly ⟨1, 0⟩ = .ok ⟨⟨1, 0⟩, "Ring", ⟨1, 0⟩⟩ := by decide +kernel
  have hmodule : hostWithRing.module ⟨1, 0⟩ =
      .ok ⟨⟨1, 0⟩, ⟨1, 0⟩, "", false, [], { name := "Ring" }⟩ := by decide +kernel
  exact .hop ⟨_, _, hload, hassembly, hmodule⟩ (by simp) rfl (.start _ _)

lemma load_ring : loadWithin 1 "Ring" world host = (.ok ⟨1, 0⟩, hostWithRing) :=
  Prod.ext (by decide +kernel) rfl

lemma sent_circle :
    Host.Sent world (loadWithin 1) "N" "T" 1 "Ring" hostWithRing "Ring" hostWithRing :=
  sent_ring (loadWithin_known 1 (by decide +kernel))

end MovedSpecimen

open MovedSpecimen in
/-- From `1` the type is found in the eighth module, from `0` it would be in the ninth, and from
`Ring` there is no way to it. -/
theorem search_finds_first_definition_specimen :
    (host : Host) = .blank host.id host.config ∧
    (∃ h', search (loadWithin 1) "N" "T" maxForwards "1" world host = (.ok ⟨1, 0⟩, h') ∧
      ∃ k t g m, k < 8 ∧ Host.Sent world (loadWithin 1) "N" "T" k "1" host t g ∧
        g.Provides world (loadWithin 1) t m h' ∧ h'.IsFirst m.classes "N.T" ⟨1, 0⟩) ∧
    (search (loadWithin 1) "N" "T" maxForwards "0" world host).1 =
      .error (.failed (.typeNotFound "N.T in assembly 8")) ∧
    Host.Sent world (loadWithin 1) "N" "T" 1 "Ring" hostWithRing "Ring" hostWithRing ∧
    ∃ t' h', Host.Sent world (loadWithin 1) "N" "T" 8 "Ring" host t' h' := by
  have hrun : search (loadWithin 1) "N" "T" maxForwards "1" world host =
      (.ok ⟨1, 0⟩, (search (loadWithin 1) "N" "T" maxForwards "1" world host).2) :=
    Prod.ext (by decide +kernel) rfl
  obtain ⟨hfound, -⟩ :=
    search_finds_first_definition (w := world) (h := host) (.inr rfl) 1 "N" "T" "1"
  obtain ⟨-, -, -, hcircle⟩ :=
    search_finds_first_definition (w := world) (h := host) (.inr rfl) 1 "N" "T" "Ring"
  obtain ⟨t', h', hsent, -⟩ := hcircle 1 1 _ _ (sent_ring load_ring) sent_circle (by decide)
  exact ⟨rfl, ⟨_, hrun, (hfound _ _).mp hrun⟩, by decide +kernel, sent_circle, t', h', hsent⟩

end ManagedHost
