/-
# The core library, and modules that pass for it

A host remembers the module of the core library, which it loads when it is started.  Besides, every
module carries a flag that says whether it counts as the core library, and the flag decides which
classes have built-in signatures.  The flag is set when a module is added, if the name of the core
library is the name under which the assembly was asked for *or* the name that its source reports.

The first condition holds of one assembly only, the one that the host remembers: no two assemblies
are ever asked for under the same name.  Nothing of the kind can be said of the second.  So the
core library is the only module with the flag exactly as long as no other source reports its name.

* `Host.Flagged` : the modules that count as the core library are found under its name.
* `Host.Named` : the names under which an assembly is found.
* `Host.Booted` : the module that the host remembers.
* `Host.Signed` : what the flag has to do with signatures.
* `corlib_of_reached` : the main statement.
-/
import ManagedHost.Proofs.Reached

namespace ManagedHost

namespace Host

variable {w : World} {h h' : Host}

/-! ## The flag of a module -/

/-- The modules that count as the core library are those of the assemblies that are known under its
name. -/
def Flagged (h : Host) : Prop :=
  ∀ (i : Nat) (m : Module), h.modules[i]? = some m →
    (m.isCorlib = true ↔ (h.config.corlib, (⟨h.id, i⟩ : AssemblyHandle)) ∈ h.names)

lemma flagged_blank (id : Nat) (config : Config) : (blank id config).Flagged :=
  fun _ _ hm => by simp [blank] at hm

lemma Flagged.congr (hf : h.Flagged) (hid : h'.id = h.id) (hm : h'.modules = h.modules)
    (hn : h'.names = h.names) (hc : h'.config = h.config) : h'.Flagged := by
  rw [Flagged, hid, hm, hn, hc]
  exact hf

lemma LoadChange.flagged (hc : LoadChange w h h') (hw : h.Wellformed) (hf : h.Flagged) :
    h'.Flagged := by
  cases hc with
  | question e he => exact hf.congr rfl rfl rfl rfl
  | commit name n hd =>
    intro i m hm
    rcases Nat.lt_or_ge i h.modules.length with hlt | hge
    · rw [Host.commit, List.getElem?_append_left hlt] at hm
      rw [hw.length_modules] at hlt
      exact (hf i m hm).trans ((Keeps.commit h name n).mem_names_iff hlt _).symm
    · obtain rfl : i = h.modules.length := by
        have hi := (List.getElem?_eq_some_iff.mp hm).1
        simp only [Host.commit, List.length_append, List.length_singleton] at hi
        omega
      rw [Host.commit, List.getElem?_concat_length] at hm
      cases hm
      have hnames := (embodies_commit hw hd).names h.config.corlib
      rw [← hw.length_modules] at hnames
      refine Iff.trans ?_ hnames.symm
      rw [Bool.or_eq_true, beq_iff_eq, beq_iff_eq, or_comm, eq_comm, @eq_comm _ n.assemblyName]

lemma Loads.flagged (hl : h.Loads w h') (hw : h.Wellformed) (hf : h.Flagged) : h'.Flagged :=
  hl.preserves hw (fun _ _ hstep hg => hstep.flagged hg) hf

/-! ## The names of an assembly -/

/-- An assembly goes by the name that its source reports and by the name under which it was asked
for. -/
def Named (h : Host) : Prop :=
  ∀ (i : Nat) (a : Assembly), h.assemblies[i]? = some a → ∀ name,
    (name, (⟨h.id, i⟩ : AssemblyHandle)) ∈ h.names ↔
      a.name = name ∨ h.requestOf ⟨h.id, i⟩ = some name

lemma Named.congr (hn : h.Named) (hid : h'.id = h.id) (ha : h'.assemblies = h.assemblies)
    (hnames : h'.names = h.names) : h'.Named := by
  simp only [Named, requestOf, hid, ha, hnames]
  exact hn

lemma LoadChange.named (hc : LoadChange w h h') (hw : h.Wellformed) (hn : h.Named) :
    h'.Named := by
  cases hc with
  | question e he => exact hn.congr rfl rfl rfl
  | commit request n hd =>
    intro i a ha name
    rcases Nat.lt_or_ge i h.assemblies.length with hlt | hge
    · rw [Host.commit, List.getElem?_append_left hlt] at ha
      have hreq : (h.commit request n).requestOf ⟨h.id, i⟩ = h.requestOf ⟨h.id, i⟩ :=
        requestOf_commit_old request n hlt
      refine ((Keeps.commit h request n).mem_names_iff hlt name).trans ?_
      rw [show (h.commit request n).id = h.id from rfl, hreq]
      exact hn i a ha name
    · -- the assembly that has just been added
      have himage := embodies_commit hw hd
      obtain rfl : i = h.assemblies.length := by
        have hi := (List.getElem?_eq_some_iff.mp ha).1
        rw [length_assemblies_commit] at hi
        omega
      rw [himage.assembly] at ha
      cases ha
      have hreq : (h.commit request n).requestOf ⟨h.id, h.assemblies.length⟩ = some request :=
        requestOf_commit_new request n
      rw [himage.names name, show (h.commit request n).id = h.id from rfl, hreq, Option.some.injEq,
        or_comm, eq_comm, @eq_comm _ name]

/-- The flag of the module beside an assembly. -/
lemma Flagged.isCorlib_iff (hf : h.Flagged) (hn : h.Named) (hw : h.Wellformed) {i : Nat}
    {a : Assembly} (ha : h.assemblies[i]? = some a) :
    h.isCorlib ⟨h.id, i⟩ = true ↔
      a.name = h.config.corlib ∨ h.requestOf ⟨h.id, i⟩ = some h.config.corlib := by
  have hlt := (List.getElem?_eq_some_iff.mp ha).1
  rw [← hw.length_modules] at hlt
  have hm := List.getElem?_eq_getElem hlt
  have hmodule : h.module ⟨h.id, i⟩ = .ok h.modules[i] := module_eq_ok_iff.mpr ⟨rfl, hm⟩
  rw [← hn i a ha, ← hf i h.modules[i] hm, isCorlib, hmodule]
  rfl

/-- Modules with the flag are modules of the host. -/
lemma Wellformed.exists_of_isCorlib (hw : h.Wellformed) {x : ModuleHandle}
    (hx : h.isCorlib x = true) : ∃ i a, x = ⟨h.id, i⟩ ∧ h.assemblies[i]? = some a := by
  cases hm : h.module x with
  | error e =>
    rw [isCorlib, hm] at hx
    cases hx
  | ok m =>
    obtain ⟨howner, hget⟩ := module_eq_ok_iff.mp hm
    have hlt := (List.getElem?_eq_some_iff.mp hget).1
    rw [hw.length_modules] at hlt
    exact ⟨x.index, _, by rw [← howner], List.getElem?_eq_getElem hlt⟩

/-! ## The module that the host remembers -/

/-- The host remembers the module beside the assembly that was asked for under the name of the core
library. -/
def Booted (h : Host) : Prop :=
  ∃ i < h.assemblies.length, h.corlib = some ⟨h.id, i⟩ ∧
    h.requestOf ⟨h.id, i⟩ = some h.config.corlib

lemma RunChange.corlib_eq (hc : RunChange w h h') : h'.corlib = h.corlib := by
  cases hc with
  | learns hl =>
    cases hl with
    | loads hl => exact hl.toExtends.corlib_eq
    | asks => rfl
    | fills => exact corlib_modifyClass _ _
  | initStarted => exact corlib_modifyClass _ _
  | initEnded => exact corlib_modifyClass _ _
  | _ => rfl

lemma RunChange.booted (hc : RunChange w h h') (hb : h.Booted) : h'.Booted := by
  obtain ⟨i, hi, hcorlib, hreq⟩ := hb
  have hkept : h'.config = h.config ∧
      h'.requestOf ⟨h.id, i⟩ = h.requestOf ⟨h.id, i⟩ := by
    rcases hc.loads_or_sameNames with hl | hs
    · exact ⟨hl.toExtends.config_eq, requestOf_of_loadChanges hl.changes hi⟩
    · exact ⟨hs.config_eq, requestOf_of_sameNames hs _⟩
  refine ⟨i, hi.trans_le hc.keeps.assemblies.length_le, ?_, ?_⟩
  · rw [hc.corlib_eq, hcorlib, hc.keeps.id_eq]
  · rw [hc.keeps.id_eq, hkept.2, hreq, hkept.1]

/-- The modules with the flag: the one that was asked for, and those that report the name. -/
lemma Flagged.isCorlib_iff_of_request (hf : h.Flagged) (hn : h.Named) (hw : h.Wellformed)
    (hr : h.Requested) {i : Nat} (hi : i < h.assemblies.length)
    (hreq : h.requestOf ⟨h.id, i⟩ = some h.config.corlib) (x : ModuleHandle) :
    h.isCorlib x = true ↔
      x = ⟨h.id, i⟩ ∨ ∃ a ∈ h.assemblies, a.module = x ∧ a.name = h.config.corlib := by
  constructor
  · intro hx
    obtain ⟨j, a, rfl, ha⟩ := hw.exists_of_isCorlib hx
    rcases (hf.isCorlib_iff hn hw ha).mp hx with hname | hreq'
    · exact .inr ⟨a, List.mem_of_getElem? ha, (hw.of_assembly j a ha).2, hname⟩
    · have hj := (List.getElem?_eq_some_iff.mp ha).1
      rw [hr.eq_of_requestOf_eq hj hi (hreq'.trans hreq.symm)]
      exact .inl rfl
  · rintro (rfl | ⟨a, ha, rfl, hname⟩)
    · exact (hf.isCorlib_iff hn hw (List.getElem?_eq_getElem hi)).mpr (.inr hreq)
    · obtain ⟨j, hj⟩ := List.mem_iff_getElem?.mp ha
      rw [(hw.of_assembly j a hj).2]
      exact (hf.isCorlib_iff hn hw hj).mpr (.inl hname)

/-! ## Signatures -/

/-- The signature of the instances of a class is the built-in one, if the class has one; otherwise
it is the class itself, by reference or in place. -/
def SignedAs (c : ClassHandle) (r : Class) (isCorlib : Bool) (s : Signature ClassHandle) : Prop :=
  builtinOf r isCorlib = some s ∨
    builtinOf r isCorlib = none ∧ (s = .value c ∨ s = .reference c)

/-- Signatures that are known have been chosen by the flag of the module. -/
def Signed (h : Host) : Prop :=
  ∀ c r s, h.cls c = .ok r → r.byValue = some s →
    ∃ m, h.module r.module = .ok m ∧ SignedAs c r m.isCorlib s

lemma signedAs_byValueOf (c : ClassHandle) (r : Class) (isCorlib : Bool) :
    SignedAs c r isCorlib (h.byValueOf c r isCorlib) := by
  unfold byValueOf
  cases hb : builtinOf r isCorlib with
  | some s => exact .inl hb
  | none =>
    refine .inr ⟨hb, ?_⟩
    by_cases hv : h.isValueType c
    · exact .inl (if_pos hv)
    · exact .inr (if_neg hv)

lemma SignedAs.of_pristine_eq {c : ClassHandle} {r r' : Class} {isCorlib : Bool}
    {s : Signature ClassHandle} (hs : SignedAs c r isCorlib s) (hp : r'.pristine = r.pristine) :
    SignedAs c r' isCorlib s := by
  rw [SignedAs, builtinOf_of_pristine_eq hp]
  exact hs

lemma RunChange.signed (hc : RunChange w h h') (hs : h.Signed) : h'.Signed := by
  intro c r' s hr' hby
  have hk := hc.keeps
  rcases hc.facet hr' .byValue with hu | ⟨r, hr, ha⟩ | ⟨r, hr, -, hv, -⟩
  · exact absurd hu (Facet.byValue_known hby)
  · -- the signature was known before
    obtain ⟨m, hm, hsigned⟩ := hs c r s hr (Eq.trans (Eq.symm ha) hby)
    obtain ⟨r'', hr'', hp⟩ := hk.classes c r hr
    rw [hr'] at hr''
    cases hr''
    obtain ⟨-, hmod, -⟩ := Class.eq_of_pristine_eq hp
    exact ⟨m, hmod ▸ hk.module hm, hsigned.of_pristine_eq hp⟩
  · obtain ⟨m, hm, rfl⟩ := hv s hby
    exact ⟨m, hk.module hm, signedAs_byValueOf c r' m.isCorlib⟩

/-- Classes with a signature other than themselves are classes of a module with the flag that are
not nested and have the name of a built-in type. -/
lemma SignedAs.builtin_iff {c : ClassHandle} {r : Class} {isCorlib : Bool}
    {s : Signature ClassHandle} (hs : SignedAs c r isCorlib s) :
    s ≠ .value c ∧ s ≠ .reference c ↔
      isCorlib = true ∧ r.declaring = none ∧ Signature.builtin? r.space r.name = some s := by
  have hbuiltin : builtinOf r isCorlib = some s ↔
      isCorlib = true ∧ r.declaring = none ∧ Signature.builtin? r.space r.name = some s := by
    unfold builtinOf
    split <;> simp_all
  rw [← hbuiltin]
  constructor
  · rintro ⟨hvalue, hreference⟩
    rcases hs with hs | ⟨-, rfl | rfl⟩
    · exact hs
    · exact absurd rfl hvalue
    · exact absurd rfl hreference
  · intro hb
    -- built-in signatures mention no class
    have hclasses : s.classes = [] := Op.classes_builtin? (hbuiltin.mp hb).2.2
    constructor
    · rintro rfl
      cases hclasses
    · rintro rfl
      cases hclasses

end Host

/-! ## What holds at every point of a run -/

open Host Op

variable {fs : List Frame} {h : Host}

lemma flagged_of_reached (hr : Reached fs h) : h.Flagged := by
  refine hr.invariant flagged_blank (fun h m hf => hf.congr rfl rfl rfl rfl)
    fun w g g' hc hw hf => ?_
  rcases hc.loads_or_sameNames with hl | hs
  · exact hl.flagged hw hf
  · exact hf.congr hs.id_eq hs.modules_eq hs.names_eq hs.config_eq

lemma named_of_reached (hr : Reached fs h) : h.Named := by
  refine hr.invariant (fun id config i a ha => ?_) (fun h m hn => hn.congr rfl rfl rfl)
    fun w g g' hc hw hn => ?_
  · simp [blank] at ha
  · rcases hc.loads_or_sameNames with hl | hs
    · exact hl.preserves hw (fun _ _ hstep hg => hstep.named hg) hn
    · exact hn.congr hs.id_eq hs.assemblies_eq hs.names_eq

lemma booted_of_start {s : Setup} {next rest : Nat} (hs : s.start next = (.ok h, rest)) :
    h.Booted := by
  obtain ⟨w, a, h₁, record, -, hload, hrecord, rfl⟩ := start_eq_ok hs
  have hblank := wellformed_blank next s.config
  have hloads := ((isLoader_load w _ _ hblank).of_ok hload).1
  have hw₁ := hloads.wellformed hblank
  obtain ⟨hid, hget⟩ := assembly_eq_ok_iff.mp hrecord
  have hreq : h₁.requestOf a = some s.config.corlib := requestOf_of_loadWithin_ok rfl hload
  have ha : a = ⟨h₁.id, a.index⟩ := by rw [← hid]
  refine ⟨a.index, (List.getElem?_eq_some_iff.mp hget).1, ?_, ?_⟩
  · show some record.module = some ⟨h₁.id, a.index⟩
    rw [(hw₁.of_assembly a.index record hget).2]
  · show h₁.requestOf ⟨h₁.id, a.index⟩ = some h₁.config.corlib
    rw [← ha, hreq, hloads.toExtends.config_eq]
    rfl

lemma booted_of_reached (hr : Reached fs h) : h.Booted := by
  obtain ⟨s, next, rest, h₀, hs, hl⟩ := hr.exists_start
  exact hl.preserves (fun w _ g g' hc hb => hc.booted hb) (booted_of_start hs)

lemma signed_of_reached (hr : Reached fs h) : h.Signed := by
  refine hr.invariant (fun id config c r s hcls => ?_) (fun h m hs => hs)
    fun w g g' hc _ hs => hc.signed hs
  have hno : ¬(blank id config).Has c := fun hc => absurd hc.2 (by simp [blank])
  exact absurd (has_iff_cls.mpr ⟨r, hcls⟩) hno

/-- What is answered about a class has been chosen by the flag of its module. -/
lemma signedAs_of_byValue (hr : Reached fs h) {w : World} {c : ClassHandle}
    {s : Signature ClassHandle} {h' : Host} (hrun : byValue c w h = (.ok s, h')) :
    ∃ r m, h.cls c = .ok r ∧ h.module r.module = .ok m ∧ SignedAs c r m.isCorlib s := by
  have hw := hr.sound.settled.wellformed
  obtain ⟨hlearns, -, r', hr', hby⟩ := (byValue_obeys c hw).of_ok hrun
  have hsigned : h'.Signed :=
    hlearns.completes.preserves (fun _ _ hc hs => hc.signed hs) (signed_of_reached hr)
  obtain ⟨r, h₁, hcls, -⟩ := bind_run_eq_ok hrun
  obtain ⟨-, -, hr₀⟩ := (obeys_cls (R := Eq) c).of_ok hcls
  obtain ⟨r'', hr'', hp⟩ := hlearns.keeps.classes c r hr₀
  rw [hr'] at hr''
  cases hr''
  obtain ⟨m, hm⟩ := hw.module_of_cls hr₀
  obtain ⟨m', hm', hs⟩ := hsigned c r' s hr' hby
  rw [(Class.eq_of_pristine_eq hp).2.1, hlearns.keeps.module hm] at hm'
  cases hm'
  exact ⟨r, m, hr₀, hm, hs.of_pristine_eq hp.symm⟩

/-- The names of all assemblies are those that their sources report. -/
lemma reports_of_reachedFrom {s : Setup} {W : World → Prop} {next rest : Nat} {h₀ : Host}
    (hs : s.start next = (.ok h₀, rest)) (hW : ∀ w, s.world? = some w → W w)
    (hr : ReachedFrom W h₀ fs h) : ∀ a ∈ h.assemblies, h.Reports W a := by
  have hlater := hr.later (sound_start hs)
  obtain ⟨w, a, h₁, record, hw, hload, -, rfl⟩ := start_eq_ok hs
  have hloads := ((isLoader_load w _ _ (wellformed_blank next s.config)).of_ok hload).1
  -- setting the core library leaves assemblies and modules alone
  have hstart : ∀ a ∈ h₁.assemblies.drop 0, h₁.Reports W a :=
    hloads.reports (hW w hw) (Nat.zero_le _) (by simp [blank])
  exact hlater.reports (n := 0) (Nat.zero_le _) hstart

/-- At every point of a run the host remembers a module `m` as its core library.  If `W` holds of
the surroundings in which the host was started and of those in which it is used:

* The modules with the flag of the core library are `m` and those of the assemblies whose records
  have its name, so `m` is the only one exactly if no other assembly has this name.  The name in the
  record of an assembly is the one that its source reports in surroundings of which `W` holds.
* The instances of a class have a built-in signature exactly if the class is one of a module with
  the flag, is not nested, and has the name of a built-in type; this is then the signature of that
  type.  Otherwise their signature is the class itself. -/
theorem corlib_of_reached {s : Setup} {W : World → Prop} {next rest : Nat} {h₀ : Host}
    (hs : s.start next = (.ok h₀, rest)) (hW : ∀ w, s.world? = some w → W w)
    (hfrom : ReachedFrom W h₀ fs h) :
    ∃ m, h.corlib = some m ∧
      (∀ x, h.isCorlib x = true ↔
        x = m ∨ ∃ a ∈ h.assemblies, a.module = x ∧ a.name = h.config.corlib) ∧
      ((∀ x, h.isCorlib x = true ↔ x = m) ↔
        ∀ a ∈ h.assemblies, a.name = h.config.corlib → a.module = m) ∧
      (∀ a ∈ h.assemblies, h.Reports W a) ∧
      ∀ c w s h', byValue c w h = (.ok s, h') →
        ∃ r, h.cls c = .ok r ∧
          (s ≠ .value c ∧ s ≠ .reference c ↔
            h.isCorlib r.module = true ∧ r.declaring = none ∧
              Signature.builtin? r.space r.name = some s) := by
  have hr := hfrom.reached hs
  have hsettled := hr.sound.settled
  obtain ⟨i, hi, hcorlib, hreq⟩ := booted_of_reached hr
  have hflag := (flagged_of_reached hr).isCorlib_iff_of_request (named_of_reached hr)
    hsettled.wellformed hsettled.requested hi hreq
  refine ⟨⟨h.id, i⟩, hcorlib, hflag, ?_, reports_of_reachedFrom hs hW hfrom, ?_⟩
  · constructor
    · intro hunique a ha hname
      exact (hunique a.module).mp ((hflag a.module).mpr (.inr ⟨a, ha, rfl, hname⟩))
    · intro hnone x
      rw [hflag]
      constructor
      · rintro (rfl | ⟨a, ha, rfl, hname⟩)
        · rfl
        · exact hnone a ha hname
      · exact .inl
  · intro c w s h' hrun
    obtain ⟨r, m, hcls, hm, hs⟩ := signedAs_of_byValue hr hrun
    refine ⟨r, hcls, ?_⟩
    have hm' : h.isCorlib r.module = m.isCorlib := by
      rw [isCorlib, hm]
      rfl
    rw [hm']
    exact hs.builtin_iff

/-! Two assemblies, of which the second reports the name of the first.  Each has one type, with the
name of a built-in one. -/

namespace NamesakeSpecimen

/-- Every name is found, and every source reports the name of the core library. -/
def resolver : Resolver where
  resolve _ name := .ok { name }
  source _ id :=
    { (default : Source) with
      moduleName := id.name
      assemblyName := "mscorlib"
      typeCount := 1
      typeDef := fun _ => .ok { space := "System", name := "Int32", parent := none } }

/-- What the host is started with. -/
def setup : Setup :=
  { Specimen.setup with resolver := some resolver }

/-- The host with the assembly `Other`. -/
def host : Host :=
  setup.after (.load "Other") setup.firstHost

lemma start_eq : setup.start 1 = (.ok setup.firstHost, 2) := by decide +kernel

lemma reachedFrom_host : ReachedFrom (·.resolver = resolver) setup.firstHost [] host :=
  Setup.reachedFrom_after (s := setup) (by rfl) .here (by decide +kernel)

end NamesakeSpecimen

open NamesakeSpecimen in
/-- A second module has the flag, since its source reports the name of the core library, and its
class has the signature of a built-in type. -/
theorem corlib_of_reached_namesake :
    setup.start 1 = (.ok setup.firstHost, 2) ∧
    ReachedFrom (·.resolver = resolver) setup.firstHost [] NamesakeSpecimen.host ∧
    NamesakeSpecimen.host.corlib = some ⟨1, 0⟩ ∧
    NamesakeSpecimen.host.isCorlib ⟨1, 1⟩ = true ∧
    (∃ a ∈ NamesakeSpecimen.host.assemblies, a.module = ⟨1, 1⟩ ∧ a.name = "mscorlib" ∧
      NamesakeSpecimen.host.Reports (·.resolver = resolver) a) ∧
    ¬(∀ x, NamesakeSpecimen.host.isCorlib x = true ↔ x = ⟨1, 0⟩) ∧
    ∃ r h', byValue ⟨1, 1⟩ setup.world NamesakeSpecimen.host = (.ok .int32, h') ∧
      NamesakeSpecimen.host.cls ⟨1, 1⟩ = .ok r ∧ r.module = ⟨1, 1⟩ ∧ r.declaring = none ∧
      Signature.builtin? r.space r.name = some (.int32 : Signature ClassHandle) := by
  have hcorlib : NamesakeSpecimen.host.corlib = some ⟨1, 0⟩ := by decide +kernel
  have hconfig : NamesakeSpecimen.host.config.corlib = "mscorlib" := by decide +kernel
  have hother : ∃ a ∈ NamesakeSpecimen.host.assemblies,
      a.module = ⟨1, 1⟩ ∧ a.name = "mscorlib" := by decide +kernel
  obtain ⟨a, ha, hmod, hname⟩ := hother
  have hrun : byValue ⟨1, 1⟩ setup.world NamesakeSpecimen.host =
      (.ok .int32, (byValue ⟨1, 1⟩ setup.world NamesakeSpecimen.host).2) :=
    Prod.ext (by decide +kernel) rfl
  have hmodule : (NamesakeSpecimen.host.cls? ⟨1, 1⟩).map (·.module) = some ⟨1, 1⟩ := by
    decide +kernel
  have hW : ∀ w, setup.world? = some w → w.resolver = resolver := by
    rintro w ⟨⟩
    rfl
  obtain ⟨m, hm, hflag, hunique, hreports, hsigned⟩ :=
    corlib_of_reached start_eq hW reachedFrom_host
  rw [hcorlib] at hm
  cases hm
  rw [hconfig] at hflag hunique
  refine ⟨start_eq, reachedFrom_host, hcorlib, (hflag ⟨1, 1⟩).mpr (.inr ⟨a, ha, hmod, hname⟩),
    ⟨a, ha, hmod, hname, hreports a ha⟩, ?_, ?_⟩
  · rw [hunique]
    intro honly
    rw [honly a ha hname] at hmod
    cases hmod
  · obtain ⟨r, hr, hbuiltin⟩ := hsigned _ _ _ _ hrun
    obtain ⟨-, hdeclaring, hname⟩ := hbuiltin.mp ⟨by simp, by simp⟩
    rw [cls?_eq_some_iff.mpr hr] at hmodule
    exact ⟨r, _, hrun, hr, Option.some.inj hmodule, hdeclaring, hname⟩

end ManagedHost
