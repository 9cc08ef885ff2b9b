/-
# Loads keep to their relation

Every operation that takes part in loading ends in a state to which `Host.Loads` leads from the
state in which it was started.  The classes it answers with exist, a reference leads to the class
that is answered for it, and a module that was read says what its source says.  The operations are
written over the load of a name; they are followed here under the assumption that this load
keeps to the relation, and the recursion on the depth closes the circle.
-/
import ManagedHost.Proofs.Contract
import ManagedHost.Proofs.Loads

namespace ManagedHost

/-- The module of an assembly to which a name leads. -/
lemma Host.Wellformed.opens {h : Host} (hw : h.Wellformed) {target : String} {a : AssemblyHandle}
    {record : Assembly} {m : Module} (ha : h.findAssembly target = some a)
    (hrec : h.assembly a = .ok record) (hm : h.module record.module = .ok m) :
    h.Opens h.assemblies.length target m := by
  obtain ⟨ho, hget⟩ := Host.assembly_eq_ok_iff.mp hrec
  obtain ⟨hlt, -⟩ := List.getElem?_eq_some_iff.mp hget
  have hmod : record.module = ⟨h.id, a.index⟩ := (hw.of_assembly a.index record hget).2
  have hat : a = ⟨h.id, a.index⟩ := by rw [← ho]
  refine ⟨a.index, hlt, hat ▸ Host.mem_names_of_findAssembly ha, ?_,
    fun c hc => hw.has_of_mem hm hc⟩
  rw [hmod] at hm
  exact (Host.module_eq_ok_iff.mp hm).2

namespace Op

variable {w : World} {h : Host} {load : String → Op AssemblyHandle}

/-! ## The parts of a load -/

/-- A way to load assemblies that keeps to the relation, wherever it is used. -/
def IsLoader (w : World) (load : String → Op AssemblyHandle) : Prop :=
  ∀ name h, h.Wellformed →
    (load name).Obeys w (Host.Loads w) h fun a h' => h'.findAssembly name = some a

lemma search_obeys (hl : IsLoader w load) (space name : String) (steps : Nat) (target : String)
    (hw : h.Wellformed) :
    (search load space name steps target).Obeys w (Host.Loads w) h fun c h' =>
      h'.Finds w.resolver h'.assemblies.length space name steps target c := by
  induction steps generalizing h target with
  | zero => exact obeys_fail
  | succ steps ih =>
    unfold search
    refine (hl target h hw).bind fun a h₁ h01 ha => ?_
    have hw₁ := h01.wellformed hw
    refine (obeys_assembly a).bind fun record h₂ _ hq => ?_
    obtain ⟨rfl, hrec⟩ := hq
    refine (obeys_module record.module).bind fun m h₃ _ hq => ?_
    obtain ⟨rfl, hm⟩ := hq
    have hopen := hw₁.opens ha hrec hm
    rw [obeys_host_bind]
    split
    · rename_i c hc
      exact obeys_pure (.here hopen hc)
    · rename_i hc
      rw [obeys_world_bind]
      split
      · rename_i next hnext
        -- the assembly that forwards the type stays what it is while the next one is searched
        refine (ih next hw₁).post fun c h₄ h14 hf => ?_
        have hk := h14.keeps
        exact .moved (hopen.of_keeps hk hk.assemblies.length_le)
          ((hk.findClass hopen.has _).trans hc) hnext hf
      · exact obeys_fail

lemma resolveWith_obeys (hl : IsLoader w load) {origin : Option Module} (r : TypeRef)
    (hw : h.Wellformed) (ho : ∀ m, origin = some m → ∀ c ∈ m.classes, h.Has c) :
    (resolveWith load origin r).Obeys w (Host.Loads w) h fun c h' =>
      h'.Has c ∧ (origin = none → h'.Leads w.resolver h'.assemblies.length r c) := by
  induction r with
  | definition row =>
    rw [resolveWith]
    split
    · rename_i c hc
      obtain ⟨m, hm, hrow⟩ := Option.bind_eq_some_iff.mp hc
      exact obeys_pure ⟨ho m hm c (List.mem_of_getElem? hrow), fun hnone => by simp [hnone] at hm⟩
    · exact obeys_fail
  | external target space name =>
    exact (search_obeys hl space name maxForwards target hw).post
      fun c h₁ _ hf => ⟨hf.has, fun _ => .external hf⟩
  | nested outer name ih =>
    rw [resolveWith]
    refine ih.bind fun c h₁ h01 houter => ?_
    refine (obeys_cls c).bind fun o h₂ _ hq => ?_
    obtain ⟨rfl, hr⟩ := hq
    refine (obeys_module o.module).bind fun m h₃ _ hq => ?_
    obtain ⟨rfl, hm⟩ := hq
    rw [obeys_host_bind]
    split
    · rename_i c' hc'
      refine obeys_pure ⟨(Host.findClass_eq_some hc').2, fun hnone => ?_⟩
      exact .nested (houter.2 hnone) hr hm (fun x hx => (h01.wellformed hw).has_of_mem hm hx) hc'
    · exact obeys_fail

lemma newParent_obeys (hl : IsLoader w load) (defs : List TypeDef) (d : TypeDef)
    (hw : h.Wellformed) :
    (newParent load defs d).Obeys w (Host.Loads w) h fun p h' =>
      NewParent.Answers w.resolver h' h'.assemblies.length defs d.parent p := by
  unfold newParent
  split
  · rename_i hd
    exact obeys_pure (hd ▸ .root)
  · rename_i r hd
    rw [hd]
    split
    · rename_i hlocal
      refine (obeys_liftM (localRow defs r)).bind fun row h₁ _ hq => ?_
      exact obeys_pure (.own hlocal hq.2)
    · rename_i hlocal
      refine (resolveWith_obeys hl r hw (by simp)).bind fun c h₁ _ hc => ?_
      exact obeys_pure (.foreign (by simpa using hlocal) (hc.2 rfl))

lemma newParents_obeys (hl : IsLoader w load) (defs : List TypeDef) (hw : h.Wellformed) :
    (each (newParent load defs) defs).Obeys w (Host.Loads w) h fun ps h' =>
      List.Forall₂ (fun d p => NewParent.Answers w.resolver h' h'.assemblies.length defs
        (TypeDef.parent d) p) defs ps :=
  obeys_each₂ (P := fun d p h' =>
      NewParent.Answers w.resolver h' h'.assemblies.length defs d.parent p)
    (fun _ _ _ _ hg hp => hp.of_keeps hg.keeps hg.keeps.assemblies.length_le)
    fun d _ _ hg => newParent_obeys hl defs d (hg.wellformed hw)

lemma typeDefs_obeys (source : SourceId) (count row : Nat) :
    (typeDefs source count row).Obeys w (Host.Loads w) h fun defs _ =>
      defs.length = count ∧ ∀ i d, defs[i]? = some d →
        ∃ j, (w.source j source).typeDef (row + i) = .ok d := by
  induction count generalizing h row with
  | zero => exact obeys_pure ⟨rfl, by simp⟩
  | succ count ih =>
    have hq := Host.Loads.question (e := .asked source .typeDef row none) w h trivial
    refine (obeys_ask hq).bind fun d h₁ _ hd => ?_
    refine (ih (row + 1)).bind fun more h₂ _ hmore => ?_
    refine obeys_pure ⟨by simp [hmore.1], fun i d' hi => ?_⟩
    cases i with
    | zero =>
      obtain rfl : d = d' := by simpa using hi
      exact ⟨_, hd.2⟩
    | succ i =>
      rw [← Nat.add_assoc, Nat.add_right_comm]
      exact hmore.2 i d' (by simpa using hi)

/-- The classes of a module, put together from the definitions of its types, their names and
their parents. -/
lemma zipWith_classes {defs : List TypeDef} {names : List String}
    {parents : List (Option NewParent)} {P : TypeDef → Option NewParent → Prop}
    (hn : names.length = defs.length) (hp : List.Forall₂ P defs parents) {cs : List NewClass}
    (hcs : cs = List.zipWith (fun d (np : String × Option NewParent) => ⟨d, np.1, np.2⟩) defs
      (names.zip parents)) :
    cs.map (·.definition) = defs ∧ cs.map (·.fullName) = names ∧
      ∀ c ∈ cs, P c.definition c.parent := by
  subst hcs
  induction hp generalizing names with
  | nil => simpa using hn
  | cons hd _ ih =>
    cases names with
    | nil => simp at hn
    | cons name names =>
      obtain ⟨hdefs, hnames, hps⟩ := @ih names (by simpa using hn)
      refine ⟨by simpa using hdefs, by simpa using hnames, ?_⟩
      exact List.forall_mem_cons.mpr ⟨hd, hps⟩

/-- What is read of a module is what its source says. -/
lemma readModule_obeys (hl : IsLoader w load) (source : SourceId) (hw : h.Wellformed)
    {request : String} (hs : ∃ j, w.resolve j request = .ok source) :
    (readModule load source).Obeys w (Host.Loads w) h fun n h' =>
      n.Describes w.resolver h' h'.assemblies.length request := by
  unfold readModule
  rw [obeys_world_bind, obeys_host_bind]
  refine (typeDefs_obeys source _ 0).bind fun defs h₁ h01 hdefs => ?_
  refine (obeys_liftM (qualifiedNames defs)).bind fun names h₂ _ hq => ?_
  obtain ⟨rfl, hnames⟩ := hq
  refine (newParents_obeys hl defs (h01.wellformed hw)).bind fun parents h₃ _ hps => ?_
  rw [obeys_world_bind, obeys_host_bind]
  obtain ⟨hd, hn, hp⟩ := zipWith_classes (qualifiedNames_eq_ok hnames).1 hps rfl
  refine obeys_pure ⟨hs, ⟨_, rfl⟩, ⟨h.journal, ?_⟩, fun row d hrow => ?_, ?_, fun c hc => ?_⟩
  · have hlen := congrArg List.length hd
    rw [List.length_map, hdefs.1] at hlen
    exact hlen.symm
  · have hrow : defs[row]? = some d := hd ▸ hrow
    obtain ⟨j, hj⟩ := hdefs.2 row d hrow
    exact ⟨j, Nat.zero_add row ▸ hj⟩
  · rw [NewModule.definitions, hd, hn]
    exact hnames
  · rw [NewModule.definitions, hd]
    exact hp c hc

/-- A load up to the point where the module is added: the source is found and read. -/
def readNew (load : String → Op AssemblyHandle) (name : String) : Op NewModule := do
  note (.resolved name)
  let source ← (← world).resolve (← host).journal name
  readModule load source

lemma loadNew_eq (load : String → Op AssemblyHandle) (name : String) :
    loadNew load name = readNew load name >>= fun n => do
      let a := (← host).nextAssembly
      modify (·.commit name n)
      return a := by
  simp only [loadNew, readNew, bind_assoc]

lemma readNew_obeys (hl : IsLoader w load) (name : String) (hw : h.Wellformed) :
    (readNew load name).Obeys w (Host.Loads w) h fun n h' =>
      n.Describes w.resolver h' h'.assemblies.length name := by
  have hq := Host.Loads.question (e := .resolved name) w h trivial
  refine (obeys_note hq).bind fun _ h₁ h01 _ => ?_
  rw [obeys_world_bind, obeys_host_bind]
  refine (obeys_liftM _).bind fun source h₂ _ hq₂ => ?_
  obtain ⟨rfl, hsource⟩ := hq₂
  exact readModule_obeys hl source (h01.wellformed hw) ⟨_, hsource⟩

/-- A module that was read comes from the source that the resolver answers with, and has the name
that this source reports when all else has been read. -/
lemma readNew_eq_ok {name : String} {n : NewModule} {h' : Host}
    (hrun : readNew load name w h = (.ok n, h')) :
    w.resolve (.resolved name :: h.journal) name = .ok n.source ∧
      n.assemblyName = (w.source h'.journal n.source).assemblyName := by
  obtain ⟨_, _, ⟨⟩, hrun⟩ := bind_run_eq_ok hrun
  obtain ⟨_, _, ⟨⟩, hrun⟩ := bind_run_eq_ok hrun
  obtain ⟨_, _, ⟨⟩, hrun⟩ := bind_run_eq_ok hrun
  obtain ⟨source, h₂, hresolve, hrun⟩ := bind_run_eq_ok hrun
  obtain ⟨-, rfl, hsource⟩ := (obeys_liftM (R := Eq) _).of_ok hresolve
  unfold readModule at hrun
  obtain ⟨_, _, ⟨⟩, hrun⟩ := bind_run_eq_ok hrun
  obtain ⟨_, _, ⟨⟩, hrun⟩ := bind_run_eq_ok hrun
  obtain ⟨defs, h₃, -, hrun⟩ := bind_run_eq_ok hrun
  obtain ⟨names, h₄, -, hrun⟩ := bind_run_eq_ok hrun
  obtain ⟨parents, h₅, -, hrun⟩ := bind_run_eq_ok hrun
  obtain ⟨_, _, ⟨⟩, hrun⟩ := bind_run_eq_ok hrun
  obtain ⟨_, _, ⟨⟩, hrun⟩ := bind_run_eq_ok hrun
  cases hrun
  exact ⟨hsource, rfl⟩

end Op

/-! ## A load from its request to its end -/

namespace Host

variable {w : World} {h h₁ : Host} {name : String}

/-- The load of a name begins. -/
def beginLoad (h : Host) (name : String) : Host :=
  { h with pending := h.pending ++ [name] }

/-- The load of a name has ended. -/
def endLoad (h : Host) (name : String) : Host :=
  { h with pending := h.pending.filter (· ≠ name) }

lemma endLoad_eq (hp : name ∉ h.pending) (he : (h.beginLoad name).Extends h₁) :
    h₁.endLoad name = { h₁ with pending := h.pending } := by
  have hpend : h₁.pending = h.pending ++ [name] := he.pending_eq
  have hfilter : h.pending.filter (· ≠ name) = h.pending := by
    rw [List.filter_eq_self]
    intro x hx
    simpa using fun heq : x = name => hp (heq ▸ hx)
  simp only [endLoad, hpend, List.filter_append, hfilter]
  simp

/-- What was loaded while a load was under way was not loaded for its name. -/
lemma Loads.requestOf_ne (hl : (h.beginLoad name).Loads w h₁) {i : Nat}
    (hi : h.assemblies.length ≤ i) (hlt : i < h₁.assemblies.length) :
    h₁.requestOf ⟨h.id, i⟩ ≠ some name := by
  intro heq
  obtain ⟨other, hreq, hpend, -⟩ := hl.requests i hi hlt
  have hreq : h₁.requestOf ⟨h.id, i⟩ = some other := hreq
  rw [heq] at hreq
  cases hreq
  exact hpend (List.mem_append_right _ (List.mem_singleton.mpr rfl))

/-- A load that failed leaves behind what the loads inside it have added. -/
lemma Loads.of_failed (hl : (h.beginLoad name).Loads w h₁) :
    h.Loads w { h₁ with pending := h.pending } := by
  refine ⟨loadChanges_setPending hl.changes h.pending, fun i hi hlt => ?_, hl.distinct⟩
  obtain ⟨other, hreq, hpend, hrest⟩ := hl.requests i hi hlt
  exact ⟨other, hreq, fun hmem => hpend (List.mem_append_left _ hmem), hrest⟩

/-- A load that succeeded has added its own module last. -/
lemma Loads.of_ok (hl : (h.beginLoad name).Loads w h₁) {n : NewModule}
    (hd : n.Describes w.resolver h₁ h₁.assemblies.length name)
    (hnone : h.findAssembly name = none) (hp : name ∉ h.pending) {depth : Nat}
    (hrun : Op.loadWithin depth name w h =
      (.ok h₁.nextAssembly, { h₁.commit name n with pending := h.pending })) :
    h.Loads w { h₁.commit name n with pending := h.pending } := by
  have he := hl.toExtends
  have hid : h₁.id = h.id := he.id_eq
  have hlen : h.assemblies.length ≤ h₁.assemblies.length := he.assemblies.length_le
  have hnew : (h₁.commit name n).requestOf ⟨h.id, h₁.assemblies.length⟩ = some name := by
    rw [← hid]
    exact requestOf_commit_new name n
  -- the assemblies of the loads inside this one keep their requests
  have hold : ∀ i < h₁.assemblies.length,
      (h₁.commit name n).requestOf ⟨h.id, i⟩ = h₁.requestOf ⟨h.id, i⟩ :=
    fun i hi => requestOf_commit_old name n hi
  have hpre : h₁.assemblies <+: (h₁.commit name n).assemblies := List.prefix_append _ _
  refine ⟨?_, fun i hi hlt => ?_, fun i j hi hij hlt => ?_⟩
  · exact (loadChanges_setPending hl.changes h.pending).tail
      (LoadChange.setPending (.commit h₁ name n hd) h.pending)
  · change i < (h₁.commit name n).assemblies.length at hlt
    rw [length_assemblies_commit] at hlt
    rcases Nat.lt_succ_iff_lt_or_eq.mp hlt with hi₁ | rfl
    · obtain ⟨other, hreq, hpend, hnone', d, g₁, g₂, hrun', hpre₁, hle, hpost, hlt'⟩ :=
        hl.requests i hi hi₁
      exact ⟨other, (hold i hi₁).trans hreq, fun hmem => hpend (List.mem_append_left _ hmem),
        hnone', d, g₁, g₂, hrun', hpre₁, hle, hpost.trans hpre, hlt'⟩
    · refine ⟨name, hnew, hp, hnone, depth, h, _, ?_, List.prefix_rfl, hlen, List.prefix_rfl, ?_⟩
      · rw [hrun, nextAssembly, hid]
      · change h₁.assemblies.length < (h₁.commit name n).assemblies.length
        simp
  · change j < (h₁.commit name n).assemblies.length at hlt
    rw [length_assemblies_commit] at hlt
    change (h₁.commit name n).requestOf _ ≠ (h₁.commit name n).requestOf _
    rcases Nat.lt_succ_iff_lt_or_eq.mp hlt with hj₁ | rfl
    · rw [hold i (hij.trans hj₁), hold j hj₁]
      exact hl.distinct i j hi hij hj₁
    · -- while this load was under way, nothing was loaded for its name
      rw [hold i hij, hnew]
      exact hl.requestOf_ne hi hij

end Host

namespace Op

variable {w : World} {h : Host} {name : String}

lemma loadWithin_known {a : AssemblyHandle} (depth : Nat) (ha : h.findAssembly name = some a) :
    loadWithin depth name w h = (.ok a, h) := by
  cases depth <;> simp only [loadWithin] <;>
    rw [bind_run_ok (show host w h = (.ok h, h) from rfl), ha] <;> rfl

lemma loadWithin_pending (depth : Nat) (hn : h.findAssembly name = none)
    (hp : name ∈ h.pending) :
    loadWithin depth name w h = (.error (.failed (.circularDependency name)), h) := by
  cases depth <;> simp only [loadWithin] <;>
    rw [bind_run_ok (show host w h = (.ok h, h) from rfl), hn] <;> simp only [if_pos hp] <;> rfl

lemma loadWithin_zero (hn : h.findAssembly name = none) (hp : name ∉ h.pending) :
    loadWithin 0 name w h = (.error .lost, h) := by
  rw [loadWithin, bind_run_ok (show host w h = (.ok h, h) from rfl), hn]
  simp only [if_neg hp]
  rfl

/-- A load that is neither spared nor refused reads the module, adds it, and ends. -/
lemma loadWithin_succ (depth : Nat) (hn : h.findAssembly name = none) (hp : name ∉ h.pending) :
    loadWithin (depth + 1) name w h =
      match readNew (loadWithin depth) name w (h.beginLoad name) with
      | (.ok n, h₁) => (.ok h₁.nextAssembly, (h₁.commit name n).endLoad name)
      | (.error (.failed e), h₁) => (.error (.failed e), h₁.endLoad name)
      | (.error .lost, h₁) => (.error .lost, h₁) := by
  rw [loadWithin, bind_run_ok (show host w h = (.ok h, h) from rfl), hn]
  simp only [if_neg hp]
  rw [bind_run_ok (show modify _ w h = (.ok (), h.beginLoad name) from rfl), loadNew_eq]
  change Op.bind (attempt (Op.bind (readNew (loadWithin depth) name) _)) _ w _ = _
  simp only [Op.bind, attempt]
  rcases readNew (loadWithin depth) name w (h.beginLoad name) with ⟨(e | _) | n, h₁⟩ <;> rfl

/-- A load that adds a module has read it before. -/
lemma loadWithin_eq_ok {depth : Nat} {a : AssemblyHandle} {h' : Host}
    (hn : h.findAssembly name = none)
    (hrun : loadWithin depth name w h = (.ok a, h')) :
    ∃ n h₁, name ∉ h.pending ∧
      readNew (loadWithin (depth - 1)) name w (h.beginLoad name) = (.ok n, h₁) ∧
      a = h₁.nextAssembly ∧ h' = (h₁.commit name n).endLoad name := by
  by_cases hp : name ∈ h.pending
  · rw [loadWithin_pending depth hn hp] at hrun
    cases hrun
  cases depth with
  | zero =>
    rw [loadWithin_zero hn hp] at hrun
    cases hrun
  | succ depth =>
    rw [loadWithin_succ depth hn hp] at hrun
    split at hrun
    · rename_i n h₁ hread
      cases hrun
      exact ⟨n, h₁, hp, hread, rfl, rfl⟩
    · cases hrun
    · cases hrun

/-- The outcomes of a load that is neither spared nor refused. -/
lemma loadWithin_succ_cases {depth : Nat} (hl : IsLoader w (loadWithin depth))
    (hw : h.Wellformed) (hn : h.findAssembly name = none) (hp : name ∉ h.pending) :
    (∃ n h₁, (h.beginLoad name).Loads w h₁ ∧
      n.Describes w.resolver h₁ h₁.assemblies.length name ∧
      loadWithin (depth + 1) name w h =
        (.ok h₁.nextAssembly, { h₁.commit name n with pending := h.pending })) ∨
    (∃ e h₁, (h.beginLoad name).Loads w h₁ ∧
      loadWithin (depth + 1) name w h =
        (.error (.failed e), { h₁ with pending := h.pending })) ∨
    ∃ h₁, loadWithin (depth + 1) name w h = (.error .lost, h₁) := by
  have hread := readNew_obeys (h := h.beginLoad name) hl name
    (hw.congr rfl rfl rfl rfl rfl)
  rw [loadWithin_succ depth hn hp]
  rcases hrun : readNew (loadWithin depth) name w (h.beginLoad name) with ⟨(e | _) | n, h₁⟩
  · have hloads := hread.of_failed hrun
    refine .inr (.inl ⟨e, h₁, hloads, ?_⟩)
    simp only [Host.endLoad_eq hp hloads.toExtends]
  · exact .inr (.inr ⟨h₁, rfl⟩)
  · obtain ⟨hloads, hd⟩ := hread.of_ok hrun
    refine .inl ⟨n, h₁, hloads, hd, ?_⟩
    have hext := hloads.toExtends.trans (Host.LoadChange.commit h₁ name n hd).extends
    simp only [Host.endLoad_eq hp hext]

lemma loadWithin_obeys_of_isLoader {depth : Nat} (hl : IsLoader w (loadWithin depth))
    (hw : h.Wellformed) (hn : h.findAssembly name = none) (hp : name ∉ h.pending) :
    (loadWithin (depth + 1) name).Obeys w (Host.Loads w) h fun a h' =>
      h'.findAssembly name = some a := by
  rcases loadWithin_succ_cases hl hw hn hp with
    ⟨n, h₁, hloads, hd, hrun⟩ | ⟨e, h₁, hloads, hrun⟩ | ⟨h₁, hrun⟩
  · rw [Obeys, hrun]
    exact ⟨hloads.of_ok hd hn hp hrun,
      (Host.findAssembly_commit name name n).trans (if_pos (.inl rfl))⟩
  · rw [Obeys, hrun]
    exact hloads.of_failed
  · rw [Obeys, hrun]
    trivial

/-- A load of a name that is known, or whose load is under way, changes nothing. -/
lemma loadWithin_obeys_of_spared (depth : Nat)
    (hs : h.findAssembly name ≠ none ∨ name ∈ h.pending) :
    (loadWithin depth name).Obeys w (Host.Loads w) h fun a h' =>
      h'.findAssembly name = some a := by
  rcases hf : h.findAssembly name with _ | a
  · rw [Obeys, loadWithin_pending depth hf (hs.resolve_left fun hne => hne hf)]
    exact .rfl' w h
  · rw [Obeys, loadWithin_known depth hf]
    exact ⟨.rfl' w h, hf⟩

/-- Every load keeps to the relation, however deep loads may nest. -/
lemma isLoader_loadWithin (w : World) (depth : Nat) : IsLoader w (loadWithin depth) := by
  induction depth with
  | zero =>
    intro name h _
    by_cases hs : h.findAssembly name ≠ none ∨ name ∈ h.pending
    · exact loadWithin_obeys_of_spared 0 hs
    · simp only [not_or, not_not] at hs
      rw [Obeys, loadWithin_zero hs.1 hs.2]
      trivial
  | succ depth ih =>
    intro name h hw
    by_cases hs : h.findAssembly name ≠ none ∨ name ∈ h.pending
    · exact loadWithin_obeys_of_spared (depth + 1) hs
    · simp only [not_or, not_not] at hs
      exact loadWithin_obeys_of_isLoader ih hw hs.1 hs.2

lemma isLoader_load (w : World) : IsLoader w load :=
  isLoader_loadWithin w w.depth

/-- A load that fails has added nothing for the name it was asked for. -/
lemma requestOf_ne_of_loadWithin_failed {depth : Nat} {e : Error} {h' : Host}
    (hw : h.Wellformed) (hrun : loadWithin depth name w h = (.error (.failed e), h')) {i : Nat}
    (hi : h.assemblies.length ≤ i) (hlt : i < h'.assemblies.length) :
    h'.requestOf ⟨h.id, i⟩ ≠ some name := by
  rcases hf : h.findAssembly name with _ | a
  swap
  · rw [loadWithin_known _ hf] at hrun
    simp at hrun
  by_cases hp : name ∈ h.pending
  · rw [loadWithin_pending _ hf hp] at hrun
    cases hrun
    exact absurd hlt (Nat.not_lt.mpr hi)
  cases depth with
  | zero =>
    rw [loadWithin_zero hf hp] at hrun
    simp at hrun
  | succ depth =>
    rcases loadWithin_succ_cases (isLoader_loadWithin w depth) hw hf hp with
      ⟨n, h₁, -, -, hrun'⟩ | ⟨e', h₁, hloads, hrun'⟩ | ⟨h₁, hrun'⟩
    · rw [hrun] at hrun'
      simp at hrun'
    · rw [hrun] at hrun'
      cases hrun'
      exact hloads.requestOf_ne hi hlt
    · rw [hrun] at hrun'
      simp at hrun'

/-- A load of a name that was not known answers with an assembly that was asked for under it. -/
lemma requestOf_of_loadWithin_ok {depth : Nat} {a : AssemblyHandle} {h' : Host}
    (hn : h.findAssembly name = none) (hrun : loadWithin depth name w h = (.ok a, h')) :
    h'.requestOf a = some name := by
  obtain ⟨n, h₁, -, -, rfl, rfl⟩ := loadWithin_eq_ok hn hrun
  exact Host.requestOf_commit_new (h := h₁) name n

/-- A load of a name that was not known answers with an assembly whose module comes from the source
that the resolver answers with.  The record has the name that this source reports, and this name
leads to the assembly. -/
lemma reported_of_loadWithin_ok {depth : Nat} {a : AssemblyHandle} {h' : Host}
    (hn : h.findAssembly name = none) (hrun : loadWithin depth name w h = (.ok a, h')) :
    ∃ source record m, w.resolve (.resolved name :: h.journal) name = .ok source ∧
      h'.assembly a = .ok record ∧ h'.module record.module = .ok m ∧ m.source = source ∧
      record.name = (w.source h'.journal source).assemblyName ∧
      h'.findAssembly record.name = some a := by
  obtain ⟨n, h₁, -, hread, rfl, rfl⟩ := loadWithin_eq_ok hn hrun
  obtain ⟨hsource, hname⟩ := readNew_eq_ok hread
  refine ⟨n.source, _, _, hsource,
    Host.assembly_eq_ok_iff.mpr ⟨rfl, List.getElem?_concat_length⟩,
    Host.module_eq_ok_iff.mpr ⟨rfl, List.getElem?_concat_length⟩, rfl, hname, ?_⟩
  exact (Host.findAssembly_commit name n.assemblyName n).trans (if_pos (.inr rfl))

end Op

end ManagedHost
