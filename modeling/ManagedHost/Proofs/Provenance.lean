/-
# Where classes come from

A load reads a module in several passes: it asks the source for the number of types and for one
definition after the other, then works out full names, then follows the references to parents, for
which other assemblies may have to be loaded, and only at the end it learns at which position of
the table the classes will stand.  This file says that nothing gets mixed up on the way.  Each class
is the picture of the definition that the source gave for its row, its position is that of the row
counted from the first class of the module, and its parent is what its reference was resolved to.

* `Host.Proceeds`: the steps with which a run goes on, also in the middle of a load.
* `Underway.of_commits`: how to show that something holds at every point of a run.
* `Host.Imaged`: every module is the image of one that was read; this holds whatever happens, and
  whichever resolvers were in use.
* `Host.Lays`: the position at which the classes of such a module start.
* `image_of_load`: a load that adds a module makes a picture of what its source has said.
-/
import ManagedHost.Proofs.LoadHistory

namespace ManagedHost

open Op

variable {w : World} {h h₁ h' : Host} {name : String}

/-! ## How a run goes on -/

/-- One step with which a run goes on, also in the middle of commands and loads. -/
inductive Host.Proceeds : Host → Host → Prop
  /-- A step of running code. -/
  | runs {w : World} {h h' : Host} (hc : RunChange w h h') : Proceeds h h'
  /-- A question of a load, or the addition of its module. -/
  | loads {w : World} {h h' : Host} (hc : LoadChange w h h') : Proceeds h h'
  /-- A load begins. -/
  | begins (h : Host) (name : String) : Proceeds h (h.beginLoad name)
  /-- A load has ended. -/
  | ends (h : Host) (name : String) : Proceeds h (h.endLoad name)
  /-- The start of the host has ended. -/
  | starts (h : Host) (corlib : Option ModuleHandle) : Proceeds h { h with corlib }

namespace Host

lemma Proceeds.keeps (hp : h.Proceeds h') : h.Keeps h' := by
  cases hp with
  | runs hc => exact hc.keeps
  | loads hc => exact hc.keeps
  | begins name => exact .of_eq rfl rfl rfl rfl rfl
  | ends name => exact .of_eq rfl rfl rfl rfl rfl
  | starts corlib => exact .of_eq rfl rfl rfl rfl rfl

lemma keeps_of_proceeds (hp : Relation.ReflTransGen Proceeds h h') : h.Keeps h' := by
  induction hp with
  | refl => exact .rfl' h
  | tail _ hstep ih => exact ih.trans hstep.keeps

end Host

/-- What holds of the empty host and is kept, whether a module is added or not, holds at every point
of a run. -/
lemma Underway.of_commits {P : Host → Prop} (hblank : ∀ id config, P (.blank id config))
    (hkeeps : ∀ g g' : Host, g.Wellformed → g.Keeps g' → g'.modules = g.modules → P g → P g')
    (hcommit : ∀ R g request n, g.Wellformed →
      NewModule.Describes n R g g.assemblies.length request → P g → P (g.commit request n))
    (hu : Underway h) : P h := by
  have hload : ∀ w g g', Host.LoadChange w g g' → g.Wellformed → P g → P g' := by
    intro w g g' hc hw hg
    cases hc with
    | question e _ => exact hkeeps _ _ hw (.note g e) rfl hg
    | commit request n hd => exact hcommit _ g request n hw hd hg
  have hrun : ∀ w g g', Host.RunChange w g g' → g.Wellformed → P g → P g' := by
    intro w g g' hc hw hg
    rcases hc.loads_or_sameNames with hl | hs
    · exact hl.preserves hw (hload w) hg
    · exact hkeeps _ _ hw hc.keeps hs.modules_eq hg
  have hframe : ∀ g g' : Host, g'.id = g.id → g'.assemblies = g.assemblies →
      g'.modules = g.modules → g'.classes = g.classes → g'.names = g.names →
      g.Wellformed ∧ P g → g'.Wellformed ∧ P g' := by
    rintro g g' hid ha hm hc hn ⟨hw, hg⟩
    exact ⟨hw.congr hid ha hm hc hn, hkeeps _ _ hw (.of_eq hid ha hm hc hn) hm hg⟩
  induction hu with
  | reached hr =>
    refine (hr.invariant (P := fun g => g.Wellformed ∧ P g) ?_ ?_ ?_).2
    · exact fun id config => ⟨Host.wellformed_blank id config, hblank id config⟩
    · exact fun g m => hframe _ _ rfl rfl rfl rfl rfl
    · exact fun w g g' hc hw hg => ⟨hc.wellformed hw, hrun w g g' hc hw hg.2⟩
  | learned hu hl ih => exact hrun _ _ _ (.learns hl) hu.wellformed ih
  | @requested g name hu _ _ ih =>
    exact (hframe g (g.beginLoad name) rfl rfl rfl rfl rfl ⟨hu.wellformed, ih⟩).2

/-! ## Images at every point of a run -/

/-- Every module is the image of one that was read from a source found by some resolver. -/
def Host.Imaged (h : Host) : Prop :=
  ∀ i < h.modules.length, ∃ R request n, h.Embodies R i request n

lemma Underway.imaged (hu : Underway h) : h.Imaged := by
  refine hu.of_commits ?_ ?_ ?_
  · intro id config i hi
    simp [Host.blank] at hi
  · intro g g' _ hk hm hg i hi
    obtain ⟨R, request, n, he⟩ := hg i (hm ▸ hi)
    exact ⟨R, request, n, he.of_keeps hk⟩
  · intro R g request n hw hd hg i hi
    have hi : i < g.modules.length + 1 := by simpa [Host.commit] using hi
    rcases Nat.lt_succ_iff_lt_or_eq.mp hi with hold | rfl
    · obtain ⟨R', request', n', he⟩ := hg i hold
      exact ⟨R', request', n', he.of_keeps (.commit g request n)⟩
    · rw [hw.length_modules]
      exact ⟨R, request, n, Host.embodies_commit hw hd⟩

/-! ## Classes and the rows they were made from -/

/-- The classes of a module that was read, with full names for all its types, start at this position
of the table. -/
structure Host.Lays (h : Host) (base : Nat) (n : NewModule) : Prop where
  named : qualifiedNames n.definitions = .ok (n.classes.map (·.fullName))
  record : ∀ row k, n.classes[row]? = some k → ∃ r m, h.cls ⟨h.id, base + row⟩ = .ok r ∧
    r.pristine = k.record h.id base m row

/-- Every class was made from a row of a module that has been added. -/
lemma Host.Imaged.exists_row (hi : h.Imaged) (hw : h.Wellformed) {c : ClassHandle} {r : Class}
    (hr : h.cls c = .ok r) :
    ∃ base n, h.Lays base n ∧ r.row < n.classes.length ∧ c = ⟨h.id, base + r.row⟩ := by
  obtain ⟨i, m, hm, -, hrow⟩ := hw.row_of_cls hr
  obtain ⟨R, request, n, he⟩ := hi i (List.getElem?_eq_some_iff.mp hm).1
  obtain ⟨base, m', hm', -, hcs, hrec⟩ := he.module
  obtain rfl := Option.some.inj (hm.symm.trans hm')
  rw [hcs, List.getElem?_map, Option.map_eq_some_iff] at hrow
  obtain ⟨row, hrange, rfl⟩ := hrow
  obtain ⟨hlt, rfl⟩ := List.getElem?_eq_some_iff.mp hrange
  rw [List.length_range] at hlt
  refine ⟨base, n, ⟨he.describes.named, fun row k hk => ?_⟩, hlt, by rw [List.getElem_range]⟩
  obtain ⟨r', hr', hp⟩ := hrec row k hk
  exact ⟨r', _, hr', hp⟩

/-! ## What a load asks -/

/-- The questions about so many types from a row on, latest first. -/
def questions (source : SourceId) (row count : Nat) : Journal :=
  ((List.range' row count).map (.asked source .typeDef · none)).reverse

lemma questions_succ (source : SourceId) (row count : Nat) :
    questions source row (count + 1) =
      questions source (row + 1) count ++ [.asked source .typeDef row none] := by
  simp [questions, List.range'_succ]

/-- The definitions that were read are the answers of the source, each to the question about its
row. -/
lemma Op.typeDefs_eq_ok {source : SourceId} {count row : Nat} {defs : List TypeDef}
    (hrun : typeDefs source count row w h = (.ok defs, h')) :
    h'.journal = questions source row count ++ h.journal ∧ defs.length = count ∧
      ∀ i d, defs[i]? = some d →
        (w.source (questions source row (i + 1) ++ h.journal) source).typeDef (row + i) =
          .ok d := by
  induction count generalizing h row defs with
  | zero =>
    cases hrun
    simp [questions]
  | succ count ih =>
    obtain ⟨d, h₁, hask, hrest⟩ := bind_run_eq_ok hrun
    obtain ⟨more, h₂, hmore, hpure⟩ := bind_run_eq_ok hrest
    cases hpure
    have hq := Host.Loads.question (e := .asked source .typeDef row none) w h trivial
    obtain ⟨-, rfl, hd⟩ := (obeys_ask hq).of_ok hask
    obtain ⟨hj, hlen, hdefs⟩ := ih hmore
    -- the question about the first row was asked before those about the others
    have hnote : ∀ k, questions source (row + 1) k ++
        (h.note (.asked source .typeDef row none)).journal =
          questions source row (k + 1) ++ h.journal := by
      intro k
      rw [questions_succ, List.append_assoc]
      rfl
    refine ⟨hj.trans (hnote count), by simp [hlen], ?_⟩
    intro i d' hi
    cases i with
    | zero =>
      obtain rfl : d = d' := by simpa using hi
      simpa [questions, Host.note] using hd
    | succ i =>
      have hd' := hdefs i d' (by simpa using hi)
      rw [hnote, Nat.add_assoc row 1 i, Nat.add_comm 1 i] at hd'
      exact hd'

/-! ## What a load makes of the answers -/

/-- Between two states of a load, a reference has been resolved to a class. -/
def Host.Resolves (w : World) (load : String → Op AssemblyHandle) (h h' : Host) (r : TypeRef)
    (c : ClassHandle) : Prop :=
  ∃ g g', h.Loads w g ∧ resolveWith load none r w g = (.ok c, g') ∧ g'.Loads w h'

/-- The parent of a new class is what the reference in its definition was resolved to. -/
structure NewParent.Given (w : World) (load : String → Op AssemblyHandle) (h h' : Host)
    (defs : List TypeDef) (reference : Option TypeRef) (p : Option NewParent) : Prop where
  root : reference = none → p = none
  own : ∀ r, reference = some r → r.isLocal = true →
    ∃ row, localRow defs r = .ok row ∧ p = some (.own row)
  foreign : ∀ r, reference = some r → r.isLocal = false →
    ∃ c, h.Resolves w load h' r c ∧ p = some (.foreign c)

lemma NewParent.Given.of_loads {load : String → Op AssemblyHandle} {defs : List TypeDef}
    {reference : Option TypeRef} {p : Option NewParent}
    (hg : NewParent.Given w load h h₁ defs reference p) (hl : h₁.Loads w h') :
    NewParent.Given w load h h' defs reference p := by
  refine ⟨hg.root, hg.own, ?_⟩
  intro r hr hlocal
  obtain ⟨c, ⟨g, g', hbefore, hrun, hafter⟩, hp⟩ := hg.foreign r hr hlocal
  exact ⟨c, ⟨g, g', hbefore, hrun, hafter.trans hl⟩, hp⟩

/-- A module that was read from a source between two states is put together from the answers of the
source and from what its references were resolved to. -/
structure NewModule.Transcribes (n : NewModule) (w : World) (load : String → Op AssemblyHandle)
    (source : SourceId) (h h' : Host) : Prop where
  source_eq : n.source = source
  counted : (w.source h.journal source).typeCount = n.definitions.length
  defined : ∀ row d, n.definitions[row]? = some d →
    (w.source (questions source 0 (row + 1) ++ h.journal) source).typeDef row = .ok d
  named : qualifiedNames n.definitions = .ok (n.classes.map (·.fullName))
  parents : ∀ k ∈ n.classes,
    NewParent.Given w load h h' n.definitions k.definition.parent k.parent

lemma NewModule.Transcribes.fullName {n : NewModule} {load : String → Op AssemblyHandle}
    {source : SourceId} (ht : n.Transcribes w load source h h') {k : NewClass}
    (hk : k ∈ n.classes) : qualifiedName n.definitions k.definition = .ok k.fullName := by
  have hall := mapM_eq_ok_iff.mp ht.named
  rw [NewModule.definitions, List.forall₂_map_left_iff, List.forall₂_map_right_iff,
    List.forall₂_same] at hall
  exact hall k hk

namespace Op

variable {load : String → Op AssemblyHandle}

lemma newParent_given (hl : IsLoader w load) (defs : List TypeDef) (d : TypeDef)
    (h01 : h.Loads w h₁) (hw : h.Wellformed) :
    (newParent load defs d).Obeys w (Host.Loads w) h₁ fun p h' =>
      NewParent.Given w load h h' defs d.parent p := by
  unfold newParent
  split
  · rename_i hd
    refine obeys_pure ⟨fun _ => rfl, ?_, ?_⟩ <;> simp [hd]
  · rename_i r hd
    rw [hd]
    split
    · rename_i hlocal
      refine (obeys_liftM (localRow defs r)).bind fun row h₂ _ hq => ?_
      exact obeys_pure ⟨by simp, by simp [hq.2], by simp [hlocal]⟩
    · rename_i hlocal
      have hres : (resolveWith load none r).Obeys w (Host.Loads w) h₁ _ :=
        resolveWith_obeys hl r (h01.wellformed hw) (by simp)
      refine hres.and_run.bind fun c h₂ _ hq => ?_
      refine obeys_pure ⟨by simp, by simp [hlocal], ?_⟩
      rintro r' ⟨⟩ -
      exact ⟨c, ⟨h₁, h₂, h01, hq.2, .rfl' w h₂⟩, rfl⟩

lemma readModule_transcribes (hl : IsLoader w load) (source : SourceId) (hw : h.Wellformed) :
    (readModule load source).Obeys w (Host.Loads w) h fun n h' =>
      n.Transcribes w load source h h' := by
  unfold readModule
  rw [obeys_world_bind, obeys_host_bind]
  refine (typeDefs_obeys source _ 0).and_run.bind fun defs h₁ h01 hq => ?_
  obtain ⟨-, hlen, hdefs⟩ := typeDefs_eq_ok hq.2
  refine (obeys_liftM (qualifiedNames defs)).bind fun names h₂ _ hq => ?_
  obtain ⟨rfl, hnames⟩ := hq
  have hparents : (each (newParent load defs) defs).Obeys w (Host.Loads w) h₂ fun ps h' =>
      List.Forall₂ (fun d p => NewParent.Given w load h h' defs d.parent p) defs ps :=
    obeys_each₂ (fun _ _ _ _ hg hp => hp.of_loads hg)
      fun d _ g hg => newParent_given hl defs d (h01.trans hg) hw
  refine hparents.bind fun parents h₃ _ hps => ?_
  rw [obeys_world_bind, obeys_host_bind]
  obtain ⟨hd, hn, hp⟩ := zipWith_classes (qualifiedNames_eq_ok hnames).1 hps rfl
  refine obeys_pure ⟨rfl, ?_, ?_, ?_, ?_⟩
  · rw [NewModule.definitions, hd, hlen]
  · intro row d hrow
    have hrow : defs[row]? = some d := hd ▸ hrow
    simpa using hdefs row d hrow
  · rw [NewModule.definitions, hd, hn]
    exact hnames
  · rw [NewModule.definitions, hd]
    exact hp

lemma readNew_transcribes (hl : IsLoader w load) (name : String) (hw : h.Wellformed) :
    (readNew load name).Obeys w (Host.Loads w) h fun n h' =>
      w.resolve (.resolved name :: h.journal) name = .ok n.source ∧
        n.Transcribes w load n.source (h.note (.resolved name)) h' := by
  have hq := Host.Loads.question (e := .resolved name) w h trivial
  refine (obeys_note hq).bind fun _ h₁ h01 heq => ?_
  subst heq
  rw [obeys_world_bind, obeys_host_bind]
  refine (obeys_liftM _).bind fun source h₂ _ hq₂ => ?_
  obtain ⟨rfl, hsource⟩ := hq₂
  refine (readModule_transcribes hl source (h01.wellformed hw)).post fun n h₃ _ hn => ?_
  obtain rfl := hn.source_eq
  exact ⟨hsource, hn⟩

end Op

/-! ## Pictures of definitions -/

/-- The record of a class says what the definition of its type says, which is one of `defs`.  The
classes of its module start at position `base`, and `External` tells to which classes references
into other assemblies have been resolved. -/
structure Class.Portrays (record : Class) (id base : Nat) (defs : List TypeDef) (d : TypeDef)
    (External : TypeRef → ClassHandle → Prop) : Prop where
  space : record.space = d.space
  name : record.name = d.name
  fullName : qualifiedName defs d = .ok record.fullName
  visibility : record.visibility = d.visibility
  isInterface : record.isInterface = d.isInterface
  /-- The class around it is that of the row of the encloser. -/
  declaring : ∀ e, record.declaring = some ⟨id, base + e⟩ ↔ d.encloser = some e
  outermost : record.declaring = none ↔ d.encloser = none
  root : record.parent = none ↔ d.parent = none
  /-- A parent within the module is the class of the row to which the reference leads. -/
  own : ∀ r, d.parent = some r → r.isLocal = true →
    ∃ row < defs.length, localRow defs r = .ok row ∧ record.parent = some ⟨id, base + row⟩
  /-- A parent in another assembly stands in the table before the classes of the module. -/
  foreign : ∀ r, d.parent = some r → r.isLocal = false →
    ∃ c, External r c ∧ record.parent = some c ∧ c.owner = id ∧ c.index < base

lemma NewClass.portrays {k : NewClass} {r : Class} {id base row : Nat} {m : ModuleHandle}
    {load : String → Op AssemblyHandle} {defs : List TypeDef}
    {External : TypeRef → ClassHandle → Prop} (hp : r.pristine = k.record id base m row)
    (hn : qualifiedName defs k.definition = .ok k.fullName)
    (hg : NewParent.Given w load h h' defs k.definition.parent k.parent)
    (hext : ∀ ref c, h.Resolves w load h' ref c → External ref c ∧ c.owner = id ∧ c.index < base) :
    r.Portrays id base defs k.definition External := by
  simp only [Class.pristine, NewClass.record, Class.mk.injEq] at hp
  obtain ⟨-, -, -, hspace, hname, hfull, hparent, hdeclaring, hvisibility, hinterface, -⟩ := hp
  refine ⟨hspace, hname, hfull ▸ hn, hvisibility, hinterface, ?_, ?_, ?_, ?_, ?_⟩
  · intro e
    rw [hdeclaring]
    cases k.definition.encloser <;> simp
  · rw [hdeclaring, Option.map_eq_none_iff]
  · rw [hparent, Option.map_eq_none_iff]
    constructor
    · intro hnone
      by_contra hsome
      obtain ⟨ref, href⟩ := Option.ne_none_iff_exists'.mp hsome
      cases hlocal : ref.isLocal with
      | true =>
        obtain ⟨row', -, hrow⟩ := hg.own ref href hlocal
        simp [hnone] at hrow
      | false =>
        obtain ⟨c, -, hc⟩ := hg.foreign ref href hlocal
        simp [hnone] at hc
    · exact hg.root
  · intro ref href hlocal
    obtain ⟨row', hrow, hown⟩ := hg.own ref href hlocal
    refine ⟨row', localRow_lt hrow, hrow, ?_⟩
    rw [hparent, hown]
    rfl
  · intro ref href hlocal
    obtain ⟨c, hc, hforeign⟩ := hg.foreign ref href hlocal
    obtain ⟨hextc, howner, hlt⟩ := hext ref c hc
    refine ⟨c, hextc, ?_, howner, hlt⟩
    rw [hparent, hforeign]
    rfl

/-- The class to which a reference has been resolved is in the table from then on. -/
lemma Host.Resolves.has {depth : Nat} {r : TypeRef} {c : ClassHandle}
    (hr : h.Resolves w (loadWithin depth) h' r c) (hw : h.Wellformed) : h'.Has c := by
  obtain ⟨g, g', hbefore, hrun, hafter⟩ := hr
  have hres : (resolveWith (loadWithin depth) none r).Obeys w (Host.Loads w) g _ :=
    resolveWith_obeys (isLoader_loadWithin w depth) r (hbefore.wellformed hw) (by simp)
  obtain ⟨-, hc, -⟩ := hres.of_ok hrun
  exact hafter.keeps.has hc

namespace Host.Keeps

variable {g later : Host} {n : NewModule}

/-- The assembly and the module that were added are found where they were put. -/
lemma exists_module_of_commit (hk : (g.commit name n).Keeps later) :
    ∃ m, m.handle = ⟨g.id, g.modules.length⟩ ∧ later.moduleOf g.nextAssembly = some m.handle ∧
      later.module m.handle = .ok m ∧ m.source = n.source ∧
      m.classes = (List.range n.classes.length).map fun row => ⟨g.id, g.classes.length + row⟩ := by
  have hassembly : later.assembly g.nextAssembly =
      .ok ⟨g.nextAssembly, n.assemblyName, ⟨g.id, g.modules.length⟩⟩ :=
    assembly_eq_ok_iff.mpr ⟨hk.id_eq.symm,
      getElem?_of_prefix hk.assemblies List.getElem?_concat_length⟩
  obtain ⟨m, hm, hhandle, hsource, hclasses⟩ : ∃ m,
      (g.commit name n).module ⟨g.id, g.modules.length⟩ = .ok m ∧
        m.handle = ⟨g.id, g.modules.length⟩ ∧ m.source = n.source ∧
        m.classes = (List.range n.classes.length).map fun row =>
          ⟨g.id, g.classes.length + row⟩ :=
    ⟨_, module_eq_ok_iff.mpr ⟨rfl, List.getElem?_concat_length⟩, rfl, rfl, rfl⟩
  refine ⟨m, hhandle, ?_, ?_, hsource, hclasses⟩
  · rw [moduleOf, hassembly, hhandle]
    rfl
  · rw [hhandle]
    exact hk.module hm

/-- The class of each row that was added is found where it was put. -/
lemma exists_class_of_commit (hk : (g.commit name n).Keeps later) {row : Nat} {d : TypeDef}
    (hrow : n.definitions[row]? = some d) :
    ∃ k ∈ n.classes, k.definition = d ∧ ∃ r, later.cls ⟨g.id, g.classes.length + row⟩ = .ok r ∧
      r.pristine = k.record g.id g.classes.length ⟨g.id, g.modules.length⟩ row := by
  rw [NewModule.definitions, List.getElem?_map, Option.map_eq_some_iff] at hrow
  obtain ⟨k, hk', hd⟩ := hrow
  exact ⟨k, List.mem_of_getElem? hk', hd, hk.classes _ _ (cls_commit_new name hk')⟩

end Host.Keeps

lemma wellformed_of_underway_or_blank (hs : Underway h ∨ h = .blank h.id h.config) :
    h.Wellformed := by
  rcases hs with hu | hblank
  · exact hu.wellformed
  · rw [hblank]
    exact Host.wellformed_blank _ _

/-- The load of a name that is not known, wherever it happens in a run or when the host is started.
When it succeeds, it has added a module to a state `g`.  The source found for the name was asked for
the number of its types and for one definition after the other, and at the end of the load and in
every later state

* the module of the assembly has one class for each definition, and these stand right after the
  classes of `g`;
* the class of each row is a picture of the definition that was given for this row, whose parent, if
  it is in another assembly, is the class to which its reference was resolved before `g`. -/
theorem image_of_load (hs : Underway h ∨ h = .blank h.id h.config) (hn : h.findAssembly name = none)
    {depth : Nat} {a : AssemblyHandle} (hrun : loadWithin depth name w h = (.ok a, h'))
    {later : Host} (hlater : Relation.ReflTransGen Host.Proceeds h' later) :
    ∃ source defs n g m,
      w.resolve (.resolved name :: h.journal) name = .ok source ∧
      (w.source (.resolved name :: h.journal) source).typeCount = defs.length ∧
      (∀ row d, defs[row]? = some d →
        (w.source (questions source 0 (row + 1) ++ .resolved name :: h.journal) source).typeDef
          row = .ok d) ∧
      h' = (g.commit name n).endLoad name ∧ h'.classes.length = g.classes.length + defs.length ∧
      later.moduleOf a = some m.handle ∧ later.module m.handle = .ok m ∧ m.source = source ∧
      m.classes = (List.range defs.length).map (fun row => ⟨h.id, g.classes.length + row⟩) ∧
      ∀ row d, defs[row]? = some d → ∃ r, later.cls ⟨h.id, g.classes.length + row⟩ = .ok r ∧
        r.Portrays h.id g.classes.length defs d
          (((h.beginLoad name).note (.resolved name)).Resolves w (loadWithin (depth - 1)) g) := by
  obtain ⟨n, g, hp, hread, rfl, rfl⟩ := loadWithin_eq_ok hn hrun
  have hw : (h.beginLoad name).Wellformed :=
    (wellformed_of_underway_or_blank hs).congr rfl rfl rfl rfl rfl
  obtain ⟨hloads, hres, htr⟩ :=
    (readNew_transcribes (isLoader_loadWithin w (depth - 1)) name hw).of_ok hread
  have hid : g.id = h.id := hloads.toExtends.id_eq
  have hlen : n.definitions.length = n.classes.length := List.length_map _
  have hk : (g.commit name n).Keeps later := Host.keeps_of_proceeds (.head (.ends _ name) hlater)
  obtain ⟨m, -, hassembly, hm, hsource, hclasses⟩ := hk.exists_module_of_commit
  refine ⟨n.source, n.definitions, n, g, m, hres, htr.counted, htr.defined, rfl, ?_, hassembly, hm,
    hsource, ?_, ?_⟩
  · rw [hlen]
    exact Host.length_classes_commit name n
  · rw [hlen, ← hid, hclasses]
  · intro row d hrow
    obtain ⟨k, hmem, rfl, r, hr, hpristine⟩ := hk.exists_class_of_commit hrow
    rw [hid] at hr hpristine
    refine ⟨r, hr, NewClass.portrays hpristine (htr.fullName hmem) (htr.parents k hmem) ?_⟩
    intro reference c hc
    obtain ⟨howner, hlt⟩ := hc.has (hw.congr rfl rfl rfl rfl rfl)
    exact ⟨hc, howner.trans hid, hlt⟩

/-! A world with assemblies of all kinds.  The first type of `App` inherits from one that has moved,
the second from the first; two are nested in the second, of which one inherits from the other, and
this one from a type that is nested in a type of another assembly.  The types of `Loop` inherit from
each other, and so do those of `East` and `West`, the former by way of `Gate`. -/

namespace ImageSpecimen

/-- The definitions of the types of an assembly. -/
def types (name : String) : List TypeDef :=
  if name = "mscorlib" then
    [{ space := "System", name := "Object" },
      { space := "", name := "Part", encloser := some 0, visibility := .nestedEveryone },
      { space := "System", name := "ValueType", parent := some (.definition 0) },
      { space := "System", name := "Enum", parent := some (.definition 2) }]
  else if name = "App" then
    [{ space := "App", name := "Base", parent := some (.external "Facade" "System" "Object") },
      { space := "App", name := "Outer", parent := some (.definition 0), visibility := .assembly },
      { space := "", name := "Inner", parent := some (.nested (.definition 1) "Twin"),
        encloser := some 1, visibility := .nestedRestricted },
      { space := "", name := "Twin", isInterface := true, encloser := some 1
        parent := some (.nested (.external "mscorlib" "System" "Object") "Part") },
      { space := "App", name := "Color", parent := some (.external "mscorlib" "System" "Enum") }]
  else if name = "Loop" then
    [{ space := "", name := "Left", parent := some (.definition 1) },
      { space := "", name := "Right", parent := some (.definition 0) }]
  else if name = "East" then
    [{ space := "East", name := "Dawn", parent := some (.external "Gate" "West" "Dusk") }]
  else if name = "West" then
    [{ space := "West", name := "Dusk"
       parent := some (.nested (.external "East" "East" "Dawn") "Ray") }]
  else []

/-- The assembly to which an assembly forwards its types. -/
def forward (name : String) : Option String :=
  if name = "Facade" then some "mscorlib" else if name = "Gate" then some "West" else none

/-- Every name is found. -/
def resolver : Resolver where
  resolve _ name := .ok { name }
  source _ id :=
    { (default : Source) with
      moduleName := id.name
      assemblyName := id.name
      typeCount := (types id.name).length
      typeDef := fun row => ((types id.name)[row]?).elim (.error default) .ok
      forwarded := fun _ _ => forward id.name }

/-- What the host is started with. -/
def setup : Setup :=
  { Specimen.setup with resolver := some resolver }

/-- The host when `App` has been loaded. -/
def loaded : Host :=
  (loadWithin 3 "App" setup.world setup.firstHost).2

lemma reached_firstHost : Reached [] setup.firstHost :=
  Setup.reached_firstHost (by decide +kernel)

lemma load_app : loadWithin 3 "App" setup.world setup.firstHost = (.ok ⟨1, 2⟩, loaded) :=
  Prod.ext (by decide +kernel) rfl

lemma underway_loaded : Underway loaded := by
  have hu : Underway setup.firstHost := .reached reached_firstHost
  exact hu.of_obeys (isLoader_loadWithin setup.world 3 "App" _ hu.wellformed) load_app

lemma types_of_typeDef {j : Journal} {source : SourceId} {row : Nat} {d : TypeDef}
    (hd : (setup.world.source j source).typeDef row = .ok d) :
    (types source.name)[row]? = some d := by
  have hd : ((types source.name)[row]?).elim (Except.error default) Except.ok = Except.ok d := hd
  cases hrow : (types source.name)[row]? with
  | none => simp [hrow] at hd
  | some d' => simpa [hrow] using hd

end ImageSpecimen

open ImageSpecimen in
/-- The classes of `App` start at position 4, and the load of `Facade` in the meantime has not
shifted their references to each other. -/
theorem image_of_load_specimen :
    Underway setup.firstHost ∧ setup.firstHost.findAssembly "App" = none ∧
    loadWithin 3 "App" setup.world setup.firstHost = (.ok ⟨1, 2⟩, loaded) ∧
    (∃ r, loaded.cls ⟨1, 4⟩ = .ok r ∧ ∃ c, r.parent = some c ∧ c.index < 4) ∧
    ∃ r, loaded.cls ⟨1, 6⟩ = .ok r ∧ r.name = "Inner" ∧ r.declaring = some ⟨1, 5⟩ ∧
      r.visibility = .nestedRestricted ∧ r.parent = some ⟨1, 7⟩ := by
  have hu : Underway setup.firstHost := .reached reached_firstHost
  have hn : setup.firstHost.findAssembly "App" = none := by decide +kernel
  obtain ⟨source, defs, n, g, m, hsource, hcount, hdefs, -, hlen, -, -, -, -, hrows⟩ :=
    image_of_load (.inl hu) hn load_app .refl
  -- the answers of the source
  obtain rfl : { name := "App" } = source := Except.ok.inj hsource
  obtain rfl : types "App" = defs := by
    refine List.ext_getElem hcount fun row hrow hrow' => ?_
    have hd := types_of_typeDef (hdefs row _ (List.getElem?_eq_getElem hrow'))
    exact (List.getElem?_eq_some_iff.mp hd).2
  have hbase : g.classes.length = 4 :=
    Nat.add_right_cancel (hlen.symm.trans (by decide +kernel))
  have hid : setup.firstHost.id = 1 := by decide +kernel
  rw [hbase, hid] at hrows
  refine ⟨hu, hn, load_app, ?_, ?_⟩
  · obtain ⟨r, hr, hp⟩ := hrows 0 _ rfl
    obtain ⟨c, -, hparent, -, hlt⟩ := hp.foreign _ rfl rfl
    exact ⟨r, hr, c, hparent, hlt⟩
  · obtain ⟨r, hr, hp⟩ := hrows 2 _ rfl
    obtain ⟨row, -, hrow, hparent⟩ := hp.own _ rfl rfl
    obtain rfl : 3 = row := Except.ok.inj hrow
    exact ⟨r, hr, hp.name, (hp.declaring 1).mpr rfl, hp.visibility, hparent⟩

end ManagedHost
