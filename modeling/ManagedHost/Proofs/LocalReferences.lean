/-
# References within a module

A reference that stays within its module is followed in two ways.  While the module is being loaded
there are no classes yet, and the reference leads from row to row: a nested type is the one with the
right simple name that is declared in the row of the outer type.  Afterwards it leads from class to
class: a nested type is the first class of the module whose full name is that of the outer class
with the simple name behind it.  The two ways lead to the same place if no two classes of the module
have the same full name, because the full name of a nested type is made of that of its encloser.

* `Host.Publishes`: a module has a class in the row of each definition, under its full name.
* `Host.DistinctNames`: no two classes of a module have the same full name.
* `Host.Publishes.resolveWith_of_localRow`: the two ways, for one module.
* `local_reference_of_load`: the two ways, for every module that is loaded.
-/
import ManagedHost.Proofs.Enclosing
import ManagedHost.Proofs.Forwarding

namespace ManagedHost

open Op

variable {w : World} {h h' g later : Host} {name : String} {m : Module} {defs : List TypeDef}

namespace Host

/-! ## Modules and their definitions -/

/-- The host has the module, and in the row of each definition a class with the full name of the
type. -/
structure Publishes (h : Host) (m : Module) (defs : List TypeDef) : Prop where
  module : h.module m.handle = .ok m
  record : ∀ (row : Nat) d, defs[row]? = some d →
    ∃ c r, m.classes[row]? = some c ∧ h.cls c = .ok r ∧ r.module = m.handle ∧
      qualifiedName defs d = .ok r.fullName

/-- No two classes of the module have the same full name. -/
def DistinctNames (h : Host) (m : Module) : Prop :=
  m.classes.Pairwise fun c c' => ∀ fullName, h.GoesBy c fullName → ¬h.GoesBy c' fullName

/-- Whether names are distinct can be seen from the records. -/
lemma distinctNames_of_nodup
    (hn : (m.classes.map fun c => (h.cls? c).map (·.fullName)).Nodup) : h.DistinctNames m := by
  refine (List.pairwise_map.mp hn).imp fun {c c'} hne fullName hgoes hgoes' => hne ?_
  obtain ⟨r, hr, rfl⟩ := hgoes
  obtain ⟨r', hr', hsame⟩ := hgoes'
  rw [cls?_eq_some_iff.mpr hr, cls?_eq_some_iff.mpr hr', Option.map_some, Option.map_some, hsame]

/-- Where names are distinct, a class is found by its own. -/
lemma DistinctNames.findClass (hd : h.DistinctNames m) {c : ClassHandle} {fullName : String}
    (hc : c ∈ m.classes) (hgoes : h.GoesBy c fullName) :
    h.findClass m.classes (·.fullName == fullName) = some c := by
  cases hfind : h.findClass m.classes (·.fullName == fullName) with
  | none => exact absurd hgoes (findClass_eq_none_iff.mp hfind c hc)
  | some c' =>
    obtain ⟨hgoes', row', hrow', -⟩ := findClass_eq_some_iff.mp hfind
    obtain ⟨hlt', rfl⟩ := List.getElem?_eq_some_iff.mp hrow'
    obtain ⟨row, hlt, rfl⟩ := List.getElem_of_mem hc
    have hpair := List.pairwise_iff_getElem.mp hd
    rcases Nat.lt_trichotomy row row' with hrr | rfl | hrr
    · exact absurd hgoes' (hpair row row' hlt hlt' hrr fullName hgoes)
    · rfl
    · exact absurd hgoes (hpair row' row hlt' hlt hrr fullName hgoes')

namespace Publishes

/-- The class of a nested type has the full name that is looked for. -/
lemma goesBy_of_within (hp : h.Publishes m defs) {row inner : Nat} {o : ClassHandle} {ro : Class}
    {d : TypeDef} (ho : m.classes[row]? = some o) (hro : h.cls o = .ok ro)
    (hd : defs[inner]? = some d) (he : d.encloser = some row) :
    ∃ c, m.classes[inner]? = some c ∧ h.GoesBy c (ro.fullName ++ "/" ++ d.name) := by
  obtain ⟨c, r, hc, hr, -, hname⟩ := hp.record inner d hd
  have hlt : row < defs.length := encloser_lt_of_qualifiedName hname he
  have houter := List.getElem?_eq_getElem hlt
  obtain ⟨outerName, hqualified, hfull⟩ := qualifiedName_of_within hd he houter hname
  -- the outer class has the full name of the outer type
  obtain ⟨o', ro', ho', hro', -, hname'⟩ := hp.record row _ houter
  obtain rfl := Option.some.inj (ho.symm.trans ho')
  obtain rfl := Except.ok.inj (hro.symm.trans hro')
  obtain rfl := Except.ok.inj (hqualified.symm.trans hname')
  exact ⟨c, hc, r, hr, hfull⟩

/-- The class to which a reference leads in the module is that of the row to which it leads in the
definitions, and no load is needed to find it. -/
theorem resolveWith_of_localRow (hp : h.Publishes m defs) (hd : h.DistinctNames m)
    (load : String → Op AssemblyHandle) (w : World) {r : TypeRef} {row : Nat}
    (hrow : localRow defs r = .ok row) :
    ∃ c, m.classes[row]? = some c ∧ resolveWith load (some m) r w h = (.ok c, h) := by
  induction r generalizing row with
  | definition row' =>
    rw [localRow] at hrow
    split at hrow
    · rename_i hlt
      obtain rfl := Except.ok.inj hrow
      obtain ⟨c, -, hc, -⟩ := hp.record row' _ (List.getElem?_eq_getElem hlt)
      refine ⟨c, hc, ?_⟩
      rw [resolveWith, Option.bind_some, hc]
      rfl
    · cases hrow
  | external => cases hrow
  | nested outer simple ih =>
    rw [localRow] at hrow
    cases houter : localRow defs outer with
    | error e =>
      rw [houter] at hrow
      cases hrow
    | ok row' =>
      rw [houter] at hrow
      cases hfind : defs.findIdx? (fun d => d.encloser == some row' && d.name == simple) with
      | none =>
        simp only [bind, Except.bind, hfind] at hrow
        cases hrow
      | some inner =>
        simp only [bind, Except.bind, hfind] at hrow
        obtain rfl := Except.ok.inj hrow
        obtain ⟨hlt, hinner, -⟩ := List.findIdx?_eq_some_iff_getElem.mp hfind
        simp only [Bool.and_eq_true, beq_iff_eq] at hinner
        obtain ⟨he, rfl⟩ := hinner
        -- the outer class is that of the outer row, so it has a record that names the module
        obtain ⟨o, ho, hresolve⟩ := ih houter
        obtain ⟨o', ro, ho', hro, hmodule, -⟩ :=
          hp.record row' _ (List.getElem?_eq_getElem (localRow_lt houter))
        obtain rfl := Option.some.inj (ho.symm.trans ho')
        obtain ⟨c, hc, hgoes⟩ := hp.goesBy_of_within ho hro (List.getElem?_eq_getElem hlt) he
        refine ⟨c, hc, ?_⟩
        rw [resolveWith, bind_run_ok hresolve, bind_run_ok (cls_run hro),
          bind_run_ok (module_run (hmodule ▸ hp.module)),
          bind_run_ok (show host w h = (.ok h, h) from rfl),
          hd.findClass (List.mem_of_getElem? hc) hgoes]
        rfl

end Publishes

/-! ## Modules that have been loaded -/

/-- A module that was read is published when it is added, and stays so. -/
lemma Keeps.publishes_of_commit {n : NewModule} (hk : (g.commit name n).Keeps later)
    (hnames : ∀ k ∈ n.classes, qualifiedName n.definitions k.definition = .ok k.fullName) :
    ∃ m, later.moduleOf g.nextAssembly = some m.handle ∧ later.Publishes m n.definitions := by
  obtain ⟨m, hhandle, hof, hm, -, hclasses⟩ := hk.exists_module_of_commit
  refine ⟨m, hof, hm, fun row d hd => ?_⟩
  obtain ⟨k, hmem, rfl, r, hr, hpristine⟩ := hk.exists_class_of_commit hd
  simp only [Class.pristine, NewClass.record, Class.mk.injEq] at hpristine
  obtain ⟨-, hmodule, -, -, -, hfull, -⟩ := hpristine
  refine ⟨⟨g.id, g.classes.length + row⟩, r, ?_, hr, hmodule.trans hhandle.symm, ?_⟩
  · have hlt : row < n.classes.length := by
      have hlt := (List.getElem?_eq_some_iff.mp hd).1
      rwa [NewModule.definitions, List.length_map] at hlt
    rw [hclasses, List.getElem?_map, List.getElem?_range hlt]
    rfl
  · rw [hfull]
    exact hnames k hmem

end Host

/-- A load that adds a module, wherever it happens in a run or when the host is started.  Its source
was asked for the number of its types and for one definition after the other.  At the end of the
load and in every later state the assembly has a module with one class for each definition; and if
no two of these have the same full name, then every reference that leads to a row among the
definitions leads to the class of this row in the module, whatever the world is like by then. -/
theorem local_reference_of_load (hs : Underway h ∨ h = .blank h.id h.config)
    (hn : h.findAssembly name = none) {depth : Nat} {a : AssemblyHandle}
    (hrun : loadWithin depth name w h = (.ok a, h'))
    (hlater : Relation.ReflTransGen Host.Proceeds h' later) :
    ∃ source defs m, w.resolve (.resolved name :: h.journal) name = .ok source ∧
      (w.source (.resolved name :: h.journal) source).typeCount = defs.length ∧
      (∀ row d, defs[row]? = some d →
        (w.source (questions source 0 (row + 1) ++ .resolved name :: h.journal) source).typeDef
          row = .ok d) ∧
      later.moduleOf a = some m.handle ∧ later.Publishes m defs ∧
      (later.DistinctNames m → ∀ r row, localRow defs r = .ok row →
        ∃ c, m.classes[row]? = some c ∧ ∀ w', resolve m r w' later = (.ok c, later)) := by
  obtain ⟨n, g, -, hread, rfl, rfl⟩ := loadWithin_eq_ok hn hrun
  have hw : (h.beginLoad name).Wellformed :=
    (wellformed_of_underway_or_blank hs).congr rfl rfl rfl rfl rfl
  obtain ⟨-, hres, htr⟩ :=
    (readNew_transcribes (isLoader_loadWithin w (depth - 1)) name hw).of_ok hread
  have hk : (g.commit name n).Keeps later := Host.keeps_of_proceeds (.head (.ends _ name) hlater)
  obtain ⟨m, hof, hp⟩ := hk.publishes_of_commit fun k hmem => htr.fullName hmem
  refine ⟨n.source, n.definitions, m, hres, htr.counted, htr.defined, hof, hp, ?_⟩
  intro hd r row hrow
  obtain ⟨d, hdef⟩ : ∃ d, n.definitions[row]? = some d :=
    ⟨_, List.getElem?_eq_getElem (localRow_lt hrow)⟩
  obtain ⟨c, -, hc, -⟩ := hp.record row d hdef
  refine ⟨c, hc, fun w' => ?_⟩
  obtain ⟨c', hc', hresolve⟩ := hp.resolveWith_of_localRow hd load w' hrow
  obtain rfl := Option.some.inj (hc.symm.trans hc')
  exact hresolve

open ImageSpecimen in
/-- The parent of `App.Outer/Inner` is `App.Outer/Twin`, which stands behind it. -/
theorem local_reference_of_load_specimen :
    Underway setup.firstHost ∧ setup.firstHost.findAssembly "App" = none ∧
    loadWithin 3 "App" setup.world setup.firstHost = (.ok ⟨1, 2⟩, loaded) ∧
    ∃ m, loaded.moduleOf ⟨1, 2⟩ = some m.handle ∧ loaded.DistinctNames m ∧
      localRow (types "App") (.nested (.definition 1) "Twin") = .ok 3 ∧
      ∃ c, m.classes[3]? = some c ∧
        resolve m (.nested (.definition 1) "Twin") setup.world loaded = (.ok c, loaded) := by
  have hu : Underway setup.firstHost := .reached reached_firstHost
  have hn : setup.firstHost.findAssembly "App" = none := by decide +kernel
  obtain ⟨source, defs, m, hsource, hcount, hdefs, hof, hp, hrefs⟩ :=
    local_reference_of_load (.inl hu) hn load_app .refl
  -- the answers of the source
  obtain rfl : { name := "App" } = source := Except.ok.inj hsource
  obtain rfl : types "App" = defs := by
    refine List.ext_getElem hcount fun row hrow hrow' => ?_
    have hd := types_of_typeDef (hdefs row _ (List.getElem?_eq_getElem hrow'))
    exact (List.getElem?_eq_some_iff.mp hd).2
  have hhandle : m.handle = ⟨1, 2⟩ := Option.some.inj (hof.symm.trans (by decide +kernel))
  have hm := hp.module
  rw [hhandle] at hm
  have hdistinct : loaded.DistinctNames m := by
    have hmodule : loaded.module ⟨1, 2⟩ = .ok ⟨⟨1, 2⟩, ⟨1, 2⟩, "App", false,
        [⟨1, 4⟩, ⟨1, 5⟩, ⟨1, 6⟩, ⟨1, 7⟩, ⟨1, 8⟩], { name := "App" }⟩ := by decide +kernel
    obtain rfl := Except.ok.inj (hm.symm.trans hmodule)
    exact Host.distinctNames_of_nodup (by decide +kernel)
  have hrow : localRow (types "App") (.nested (.definition 1) "Twin") = .ok 3 := by decide +kernel
  obtain ⟨c, hc, hresolve⟩ := hrefs hdistinct _ _ hrow
  exact ⟨hu, hn, load_app, m, hof, hdistinct, hrow, c, hc, hresolve setup.world⟩

end ManagedHost
