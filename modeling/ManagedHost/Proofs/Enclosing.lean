/-
# Types within types

The full name of a type is found by following its enclosers, with a counter that stops after as many
steps as there are types.  This is neither too early nor too late: on a way that ends, the types
have different distances from its end, so there are no more of them than types in the list
(`Enclosed.lt_length`).

A module is added only if all its types have a full name.  So the enclosing classes of a class end,
and one that looks at them one after the other, without counting, comes to an end too: what
`Host.isExported` answers is what this search answers (`Host.Inspects`).

* `Enclosed`: the enclosers of a type end, so many steps away from it.
* `Host.DeclaredIn`: a class is declared directly in another one.
* `nesting_checked`: what has a full name, and what is exported.
-/
import Mathlib.Data.Fintype.EquivFin
import ManagedHost.Proofs.Provenance

namespace ManagedHost

/-! ## Ways out of nested types -/

/-- Following the enclosers from a row one comes to a type without encloser in `depth` steps, and
all rows on the way exist. -/
inductive Enclosed (defs : List TypeDef) : Nat → Nat → Prop
  | outermost {row : Nat} {d : TypeDef} (hd : defs[row]? = some d) (he : d.encloser = none) :
      Enclosed defs 0 row
  | within {depth row e : Nat} {d : TypeDef} (hd : defs[row]? = some d)
      (he : d.encloser = some e) (ho : Enclosed defs depth e) : Enclosed defs (depth + 1) row

variable {defs : List TypeDef} {d : TypeDef} {row depth : Nat}

namespace Enclosed

lemma row_lt (hn : Enclosed defs depth row) : row < defs.length := by
  cases hn with
  | outermost hd => exact (List.getElem?_eq_some_iff.mp hd).1
  | within hd => exact (List.getElem?_eq_some_iff.mp hd).1

lemma depth_unique (hn : Enclosed defs depth row) {depth' : Nat} (hn' : Enclosed defs depth' row) :
    depth = depth' := by
  induction hn generalizing depth' with
  | outermost hd he =>
    cases hn' with
    | outermost => rfl
    | within hd' he' =>
      obtain rfl := Option.some.inj (hd.symm.trans hd')
      simp [he] at he'
  | within hd he _ ih =>
    cases hn' with
    | outermost hd' he' =>
      obtain rfl := Option.some.inj (hd.symm.trans hd')
      simp [he] at he'
    | within hd' he' ho' =>
      obtain rfl := Option.some.inj (hd.symm.trans hd')
      obtain rfl := Option.some.inj (he.symm.trans he')
      rw [ih ho']

lemma exists_row (hn : Enclosed defs depth row) : ∀ k ≤ depth, ∃ row', Enclosed defs k row' := by
  induction hn with
  | outermost hd he =>
    intro k hk
    obtain rfl : k = 0 := by omega
    exact ⟨_, .outermost hd he⟩
  | @within depth row _ _ hd he ho ih =>
    intro k hk
    by_cases hlast : k = depth + 1
    · subst hlast
      exact ⟨row, .within hd he ho⟩
    · exact ih k (by omega)

/-- A way that ends is shorter than the list. -/
lemma lt_length (hn : Enclosed defs depth row) : depth < defs.length := by
  choose rowAt hrowAt using hn.exists_row
  let place (k : Fin (depth + 1)) : Fin defs.length :=
    ⟨rowAt k (by omega), (hrowAt k _).row_lt⟩
  -- types at different distances from the end are different
  have hinj : Function.Injective place := by
    intro k k' hkk
    have heq : rowAt k (by omega) = rowAt k' (by omega) := congrArg Fin.val hkk
    have hk := hrowAt k (by omega)
    rw [heq] at hk
    exact Fin.ext (hk.depth_unique (hrowAt k' _))
  have hcard := Fintype.card_le_of_injective place hinj
  rw [Fintype.card_fin, Fintype.card_fin] at hcard
  omega

end Enclosed

/-! ## Full names -/

lemma inSpace_append (space a b : String) : inSpace space (a ++ b) = inSpace space a ++ b := by
  unfold inSpace
  split
  · rfl
  · rw [String.append_assoc, String.append_assoc, String.append_assoc]

lemma climb_of_outermost (innermost : String) (steps : Nat) (segments : List String)
    (he : d.encloser = none) :
    climb defs innermost steps d segments = .ok (inSpace d.space ("/".intercalate segments)) := by
  rw [climb.eq_def, he]

/-- One step of a climb. -/
lemma climb_of_within (innermost : String) (steps : Nat) (segments : List String) {e : Nat}
    {outer : TypeDef} (he : d.encloser = some e) (ho : defs[e]? = some outer) :
    climb defs innermost (steps + 1) d segments =
      climb defs innermost steps outer (outer.name :: segments) := by
  rw [climb.eq_def, he]
  simp only [ho]

/-- What a climb collects on a way that ends does not depend on where it has started. -/
lemma Enclosed.exists_climb (hn : Enclosed defs depth row) (hd : defs[row]? = some d) :
    ∃ space front, ∀ innermost steps segments, depth ≤ steps →
      climb defs innermost steps d segments =
        .ok (inSpace space ("/".intercalate (front ++ segments))) := by
  induction hn generalizing d with
  | outermost hd' he =>
    obtain rfl := Option.some.inj (hd.symm.trans hd')
    refine ⟨d.space, [], ?_⟩
    intro innermost steps segments _
    exact climb_of_outermost innermost steps segments he
  | @within depth _ e _ hd' he ho ih =>
    obtain rfl := Option.some.inj (hd.symm.trans hd')
    obtain ⟨outer, houter⟩ : ∃ outer, defs[e]? = some outer :=
      ⟨_, List.getElem?_eq_getElem ho.row_lt⟩
    obtain ⟨space, front, hclimb⟩ := ih houter
    refine ⟨space, front ++ [outer.name], ?_⟩
    intro innermost steps segments hle
    obtain ⟨steps, rfl⟩ : ∃ k, steps = k + 1 := ⟨steps - 1, by omega⟩
    rw [climb_of_within innermost steps segments he houter,
      hclimb innermost steps _ (by omega), List.append_assoc]
    rfl

/-- A climb that succeeds has come to an end. -/
lemma enclosed_of_climb {innermost name : String} {steps : Nat} {segments : List String}
    (hd : defs[row]? = some d) (hc : climb defs innermost steps d segments = .ok name) :
    ∃ depth, Enclosed defs depth row := by
  fun_induction climb defs innermost steps d segments generalizing row with
  | case1 steps d segments he => exact ⟨0, .outermost hd he⟩
  | case2 => cases hc
  | case3 => cases hc
  | case4 d segments e he outer houter steps ih =>
    obtain ⟨depth, ho⟩ := ih houter hc
    exact ⟨depth + 1, .within hd he ho⟩

/-- A type has a full name if and only if its enclosers end. -/
lemma qualifiedName_isOk_iff (hd : defs[row]? = some d) :
    (∃ name, qualifiedName defs d = .ok name) ↔ ∃ depth, Enclosed defs depth row := by
  constructor
  · rintro ⟨name, hname⟩
    exact enclosed_of_climb hd hname
  · rintro ⟨depth, hn⟩
    obtain ⟨space, front, hclimb⟩ := hn.exists_climb hd
    exact ⟨_, hclimb d.name defs.length [d.name] hn.lt_length.le⟩

lemma qualifiedName_of_outermost (he : d.encloser = none) :
    qualifiedName defs d = .ok (if d.space = "" then d.name else d.space ++ "." ++ d.name) :=
  climb_of_outermost d.name defs.length [d.name] he

/-- The full name of a nested type continues that of its encloser. -/
lemma qualifiedName_of_within {e : Nat} {outer : TypeDef} {name : String}
    (hd : defs[row]? = some d) (he : d.encloser = some e) (ho : defs[e]? = some outer)
    (hn : qualifiedName defs d = .ok name) :
    ∃ outerName, qualifiedName defs outer = .ok outerName ∧ name = outerName ++ "/" ++ d.name := by
  obtain ⟨depth, hin⟩ := (qualifiedName_isOk_iff hd).mp ⟨name, hn⟩
  cases hin with
  | outermost hd' he' =>
    obtain rfl := Option.some.inj (hd.symm.trans hd')
    simp [he] at he'
  | within hd' he' hin =>
    obtain rfl := Option.some.inj (hd.symm.trans hd')
    obtain rfl := Option.some.inj (he.symm.trans he')
    obtain ⟨space, front, hclimb⟩ := hin.exists_climb ho
    have hlt := hin.lt_length
    refine ⟨_, hclimb outer.name defs.length [outer.name] hlt.le, ?_⟩
    obtain ⟨len, hlen⟩ : ∃ k, defs.length = k + 1 := ⟨defs.length - 1, by omega⟩
    rw [qualifiedName, hlen, climb_of_within d.name len [d.name] he ho,
      hclimb d.name len _ (by omega)] at hn
    have hfront : front ++ [outer.name, d.name] = (front ++ [outer.name]) ++ [d.name] := by simp
    rw [← Except.ok.inj hn, hfront, String.intercalate_append_of_ne_nil (by simp) (by simp),
      inSpace_append, inSpace_append]
    rfl

/-- All types have full names if and only if the enclosers of each end. -/
lemma qualifiedNames_isOk_iff :
    (∃ names, qualifiedNames defs = .ok names) ↔
      ∀ row < defs.length, ∃ depth, Enclosed defs depth row := by
  constructor
  · rintro ⟨names, hnames⟩ row hrow
    have hall := mapM_eq_ok_iff.mp hnames
    refine (qualifiedName_isOk_iff (List.getElem?_eq_getElem hrow)).mp ?_
    exact ⟨_, hall.get hrow (hall.length_eq ▸ hrow)⟩
  · intro hall
    have hnames : ∀ d : {d // d ∈ defs}, ∃ name, qualifiedName defs d = .ok name := by
      rintro ⟨d, hd⟩
      obtain ⟨row, hrow, rfl⟩ := List.getElem_of_mem hd
      exact (qualifiedName_isOk_iff (List.getElem?_eq_getElem hrow)).mpr (hall row hrow)
    choose nameOf hnameOf using hnames
    have hmap : List.Forall₂ (fun d name => qualifiedName defs d = .ok name)
        (defs.attach.map (·.val)) (defs.attach.map nameOf) := by
      rw [List.forall₂_map_left_iff, List.forall₂_map_right_iff, List.forall₂_same]
      exact fun d _ => hnameOf d
    rw [List.attach_map_subtype_val] at hmap
    exact ⟨_, mapM_eq_ok_iff.mpr hmap⟩

lemma qualifiedName_of_qualifiedNames {names : List String} (hn : qualifiedNames defs = .ok names)
    {name : String} (hd : defs[row]? = some d) (hname : names[row]? = some name) :
    qualifiedName defs d = .ok name := by
  obtain ⟨hrow, rfl⟩ := List.getElem?_eq_some_iff.mp hd
  obtain ⟨hrow', rfl⟩ := List.getElem?_eq_some_iff.mp hname
  exact (mapM_eq_ok_iff.mp hn).get hrow hrow'

/-- The full name of a nested type is found among the full names of a list behind that of its
encloser. -/
lemma exists_outer_of_qualifiedNames {names : List String} (hn : qualifiedNames defs = .ok names)
    {name : String} (hd : defs[row]? = some d) (hname : names[row]? = some name) {e : Nat}
    (he : d.encloser = some e) :
    ∃ outer, names[e]? = some outer ∧ name = outer ++ "/" ++ d.name := by
  have hq := qualifiedName_of_qualifiedNames hn hd hname
  have hlt : e < defs.length := encloser_lt_of_qualifiedName hq he
  have hlt' : e < names.length := (qualifiedNames_eq_ok hn).1 ▸ hlt
  have hde := List.getElem?_eq_getElem hlt
  have hne := List.getElem?_eq_getElem hlt'
  obtain ⟨outer, houter, rfl⟩ := qualifiedName_of_within hd he hde hq
  obtain rfl := Except.ok.inj ((qualifiedName_of_qualifiedNames hn hde hne).symm.trans houter)
  exact ⟨_, hne, rfl⟩

/-! ## Classes within classes -/

namespace Host

variable {h : Host} {c outer : ClassHandle} {r : Class} {base : Nat} {n : NewModule}

/-- The class is declared directly in another one. -/
def DeclaredIn (h : Host) (c outer : ClassHandle) : Prop :=
  ∃ r, h.cls c = .ok r ∧ r.declaring = some outer

/-- Looking at a class, if there is one, and at what is around it, one class after the other, one
finds that all can be seen from outside, or comes to one that cannot.  Nothing counts the steps. -/
inductive Inspects (h : Host) : Option ClassHandle → Bool → Prop
  | outside : Inspects h none true
  | hidden {c : ClassHandle} (hc : ∀ r, h.cls c = .ok r → r.isExported = false) :
      Inspects h (some c) false
  | seen {c : ClassHandle} {r : Class} {answer : Bool} (hr : h.cls c = .ok r)
      (he : r.isExported = true) (ho : Inspects h r.declaring answer) :
      Inspects h (some c) answer

/-- Where the classes of a module lie, the class around another one is that of the row of its
encloser. -/
lemma Lays.declaring (hl : h.Lays base n) (hd : n.definitions[row]? = some d) :
    ∃ r, h.cls ⟨h.id, base + row⟩ = .ok r ∧
      r.declaring = d.encloser.map (⟨h.id, base + ·⟩) := by
  rw [NewModule.definitions, List.getElem?_map, Option.map_eq_some_iff] at hd
  obtain ⟨k, hk, rfl⟩ := hd
  obtain ⟨r, m, hr, hp⟩ := hl.record row k hk
  simp only [Class.pristine, NewClass.record, Class.mk.injEq] at hp
  obtain ⟨-, -, -, -, -, -, -, hdeclaring, -⟩ := hp
  exact ⟨r, hr, hdeclaring⟩

lemma Lays.acc (hl : h.Lays base n) (hn : Enclosed n.definitions depth row) :
    Acc (fun outer c => h.DeclaredIn c outer) ⟨h.id, base + row⟩ := by
  induction hn with
  | outermost hd he =>
    obtain ⟨r, hr, hnone⟩ := hl.declaring hd
    constructor
    rintro outer ⟨r', hr', houter⟩
    obtain rfl := Except.ok.inj (hr.symm.trans hr')
    simp [hnone, he] at houter
  | within hd he _ ih =>
    obtain ⟨r, hr, hsome⟩ := hl.declaring hd
    constructor
    rintro outer ⟨r', hr', houter⟩
    obtain rfl := Except.ok.inj (hr.symm.trans hr')
    rw [hsome, he] at houter
    obtain rfl := Option.some.inj houter
    exact ih

/-- One step of the search. -/
lemma inspects_succ {steps : Nat} (hr : h.cls c = .ok r) (ho : ∀ outer, r.declaring = some outer →
      h.Inspects (some outer) (h.isExportedWithin steps outer)) :
    h.Inspects (some c) (h.isExportedWithin (steps + 1) c) := by
  have hr? := cls?_eq_some_iff.mpr hr
  cases he : r.isExported with
  | false =>
    simp only [isExportedWithin, hr?, he, Bool.false_and]
    refine .hidden fun r' hr' => ?_
    obtain rfl := Except.ok.inj (hr.symm.trans hr')
    exact he
  | true =>
    simp only [isExportedWithin, hr?, he, Bool.true_and]
    refine .seen hr he ?_
    cases hd : r.declaring with
    | none => exact .outside
    | some outer => exact ho outer hd

/-- With more steps than there are enclosing classes, the search is not cut off. -/
lemma Lays.inspects (hl : h.Lays base n) (hn : Enclosed n.definitions depth row) {steps : Nat}
    (hlt : depth < steps) :
    h.Inspects (some ⟨h.id, base + row⟩) (h.isExportedWithin steps ⟨h.id, base + row⟩) := by
  induction hn generalizing steps with
  | outermost hd he =>
    obtain ⟨steps, rfl⟩ : ∃ k, steps = k + 1 := ⟨steps - 1, by omega⟩
    obtain ⟨r, hr, hnone⟩ := hl.declaring hd
    exact inspects_succ hr (by simp [hnone, he])
  | within hd he _ ih =>
    obtain ⟨steps, rfl⟩ : ∃ k, steps = k + 1 := ⟨steps - 1, by omega⟩
    obtain ⟨r, hr, hsome⟩ := hl.declaring hd
    refine inspects_succ hr fun outer houter => ?_
    rw [hsome, he] at houter
    obtain rfl := Option.some.inj houter
    exact ih (by omega)

/-- Every class of the host has its place in a module whose types have enclosers that end, and
there are fewer of them than classes. -/
lemma Imaged.exists_enclosed (hi : h.Imaged) (hw : h.Wellformed) (hr : h.cls c = .ok r) :
    ∃ base n depth, h.Lays base n ∧ Enclosed n.definitions depth r.row ∧
      c = ⟨h.id, base + r.row⟩ ∧ depth < h.classes.length := by
  obtain ⟨base, n, hl, hlt, hc⟩ := hi.exists_row hw hr
  have hrow : r.row < n.definitions.length := by
    rw [NewModule.definitions, List.length_map]
    exact hlt
  obtain ⟨depth, hn⟩ := qualifiedNames_isOk_iff.mp ⟨_, hl.named⟩ r.row hrow
  obtain ⟨r', hr', -⟩ := hl.declaring (List.getElem?_eq_getElem hn.lt_length)
  have hhas : base + depth < h.classes.length := (has_iff_cls.mpr ⟨r', hr'⟩).2
  exact ⟨base, n, depth, hl, hn, hc, by omega⟩

/-- The answer of the search tells whether the class and all classes around it can be seen. -/
lemma Inspects.eq_true_iff {o : Option ClassHandle} {answer : Bool} (ha : h.Inspects o answer) :
    answer = true ↔ ∀ c, o = some c → ∀ x, Relation.ReflTransGen h.DeclaredIn c x →
      ∃ r, h.cls x = .ok r ∧ r.isExported = true := by
  induction ha with
  | outside => simp
  | @hidden c hc =>
    refine iff_of_false (by simp) fun hall => ?_
    obtain ⟨r, hr, he⟩ := hall c rfl c .refl
    simp [hc r hr] at he
  | @seen c r answer hr he _ ih =>
    rw [ih]
    constructor
    · rintro hall _ ⟨⟩ x hx
      rcases Relation.ReflTransGen.cases_head hx with rfl | ⟨outer, ⟨r', hr', houter⟩, hx⟩
      · exact ⟨r, hr, he⟩
      · obtain rfl := Except.ok.inj (hr.symm.trans hr')
        exact hall outer houter x hx
    · intro hall outer houter x hx
      exact hall c rfl x (.head ⟨r, hr, houter⟩ hx)

end Host

/-! ## The search at every point of a run -/

variable {h : Host}

lemma Visibility.isExported_iff {v : Visibility} :
    v.isExported = true ↔ v = .everyone ∨ v = .nestedEveryone := by
  cases v <;> simp [isExported]

/-- The search ends at every class, with the answer of the host. -/
lemma Underway.inspects (hu : Underway h) (c : ClassHandle) :
    h.Inspects (some c) (h.isExported c) := by
  cases hc : h.cls? c with
  | none =>
    rw [Host.isExported, Host.isExportedWithin_eq_false hc]
    refine .hidden fun r hr => ?_
    simp [Host.cls?_eq_some_iff.mpr hr] at hc
  | some r =>
    obtain ⟨base, n, depth, hl, hn, rfl, hlt⟩ :=
      hu.imaged.exists_enclosed hu.wellformed (Host.cls?_eq_some_iff.mp hc)
    exact hl.inspects hn hlt

lemma Underway.wellFounded_declaredIn (hu : Underway h) :
    WellFounded fun outer c => h.DeclaredIn c outer := by
  constructor
  intro c
  by_cases hc : ∃ r, h.cls c = .ok r
  · obtain ⟨r, hr⟩ := hc
    obtain ⟨base, n, depth, hl, hn, rfl, -⟩ := hu.imaged.exists_enclosed hu.wellformed hr
    exact hl.acc hn
  · constructor
    rintro outer ⟨r, hr, -⟩
    exact absurd ⟨r, hr⟩ hc

/-- The classes of a module are different from each other. -/
lemma Host.Wellformed.nodup_classesOf (hw : h.Wellformed) (m : ModuleHandle) :
    (h.classesOf m false).Nodup := by
  have hall : (h.modules.flatMap (·.classes)).Nodup := by
    rw [hw.classes_eq]
    refine List.nodup_range.map fun a b hab => ?_
    exact (ClassHandle.mk.injEq .. ▸ hab).2
  unfold Host.classesOf
  cases hm : h.module m with
  | error e => simp [Except.toOption]
  | ok record =>
    have hmem := List.mem_of_getElem? (Host.module_eq_ok_iff.mp hm).2
    exact (List.nodup_flatMap.mp hall).1 record hmem

lemma Host.classesOf_true (h : Host) (m : ModuleHandle) :
    h.classesOf m true = (h.classesOf m false).filter h.isExported := by
  unfold Host.classesOf
  cases h.module m <;> rfl

/-- Full names are given exactly to lists of definitions in which the enclosers of each type exist
and end; the name of a nested type is that of its encloser, a slash and its own.  Hence at every
point of a run the classes around a class end, and a search through them that does not count its
steps ends with the answer of `Host.isExported`: whether the class and all classes around it can be
seen.  The exported classes of a module are those among its classes, in their order. -/
theorem nesting_checked (defs : List TypeDef) (hu : Underway h) :
    ((∃ names, qualifiedNames defs = .ok names) ↔
      ∀ row < defs.length, ∃ depth, Enclosed defs depth row) ∧
    (∀ names, qualifiedNames defs = .ok names → names.length = defs.length ∧
      ∀ (row : Nat) (d : TypeDef) (name : String), defs[row]? = some d → names[row]? = some name →
        (d.encloser = none → name = if d.space = "" then d.name else d.space ++ "." ++ d.name) ∧
        ∀ e, d.encloser = some e →
          ∃ outer, names[e]? = some outer ∧ name = outer ++ "/" ++ d.name) ∧
    (WellFounded fun outer c => h.DeclaredIn c outer) ∧
    (∀ c, h.Inspects (some c) (h.isExported c)) ∧
    (∀ c, h.isExported c = true ↔ ∀ x, Relation.ReflTransGen h.DeclaredIn c x →
      ∃ r, h.cls x = .ok r ∧ (r.visibility = .everyone ∨ r.visibility = .nestedEveryone)) ∧
    ∀ m, (h.classesOf m true).Sublist (h.classesOf m false) ∧ (h.classesOf m false).Nodup ∧
      ∀ c, c ∈ h.classesOf m true ↔ c ∈ h.classesOf m false ∧ h.isExported c = true := by
  refine ⟨qualifiedNames_isOk_iff, ?_, hu.wellFounded_declaredIn, hu.inspects, ?_, ?_⟩
  · intro names hnames
    refine ⟨(qualifiedNames_eq_ok hnames).1, ?_⟩
    intro row d name hd hname
    refine ⟨fun he => ?_, fun e he => exists_outer_of_qualifiedNames hnames hd hname he⟩
    have hq := qualifiedName_of_qualifiedNames hnames hd hname
    rw [qualifiedName_of_outermost he] at hq
    exact (Except.ok.inj hq).symm
  · intro c
    rw [(hu.inspects c).eq_true_iff]
    simp [Class.isExported, Visibility.isExported_iff]
  · intro m
    rw [h.classesOf_true m]
    refine ⟨List.filter_sublist, hu.wellformed.nodup_classesOf m, ?_⟩
    intro c
    exact List.mem_filter

namespace ImageSpecimen

/-- Two types that enclose each other, and a third one in the first. -/
def ring : List TypeDef :=
  [{ space := "App", name := "Left", encloser := some 1 },
    { space := "App", name := "Right", encloser := some 0 },
    { space := "", name := "Inner", encloser := some 0 }]

lemma declaredIn_twin : loaded.DeclaredIn ⟨1, 7⟩ ⟨1, 5⟩ := by
  have hr : (loaded.cls? ⟨1, 7⟩).bind (·.declaring) = some ⟨1, 5⟩ := by decide +kernel
  obtain ⟨r, hr, hd⟩ := Option.bind_eq_some_iff.mp hr
  exact ⟨r, Host.cls?_eq_some_iff.mp hr, hd⟩

end ImageSpecimen

open ImageSpecimen in
/-- The types of `App` have full names, and those of the ring have none.  `Base` is exported, and
`Twin` is not, which could be seen if the class around it could. -/
theorem nesting_checked_specimen :
    Underway loaded ∧ (∃ depth, Enclosed (types "App") depth 3) ∧
    (¬∀ row < ring.length, ∃ depth, Enclosed ring depth row) ∧
    loaded.isExported ⟨1, 4⟩ = true ∧ loaded.isExported ⟨1, 7⟩ = false := by
  have hu := underway_loaded
  obtain ⟨hnames, -, -, -, hexported, -⟩ := nesting_checked (types "App") hu
  obtain ⟨hring, -⟩ := nesting_checked ring hu
  refine ⟨hu, ?_, ?_, by decide +kernel, ?_⟩
  · exact hnames.mp ⟨["App.Base", "App.Outer", "App.Outer/Inner", "App.Outer/Twin",
      "App.Color"], rfl⟩ 3 (by decide)
  · intro hall
    obtain ⟨names, hn⟩ := hring.mpr hall
    cases hn
  · rw [← Bool.not_eq_true, hexported]
    intro hall
    obtain ⟨r, hr, hv⟩ := hall ⟨1, 5⟩ (.single declaredIn_twin)
    have hassembly : (loaded.cls? ⟨1, 5⟩).map (·.visibility) = some .assembly := by decide +kernel
    rw [Host.cls?_eq_some_iff.mpr hr] at hassembly
    have hvisibility : r.visibility = .assembly := Option.some.inj hassembly
    simp [hvisibility] at hv

end ManagedHost
