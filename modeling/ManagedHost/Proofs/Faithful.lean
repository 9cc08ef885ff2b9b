/-
# Hosts that remember what loads come to

A resolver is *reliable* when its answers do not change and every source reports the name under
which it is found.  A host that has always used the same reliable resolver has at most one assembly
for a name, and it is *faithful*: what it knows of an assembly is what a load of the name comes to
that remembers nothing (`Faithful.settles`).  The reason is that the assemblies were added one after
the other: all that the references of a module lead to is in assemblies that were there before,
so loading it anew needs only these.
-/
import ManagedHost.Proofs.Outcome
import ManagedHost.Proofs.Reached

namespace ManagedHost

/-- The answers do not change over time, and every source reports the name under which it is
found. -/
structure Resolver.Reliable (R : Resolver) : Prop where
  resolve_eq : ∀ j j' name, R.resolve j name = R.resolve j' name
  source_eq : ∀ j j' id, R.source j id = R.source j' id
  assemblyName_eq : ∀ j j' name id, R.resolve j name = .ok id → (R.source j' id).assemblyName = name

/-! ## New modules and the answers of a resolver -/

/-- Rows that are asked for one after the other. -/
lemma mapM_range'_eq_ok {α ε : Type} {f : Nat → Except ε α} {xs : List α} {start : Nat}
    (hall : ∀ i x, xs[i]? = some x → f (start + i) = .ok x) :
    (List.range' start xs.length).mapM f = .ok xs := by
  induction xs generalizing start with
  | nil => rfl
  | cons x xs ih =>
    have hx : f start = .ok x := hall 0 x rfl
    have hxs : (List.range' (start + 1) xs.length).mapM f = .ok xs := by
      refine ih fun i y hy => ?_
      rw [Nat.add_assoc, Nat.add_comm 1]
      exact hall (i + 1) y hy
    simp only [List.length_cons, List.range'_succ, List.mapM_cons, hx, hxs]
    rfl

namespace NewModule.Describes

variable {R : Resolver} {h : Host} {bound : Nat} {request : String} {n : NewModule}

lemma sourceOf_eq (hd : n.Describes R h bound request) (hR : R.Reliable) :
    R.sourceOf request = .ok (R.source [] n.source) := by
  obtain ⟨j, hj⟩ := hd.resolved
  rw [Resolver.sourceOf, hR.resolve_eq [] j, hj]
  rfl

/-- An assembly is not asked for under two names. -/
lemma assemblyName_eq (hd : n.Describes R h bound request) (hR : R.Reliable) :
    n.assemblyName = request := by
  obtain ⟨j, hj⟩ := hd.resolved
  obtain ⟨j', hj'⟩ := hd.reported
  exact hj'.symm.trans (hR.assemblyName_eq j j' request n.source hj)

lemma definitions_eq (hd : n.Describes R h bound request) (hR : R.Reliable) :
    R.definitions request = .ok n.definitions := by
  obtain ⟨j, hcount⟩ := hd.counted
  have hlen : (R.source [] n.source).typeCount = n.definitions.length := by
    rw [hR.source_eq [] j, hcount, NewModule.definitions, List.length_map]
  rw [Resolver.definitions, hd.sourceOf_eq hR]
  change (List.range' 0 (R.source [] n.source).typeCount).mapM _ = _
  rw [hlen]
  refine mapM_range'_eq_ok fun row d hrow => ?_
  obtain ⟨j, hj⟩ := hd.defined row d hrow
  rw [Nat.zero_add, hR.source_eq [] j, hj]

lemma fullNames_eq (hd : n.Describes R h bound request) (hR : R.Reliable) :
    R.fullNames request = .ok (n.classes.map (·.fullName)) := by
  rw [Resolver.fullNames, hd.definitions_eq hR]
  exact hd.named

end NewModule.Describes

lemma toOption_eq_some_iff {α ε : Type} {x : Except ε α} {a : α} :
    x.toOption = some a ↔ x = .ok a := by
  cases x <;> simp [Except.toOption]

/-- The class that the parent of a new class becomes. -/
def NewParent.place (id base : Nat) : NewParent → ClassHandle
  | .own row => ⟨id, base + row⟩
  | .foreign c => c

lemma NewClass.record_parent (c : NewClass) (id base : Nat) (m : ModuleHandle) (row : Nat) :
    (c.record id base m row).parent = c.parent.map (NewParent.place id base) := by
  rcases hp : c.parent with _ | (own | foreign) <;> simp [NewClass.record, NewParent.place, hp]

/-- Values that are the same row by row. -/
lemma map_range_eq {α β γ : Type} {xs : List α} {place : Nat → β} {f : β → γ} {g : α → γ}
    (hall : ∀ row x, xs[row]? = some x → f (place row) = g x) :
    ((List.range xs.length).map place).map f = xs.map g := by
  refine List.ext_getElem? fun row => ?_
  rcases hx : xs[row]? with _ | x
  · have hlen := List.getElem?_eq_none_iff.mp hx
    simp [hx, List.getElem?_eq_none_iff.mpr (show (List.range xs.length).length ≤ row by simpa)]
  · obtain ⟨hlt, -⟩ := List.getElem?_eq_some_iff.mp hx
    simp [hx, List.getElem?_range hlt, hall row x hx]

namespace Host

variable {R : Resolver} {w : World} {h h' : Host} {bound i : Nat} {name : String} {n : NewModule}
  {m : Module}

/-! ## The homes of classes -/

/-- The home of a class. -/
def homeOf (h : Host) (c : ClassHandle) : Option Home :=
  (h.cls? c).bind fun r =>
    (h.assemblyOf r.module).bind fun a =>
      (h.assembly a).toOption.map fun record => ⟨record.name, r.row⟩

/-- The homes of the parents of all classes of an assembly, by row; nothing for a class without a
parent. -/
def parentHomes (h : Host) (a : AssemblyHandle) : List (Option (Option Home)) :=
  ((h.moduleOf a).map fun m =>
    (h.classesOf m false).map fun c => ((h.cls? c).bind (·.parent)).map h.homeOf).getD []

lemma homeOf_eq_some_iff {c : ClassHandle} {home : Home} :
    h.homeOf c = some home ↔ ∃ r m record, h.cls c = .ok r ∧ h.module r.module = .ok m ∧
      h.assembly m.assembly = .ok record ∧ home = ⟨record.name, r.row⟩ := by
  simp only [homeOf, assemblyOf, Option.bind_eq_some_iff, Option.map_eq_some_iff,
    toOption_eq_some_iff, cls?_eq_some_iff]
  constructor
  · rintro ⟨r, hr, -, ⟨m, hm, rfl⟩, record, hrec, rfl⟩
    exact ⟨r, m, record, hr, hm, hrec, rfl⟩
  · rintro ⟨r, m, record, hr, hm, hrec, rfl⟩
    exact ⟨r, hr, _, ⟨m, hm, rfl⟩, record, hrec, rfl⟩

/-- The home of a class of an image. -/
lemma Embodies.homeOf (he : h.Embodies R i name n) (hw : h.Wellformed) (hm : h.modules[i]? = some m)
    {row : Nat} {c : ClassHandle} (hc : m.classes[row]? = some c) :
    h.homeOf c = some ⟨n.assemblyName, row⟩ := by
  obtain ⟨r, hr, -, hmod, rfl⟩ := hw.of_class i m row c hm hc
  have hm' : h.module r.module = .ok m := by
    rw [hmod]
    exact module_eq_ok_iff.mpr ⟨rfl, hm⟩
  have hrec : h.assembly m.assembly = .ok ⟨⟨h.id, i⟩, n.assemblyName, ⟨h.id, i⟩⟩ := by
    rw [(hw.of_module i m hm).2]
    exact assembly_eq_ok_iff.mpr ⟨rfl, he.assembly⟩
  exact homeOf_eq_some_iff.mpr ⟨r, m, _, hr, hm', hrec, rfl⟩

/-! ## What an image shows of an assembly -/

/-- The classes of the module of an assembly are what the resolver says of the assembly. -/
structure Exhibits (h : Host) (R : Resolver) (name : String) (m : Module) (names : List String) :
    Prop where
  sourceOf_eq : R.sourceOf name = .ok (R.source [] m.source)
  fullNames_eq : R.fullNames name = .ok names
  classes : m.classes.map (fun c => (h.cls? c).map (·.fullName)) = names.map some
  homes : ∀ (row : Nat) c, m.classes[row]? = some c → h.homeOf c = some ⟨name, row⟩

lemma Embodies.exhibits (he : h.Embodies R i name n) (hw : h.Wellformed) (hR : R.Reliable)
    (hm : h.modules[i]? = some m) : h.Exhibits R name m (n.classes.map (·.fullName)) := by
  have hname := he.describes.assemblyName_eq hR
  have hhomes : ∀ (row : Nat) c, m.classes[row]? = some c → h.homeOf c = some ⟨name, row⟩ :=
    fun row c hc => hname ▸ he.homeOf hw hm hc
  obtain ⟨base, m', hm', hsource, hclasses, hrecords⟩ := he.module
  obtain rfl : m' = m := Option.some.inj (hm'.symm.trans hm)
  refine ⟨hsource ▸ he.describes.sourceOf_eq hR, he.describes.fullNames_eq hR, ?_, hhomes⟩
  rw [hclasses, List.map_map (l := n.classes)]
  -- the full name of a record is the one that was given to its new class
  refine map_range_eq fun row c hc => ?_
  obtain ⟨r, hr, hp⟩ := hrecords row c hc
  have hfull : r.fullName = c.fullName := congrArg Class.fullName hp
  simp [cls?_eq_some_iff.mpr hr, hfull]

/-- A class is found by full name at the row of the name. -/
lemma findClass_eq {cs : List ClassHandle} {names : List String}
    (hnames : cs.map (fun c => (h.cls? c).map (·.fullName)) = names.map some) (fullName : String) :
    h.findClass cs (·.fullName == fullName) =
      (names.findIdx? (· == fullName)).bind (cs[·]?) := by
  induction cs generalizing names with
  | nil =>
    obtain rfl : names = [] := by simpa using hnames.symm
    rfl
  | cons c cs ih =>
    cases names with
    | nil => simp at hnames
    | cons first names =>
      obtain ⟨hc, hcs⟩ := List.cons.inj hnames
      obtain ⟨r, hr, rfl⟩ := Option.map_eq_some_iff.mp hc
      have ih := ih hcs
      -- the first class has the name, or both searches go on behind it
      by_cases hname : r.fullName = fullName
      · simp [findClass, List.findIdx?_cons, hr, hname]
      · have hname : (r.fullName == fullName) = false := by simpa using hname
        simp only [findClass, List.find?_cons, hr, Option.map_some, Option.getD_some, hname,
          List.findIdx?_cons] at ih ⊢
        rw [ih]
        cases names.findIdx? (· == fullName) <;> simp

namespace Exhibits

variable {names : List String} {c : ClassHandle} {r : Class}

lemma found (hx : h.Exhibits R name m names) {fullName : String}
    (hc : h.findClass m.classes (·.fullName == fullName) = some c) :
    ∃ row, names.findIdx? (· == fullName) = some row ∧ h.homeOf c = some ⟨name, row⟩ := by
  rw [findClass_eq hx.classes] at hc
  obtain ⟨row, hrow, hc⟩ := Option.bind_eq_some_iff.mp hc
  exact ⟨row, hrow, hx.homes row c hc⟩

lemma missing (hx : h.Exhibits R name m names) {fullName : String}
    (hc : h.findClass m.classes (·.fullName == fullName) = none) :
    names.findIdx? (· == fullName) = none := by
  rw [findClass_eq hx.classes] at hc
  rcases hrow : names.findIdx? (· == fullName) with _ | row
  · rfl
  · -- a row of the names is a row of the classes
    have hlen := congrArg List.length hx.classes
    have hlt := (List.findIdx?_eq_some_iff_getElem.mp hrow).1
    simp only [List.length_map] at hlen
    simp [hrow, hlen, hlt] at hc

lemma fullName_of_row (hx : h.Exhibits R name m names) {row : Nat}
    (hc : m.classes[row]? = some c) (hr : h.cls c = .ok r) : names[row]? = some r.fullName := by
  have hrow := congrArg (·[row]?) hx.classes
  simp only [List.getElem?_map, hc, Option.map_some, cls?_eq_some_iff.mpr hr] at hrow
  obtain ⟨fullName, hname, heq⟩ := Option.map_eq_some_iff.mp hrow.symm
  rw [hname, heq]

lemma homeOrNext_found (hx : h.Exhibits R name m names) {space simple : String}
    (hc : h.findClass m.classes (·.fullName == inSpace space simple) = some c) :
    ∃ home, h.homeOf c = some home ∧ R.homeOrNext space simple name = .ok (.inl home) := by
  obtain ⟨row, hrow, hhome⟩ := hx.found hc
  refine ⟨_, hhome, ?_⟩
  rw [Resolver.homeOrNext, hx.fullNames_eq]
  simp only [bind, Except.bind, hrow]
  rfl

lemma homeOrNext_moved (hx : h.Exhibits R name m names) (hR : R.Reliable) {space simple : String}
    (hc : h.findClass m.classes (·.fullName == inSpace space simple) = none) {j : Journal}
    {next : String} (hf : (R.source j m.source).forwarded space simple = some next) :
    R.homeOrNext space simple name = .ok (.inr next) := by
  rw [hR.source_eq j []] at hf
  rw [Resolver.homeOrNext, hx.fullNames_eq]
  simp only [bind, Except.bind, hx.missing hc, hx.sourceOf_eq, hf]
  rfl

lemma homeOrNext_missing (hx : h.Exhibits R name m names) (hR : R.Reliable) {space simple : String}
    (hc : h.findClass m.classes (·.fullName == inSpace space simple) = none) {j : Journal}
    (hf : (R.source j m.source).forwarded space simple = none) :
    R.homeOrNext space simple name =
      .error (.typeNotFound s!"{inSpace space simple} in assembly {name}") := by
  rw [hR.source_eq j []] at hf
  rw [Resolver.homeOrNext, hx.fullNames_eq]
  simp only [bind, Except.bind, hx.missing hc, hx.sourceOf_eq, hf]
  rfl

lemma innerHome_found {outer : Home} (hx : h.Exhibits R outer.assembly m names) {simple : String}
    (hr : names[outer.row]? = some r.fullName)
    (hc : h.findClass m.classes (·.fullName == r.fullName ++ "/" ++ simple) = some c) :
    ∃ home, h.homeOf c = some home ∧ R.innerHome outer simple = .ok home := by
  obtain ⟨row, hrow, hhome⟩ := hx.found hc
  refine ⟨_, hhome, ?_⟩
  rw [Resolver.innerHome, hx.fullNames_eq]
  simp only [bind, Except.bind, hr, Option.getD_some, hrow]
  rfl

lemma innerHome_missing {outer : Home} (hx : h.Exhibits R outer.assembly m names)
    {simple : String} (hr : names[outer.row]? = some r.fullName)
    (hc : h.findClass m.classes (·.fullName == r.fullName ++ "/" ++ simple) = none) :
    R.innerHome outer simple = .error (.typeNotFound (r.fullName ++ "/" ++ simple)) := by
  rw [Resolver.innerHome, hx.fullNames_eq]
  simp only [bind, Except.bind, hr, Option.getD_some, hx.missing hc]
  rfl

end Exhibits

/-! ## Faithful hosts -/

/-- All that a host knows of assemblies was told by one resolver: there is one assembly for each
name that was asked for, and none for a name whose load is under way. -/
structure Faithful (R : Resolver) (h : Host) : Prop where
  wellformed : h.Wellformed
  pictured : h.Pictured R
  requested : h.Requested
  pending : ∀ name ∈ h.pending, h.findAssembly name = none

/-- An assembly goes by one name only. -/
lemma Embodies.mem_names_iff (he : h.Embodies R i name n) (hR : R.Reliable) {other : String} :
    (other, (⟨h.id, i⟩ : AssemblyHandle)) ∈ h.names ↔ other = name := by
  rw [he.names, he.describes.assemblyName_eq hR, or_self]

/-- A name leads to the image of what the resolver finds for the name. -/
lemma Pictured.embodies (hp : h.Pictured R) (hw : h.Wellformed) (hR : R.Reliable)
    (hname : (name, (⟨h.id, i⟩ : AssemblyHandle)) ∈ h.names) : ∃ n, h.Embodies R i name n := by
  obtain ⟨request, n, he⟩ := hp i (hw.of_name _ hname).2
  exact ⟨n, (he.mem_names_iff hR).mp hname ▸ he⟩

lemma Embodies.requestOf_eq (he : h.Embodies R i name n) (hR : R.Reliable) :
    h.requestOf ⟨h.id, i⟩ = some name := by
  have hname := (he.mem_names_iff hR).mpr rfl
  rcases hfind : h.names.find? (·.2 = ⟨h.id, i⟩) with _ | ⟨request, a⟩
  · simpa using List.find?_eq_none.mp hfind _ hname
  · have ha : a = ⟨h.id, i⟩ := by simpa using List.find?_some hfind
    have hmem := ha ▸ List.mem_of_find?_eq_some hfind
    rw [requestOf, hfind, Option.map_some, (he.mem_names_iff hR).mp hmem]

namespace Faithful

/-- No name leads to two assemblies. -/
lemma index_unique (hf : h.Faithful R) (hR : R.Reliable) {j : Nat}
    (hi : (name, (⟨h.id, i⟩ : AssemblyHandle)) ∈ h.names)
    (hj : (name, (⟨h.id, j⟩ : AssemblyHandle)) ∈ h.names) : i = j := by
  obtain ⟨n, he⟩ := hf.pictured.embodies hf.wellformed hR hi
  obtain ⟨n', he'⟩ := hf.pictured.embodies hf.wellformed hR hj
  have heq := (he.requestOf_eq hR).trans (he'.requestOf_eq hR).symm
  exact hf.requested.eq_of_requestOf_eq he.lt he'.lt heq

lemma exhibits_of_opens (hf : h.Faithful R) (hR : R.Reliable) (ho : h.Opens bound name m) :
    ∃ names, h.Exhibits R name m names := by
  obtain ⟨i, -, hname, hm, -⟩ := ho
  obtain ⟨n, he⟩ := hf.pictured.embodies hf.wellformed hR hname
  exact ⟨_, he.exhibits hf.wellformed hR hm⟩

/-- A class is in the image of its assembly, in the row of its home. -/
lemma image_of_home (hf : h.Faithful R) (hR : R.Reliable) {c : ClassHandle} {r : Class}
    {home : Home} (hr : h.cls c = .ok r) (hm : h.module r.module = .ok m)
    (hhome : h.homeOf c = some home) :
    ∃ i n, h.Embodies R i home.assembly n ∧ h.modules[i]? = some m ∧
      m.classes[home.row]? = some c ∧ r.row = home.row := by
  obtain ⟨i, m', hi, hmod, hrow⟩ := hf.wellformed.row_of_cls hr
  rw [hmod, module_eq_ok_iff] at hm
  obtain rfl : m' = m := Option.some.inj (hi.symm.trans hm.2)
  have hlt : i < h.assemblies.length :=
    hf.wellformed.length_modules ▸ (List.getElem?_eq_some_iff.mp hi).1
  obtain ⟨request, n, he⟩ := hf.pictured i hlt
  have hx := he.exhibits hf.wellformed hR hi
  obtain rfl : home = ⟨request, r.row⟩ := Option.some.inj (hhome.symm.trans (hx.homes _ c hrow))
  exact ⟨i, n, he, hi, hrow, rfl⟩

lemma exhibits_of_home (hf : h.Faithful R) (hR : R.Reliable) {c : ClassHandle} {r : Class}
    {home : Home} (hr : h.cls c = .ok r) (hm : h.module r.module = .ok m)
    (hhome : h.homeOf c = some home) :
    ∃ names, h.Exhibits R home.assembly m names ∧ names[home.row]? = some r.fullName := by
  obtain ⟨i, n, he, hi, hrow, -⟩ := hf.image_of_home hR hr hm hhome
  have hx := he.exhibits hf.wellformed hR hi
  exact ⟨_, hx, hx.fullName_of_row hrow hr⟩

end Faithful

/-! ## What is remembered is what a load comes to

The following is said of any way to find the outcome of loads, as long as it succeeds for the
assemblies that were there before. -/

section Settles

variable {load : Nat → String → Except Stop (List (Option Home))}

lemma Finds.settles (hf : h.Faithful R) (hR : R.Reliable)
    (hload : ∀ target m, h.Opens bound target m → ∃ homes, Settles (load · target) (.ok homes))
    {space simple target : String} {steps : Nat} {c : ClassHandle}
    (hc : h.Finds R bound space simple steps target c) :
    ∃ home, h.homeOf c = some home ∧
      Settles (fun depth => R.searchHome (load depth) space simple steps target) (.ok home) := by
  induction hc with
  | here ho hc =>
    obtain ⟨homes, hs⟩ := hload _ _ ho
    obtain ⟨names, hx⟩ := hf.exhibits_of_opens hR ho
    obtain ⟨home, hhome, hfound⟩ := hx.homeOrNext_found hc
    refine ⟨home, hhome, ?_⟩
    simp only [Resolver.searchHome, hfound]
    exact hs.bind (settles_ok home)
  | moved ho hc hnext _ ih =>
    obtain ⟨homes, hs⟩ := hload _ _ ho
    obtain ⟨names, hx⟩ := hf.exhibits_of_opens hR ho
    obtain ⟨home, hhome, ih⟩ := ih
    refine ⟨home, hhome, ?_⟩
    simp only [Resolver.searchHome, hx.homeOrNext_moved hR hc hnext]
    exact hs.bind ih

lemma Leads.settles (hf : h.Faithful R) (hR : R.Reliable)
    (hload : ∀ target m, h.Opens bound target m → ∃ homes, Settles (load · target) (.ok homes))
    {ref : TypeRef} {c : ClassHandle} (hc : h.Leads R bound ref c) :
    ∃ home, h.homeOf c = some home ∧
      Settles (fun depth => R.homeOf (load depth) ref) (.ok home) := by
  induction hc with
  | external hc => exact hc.settles hf hR hload
  | @nested outer simple o c r m _ hr hm _ hc ih =>
    obtain ⟨home, hhome, hs⟩ := ih
    obtain ⟨names, hx, hname⟩ := hf.exhibits_of_home hR hr hm hhome
    obtain ⟨inner, hinner, hfound⟩ := hx.innerHome_found hname hc
    refine ⟨inner, hinner, hs.bind (f := fun _ o => liftM (R.innerHome o simple)) ?_⟩
    simp only [hfound]
    exact settles_ok inner

/-- The parent of a new class is at home where a load that remembers nothing finds it. -/
lemma settles_parentHome (hf : h.Faithful R) (hR : R.Reliable)
    (hload : ∀ target m, h.Opens bound target m → ∃ homes, Settles (load · target) (.ok homes))
    {defs : List TypeDef} {base : Nat}
    (hown : ∀ row < defs.length, h.homeOf ⟨h.id, base + row⟩ = some ⟨name, row⟩)
    {d : TypeDef} {ref : Option TypeRef} {p : Option NewParent} (hd : d.parent = ref)
    (ha : NewParent.Answers R h bound defs ref p) :
    ∃ home, Settles (fun depth => R.parentHome (load depth) name defs d) (.ok home) ∧
      (p.map (NewParent.place h.id base)).map h.homeOf = home.map some := by
  cases ha with
  | root =>
    refine ⟨none, ?_, rfl⟩
    simp only [Resolver.parentHome, hd]
    exact settles_ok none
  | @own ref row hl hr =>
    refine ⟨some ⟨name, row⟩, ?_, congrArg some (hown row (localRow_lt hr))⟩
    simp only [Resolver.parentHome, hd, hl, hr, if_true]
    exact settles_ok _
  | foreign hl hc =>
    obtain ⟨home, hhome, hs⟩ := hc.settles hf hR hload
    refine ⟨some home, ?_, congrArg some hhome⟩
    simp only [Resolver.parentHome, hd, hl]
    exact hs.bind (settles_ok _)

end Settles

lemma parentHomes_eq_map {a : AssemblyHandle} {record : Assembly} (ha : h.assembly a = .ok record)
    (hm : h.module record.module = .ok m) :
    h.parentHomes a = m.classes.map fun c => ((h.cls? c).bind (·.parent)).map h.homeOf := by
  simp [parentHomes, moduleOf, classesOf, ha, hm, Except.toOption]

lemma Embodies.assembly_eq (he : h.Embodies R i name n) :
    h.assembly ⟨h.id, i⟩ = .ok ⟨⟨h.id, i⟩, n.assemblyName, ⟨h.id, i⟩⟩ :=
  assembly_eq_ok_iff.mpr ⟨rfl, he.assembly⟩

lemma Embodies.parentHomes_eq (he : h.Embodies R i name n) :
    ∃ base m, h.modules[i]? = some m ∧
      m.classes = (List.range n.classes.length).map (fun row => ⟨h.id, base + row⟩) ∧
      h.parentHomes ⟨h.id, i⟩ =
        n.classes.map fun c => (c.parent.map (NewParent.place h.id base)).map h.homeOf := by
  obtain ⟨base, m, hm, -, hclasses, hrecords⟩ := he.module
  refine ⟨base, m, hm, hclasses, ?_⟩
  rw [parentHomes_eq_map he.assembly_eq (module_eq_ok_iff.mpr ⟨rfl, hm⟩), hclasses]
  refine map_range_eq fun row c hc => ?_
  obtain ⟨r, hr, hp⟩ := hrecords row c hc
  have hparent : r.parent = c.parent.map (NewParent.place h.id base) :=
    (congrArg Class.parent hp).trans (c.record_parent _ _ _ _)
  rw [cls?_eq_some_iff.mpr hr, Option.bind_some, hparent]

/-- The induction is on the number of the assembly: the references of its module lead into
assemblies of smaller numbers. -/
lemma Faithful.settles_of_mem (hf : h.Faithful R) (hR : R.Reliable) {pending : List String}
    (hname : (name, (⟨h.id, i⟩ : AssemblyHandle)) ∈ h.names)
    (hpending : ∀ other ∈ pending, ∀ j ≤ i, (other, (⟨h.id, j⟩ : AssemblyHandle)) ∉ h.names) :
    ∃ homes, Settles (fun depth => R.outcomeWithin depth pending name) (.ok homes) ∧
      h.parentHomes ⟨h.id, i⟩ = homes.map (·.map some) := by
  induction i using Nat.strong_induction_on generalizing name pending with
  | h i ih =>
    have hnew : name ∉ pending := fun hmem => hpending name hmem i le_rfl hname
    have hload : ∀ target m, h.Opens i target m →
        ∃ homes, Settles (fun depth => R.outcomeWithin depth (pending ++ [name]) target)
          (.ok homes) := by
      rintro target m ⟨j, hj, htarget, -⟩
      -- none of the names under way leads to an assembly so far down, nor does this one
      obtain ⟨homes, hs, -⟩ := ih j hj htarget fun other hother k hk hmem => by
        rcases List.mem_append.mp hother with hother | hother
        · exact hpending other hother k (hk.trans hj.le) hmem
        · obtain rfl := List.mem_singleton.mp hother
          exact absurd (hf.index_unique hR hmem hname) (hk.trans_lt hj).ne
      exact ⟨homes, hs⟩
    obtain ⟨n, he⟩ := hf.pictured.embodies hf.wellformed hR hname
    obtain ⟨base, m, hm, hclasses, hparents⟩ := he.parentHomes_eq
    have hlen : n.definitions.length = n.classes.length := List.length_map _
    have hown : ∀ row < n.definitions.length,
        h.homeOf ⟨h.id, base + row⟩ = some ⟨name, row⟩ := fun row hrow => by
      rw [hlen] at hrow
      refine (he.exhibits hf.wellformed hR hm).homes row _ ?_
      simp [hclasses, List.getElem?_range hrow]
    -- row by row, the parent is at home where it is found anew
    have hrows : ∀ c ∈ n.classes, ∃ home,
        Settles (fun depth => R.parentHome (R.outcomeWithin depth (pending ++ [name])) name
          n.definitions c.definition) (.ok home) ∧
        (c.parent.map (NewParent.place h.id base)).map h.homeOf = home.map some := fun c hc =>
      settles_parentHome hf hR hload hown rfl (he.describes.parents c hc)
    choose! home hsettles hhome using hrows
    refine ⟨n.classes.map home, .of_succ (Resolver.outcomeWithin_zero hnew) ?_, ?_⟩
    · simp only [Resolver.outcomeWithin_succ hnew,
        Resolver.parentHomes_of_ok (he.describes.definitions_eq hR) he.describes.named]
      refine settles_mapM ?_
      rw [NewModule.definitions, List.forall₂_map_left_iff, List.forall₂_map_right_iff,
        List.forall₂_same]
      exact hsettles
    · rw [hparents, List.map_map]
      exact List.map_congr_left hhome

/-- What a faithful host knows of an assembly is what a load of its name comes to that has nothing
else under way. -/
lemma Faithful.settles_anew (hf : h.Faithful R) (hR : R.Reliable)
    (hname : (name, (⟨h.id, i⟩ : AssemblyHandle)) ∈ h.names) :
    ∃ homes, Settles (fun depth => R.outcomeWithin depth [] name) (.ok homes) ∧
      h.parentHomes ⟨h.id, i⟩ = homes.map (·.map some) :=
  hf.settles_of_mem hR hname fun _ hmem => absurd hmem List.not_mem_nil

/-- What a faithful host knows of an assembly is what a load of its name comes to. -/
lemma Faithful.settles (hf : h.Faithful R) (hR : R.Reliable) {a : AssemblyHandle}
    (ha : h.findAssembly name = some a) :
    ∃ homes, Settles (fun depth => R.outcomeWithin depth h.pending name) (.ok homes) ∧
      h.parentHomes a = homes.map (·.map some) := by
  have hmem := mem_names_of_findAssembly ha
  have hat : a = ⟨h.id, a.index⟩ := by rw [← (hf.wellformed.of_name _ hmem).1]
  rw [hat] at hmem ⊢
  refine hf.settles_of_mem hR hmem fun other hother j _ hmem' => ?_
  exact findAssembly_eq_none_iff.mp (hf.pending other hother) _ hmem' rfl

/-! ## Hosts stay faithful -/

lemma faithful_blank (R : Resolver) (id : Nat) (config : Config) : (blank id config).Faithful R :=
  ⟨wellformed_blank id config, fun _ hi => absurd hi (Nat.not_lt_zero _),
    (settled_blank id config).requested, fun _ hmem => absurd hmem List.not_mem_nil⟩

/-- Only the tables and the names matter, and the names whose load is under way. -/
lemma Faithful.congr (hf : h.Faithful R) (hk : h.Keeps h') (hw : h'.Wellformed)
    (ha : h'.assemblies = h.assemblies) (hn : h'.names = h.names)
    (hp : ∀ name ∈ h'.pending, h.findAssembly name = none) : h'.Faithful R := by
  refine ⟨hw, hf.pictured.of_keeps hk (by rw [ha]), ⟨?_, ?_⟩, fun name hmem => ?_⟩
  · rw [ha, hk.id_eq]
    simpa only [requestOf, hn] using hf.requested.request
  · rw [ha, hk.id_eq]
    simpa only [requestOf, hn] using hf.requested.distinct
  · rw [findAssembly, hn]
    exact hp name hmem

lemma Faithful.beginLoad (hf : h.Faithful R) (hn : h.findAssembly name = none) :
    (h.beginLoad name).Faithful R := by
  refine hf.congr (.of_eq rfl rfl rfl rfl rfl) (hf.wellformed.congr rfl rfl rfl rfl rfl) rfl rfl
    fun other hmem => ?_
  rcases List.mem_append.mp hmem with hmem | hmem
  · exact hf.pending other hmem
  · exact List.mem_singleton.mp hmem ▸ hn

/-- Loads add images of what the resolver says, and none for a name whose load is under way. -/
lemma Faithful.of_loads (hf : h.Faithful w.resolver) (hR : w.resolver.Reliable)
    (hl : h.Loads w h') : h'.Faithful w.resolver := by
  have hw := hl.wellformed hf.wellformed
  have hpic := pictured_of_loadChanges hl.changes hf.wellformed hf.pictured
  have hreq := hf.requested.of_loads hl
  have hk := hl.keeps
  refine ⟨hw, hpic, hreq, fun name hmem => ?_⟩
  rw [hl.toExtends.pending_eq] at hmem
  rw [findAssembly_eq_none_iff]
  rintro ⟨_, a⟩ hentry rfl
  -- the name was entered before, or for an assembly that was asked for under another name
  rcases hk.names_new _ hentry with hold | hnew
  · exact findAssembly_eq_none_iff.mp (hf.pending _ hmem) _ hold rfl
  · obtain ⟨ho, hlt⟩ := hw.of_name _ hentry
    obtain ⟨request, hrequest, hother, -⟩ := hl.requests a.index hnew hlt
    have hat : a = ⟨h'.id, a.index⟩ := by rw [← ho]
    obtain ⟨n, he⟩ := hpic.embodies hw hR (hat ▸ hentry)
    rw [← hk.id_eq, he.requestOf_eq hR] at hrequest
    exact hother (Option.some.inj hrequest ▸ hmem)

lemma RunChange.faithful (hc : RunChange w h h') (hR : w.resolver.Reliable)
    (hf : h.Faithful w.resolver) : h'.Faithful w.resolver := by
  rcases hc.loads_or_sameNames with hl | hs
  · exact hf.of_loads hR hl
  · exact hf.congr hc.keeps (hc.wellformed hf.wellformed) hs.assemblies_eq hs.names_eq
      (hs.pending_eq ▸ hf.pending)

/-- A run that uses one reliable resolver keeps a host faithful. -/
lemma Later.faithful (hl : h.Later (·.resolver = R) h') (hR : R.Reliable) (hf : h.Faithful R) :
    h'.Faithful R := by
  refine hl.preserves (fun w hw g g' hstep hg => ?_) hf
  subst hw
  exact hstep.faithful hR hg

lemma Later.settled {W : World → Prop} (hl : h.Later W h') (hs : h.Settled) : h'.Settled :=
  hl.preserves (fun _ _ _ _ hstep hg => hstep.settled hg) hs

end Host

/-- A host that was started is faithful to the resolver it was started with. -/
lemma faithful_of_start {s : Setup} {R : Resolver} {next rest : Nat} {h : Host}
    (hc : s.chosenResolver = some R) (hR : R.Reliable) (hs : s.start next = (.ok h, rest)) :
    h.Faithful R := by
  obtain ⟨w, a, h₁, record, hw, hload, -, rfl⟩ := start_eq_ok hs
  obtain rfl : s.worldWith R = w := by simpa [Setup.world?, hc] using hw
  have hblank := Host.faithful_blank R next s.config
  have hloads := ((Op.isLoader_load _ _ _ hblank.wellformed).of_ok hload).1
  have hf := hblank.of_loads (w := s.worldWith R) hR hloads
  exact hf.congr (.of_eq rfl rfl rfl rfl rfl) (hf.wellformed.congr rfl rfl rfl rfl rfl) rfl rfl
    hf.pending

end ManagedHost
