/-
# Counterparts

Two hosts that use the same reliable resolver number their classes differently, but a class of the
one and a class of the other that have the same home are *counterparts*: they are made from the same
definition, their parents are counterparts, the signatures of their instances differ in handles only,
and so do their fields.  Hence they have the same layout (`Informed.natural_unique`).

What a reference in the metadata leads to can be said without a host.  `Resolver.Leads` is the home
of the class, and a reference that leads to a class of a host leads to its home.

* `Host.Depicts`: what the record of a class has to be, given its home.
* `Informed.isValueType_eq`, `Informed.map_byValueOf`: signatures of instances of counterparts.
* `Informed.fields_alike`: fields of counterparts.
-/
import ManagedHost.Proofs.Informed

namespace ManagedHost

/-! ## Signatures with homes in place of classes -/

namespace Signature

variable {ρ σ τ : Type}

/-- Only what is put in place of the classes that occur matters. -/
lemma expand_congr {a a' b b' : ρ → Id (Signature σ)} {s : Signature ρ}
    (ha : ∀ r ∈ s.classes, a r = a' r) (hb : ∀ r ∈ s.classes, b r = b' r) :
    s.expand a b = s.expand a' b' := by
  induction s with
  | byRef s ih =>
    have hs : s.expand a b = s.expand a' b' := ih ha hb
    simp only [expand, hs]
  | reference r => exact ha r (List.mem_singleton.mpr rfl)
  | value r => exact hb r (List.mem_singleton.mpr rfl)
  | _ => rfl

lemma map_congr {f f' : ρ → σ} {s : Signature ρ} (hs : ∀ r ∈ s.classes, f r = f' r) :
    s.map f = s.map f' :=
  expand_congr (fun r hr => congrArg reference (hs r hr)) fun r hr => congrArg value (hs r hr)

lemma map_instantiate (f : σ → τ) (g : ρ → Signature σ) (s : Signature ρ) :
    (s.instantiate g).map f = s.instantiate fun r => (g r).map f := by
  induction s with
  | byRef s ih => exact congrArg byRef ih
  | _ => rfl

lemma fixedSize_map (f : ρ → σ) (s : Signature ρ) : (s.map f).fixedSize = s.fixedSize := by
  cases s <;> rfl

lemma map_eq_value {f : ρ → σ} {s : Signature ρ} {x : σ} (hs : s.map f = value x) :
    ∃ r, s = value r ∧ f r = x := by
  cases s with
  | value r => exact ⟨r, rfl, value.inj hs⟩
  | _ => cases hs

/-- The layout of a value is that of a value type, or it does not depend on classes. -/
lemma extends_iff {L : ClassHandle → Layout → Prop} {s : Signature ClassHandle} {l : Layout} :
    s.Extends L l ↔ (∃ c, s = value c ∧ L c l) ∨
      (∀ c, s ≠ value c) ∧ l = .ofSize (s.fixedSize.getD pointerSize) := by
  cases s <;> simp [Extends]

end Signature

/-! ## What a resolver says of homes -/

namespace Resolver

variable (R : Resolver)

/-- The definition of the type at a home. -/
def typeAt (home : Home) : Option TypeDef :=
  (R.definitions home.assembly).toOption.bind (·[home.row]?)

/-- The home of the parent of the type at a home; nothing if it has none. -/
def ParentAt (home : Home) (parent : Option Home) : Prop :=
  ∃ homes, Settles (fun depth => R.outcomeWithin depth [] home.assembly) (.ok homes) ∧
    homes[home.row]? = some parent

variable {R} in
lemma ParentAt.unique {home : Home} {p p' : Option Home} (hp : R.ParentAt home p)
    (hp' : R.ParentAt home p') : p = p' := by
  obtain ⟨homes, hs, hrow⟩ := hp
  obtain ⟨homes', hs', hrow'⟩ := hp'
  obtain rfl : homes = homes' := Except.ok.inj (hs.unique hs')
  exact Option.some.inj (hrow.symm.trans hrow')

/-- What the source of the assembly answers to a question about the type at a home. -/
def Tells {δ : Type} (home : Home) (answer : Source → Nat → Except Error (List δ))
    (defs : List δ) : Prop :=
  ∃ source, R.sourceOf home.assembly = .ok source ∧ answer source home.row = .ok defs

variable {R} in
lemma Tells.unique {δ : Type} {home : Home} {answer : Source → Nat → Except Error (List δ)}
    {defs defs' : List δ} (hs : R.Tells home answer defs) (hs' : R.Tells home answer defs') :
    defs = defs' := by
  obtain ⟨source, hsource, hdefs⟩ := hs
  obtain ⟨source', hsource', hdefs'⟩ := hs'
  obtain rfl : source = source' := Except.ok.inj (hsource.symm.trans hsource')
  exact Except.ok.inj (hdefs.symm.trans hdefs')

/-- A reference made from an assembly leads to the class of a home. -/
inductive Leads (origin : String) : TypeRef → Home → Prop
  | definition {names : List String} {row : Nat} (hn : R.fullNames origin = .ok names)
      (hrow : row < names.length) : Leads origin (.definition row) ⟨origin, row⟩
  | external {target space name : String} {home : Home}
      (hs : Settles (fun depth => R.searchHome (R.outcomeWithin depth []) space name maxForwards
        target) (.ok home)) : Leads origin (.external target space name) home
  | nested {outer : TypeRef} {name : String} {o home : Home} (ho : Leads origin outer o)
      (hi : R.innerHome o name = .ok home) : Leads origin (.nested outer name) home

variable {R} in
lemma Leads.unique {origin : String} {ref : TypeRef} {home home' : Home}
    (hl : R.Leads origin ref home) (hl' : R.Leads origin ref home') : home = home' := by
  induction hl generalizing home' with
  | definition =>
    cases hl'
    rfl
  | external hs =>
    cases hl' with
    | external hs' => exact Except.ok.inj (hs.unique hs')
  | nested _ hi ih =>
    cases hl' with
    | nested ho' hi' =>
      obtain rfl := ih ho'
      exact Except.ok.inj (hi.symm.trans hi')

end Resolver

/-- Lists that are matched with one list are matched with each other. -/
lemma forall₂_of_common {α β γ : Type} {P : α → β → Prop} {Q : α → γ → Prop} {as : List α}
    {bs : List β} {cs : List γ} (hP : List.Forall₂ P as bs) (hQ : List.Forall₂ Q as cs) :
    List.Forall₂ (fun b c => ∃ a, P a b ∧ Q a c) bs cs := by
  induction hP generalizing cs with
  | nil =>
    cases hQ
    exact .nil
  | cons hb _ ih =>
    cases hQ with
    | cons hc hQ => exact .cons ⟨_, hb, hc⟩ (ih hQ)

/-! ## Homes and records -/

namespace Host

variable {R : Resolver} {corlib : String} {h : Host} {c : ClassHandle} {r : Class} {m : Module}
  {home : Home}

lemma Wellformed.exists_home (hw : h.Wellformed) (hr : h.cls c = .ok r) :
    ∃ home m, h.homeOf c = some home ∧ h.module r.module = .ok m := by
  obtain ⟨i, m, hi, hmod, -⟩ := hw.row_of_cls hr
  have hm : h.module r.module = .ok m := by
    rw [hmod]
    exact module_eq_ok_iff.mpr ⟨rfl, hi⟩
  have hlt : i < h.assemblies.length := hw.length_modules ▸ (List.getElem?_eq_some_iff.mp hi).1
  have ha : h.assembly m.assembly = .ok h.assemblies[i] := by
    rw [(hw.of_module i m hi).2]
    exact assembly_eq_ok_iff.mpr ⟨rfl, List.getElem?_eq_getElem hlt⟩
  exact ⟨_, m, homeOf_eq_some_iff.mpr ⟨r, m, _, hr, hm, ha, rfl⟩, hm⟩

/-- The record `r` of a class and its module `m` are as they have to be, given the home of the class:
the class is made from the definition `d`, and its parent is at home at `p`. -/
structure Depicts (R : Resolver) (corlib : String) (h : Host) (home : Home) (r : Class) (m : Module)
    (d : TypeDef) (p : Option Home) : Prop where
  definition : R.typeAt home = some d
  parentAt : R.ParentAt home p
  sourceOf_eq : R.sourceOf home.assembly = .ok (R.source [] m.source)
  row_eq : r.row = home.row
  space_eq : r.space = d.space
  name_eq : r.name = d.name
  declaring_eq : r.declaring.isNone = d.encloser.isNone
  parent_eq : r.parent.map h.homeOf = p.map some
  isCorlib_eq : m.isCorlib = (home.assembly == corlib)

lemma Informed.depicts (hi : h.Informed R corlib) (hR : R.Reliable) (hr : h.cls c = .ok r)
    (hm : h.module r.module = .ok m) (hhome : h.homeOf c = some home) :
    ∃ d p, h.Depicts R corlib home r m d p := by
  obtain ⟨i, n, he, hmi, hrow, hreq⟩ := hi.faithful.image_of_home hR hr hm hhome
  -- the class was made from the definition in its row
  obtain ⟨base, m', hm', -, hclasses, hrecords⟩ := he.module
  obtain rfl : m' = m := Option.some.inj (hm'.symm.trans hmi)
  have hlt : home.row < n.classes.length := by
    have hlt := (List.getElem?_eq_some_iff.mp hrow).1
    rwa [hclasses, List.length_map, List.length_range] at hlt
  have hhandle : c = ⟨h.id, base + home.row⟩ := by
    rw [hclasses, List.getElem?_map, List.getElem?_range hlt] at hrow
    exact (Option.some.inj hrow).symm
  set new := n.classes[home.row]
  obtain ⟨r', hr', hp⟩ := hrecords home.row new (List.getElem?_eq_getElem hlt)
  rw [← hhandle, hr] at hr'
  cases hr'
  have hdef : R.typeAt home = some new.definition := by
    have hget : n.definitions[home.row]? = some new.definition := by
      rw [NewModule.definitions, List.getElem?_map, List.getElem?_eq_getElem hlt]
      rfl
    rw [Resolver.typeAt, he.describes.definitions_eq hR]
    exact hget
  -- and its parent is where a load finds it
  obtain ⟨homes, hs, hparents⟩ := hi.faithful.settles_anew hR ((he.mem_names_iff hR).mpr rfl)
  rw [parentHomes_eq_map he.assembly_eq (module_eq_ok_iff.mpr ⟨rfl, hmi⟩)] at hparents
  have hparent := congrArg (·[home.row]?) hparents
  simp only [List.getElem?_map, hrow, Option.map_some, cls?_eq_some_iff.mpr hr,
    Option.bind_some] at hparent
  obtain ⟨p, hget, hpeq⟩ := Option.map_eq_some_iff.mp hparent.symm
  refine ⟨new.definition, p,
    { definition := hdef
      parentAt := ⟨homes, hs, hget⟩
      sourceOf_eq := (he.exhibits hi.wellformed hR hmi).sourceOf_eq
      row_eq := hreq
      space_eq := congrArg Class.space hp
      name_eq := congrArg Class.name hp
      declaring_eq := ?_
      parent_eq := hpeq.symm
      isCorlib_eq := hi.corlib_eq ▸ hi.flagged.isCorlib_eq hR he hmi }⟩
  change r.pristine.declaring.isNone = _
  rw [hp, NewClass.record, Option.isNone_map]

/-- A reference that leads to a class of the host leads to its home. -/
lemma LeadsFrom.leads {names : List String} {origin : String} {ref : TypeRef}
    (hl : h.LeadsFrom R m ref c) (hf : h.Faithful R) (hR : R.Reliable)
    (hx : h.Exhibits R origin m names) : ∃ home, h.homeOf c = some home ∧ R.Leads origin ref home := by
  induction hl with
  | definition hrow hc =>
    refine ⟨_, hx.homes _ _ hrow, .definition hx.fullNames_eq ?_⟩
    have hlen := congrArg List.length hx.classes
    simp only [List.length_map] at hlen
    exact hlen ▸ (List.getElem?_eq_some_iff.mp hrow).1
  | external hfinds =>
    have hload : ∀ target m, h.Opens h.assemblies.length target m →
        ∃ homes, Settles (fun depth => R.outcomeWithin depth [] target) (.ok homes) := by
      rintro target m ⟨i, -, hname, -⟩
      obtain ⟨homes, hs, -⟩ := hf.settles_anew hR hname
      exact ⟨homes, hs⟩
    obtain ⟨home, hhome, hs⟩ := hfinds.settles hf hR hload
    exact ⟨home, hhome, .external hs⟩
  | nested _ hr hm _ hc ih =>
    obtain ⟨outer, houter, ho⟩ := ih
    obtain ⟨names', hx', hname⟩ := hf.exhibits_of_home hR hr hm houter
    obtain ⟨home, hhome, hinner⟩ := hx'.innerHome_found hname hc
    exact ⟨home, hhome, .nested ho hinner⟩

/-- Members are described by what the source of the assembly says of the home of their class. -/
lemma Informed.tells {δ α : Type} {k : Collection δ α} {Describes : Module → δ → α → Prop}
    {items : List α} (hi : h.Informed R corlib) (hR : R.Reliable) (hr : h.cls c = .ok r)
    (hhome : h.homeOf c = some home) (hrep : h.Reported R c r k Describes items) :
    ∃ m names defs, h.Exhibits R home.assembly m names ∧ R.Tells home k.answer defs ∧
      List.Forall₂ (Describes m) defs items := by
  obtain ⟨m, defs, ⟨hm, -, hdefs⟩, hall⟩ := hrep
  obtain ⟨names, hx, -⟩ := hi.faithful.exhibits_of_home hR hr hm hhome
  obtain ⟨d, p, hd⟩ := hi.depicts hR hr hm hhome
  rw [hR.source_eq _ [], hd.row_eq] at hdefs
  exact ⟨m, names, defs, hx, ⟨_, hx.sourceOf_eq, hdefs⟩, hall⟩

/-! ## Counterparts -/

section Counterparts

variable {h' : Host} {c' : ClassHandle} {r' : Class} {m' : Module} (hi : h.Informed R corlib)
  (hi' : h'.Informed R corlib) (hR : R.Reliable)

include hi hi' hR

/-- Counterparts are made from one definition, and are at home in one source; their parents are
counterparts. -/
lemma Informed.depicts_both (hr : h.cls c = .ok r) (hr' : h'.cls c' = .ok r')
    (hm : h.module r.module = .ok m) (hm' : h'.module r'.module = .ok m')
    (heq : h.homeOf c = h'.homeOf c') :
    ∃ home d p, h.homeOf c = some home ∧ h.Depicts R corlib home r m d p ∧
      h'.Depicts R corlib home r' m' d p := by
  obtain ⟨home, -, hhome, -⟩ := hi.wellformed.exists_home hr
  obtain ⟨d, p, hd⟩ := hi.depicts hR hr hm hhome
  obtain ⟨d', p', hd'⟩ := hi'.depicts hR hr' hm' (heq ▸ hhome)
  obtain rfl : d = d' := Option.some.inj (hd.definition.symm.trans hd'.definition)
  obtain rfl : p = p' := hd.parentAt.unique hd'.parentAt
  exact ⟨home, d, p, hhome, hd, hd'⟩

lemma Informed.isSystemType_eq (hr : h.cls c = .ok r) (hr' : h'.cls c' = .ok r')
    (heq : h.homeOf c = h'.homeOf c') : r.isSystemType = r'.isSystemType := by
  obtain ⟨-, m, -, hm⟩ := hi.wellformed.exists_home hr
  obtain ⟨-, m', -, hm'⟩ := hi'.wellformed.exists_home hr'
  obtain ⟨home, d, p, -, hd, hd'⟩ := hi.depicts_both hi' hR hr hr' hm hm' heq
  funext name
  simp only [Class.isSystemType, hd.space_eq, hd.name_eq, hd.declaring_eq, hd'.space_eq,
    hd'.name_eq, hd'.declaring_eq]

/-- The parents of counterparts are counterparts. -/
lemma Informed.exists_inherits {p : ClassHandle} (hp : h.Inherits c p) (hc' : h'.Has c')
    (heq : h.homeOf c = h'.homeOf c') : ∃ p', h'.Inherits c' p' ∧ h.homeOf p = h'.homeOf p' := by
  obtain ⟨r, hr, hparent⟩ := hp
  obtain ⟨r', hr'⟩ := has_iff_cls.mp hc'
  obtain ⟨-, m, -, hm⟩ := hi.wellformed.exists_home hr
  obtain ⟨-, m', -, hm'⟩ := hi'.wellformed.exists_home hr'
  obtain ⟨home, d, place, -, hd, hd'⟩ := hi.depicts_both hi' hR hr hr' hm hm' heq
  have hboth := hd'.parent_eq.trans hd.parent_eq.symm
  rw [hparent, Option.map_some] at hboth
  obtain ⟨p', hparent', hhome⟩ := Option.map_eq_some_iff.mp hboth
  exact ⟨p', ⟨r', hr', hparent'⟩, hhome.symm⟩

/-- The ancestors of counterparts are counterparts. -/
lemma Informed.exists_transGen {a : ClassHandle} (ha : Relation.TransGen h.Inherits c a)
    (hc' : h'.Has c') (heq : h.homeOf c = h'.homeOf c') :
    ∃ a', Relation.TransGen h'.Inherits c' a' ∧ h.homeOf a = h'.homeOf a' := by
  induction ha with
  | single hp =>
    obtain ⟨p', hp', hhome⟩ := hi.exists_inherits hi' hR hp hc' heq
    exact ⟨p', .single hp', hhome⟩
  | tail _ hp ih =>
    obtain ⟨b', hb', hhome⟩ := ih
    obtain ⟨p', hp', hhome'⟩ :=
      hi.exists_inherits hi' hR hp (hi'.wellformed.has_of_transGen hb') hhome
    exact ⟨p', hb'.tail hp', hhome'⟩

omit hi hi' in
lemma Informed.isValueType_of_counterpart (hi : h.Informed R corlib) (hi' : h'.Informed R corlib)
    (hc : h.Has c) (hc' : h'.Has c') (heq : h.homeOf c = h'.homeOf c')
    (hv : h.isValueType c = true) : h'.isValueType c' = true := by
  obtain ⟨hnot, a, ha, hroot⟩ := (hi.rooted.isValueType_iff hi.wellformed hc).mp hv
  have hsame {x x' : ClassHandle} (hx : h.Has x) (hx' : h'.Has x')
      (hhome : h.homeOf x = h'.homeOf x') (name : String) :
      h'.isSystemType x' name = h.isSystemType x name := by
    obtain ⟨r, hr⟩ := has_iff_cls.mp hx
    obtain ⟨r', hr'⟩ := has_iff_cls.mp hx'
    rw [isSystemType_of_cls hr, isSystemType_of_cls hr', hi.isSystemType_eq hi' hR hr hr' hhome]
  -- the root of all value types has a counterpart among the ancestors
  obtain ⟨a', ha', hhome⟩ := hi.exists_transGen hi' hR ha hc' heq
  refine (hi'.rooted.isValueType_iff hi'.wellformed hc').mpr ⟨?_, a', ha', ?_⟩
  · rwa [hsame hc hc' heq]
  · rwa [hsame (hi.wellformed.has_of_transGen ha) (hi'.wellformed.has_of_transGen ha') hhome]

lemma Informed.isValueType_eq (hc : h.Has c) (hc' : h'.Has c')
    (heq : h.homeOf c = h'.homeOf c') : h.isValueType c = h'.isValueType c' := by
  rw [Bool.eq_iff_iff]
  exact ⟨isValueType_of_counterpart hR hi hi' hc hc' heq,
    isValueType_of_counterpart hR hi' hi hc' hc heq.symm⟩

/-- The signatures of the instances of counterparts differ in handles only. -/
lemma Informed.map_byValueOf (hr : h.cls c = .ok r) (hr' : h'.cls c' = .ok r')
    (hm : h.module r.module = .ok m) (hm' : h'.module r'.module = .ok m')
    (heq : h.homeOf c = h'.homeOf c') :
    (h.byValueOf c r m.isCorlib).map h.homeOf = (h'.byValueOf c' r' m'.isCorlib).map h'.homeOf := by
  have hvalue := hi.isValueType_eq hi' hR (has_iff_cls.mpr ⟨r, hr⟩) (has_iff_cls.mpr ⟨r', hr'⟩) heq
  obtain ⟨home, d, p, -, hd, hd'⟩ := hi.depicts_both hi' hR hr hr' hm hm' heq
  have hbuiltin : builtinOf r m.isCorlib = builtinOf r' m'.isCorlib := by
    simp only [builtinOf, hd.isCorlib_eq, hd'.isCorlib_eq, hd.space_eq, hd'.space_eq, hd.name_eq,
      hd'.name_eq, hd.declaring_eq, hd'.declaring_eq]
  rcases hs : builtinOf r' m'.isCorlib with _ | s
  · simp only [byValueOf, hbuiltin, hs, hvalue]
    split
    · exact congrArg Signature.value heq
    · exact congrArg Signature.reference heq
  · -- a built-in signature mentions no classes
    simp only [byValueOf, hbuiltin, hs]
    refine Signature.map_congr fun x hx => ?_
    unfold builtinOf at hs
    split at hs
    · simp [Op.classes_builtin? hs] at hx
    · cases hs

/-- One reference in the metadata stands for signatures that differ in handles only. -/
lemma Informed.map_stands {names names' : List String} {origin : String} {ref : TypeRef}
    {t t' : Signature ClassHandle} (hx : h.Exhibits R origin m names)
    (hx' : h'.Exhibits R origin m' names') (hs : h.Stands R m ref t) (hs' : h'.Stands R m' ref t') :
    t.map h.homeOf = t'.map h'.homeOf := by
  obtain ⟨c, r, hl, hr, ht⟩ := hs
  obtain ⟨c', r', hl', hr', ht'⟩ := hs'
  obtain ⟨home, hhome, hlead⟩ := hl.leads hi.faithful hR hx
  obtain ⟨home', hhome', hlead'⟩ := hl'.leads hi'.faithful hR hx'
  obtain rfl := hlead.unique hlead'
  obtain ⟨k, hk, rfl⟩ := hi.vouched c r hr .byValue t ht
  obtain ⟨k', hk', rfl⟩ := hi'.vouched c' r' hr' .byValue t' ht'
  exact hi.map_byValueOf hi' hR hr hr' hk hk' (hhome.trans hhome'.symm)

lemma Informed.map_denotes {names names' : List String} {origin : String} {s : Signature TypeRef}
    {t t' : Signature ClassHandle} (hx : h.Exhibits R origin m names)
    (hx' : h'.Exhibits R origin m' names') (hd : h.Denotes R m s t) (hd' : h'.Denotes R m' s t') :
    t.map h.homeOf = t'.map h'.homeOf := by
  obtain ⟨f, hf, rfl⟩ := hd
  obtain ⟨f', hf', rfl⟩ := hd'
  rw [Signature.map_instantiate, Signature.map_instantiate]
  have hall : ∀ ref ∈ s.classes, (f ref).map h.homeOf = (f' ref).map h'.homeOf := fun ref href =>
    hi.map_stands hi' hR hx hx' (hf ref href) (hf' ref href)
  exact Signature.expand_congr hall hall

/-- The fields of counterparts differ in handles only. -/
lemma Informed.fields_alike {fs fs' : List Field} (hr : h.cls c = .ok r) (hr' : h'.cls c' = .ok r')
    (heq : h.homeOf c = h'.homeOf c') (hf : r.fields = .known fs) (hf' : r'.fields = .known fs') :
    List.Forall₂ (fun f f' => Field.isStatic f = Field.isStatic f' ∧
      f.type.map h.homeOf = f'.type.map h'.homeOf) fs fs' := by
  obtain ⟨home, -, hhome, -⟩ := hi.wellformed.exists_home hr
  obtain ⟨m, names, defs, hx, htells, hall⟩ :=
    hi.tells hR hr hhome (hi.vouched c r hr .fields fs hf)
  obtain ⟨m', names', defs', hx', htells', hall'⟩ :=
    hi'.tells hR hr' (heq ▸ hhome) (hi'.vouched c' r' hr' .fields fs' hf')
  obtain rfl := htells.unique htells'
  refine (forall₂_of_common hall hall').imp fun f f' hd => ?_
  obtain ⟨d, hd, hd'⟩ := hd
  exact ⟨hd.isStatic_eq.trans hd'.isStatic_eq.symm, hi.map_denotes hi' hR hx hx' hd.type hd'.type⟩

end Counterparts

/-! ## Layouts of counterparts -/

/-- Values whose signatures differ in handles only have the same layout, if value types that are
counterparts have. -/
lemma extends_unique {h' : Host} {L L' : ClassHandle → Layout → Prop} {s s' : Signature ClassHandle}
    {l l' : Layout} (heq : s.map h.homeOf = s'.map h'.homeOf) (hs : s.Extends L l)
    (hs' : s'.Extends L' l')
    (hL : ∀ d d', h.homeOf d = h'.homeOf d' → L d l → L' d' l' → l = l') : l = l' := by
  rcases Signature.extends_iff.mp hs with ⟨d, rfl, hd⟩ | ⟨hno, rfl⟩
  · obtain ⟨d', rfl, hhome⟩ := Signature.map_eq_value heq.symm
    exact hL d d' hhome.symm hd hs'
  · rcases Signature.extends_iff.mp hs' with ⟨d', rfl, -⟩ | ⟨-, rfl⟩
    · obtain ⟨d, hd, -⟩ := Signature.map_eq_value heq
      exact absurd hd (hno d)
    · rw [← Signature.fixedSize_map h.homeOf s, heq, Signature.fixedSize_map]

/-- Layouts are determined by the fields, one after the other. -/
lemma parts_unique {h' : Host} {L L' : ClassHandle → Layout → Prop} {fs fs' : List Field}
    {parts parts' : List Layout}
    (halike : List.Forall₂ (fun f f' => Field.isStatic f = Field.isStatic f' ∧
      f.type.map h.homeOf = f'.type.map h'.homeOf) fs fs')
    (hparts : List.Forall₂ (fun f p => (Field.type f).Extends L p) fs parts)
    (hparts' : List.Forall₂ (fun f p => (Field.type f).Extends L' p) fs' parts')
    (hL : ∀ d d' l l', h.homeOf d = h'.homeOf d' → L d l → L' d' l' → l = l') :
    parts = parts' := by
  induction halike generalizing parts parts' with
  | nil =>
    cases hparts
    cases hparts'
    rfl
  | cons hf _ ih =>
    obtain ⟨p, rest, hp, hrest, rfl⟩ := List.forall₂_cons_left_iff.mp hparts
    obtain ⟨p', rest', hp', hrest', rfl⟩ := List.forall₂_cons_left_iff.mp hparts'
    rw [extends_unique hf.2 hp hp' fun d d' => hL d d' p p', ih hrest hrest']

/-- Counterparts have the same layout, whatever the depths to which it is natural. -/
lemma Informed.natural_unique {h' : Host} {n n' : Nat} {c' : ClassHandle} {l l' : Layout}
    (hi : h.Informed R corlib) (hi' : h'.Informed R corlib) (hR : R.Reliable)
    (heq : h.homeOf c = h'.homeOf c') (hn : h.Natural n c l) (hn' : h'.Natural n' c' l') :
    l = l' := by
  induction n generalizing n' c c' l l' with
  | zero => exact hn.elim
  | succ n ih =>
    cases n' with
    | zero => exact hn'.elim
    | succ n' =>
      obtain ⟨r, fs, parts, hr, hf, hparts, rfl⟩ := hn
      obtain ⟨r', fs', parts', hr', hf', hparts', rfl⟩ := hn'
      have halike := List.rel_filter (p := (!·.isStatic)) (q := (!·.isStatic))
        (fun f f' hd => by simp [hd.1]) (hi.fields_alike hi' hR hr hr' heq hf hf')
      rw [parts_unique halike hparts hparts' fun d d' l l' => ih]

end Host

end ManagedHost
