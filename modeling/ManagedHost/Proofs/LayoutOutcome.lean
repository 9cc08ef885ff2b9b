/-
# What a layout comes to, whatever was asked before

Layouts are kept, and they are computed by asking for fields, which may load assemblies.  So the
state in which a layout is asked for depends on what was asked before.  The answer does not: in two
states of runs that use one reliable resolver, the layouts of a class agree if both are found.

Whether a layout is found is another matter.  A layout that is kept is found however deeply value
types are nested in it, and one that has to be computed is found only up to a depth.  On a stack on
which assemblies can be loaded, this is the only difference that the past makes
(`layout_of_later`): an operation that has to be done anew follows one that has been done elsewhere,
question by question, and no question fails that has been answered there.

* `Host.NestsTo`: value types that are nested deeply.
* `Host.Outgrows`: assemblies that cannot be loaded anew on a stack.
* `Op.resolve_ends`, `Op.signature_ends`, `Op.collect_ends`: the questions.
* `Op.layoutWithin_ends`: a layout that is natural in one host is found in the other, unless value
  types are nested too deeply.
-/
import Mathlib.Order.MinMax
import ManagedHost.Proofs.Counterparts
import ManagedHost.Proofs.LoadOutcome

namespace ManagedHost

open Op

/-- The signatures of the values that a method gives back and takes. -/
def Method.passed (x : Method) : List (Signature ClassHandle) :=
  x.result :: x.params.map (·.type)

/-- A computation in two steps is lost in the first or in the second. -/
lemma bind_eq_lost {α β : Type} {x : Except Stop α} {f : α → Except Stop β}
    (hlost : x >>= f = .error .lost) : x = .error .lost ∨ ∃ a, x = .ok a ∧ f a = .error .lost := by
  cases x with
  | error e =>
    cases e with
    | failed => cases hlost
    | lost => exact .inl rfl
  | ok a => exact .inr ⟨a, rfl, hlost⟩

/-- What is bounded for each member of a list is bounded for all members at once. -/
lemma exists_bound_of_forall_mem {α : Type} {P : α → Nat → Prop} {xs : List α}
    (hall : ∀ x ∈ xs, ∃ bound, ∀ n, P x n → n < bound) :
    ∃ bound, ∀ x ∈ xs, ∀ n, P x n → n < bound := by
  induction xs with
  | nil => exact ⟨0, by simp⟩
  | cons x xs ih =>
    obtain ⟨hx, hxs⟩ := List.forall_mem_cons.mp hall
    obtain ⟨b, hb⟩ := hx
    obtain ⟨b', hb'⟩ := ih hxs
    refine ⟨max b b', List.forall_mem_cons.mpr ⟨fun n hn => ?_, fun y hy n hn => ?_⟩⟩
    · exact lt_max_of_lt_left (hb n hn)
    · exact lt_max_of_lt_right (hb' y hy n hn)

/-! ## Homes are kept -/

namespace Host

variable {R : Resolver} {w : World} {K : List Facet} {corlib : String} {g h h' : Host}
  {c : ClassHandle}

lemma Keeps.homeOf (hk : h.Keeps h') {home : Home} (hhome : h.homeOf c = some home) :
    h'.homeOf c = some home := by
  obtain ⟨r, m, record, hr, hm, ha, rfl⟩ := homeOf_eq_some_iff.mp hhome
  obtain ⟨r', hr', hp⟩ := hk.classes c r hr
  obtain ⟨-, hmod, hrow, -, -⟩ := Class.eq_of_pristine_eq hp
  obtain ⟨ho, hget⟩ := assembly_eq_ok_iff.mp ha
  have ha' : h'.assembly m.assembly = .ok record :=
    assembly_eq_ok_iff.mpr ⟨ho.trans hk.id_eq.symm, getElem?_of_prefix hk.assemblies hget⟩
  exact homeOf_eq_some_iff.mpr ⟨r', m, record, hr', hmod ▸ hk.module hm, ha', by rw [hrow]⟩

lemma Natural.exists_home {n : Nat} {l : Layout} (hn : g.Natural n c l) (hw : g.Wellformed) :
    ∃ home, g.homeOf c = some home := by
  obtain ⟨r, -, hr, -⟩ := hn.exists_fields
  obtain ⟨home, -, hhome, -⟩ := hw.exists_home hr
  exact ⟨home, hhome⟩

/-- A counterpart stays one. -/
lemma Natural.homeOf_eq_of_keeps {n : Nat} {l : Layout} {c' : ClassHandle} (hn : g.Natural n c l)
    (hw : g.Wellformed) (heq : g.homeOf c = h.homeOf c') (hk : h.Keeps h') :
    g.homeOf c = h'.homeOf c' := by
  obtain ⟨home, hhome⟩ := hn.exists_home hw
  rw [hhome, hk.homeOf (heq ▸ hhome)]

lemma Exhibits.of_keeps {name : String} {m : Module} {names : List String}
    (hx : h.Exhibits R name m names) (hk : h.Keeps h') : h'.Exhibits R name m names := by
  refine ⟨hx.sourceOf_eq, hx.fullNames_eq, ?_, fun row c hc => hk.homeOf (hx.homes row c hc)⟩
  rw [← hx.classes]
  refine List.map_congr_left fun c hc => ?_
  -- every class of the module has a home, hence a record
  obtain ⟨row, hrow⟩ := List.mem_iff_getElem?.mp hc
  obtain ⟨r, -, -, hr, -⟩ := homeOf_eq_some_iff.mp (hx.homes row c hrow)
  obtain ⟨r', hr', hp⟩ := hk.classes c r hr
  rw [cls?_eq_some_iff.mpr hr, cls?_eq_some_iff.mpr hr', Option.map_some, Option.map_some,
    (Class.eq_of_pristine_eq hp).2.2.2.1]

lemma Exhibits.hasAll {name : String} {m : Module} {names : List String}
    (hx : h.Exhibits R name m names) : h.HasAll m.classes := by
  intro c hc
  obtain ⟨row, hrow⟩ := List.mem_iff_getElem?.mp hc
  obtain ⟨r, -, -, hr, -⟩ := homeOf_eq_some_iff.mp (hx.homes row c hrow)
  exact has_iff_cls.mpr ⟨r, hr⟩

lemma Measured.extent? {x : Method} (hx : h.Measured x) {s : Signature ClassHandle}
    (hs : s ∈ x.passed) : ∃ l, h.extent? s = some l := by
  obtain ⟨sizes, hsizes, -⟩ := hx.args
  obtain ⟨size, hsize, -⟩ := hx.result
  rcases List.mem_cons.mp hs with rfl | hs
  · obtain ⟨l, hl, -⟩ := Option.map_eq_some_iff.mp hsize
    exact ⟨l, hl⟩
  · obtain ⟨q, hq, rfl⟩ := List.mem_map.mp hs
    obtain ⟨n, -, hn⟩ := exists_of_mem_forall₂ hsizes hq
    obtain ⟨l, hl, -⟩ := Option.map_eq_some_iff.mp hn
    exact ⟨l, hl⟩

lemma Learns.informed (hl : h.Learns w K h') (hR : w.resolver.Reliable)
    (hi : h.Informed w.resolver corlib) : h'.Informed w.resolver corlib :=
  (hl.completes.later (W := (·.resolver = w.resolver)) rfl).informed hR hi

/-! ## How deep value types are nested -/

/-- By the fields that are known, there are so many value types in each other within the class. -/
def NestsTo (h : Host) : Nat → ClassHandle → Prop
  | 0, _ => True
  | k + 1, c => ∃ d, h.Contains c d ∧ h.NestsTo k d

/-! ## How deep a stack has to be -/

/-- Some assembly of the host cannot be loaded anew on a stack of this depth. -/
def Outgrows (R : Resolver) (h : Host) (depth : Nat) : Prop :=
  ∃ p ∈ h.names, R.outcomeWithin depth [] p.1 = .error .lost

/-- A stack that is deep enough lets all assemblies of a host be loaded anew. -/
lemma Faithful.exists_enough (hf : h.Faithful R) (hR : R.Reliable) :
    ∃ enough, ∀ depth, h.Outgrows R depth → depth < enough := by
  have hname : ∀ p ∈ h.names, ∃ enough, ∀ depth,
      R.outcomeWithin depth [] p.1 = .error .lost → depth < enough := by
    intro p hp
    obtain ⟨name, a⟩ := p
    have hat : a = ⟨h.id, a.index⟩ := by rw [← (hf.wellformed.of_name _ hp).1]
    rw [hat] at hp
    obtain ⟨homes, ⟨-, enough, hall⟩, -⟩ := hf.settles_anew hR hp
    refine ⟨enough, fun depth hlost => ?_⟩
    rcases hall depth with hok | ⟨hlt, -⟩
    · cases hok.symm.trans hlost
    · exact hlt
  obtain ⟨enough, henough⟩ := exists_bound_of_forall_mem hname
  refine ⟨enough, fun depth houtgrows => ?_⟩
  obtain ⟨p, hp, hlost⟩ := houtgrows
  exact henough p hp depth hlost

/-- A search that has succeeded in a host only loads assemblies of the host. -/
lemma Finds.outgrows {space simple target : String} {bound steps depth : Nat}
    (hc : h.Finds R bound space simple steps target c) (hf : h.Faithful R) (hR : R.Reliable)
    (hlost : R.searchHome (R.outcomeWithin depth []) space simple steps target = .error .lost) :
    h.Outgrows R depth := by
  induction hc with
  | here ho hc =>
    obtain ⟨names, hx⟩ := hf.exhibits_of_opens hR ho
    obtain ⟨home, -, hfound⟩ := hx.homeOrNext_found hc
    simp only [Resolver.searchHome, hfound] at hlost
    obtain ⟨i, -, hname, -⟩ := ho
    rcases bind_eq_lost hlost with hload | ⟨_, -, hpure⟩
    · exact ⟨_, hname, hload⟩
    · cases hpure
  | moved ho hc hnext _ ih =>
    obtain ⟨names, hx⟩ := hf.exhibits_of_opens hR ho
    simp only [Resolver.searchHome, hx.homeOrNext_moved hR hc hnext] at hlost
    obtain ⟨i, -, hname, -⟩ := ho
    rcases bind_eq_lost hlost with hload | ⟨_, -, hrest⟩
    · exact ⟨_, hname, hload⟩
    · exact ih hrest

lemma LeadsFrom.outgrows {ref : TypeRef} {m : Module} {depth : Nat} (hl : h.LeadsFrom R m ref c)
    (hf : h.Faithful R) (hR : R.Reliable)
    (hlost : R.homeOf (R.outcomeWithin depth []) ref = .error .lost) : h.Outgrows R depth := by
  induction hl with
  | definition => cases hlost
  | external hfinds => exact hfinds.outgrows hf hR hlost
  | @nested outer name _ _ _ _ _ _ _ _ _ ih =>
    rcases bind_eq_lost hlost with houter | ⟨o, -, hinner⟩
    · exact ih houter
    · rcases hi : R.innerHome o name with e | home <;> rw [hi] at hinner <;> cases hinner

/-- A reference in a signature that denotes something leads to a class, and is only lost on a stack
that is too shallow for the assemblies of the host. -/
lemma Denotes.leads {origin : String} {m : Module} {names : List String} {s : Signature TypeRef}
    {t : Signature ClassHandle} (hd : h.Denotes R m s t) (hf : h.Faithful R) (hR : R.Reliable)
    (hx : h.Exhibits R origin m names) : ∀ ref ∈ s.classes, (∃ home, R.Leads origin ref home) ∧
      ∀ depth, R.homeOf (R.outcomeWithin depth []) ref = .error .lost → h.Outgrows R depth := by
  intro ref href
  obtain ⟨f, hstands, -⟩ := hd
  obtain ⟨c, r, hl, -, -⟩ := hstands ref href
  obtain ⟨home, -, hlead⟩ := hl.leads hf hR hx
  exact ⟨⟨home, hlead⟩, fun _ => hl.outgrows hf hR⟩

end Host

/-! ## Questions that are answered -/

namespace Op

variable {δ α : Type} {F L : Prop} {w : World} {corlib : String} {g h : Host} {c c' : ClassHandle}
  {home : Home} {origin : String} {m : Module} {names : List String} (hR : w.resolver.Reliable)

lemma byValue_ends (hw : h.Wellformed) (hc : h.Has c) :
    (byValue c).Ends w h F L fun _ _ => True := by
  obtain ⟨r, hr⟩ := Host.has_iff_cls.mp hc
  refine .after (cls_run hr) ?_
  split
  · exact ends_pure trivial
  · obtain ⟨-, m, -, hm⟩ := hw.exists_home hr
    refine .after (module_run hm) ?_
    rw [ends_host_bind]
    exact ends_modify.bind fun _ _ _ => ends_pure trivial

lemma keepLayout_ends (l : Layout) (hc : h.Has c) :
    (keepLayout c l).Ends w h F L fun _ _ => True := by
  obtain ⟨r, hr⟩ := Host.has_iff_cls.mp hc
  refine .after (cls_run hr) ?_
  split
  · exact ends_pure trivial
  · exact ends_modify.bind fun _ _ _ => ends_pure trivial

lemma extent_ends {layoutOf : ClassHandle → Op Layout} {s : Signature ClassHandle}
    (hs : ∀ d, s = .value d → (layoutOf d).Ends w h F L fun _ _ => True) :
    (extent layoutOf s).Ends w h F L fun _ _ => True := by
  cases s with
  | value d => exact hs d rfl
  | _ => exact ends_pure trivial

lemma ask_ends {source : SourceId} {query : Query} {row : Nat} {target : Option ClassHandle}
    {answer : Source → Nat → Except Error α} {a : α}
    (ha : ∀ j, answer (w.source j source) row = .ok a) :
    (ask source query row target answer).Ends w h F L fun b h' =>
      b = a ∧ h' = h.note (.asked source query row target) := by
  refine (ends_modify (f := (·.note (.asked source query row target)))).bind fun _ h₁ h₁eq => ?_
  rw [ends_world_bind, ends_host_bind, ha]
  exact ends_pure ⟨rfl, h₁eq⟩

include hR

/-- A reference that leads to a home without a host leads to a class of that home. -/
lemma resolve_ends {ref : TypeRef} (hi : h.Informed w.resolver corlib)
    (hx : h.Exhibits w.resolver origin m names) (hl : w.resolver.Leads origin ref home)
    (hL : w.resolver.homeOf (w.resolver.outcomeWithin w.depth []) ref = .error .lost → L) :
    (resolve m ref).Ends w h F L fun c h' => h.Loads w h' ∧ h'.homeOf c = some home := by
  unfold resolve
  induction hl with
  | @definition names' row hn hrow =>
    obtain rfl : names = names' := Except.ok.inj (hx.fullNames_eq.symm.trans hn)
    have hlen := congrArg List.length hx.classes
    simp only [List.length_map] at hlen
    have hc : m.classes[row]? = some m.classes[row] := List.getElem?_eq_getElem (hlen ▸ hrow)
    rw [resolveWith, Option.bind_some, hc]
    exact ends_pure ⟨.rfl' w h, hx.homes row _ hc⟩
  | @external target space name home hs =>
    have htracks := search_tracks (load_tracks hR) hR space name maxForwards target hi.faithful
    rw [hi.pending_eq] at htracks
    exact htracks.ends hs hL
  | @nested outer name o home _ hinner ih =>
    refine (ih fun hlost => hL ?_).bind fun c h₁ hq => ?_
    · rw [Resolver.homeOf, hlost]
      rfl
    obtain ⟨h01, hhome⟩ := hq
    have hf₁ := hi.faithful.of_loads hR h01
    obtain ⟨r, m', -, hr, hm', -, -⟩ := Host.homeOf_eq_some_iff.mp hhome
    obtain ⟨names', hx', hname⟩ := hf₁.exhibits_of_home hR hr hm' hhome
    refine .after (cls_run hr) (.after (module_run hm') ?_)
    rw [ends_host_bind]
    split
    · rename_i d hd
      obtain ⟨home', hhome', hfound⟩ := hx'.innerHome_found hname hd
      obtain rfl := Except.ok.inj (hinner.symm.trans hfound)
      exact ends_pure ⟨h01, hhome'⟩
    · rename_i hnone
      cases hinner.symm.trans (hx'.innerHome_missing hname hnone)

lemma signature_ends {s : Signature TypeRef} (hi : h.Informed w.resolver corlib)
    (hx : h.Exhibits w.resolver origin m names)
    (hs : ∀ ref ∈ s.classes, (∃ home, w.resolver.Leads origin ref home) ∧
      ∀ depth, w.resolver.homeOf (w.resolver.outcomeWithin depth []) ref = .error .lost →
        g.Outgrows w.resolver depth) :
    (signature m s).Ends w h F (g.Outgrows w.resolver w.depth) fun _ _ => True := by
  have instances (ref : TypeRef) (href : ref ∈ s.classes) : (do byValue (← resolve m ref) :
      Op _).Ends w h F (g.Outgrows w.resolver w.depth) fun _ _ => True := by
    obtain ⟨⟨home, hl⟩, hlost⟩ := hs ref href
    refine (resolve_ends hR hi hx hl (hlost w.depth)).bind fun c h₁ hq => ?_
    obtain ⟨r, -, -, hr, -⟩ := Host.homeOf_eq_some_iff.mp hq.2
    exact byValue_ends (hq.1.wellformed hi.wellformed) (Host.has_iff_cls.mpr ⟨r, hr⟩)
  clear hs
  unfold signature
  induction s with
  | byRef s ih => exact (ih instances).bind fun _ _ _ => ends_pure trivial
  | reference ref => exact instances ref (List.mem_singleton.mpr rfl)
  | value ref => exact instances ref (List.mem_singleton.mpr rfl)
  | _ => exact ends_pure trivial

/-- A collection is obtained if its members can be built from what the source says of the home of
the class. -/
lemma collect_ends {k : Collection δ α} {p : Facet} {classesOf : α → List ClassHandle}
    {Describes : Resolver → Host → ClassHandle → Module → δ → α → Prop}
    (hk : k.Holds p classesOf Describes)
    {build : Class → Module → List δ → Op (List α)} {defs : List δ}
    (hi : h.Informed w.resolver corlib) (hhome : h.homeOf c = some home)
    (htells : w.resolver.Tells home k.answer defs)
    (hbuild : ∀ h₁ r m names, h₁.Informed w.resolver corlib → h₁.Has r.handle →
      h₁.Exhibits w.resolver home.assembly m names →
      (build r m defs).Ends w h₁ F L fun _ _ => True) :
    (collect k c build).Ends w h F L fun _ _ => True := by
  obtain ⟨r, m, -, hr, hm, -, -⟩ := Host.homeOf_eq_some_iff.mp hhome
  refine .after (cls_run hr) ?_
  split
  · exact ends_pure trivial
  rename_i hunknown
  refine .after (module_run hm) ?_
  obtain ⟨d, parent, hd⟩ := hi.depicts hR hr hm hhome
  have hdefs : ∀ j, k.answer (w.source j m.source) r.row = .ok defs := by
    intro j
    obtain ⟨source, hsource, hanswer⟩ := htells
    obtain rfl := Except.ok.inj (hd.sourceOf_eq.symm.trans hsource)
    rw [hd.row_eq, ← hanswer]
    exact congrArg (k.answer · home.row) (hR.source_eq j [] m.source)
  refine (ask_ends hdefs).bind fun ds h₁ hq => ?_
  obtain ⟨rfl, rfl⟩ := hq
  -- the question is a step of reflection
  set h₁ := h.note (.asked m.source k.query r.row (some c))
  have hlearns : h.Learns w [p] h₁ := .single
    (.asks (List.mem_singleton.mpr rfl) hk.query?_eq hr (hk.unknown_iff.mpr hunknown) hm)
  have hi₁ := hlearns.informed hR hi
  obtain ⟨names, hx, -⟩ := hi₁.faithful.exhibits_of_home hR (r := r) (m := m) hr hm
    (hlearns.keeps.homeOf hhome)
  have hhandle : h₁.Has r.handle := hlearns.has (hi.wellformed.has_of_mention hr List.mem_cons_self)
  exact (hbuild h₁ r m names hi₁ hhandle hx).bind fun _ _ _ =>
    ends_modify.bind fun _ _ _ => ends_pure trivial

/-- Fields that are known of a counterpart are obtained. -/
lemma fields_ends {r : Class} {fs : List Field} (hg : g.Informed w.resolver corlib)
    (hi : h.Informed w.resolver corlib) (hr : g.cls c = .ok r) (hf : r.fields = .known fs)
    (heq : g.homeOf c = h.homeOf c') :
    (fields c').Ends w h F (g.Outgrows w.resolver w.depth) fun _ _ => True := by
  obtain ⟨home, -, hhome, -⟩ := hg.wellformed.exists_home hr
  obtain ⟨m₀, names₀, defs, hx₀, htells, hall⟩ :=
    hg.tells hR hr hhome (hg.vouched c r hr .fields fs hf)
  refine collect_ends hR Collection.holds_fields hi (heq ▸ hhome) htells
    fun h₁ r₁ m names hi₁ _ hx => ?_
  refine (ends_each (R := Host.Learns w [.byValue]) fun d hd h₂ hl => ?_).trivial_post
  obtain ⟨f, -, hdescribes⟩ := exists_of_mem_forall₂ hall hd
  have hx₂ := hx.of_keeps hl.keeps
  refine (signature_ends hR (hl.informed hR hi₁) hx₂
    (hdescribes.type.leads hg.faithful hR hx₀)).bind_obeys
    (signature_obeys d.type (hl.wellformed hi₁.wellformed) hx₂.hasAll) fun _ _ hl' _ => ?_
  exact ends_pure hl'

/-- If a class has a natural layout, then that of its counterpart is found, unless value types are
nested deeper than it is looked for.  The induction is on the depth to which it is looked for; the
fields are counterparts in the state in which they have been obtained. -/
lemma layoutWithin_ends (hg : g.Informed w.resolver corlib) (k : Nat) {n : Nat} {l : Layout}
    (hi : h.Informed w.resolver corlib) (heq : g.homeOf c = h.homeOf c') (hn : g.Natural n c l) :
    (layoutWithin k c').Ends w h (g.NestsTo k c) (g.Outgrows w.resolver w.depth)
      fun _ _ => True := by
  induction k generalizing n c c' l h with
  | zero =>
    obtain ⟨home, hhome⟩ := hn.exists_home hg.wellformed
    obtain ⟨r', -, -, hr', -⟩ := Host.homeOf_eq_some_iff.mp (heq ▸ hhome)
    rw [layoutWithin]
    refine .after (cls_run hr') ?_
    split
    · exact ends_pure trivial
    · exact ends_fail trivial
  | succ k ih =>
    obtain ⟨r, fs, hr, hf⟩ := hn.exists_fields
    obtain ⟨home, hhome⟩ := hn.exists_home hg.wellformed
    have hhome' : h.homeOf c' = some home := heq ▸ hhome
    obtain ⟨r', -, -, hr', -⟩ := Host.homeOf_eq_some_iff.mp hhome'
    rw [layoutWithin]
    refine .after (cls_run hr') ?_
    split
    · exact ends_pure trivial
    refine (fields_ends hR hg hi hr hf heq).bind_obeys (fields_obeys c' hi.wellformed)
      fun fs' h₁ h01 hq => ?_
    obtain ⟨-, r₁, hr₁, hf₁⟩ := hq
    have hi₁ := h01.informed hR hi
    have hhome₁ := h01.keeps.homeOf hhome'
    have halike := List.rel_filter (p := (!·.isStatic)) (q := (!·.isStatic))
      (fun f f' hd => by simp [hd.1])
      (hg.fields_alike hi₁ hR hr hr₁ (hhome.trans hhome₁.symm) hf hf₁)
    refine (ends_each (R := Host.Learns w [.layout, .fields, .byValue])
      fun f' hf' h₂ h12 => ?_).bind fun parts' h₂ h12 => ?_
    · refine (extent_ends fun d' hd' => ?_).obeying
        (extent_obeys f'.type fun d => layoutWithin_obeys k d (h12.wellformed hi₁.wellformed))
      -- the field has a counterpart, whose type is contained in the class
      obtain ⟨f, hmem, -, htype⟩ := exists_of_mem_forall₂ halike.flip hf'
      obtain ⟨hmem, hstatic⟩ := List.mem_filter.mp hmem
      rw [hd'] at htype
      obtain ⟨d, hd, hdhome⟩ := Signature.map_eq_value htype
      have hcontains : g.Contains c d := ⟨r, fs, hr, hf, f, hmem, by simpa using hstatic, hd⟩
      obtain ⟨n', -, p, hp⟩ := hn.of_contains hcontains
      exact (ih (h12.informed hR hi₁) (hp.homeOf_eq_of_keeps hg.wellformed hdhome h12.keeps)
        hp).mono (fun hnests => ⟨d, hcontains, hnests⟩) fun _ _ hq => hq
    · exact keepLayout_ends _ (h12.has (Host.has_iff_cls.mpr ⟨r₁, hr₁⟩))

lemma sizeOf_ends {h' : Host} {s s' : Signature ClassHandle} (hg : g.Informed w.resolver corlib)
    (hi : h'.Informed w.resolver corlib) (hk : h.Keeps h')
    (heq : s.map g.homeOf = s'.map h.homeOf) (hs : ∃ l, g.extent? s = some l) :
    (sizeOf s').Ends w h' (∃ d, s = .value d ∧ g.NestsTo (maxLayoutDepth + 1) d)
      (g.Outgrows w.resolver w.depth) fun _ _ => True := by
  refine (extent_ends fun d' hd' => ?_).bind fun _ _ _ => ends_pure trivial
  rw [hd'] at heq
  obtain ⟨d, rfl, hhome⟩ := Signature.map_eq_value heq
  -- the layout of the counterpart is kept
  obtain ⟨l, hl⟩ := hs
  obtain ⟨r, hr, hkept⟩ := Option.bind_eq_some_iff.mp hl
  obtain ⟨-, n, hn⟩ := hg.laidOut d r l (Host.cls?_eq_some_iff.mp hr) hkept
  exact (layoutWithin_ends hR hg _ hi (hn.homeOf_eq_of_keeps hg.wellformed hhome hk) hn).mono
    (fun hnests => ⟨d, rfl, hnests⟩) fun _ _ hq => hq

lemma method_ends {r : Class} {m₀ : Module} {names₀ : List String} (row : Nat) {d : MethodDef}
    {x : Method} (hg : g.Informed w.resolver corlib) (hi : h.Informed w.resolver corlib)
    (hx₀ : g.Exhibits w.resolver origin m₀ names₀) (hx : h.Exhibits w.resolver origin m names)
    (hd : g.DescribesMethod w.resolver m₀ d x) (hm : g.Measured x) :
    (method r m row d).Ends w h (∃ d, .value d ∈ x.passed ∧ g.NestsTo (maxLayoutDepth + 1) d)
      (g.Outgrows w.resolver w.depth) fun _ _ => True := by
  have hparams : (each (fun p => do
      return ({ name := p.name, type := ← signature m p.type } : Param)) d.params).Ends w h
      (∃ d, .value d ∈ x.passed ∧ g.NestsTo (maxLayoutDepth + 1) d)
      (g.Outgrows w.resolver w.depth) fun _ _ => True := by
    refine (ends_each (R := Host.Learns w [.byValue]) fun p hp h₁ hl => ?_).trivial_post
    obtain ⟨q, -, hq⟩ := exists_of_mem_forall₂ hd.params hp
    have hx₁ := hx.of_keeps hl.keeps
    exact (signature_ends hR (hl.informed hR hi) hx₁ (hq.leads hg.faithful hR hx₀)).bind_obeys
      (signature_obeys p.type (hl.wellformed hi.wellformed) hx₁.hasAll)
      fun _ _ hl' _ => ends_pure hl'
  refine hparams.bind_obeys (params_obeys d.params hi.wellformed hx.hasAll)
    fun params h₁ h01 hps => ?_
  have hi₁ := h01.informed hR hi
  have hx₁ := hx.of_keeps h01.keeps
  refine (signature_ends hR hi₁ hx₁ (hd.result.leads hg.faithful hR hx₀)).bind_obeys
    (signature_obeys d.result hi₁.wellformed hx₁.hasAll) fun result h₂ h12 hres => ?_
  have hi₂ := h12.informed hR hi₁
  -- the values that are passed are those that are passed to and from the counterpart
  have hresult := hg.map_denotes hi₂ hR hx₀ (hx₁.of_keeps h12.keeps) hd.result hres.2
  have hparam : ∀ q ∈ params, ∃ s ∈ x.passed, s.map g.homeOf = q.type.map h₁.homeOf := by
    intro q hq
    obtain ⟨q₀, hmem, p, hp₀, -, hp⟩ :=
      exists_of_mem_forall₂ (forall₂_of_common hd.params hps).flip hq
    exact ⟨q₀.type, List.mem_cons_of_mem _ (List.mem_map_of_mem hmem),
      hg.map_denotes hi₁ hR hx₀ hx₁ hp₀ hp⟩
  have hpassed {s : Signature ClassHandle} (hs : s ∈ x.passed) :
      (∃ d, s = .value d ∧ g.NestsTo (maxLayoutDepth + 1) d) →
        ∃ d, .value d ∈ x.passed ∧ g.NestsTo (maxLayoutDepth + 1) d := by
    rintro ⟨d, rfl, hnests⟩
    exact ⟨d, hs, hnests⟩
  refine (ends_each (R := Host.Learns w [.layout, .fields, .byValue])
    fun (q : Param) hq h₃ h23 => ?_).bind fun sizes h₃ h23 => ?_
  · obtain ⟨s, hmem, heq⟩ := hparam q hq
    exact ((sizeOf_ends hR hg (h23.informed hR hi₂) (h12.keeps.trans h23.keeps) heq
      (hm.extent? hmem)).mono (hpassed hmem) fun _ _ hq => hq).obeying
      (sizeOf_obeys q.type (h23.wellformed hi₂.wellformed))
  · exact ((sizeOf_ends hR hg (h23.informed hR hi₂) h23.keeps hresult
      (hm.extent? List.mem_cons_self)).mono (hpassed List.mem_cons_self) fun _ _ hq => hq).bind
      fun _ _ _ => ends_pure trivial

/-- Methods that are known of a counterpart are obtained, unless value types are nested too deeply
in a value that a method passes. -/
lemma methods_ends {r : Class} {ms : List Method} (hg : g.Informed w.resolver corlib)
    (hi : h.Informed w.resolver corlib) (hr : g.cls c = .ok r) (hms : r.methods = .known ms)
    (heq : g.homeOf c = h.homeOf c') :
    (methods c').Ends w h
      (∃ x ∈ ms, ∃ d, .value d ∈ x.passed ∧ g.NestsTo (maxLayoutDepth + 1) d)
      (g.Outgrows w.resolver w.depth) fun _ _ => True := by
  obtain ⟨home, -, hhome, -⟩ := hg.wellformed.exists_home hr
  obtain ⟨hmeasured, hreported⟩ := hg.vouched c r hr .methods ms hms
  obtain ⟨m₀, names₀, defs, hx₀, htells, hall⟩ := hg.tells hR hr hhome hreported
  refine collect_ends hR Collection.holds_methods hi (heq ▸ hhome) htells
    fun h₁ r₁ m names hi₁ hr₁ hx => ?_
  refine (ends_each (R := Host.Learns w [.layout, .fields, .byValue])
    fun d hd h₂ hl => ?_).trivial_post
  obtain ⟨x, hmem, hdescribes⟩ := exists_of_mem_forall₂ hall (List.fst_mem_of_mem_zipIdx hd)
  have hx₂ := hx.of_keeps hl.keeps
  have hi₂ := hl.informed hR hi₁
  exact ((method_ends hR d.2 hg hi₂ hx₀ hx₂ hdescribes (hmeasured x hmem)).mono
    (fun hnests => ⟨x, hmem, hnests⟩) fun _ _ hq => hq).obeying
    (method_obeys d.2 d.1 hi₂.wellformed (hl.has hr₁) hx₂.hasAll)

end Op

/-! ## Layouts at two points of a run -/

/-- Let `h` be a state of a run that uses one reliable resolver, from a start that has loaded a class
without a parent, and let `h₁` and `h₂` be two states that come later than `h` by different runs.  If
the layout of a class that is loaded in `h` is found in `h₁`, then in `h₂`

* the same layout is found,
* or the request fails, and value types are nested in the class deeper than layouts are computed,
* or the request is lost, on a stack that is too shallow; how deep the stack has to be depends on
  what has been found in `h₁` only.

Likewise for the methods of a class: if they are found in `h₁`, then they are found in `h₂`, unless
a method passes a value type in which value types are nested so deeply, or the stack is too
shallow. -/
theorem layout_of_later {s : Setup} {R : Resolver} {next rest : Nat} {h₀ h h₁ : Host}
    (hc : s.chosenResolver = some R) (hR : R.Reliable) (hs : s.start next = (.ok h₀, rest))
    (hroot : h₀.Rooted) (hl : h₀.Later (·.resolver = R) h) (hl₁ : h.Later (·.resolver = R) h₁)
    {c : ClassHandle} (hhas : h.Has c) (w₁ : World) (hw₁ : w₁.resolver = R) :
    (∀ l h₁', layout c w₁ h₁ = (.ok l, h₁') →
      ∃ enough, ∀ h₂ w₂ answer h₂', h.Later (·.resolver = R) h₂ → w₂.resolver = R →
        layout c w₂ h₂ = (answer, h₂') →
        answer = .ok l ∨
        (∃ e, answer = .error (.failed e)) ∧ h₁'.NestsTo (maxLayoutDepth + 1) c ∨
        answer = .error .lost ∧ w₂.depth < enough) ∧
    ∀ ms h₁', methods c w₁ h₁ = (.ok ms, h₁') →
      ∃ enough, ∀ h₂ w₂ answer h₂', h.Later (·.resolver = R) h₂ → w₂.resolver = R →
        methods c w₂ h₂ = (answer, h₂') →
        (∃ ms', answer = .ok ms') ∨
        (∃ e, answer = .error (.failed e)) ∧
          (∃ x ∈ ms, ∃ d, .value d ∈ x.passed ∧ h₁'.NestsTo (maxLayoutDepth + 1) d) ∨
        answer = .error .lost ∧ w₂.depth < enough := by
  have hi := hl.informed hR (informed_of_start hc hR hs hroot)
  have hi₁ := hl₁.informed hR hi
  obtain ⟨r, hr⟩ := Host.has_iff_cls.mp hhas
  obtain ⟨home, -, hhome, -⟩ := hi.wellformed.exists_home hr
  have hhome₁ := hl₁.remembers.keeps.homeOf hhome
  subst hw₁
  refine ⟨fun l h₁' hrun₁ => ?_, fun ms h₁' hrun₁ => ?_⟩
  · obtain ⟨hlearns, r₁, hr₁, hkept⟩ := (layout_obeys c hi₁.wellformed).of_ok hrun₁
    have hi₁' := hlearns.informed hR hi₁
    obtain ⟨-, n, hn⟩ := hi₁'.laidOut c r₁ l hr₁ hkept
    obtain ⟨enough, henough⟩ := hi₁'.faithful.exists_enough hR
    refine ⟨enough, fun h₂ w₂ answer h₂' hl₂ hw₂ hrun₂ => ?_⟩
    have hi₂ := hl₂.informed hR hi
    have heq : h₁'.homeOf c = h₂.homeOf c :=
      (hlearns.keeps.homeOf hhome₁).trans (hl₂.remembers.keeps.homeOf hhome).symm
    rw [← hw₂] at hR hi₁' hi₂ henough
    have hends := layoutWithin_ends hR hi₁' (maxLayoutDepth + 1) hi₂ heq hn
    rcases answer with (e | _) | l₂
    · exact .inr (.inl ⟨⟨e, rfl⟩, hends.of_failed hrun₂⟩)
    · exact .inr (.inr ⟨rfl, henough _ (hends.of_lost hrun₂)⟩)
    · -- the layouts are kept where they have been found, and those of counterparts agree
      obtain ⟨hlearns₂, r₂, hr₂, hkept₂⟩ := (layout_obeys c hi₂.wellformed).of_ok hrun₂
      have hi₂' := hlearns₂.informed hR hi₂
      obtain ⟨-, n₂, hn₂⟩ := hi₂'.laidOut c r₂ l₂ hr₂ hkept₂
      have heq' := hn.homeOf_eq_of_keeps hi₁'.wellformed heq hlearns₂.keeps
      exact .inl (congrArg Except.ok (hi₁'.natural_unique hi₂' hR heq' hn hn₂).symm)
  · obtain ⟨hlearns, -, r₁, hr₁, hms⟩ := (methods_obeys c hi₁.wellformed).of_ok hrun₁
    have hi₁' := hlearns.informed hR hi₁
    obtain ⟨enough, henough⟩ := hi₁'.faithful.exists_enough hR
    refine ⟨enough, fun h₂ w₂ answer h₂' hl₂ hw₂ hrun₂ => ?_⟩
    have hi₂ := hl₂.informed hR hi
    have heq : h₁'.homeOf c = h₂.homeOf c :=
      (hlearns.keeps.homeOf hhome₁).trans (hl₂.remembers.keeps.homeOf hhome).symm
    rw [← hw₂] at hR hi₁' hi₂ henough
    have hends := methods_ends hR hi₁' hi₂ hr₁ hms heq
    rcases answer with (e | _) | ms₂
    · exact .inr (.inl ⟨⟨e, rfl⟩, hends.of_failed hrun₂⟩)
    · exact .inr (.inr ⟨rfl, henough _ (hends.of_lost hrun₂)⟩)
    · exact .inl ⟨ms₂, rfl⟩

/-! A core library with sixty-six value types, each of which contains the next.  Every type has a
method that takes a value of the type. -/

namespace TowerSpecimen

/-- The metadata source of the core library. -/
def source : Source :=
  { (default : Source) with
    moduleName := "mscorlib"
    assemblyName := "mscorlib"
    typeCount := 68
    typeDef := fun row => .ok {
      space := "System"
      name := if row = 0 then "Object" else if row = 1 then "ValueType" else "Level"
      parent := if row = 0 then none else some (.definition (min (row - 1) 1)) }
    fields := fun row => .ok [
      ⟨"inner", if row < 67 then .value (.definition (row + 1)) else .int32, false⟩]
    methods := fun row => .ok [
      { name := "enter", params := [⟨"level", .value (.definition row)⟩] }] }

/-- Only the core library is found. -/
def resolver : Resolver where
  resolve _ name := if name = "mscorlib" then .ok { name } else .error (.startup "")
  source _ _ := source

lemma reliable_resolver : resolver.Reliable := by
  refine ⟨fun _ _ _ => rfl, fun _ _ _ => rfl, fun _ _ name id hid => ?_⟩
  by_cases hname : name = "mscorlib"
  · exact hname.symm
  · simp [resolver, hname] at hid

/-- What the host is started with. -/
def setup : Setup :=
  { Specimen.setup with resolver := some resolver }

/-- The host when the second of the value types has been asked for its layout. -/
def warmed : Host :=
  (layout ⟨1, 3⟩ setup.world setup.firstHost).2

/-- What is found for the first of the value types before and after.  Everything is computed
together, so that the host is started once. -/
lemma runs :
    setup.start 1 = (.ok setup.firstHost, 2) ∧ setup.firstHost.id = 1 ∧
    setup.firstHost.classes.length = 68 ∧
    (setup.firstHost.cls? ⟨1, 0⟩).map (·.parent) = some none ∧
    (layout ⟨1, 3⟩ setup.world setup.firstHost).1 = .ok ⟨4, 4⟩ ∧
    (layout ⟨1, 2⟩ setup.world setup.firstHost).1 =
      .error (.failed (.malformed "System.Level has a recursive layout")) ∧
    (layout ⟨1, 2⟩ setup.world warmed).1 = .ok ⟨4, 4⟩ ∧
    (methods ⟨1, 2⟩ setup.world setup.firstHost).1 =
      .error (.failed (.malformed "System.Level has a recursive layout")) ∧
    (methods ⟨1, 2⟩ setup.world warmed).1.toOption.map (·.map (·.argSlots)) = some [1] := by
  decide +kernel

end TowerSpecimen

open TowerSpecimen in
/-- The layout of the first of the value types is found when that of the second is kept, and not in
the host that has just been started; and so are the methods that take it. -/
theorem layout_of_later_tower :
    (∃ h₁' e h₂', layout ⟨1, 2⟩ setup.world warmed = (.ok ⟨4, 4⟩, h₁') ∧
      layout ⟨1, 2⟩ setup.world setup.firstHost = (.error (.failed e), h₂') ∧
      h₁'.NestsTo (maxLayoutDepth + 1) ⟨1, 2⟩) ∧
    ∃ ms h₁' e h₂', methods ⟨1, 2⟩ setup.world warmed = (.ok ms, h₁') ∧
      methods ⟨1, 2⟩ setup.world setup.firstHost = (.error (.failed e), h₂') ∧
      ∃ x ∈ ms, ∃ d, .value d ∈ x.passed ∧ h₁'.NestsTo (maxLayoutDepth + 1) d := by
  obtain ⟨hstart, hid, hlen, hparent, hinner, hcold, hwarm, hcold', hwarm'⟩ := runs
  have hrooted : setup.firstHost.Rooted := by
    obtain ⟨r, hr, hp⟩ := Option.map_eq_some_iff.mp hparent
    exact ⟨⟨1, 0⟩, r, Host.cls?_eq_some_iff.mp hr, hp⟩
  have hhas : setup.firstHost.Has ⟨1, 2⟩ := by
    refine ⟨hid.symm, ?_⟩
    rw [hlen]
    decide
  have hlater : setup.firstHost.Later (·.resolver = resolver) warmed := by
    have hw := (faithful_of_start (R := resolver) rfl reliable_resolver hstart).wellformed
    have hrun : layout ⟨1, 3⟩ setup.world setup.firstHost = (.ok ⟨4, 4⟩, warmed) :=
      Prod.ext hinner rfl
    exact ((layout_obeys ⟨1, 3⟩ hw).of_ok hrun).1.completes.later rfl
  obtain ⟨hlayout, hmethods⟩ := layout_of_later rfl reliable_resolver hstart hrooted .refl hlater
    hhas setup.world rfl
  obtain ⟨ms, hms, -⟩ := Option.map_eq_some_iff.mp hwarm'
  rw [toOption_eq_some_iff] at hms
  refine ⟨⟨_, _, _, Prod.ext hwarm rfl, Prod.ext hcold rfl, ?_⟩,
    ms, _, _, _, Prod.ext hms rfl, Prod.ext hcold' rfl, ?_⟩
  · obtain ⟨enough, hcompare⟩ := hlayout _ _ (Prod.ext hwarm rfl)
    rcases hcompare _ setup.world _ _ .refl rfl (Prod.ext hcold rfl) with h | ⟨-, h⟩ | ⟨h, -⟩
    · cases h
    · exact h
    · cases h
  · obtain ⟨enough, hcompare⟩ := hmethods _ _ (Prod.ext hms rfl)
    rcases hcompare _ setup.world _ _ .refl rfl (Prod.ext hcold' rfl) with ⟨_, h⟩ | ⟨-, h⟩ | ⟨h, -⟩
    · cases h
    · exact h
    · cases h

end ManagedHost
