/-
# Reflection keeps to its relation

Every operation of reflection ends in a state that arises from the one in which it was started
by loading, by asking about facets and by filling them in, and what it answers mentions only
classes that exist there.  Each contract names the facets that the operation may ask about and fill
in.  The facet that an operation is about is not among those of its derivation, which is why a
collection that was unknown when the derivation began is still unknown when it ends.
-/
import ManagedHost.Proofs.Learning
import ManagedHost.Reflection.Members

namespace ManagedHost

variable {δ α : Type} {w : World} {K : List Facet} {h h' : Host}

/-! ## Mentioned classes exist -/

/-- All these classes exist. -/
def Host.HasAll (h : Host) (cs : List ClassHandle) : Prop :=
  ∀ x ∈ cs, h.Has x

lemma Host.Learns.hasAll (hl : h.Learns w K h') {cs : List ClassHandle} (hcs : h.HasAll cs) :
    h'.HasAll cs :=
  fun x hx => hl.has (hcs x hx)

/-- Replacing a record that is known by a function is replacing it by a value. -/
lemma Host.modifyClass_eq {c : ClassHandle} {r : Class} (hr : h.cls c = .ok r)
    (f : Class → Class) : h.modifyClass c f = h.modifyClass c fun _ => f r := by
  obtain ⟨ho, hget⟩ := Host.cls_eq_ok_iff.mp hr
  simp only [Host.modifyClass, if_pos ho]
  congr 1
  refine List.ext_getElem? fun i => ?_
  simp only [List.getElem?_modify]
  by_cases hi : c.index = i
  · subst hi
    simp [hget]
  · simp [hi]

namespace Op

/-- Loading is a part of reflection. -/
lemma Obeys.learns {x : Op α} {Q : α → Host → Prop} (hx : x.Obeys w (Host.Loads w) h Q) :
    x.Obeys w (Host.Learns w K) h Q :=
  hx.mono (fun _ hr => hr.learns) fun _ _ _ hq => hq

/-- An operation may be allowed to fill in more facets than it does. -/
lemma Obeys.weaken {K' : List Facet} {x : Op α} {Q : α → Host → Prop}
    (hx : x.Obeys w (Host.Learns w K) h Q) (hK : K ⊆ K') : x.Obeys w (Host.Learns w K') h Q :=
  hx.mono (fun _ hr => hr.mono hK) fun _ _ _ hq => hq

/-- Filling in a facet of a class. -/
lemma obeys_fill {p : Facet} (hp : p ∈ K) {c : ClassHandle} {r : Class} {f : Class → Class}
    (hr : h.cls c = .ok r) (hf : p.Fills r (f r)) (hm : h.HasAll (f r).mentions)
    (hs : h.Vouches w.resolver c (f r) p) :
    (modify (·.modifyClass c f)).Obeys w (Host.Learns w K) h fun _ h' => h'.cls c = .ok (f r) := by
  have hstep : h.LearnChange w K (h.modifyClass c f) := by
    rw [Host.modifyClass_eq hr]
    exact .fills hp hr hf hm hs
  refine (obeys_modify (.single hstep)).post fun _ h' _ heq => ?_
  rw [heq, Host.cls_modifyClass, if_pos rfl, hr]
  rfl

/-! ## Signatures -/

lemma resolve_obeys {m : Module} (ref : TypeRef) (hw : h.Wellformed) (hm : h.HasAll m.classes) :
    (resolve m ref).Obeys w (Host.Learns w K) h fun c h' => h'.LeadsFrom w.resolver m ref c := by
  suffices hloads : (resolveWith load (some m) ref).Obeys w (Host.Loads w) h
      fun c h' => h'.LeadsFrom w.resolver m ref c from hloads.learns
  induction ref with
  | definition row =>
    rw [resolveWith]
    split
    · rename_i c hc
      have hrow : m.classes[row]? = some c := hc
      exact obeys_pure (.definition hrow (hm c (List.mem_of_getElem? hrow)))
    · exact obeys_fail
  | external target space name =>
    exact (search_obeys (isLoader_load w) space name maxForwards target hw).post
      fun c h₁ _ hf => .external hf
  | nested outer name ih =>
    rw [resolveWith]
    refine ih.bind fun o h₁ h01 houter => ?_
    refine (obeys_cls o).bind fun r h₂ _ hq => ?_
    obtain ⟨rfl, hr⟩ := hq
    refine (obeys_module r.module).bind fun m' h₃ _ hq => ?_
    obtain ⟨rfl, hm'⟩ := hq
    rw [obeys_host_bind]
    split
    · rename_i c hc
      exact obeys_pure
        (.nested houter hr hm' (fun x hx => (h01.wellformed hw).has_of_mem hm' hx) hc)
    · exact obeys_fail

lemma classes_builtin? {ρ : Type} {space name : String} {s : Signature ρ}
    (hs : Signature.builtin? space name = some s) : s.classes = [] := by
  unfold Signature.builtin? at hs
  split at hs
  · cases hs
  · split at hs <;> cases hs <;> rfl

/-- The signature of the instances of a class mentions at most the class itself. -/
lemma classes_byValueOf {c x : ClassHandle} {r : Class} {isCorlib : Bool}
    (hx : x ∈ (h.byValueOf c r isCorlib).classes) : x = c := by
  unfold Host.byValueOf at hx
  split at hx
  · rename_i s hs
    unfold Host.builtinOf at hs
    split at hs
    · simp [classes_builtin? hs] at hx
    · cases hs
  · split at hx <;> exact List.mem_singleton.mp hx

/-- The signature of the instances of a class is determined by the record of the class, by its
module and by its ancestors, and it is kept. -/
lemma byValue_obeys (c : ClassHandle) (hw : h.Wellformed) :
    (byValue c).Obeys w (Host.Learns w [.byValue]) h fun s h' =>
      h'.HasAll s.classes ∧ ∃ r, h'.cls c = .ok r ∧ r.byValue = some s := by
  refine (obeys_cls c).bind fun r h₁ _ hq => ?_
  obtain ⟨rfl, hr⟩ := hq
  split
  · rename_i s hs
    refine obeys_pure ⟨fun x hx => hw.has_of_mention hr ?_, r, hr, hs⟩
    simp [Class.mentions, hs, hx]
  · rename_i hs
    refine (obeys_module r.module).bind fun m h₂ _ hq => ?_
    obtain ⟨rfl, hm⟩ := hq
    rw [obeys_host_bind]
    set s := h₂.byValueOf c r m.isCorlib with hsdef
    have hsc : h₂.HasAll s.classes := fun x hx =>
      classes_byValueOf hx ▸ Host.has_iff_cls.mpr ⟨r, hr⟩
    have hvouches : h₂.Vouches w.resolver c { r with byValue := some s } .byValue := by
      intro t ht
      cases ht
      exact ⟨m, hm, rfl⟩
    refine (obeys_fill (List.mem_singleton.mpr rfl) hr ⟨rfl, ?_⟩ ?_ hvouches).bind
      fun _ h₃ hl hr₃ => obeys_pure ⟨hl.hasAll hsc, _, hr₃, rfl⟩
    · simp only [Facet.Unknown, Facet.erase, ← hs]
    · intro x hx
      have hx' : x ∈ r.mentions ∨ x ∈ s.classes := by
        simp only [Class.mentions, hs] at hx ⊢
        simp only [List.mem_cons, List.mem_append, Option.toList_some, List.flatMap_cons,
          List.flatMap_nil, List.append_nil, Option.toList_none] at hx ⊢
        tauto
      exact hx'.elim (hw.has_of_mention hr) (hsc x)

lemma signature_obeys {m : Module} (s : Signature TypeRef) (hw : h.Wellformed)
    (hm : h.HasAll m.classes) :
    (signature m s).Obeys w (Host.Learns w [.byValue]) h fun t h' =>
      h'.HasAll t.classes ∧ h'.Denotes w.resolver m s t := by
  have instances (ref : TypeRef) : (do byValue (← resolve m ref) : Op _).Obeys w
      (Host.Learns w [.byValue]) h fun t h' =>
        h'.HasAll t.classes ∧ h'.Stands w.resolver m ref t := by
    refine (resolve_obeys ref hw hm).bind fun c h₁ hl hc => ?_
    refine (byValue_obeys c (hl.wellformed hw)).post fun t h₂ hl₂ hq => ?_
    obtain ⟨ht, r, hr, hs⟩ := hq
    exact ⟨ht, c, r, hc.of_keeps hl₂.keeps, hr, hs⟩
  unfold signature
  induction s with
  | byRef s ih =>
    refine ih.bind fun t h₁ _ hq => obeys_pure ⟨hq.1, ?_⟩
    obtain ⟨f, hf, rfl⟩ := hq.2
    exact ⟨f, hf, rfl⟩
  | reference ref =>
    exact (instances ref).post fun t _ _ hq =>
      ⟨hq.1, fun _ => t, fun _ hr => List.mem_singleton.mp hr ▸ hq.2, rfl⟩
  | value ref =>
    exact (instances ref).post fun t _ _ hq =>
      ⟨hq.1, fun _ => t, fun _ hr => List.mem_singleton.mp hr ▸ hq.2, rfl⟩
  | _ =>
    exact obeys_pure ⟨by simp [Host.HasAll, Signature.classes], fun _ => .void,
      by simp [Signature.classes], rfl⟩

end Op

/-! ## Collections -/

/-- A collection is the place of a facet in a record, its members mention classes, and those that
are kept there are described by what the source has said. -/
structure Collection.Holds (k : Collection δ α) (p : Facet) (classesOf : α → List ClassHandle)
    (Describes : Resolver → Host → ClassHandle → Module → δ → α → Prop) : Prop where
  query?_eq : p.query? = some k.query
  get_eq : ∀ r r', p.Agrees r r' → k.get r' = k.get r
  get_set : ∀ r m, k.get (k.set r m) = m
  set_get : ∀ r, k.set r (k.get r) = r
  set_set : ∀ r m m', k.set (k.set r m) m' = k.set r m'
  erase_eq : ∀ r, p.erase r = k.set r .unknown
  mem_mentions : ∀ r x, x ∈ r.mentions ↔
    x ∈ (k.set r .unknown).mentions ∨ x ∈ (k.get r).items.flatMap classesOf
  vouches : ∀ (R : Resolver) (h : Host) c r items,
    h.Reported R c r k (Describes R h c) items → h.Vouches R c (k.set r (.known items)) p

namespace Collection

lemma holds_interfaces :
    interfaces.Holds .interfaces (fun c => [c]) (fun _ _ _ _ _ _ => True) := by
  refine ⟨rfl, fun _ _ ha => ha, fun _ _ => rfl, fun _ => rfl, fun _ _ _ => rfl, fun _ => rfl,
    fun r x => ?_, fun _ _ _ _ _ _ => trivial⟩
  simp only [interfaces, Class.mentions, Members.items_unknown, List.mem_cons, List.mem_append,
    List.flatMap_singleton', List.not_mem_nil]
  tauto

lemma holds_nested :
    nested.Holds .nested (fun c => [c]) (fun _ h => h.DescribesNested) := by
  refine ⟨rfl, fun _ _ ha => ha, fun _ _ => rfl, fun _ => rfl, fun _ _ _ => rfl, fun _ => rfl,
    fun r x => ?_, fun R h c r items hrep cs hcs => ?_⟩
  · simp only [nested, Class.mentions, Members.items_unknown, List.mem_cons, List.mem_append,
      List.flatMap_singleton', List.not_mem_nil]
    tauto
  · cases hcs
    exact hrep.congr rfl rfl

lemma holds_methods :
    methods.Holds .methods Method.classes
      (fun R h _ m d x => h.Measured x ∧ h.DescribesMethod R m d x) := by
  refine ⟨rfl, fun _ _ ha => ha, fun _ _ => rfl, fun _ => rfl, fun _ _ _ => rfl, fun _ => rfl,
    fun r x => ?_, fun R h c r items hrep ms hms => ?_⟩
  · simp only [methods, Class.mentions, Members.items_unknown, List.mem_cons, List.mem_append,
      List.flatMap_nil, List.not_mem_nil]
    tauto
  · cases hms
    obtain ⟨m, defs, htold, hall⟩ := hrep
    exact ⟨Op.forall_mem_of_forall₂ (hall.imp fun _ _ hx => hx.1),
      m, defs, htold.congr rfl rfl, hall.imp fun _ _ hx => hx.2⟩

lemma holds_fields :
    fields.Holds .fields Field.classes (fun R h _ => h.DescribesField R) := by
  refine ⟨rfl, fun _ _ ha => ha, fun _ _ => rfl, fun _ => rfl, fun _ _ _ => rfl, fun _ => rfl,
    fun r x => ?_, fun R h c r items hrep fs hfs => ?_⟩
  · simp only [fields, Class.mentions, Members.items_unknown, List.mem_cons, List.mem_append,
      List.flatMap_nil, List.not_mem_nil]
    tauto
  · cases hfs
    exact hrep.congr rfl rfl

lemma holds_properties :
    properties.Holds .properties Property.classes (fun R h => h.DescribesProperty R) := by
  refine ⟨rfl, fun _ _ ha => ha, fun _ _ => rfl, fun _ => rfl, fun _ _ _ => rfl, fun _ => rfl,
    fun r x => ?_, fun R h c r items hrep ps hps => ?_⟩
  · simp only [properties, Class.mentions, Members.items_unknown, List.mem_cons, List.mem_append,
      List.flatMap_nil, List.not_mem_nil]
    tauto
  · cases hps
    exact hrep.congr rfl rfl

lemma holds_events :
    events.Holds .events Event.classes (fun _ h c _ => h.DescribesEvent c) := by
  refine ⟨rfl, fun _ _ ha => ha, fun _ _ => rfl, fun _ => rfl, fun _ _ _ => rfl, fun _ => rfl,
    fun r x => ?_, fun R h c r items hrep es hes => ?_⟩
  · simp only [events, Class.mentions, Members.items_unknown, List.mem_cons, List.mem_append,
      List.flatMap_nil, List.not_mem_nil]
    tauto
  · cases hes
    exact hrep.congr rfl rfl

namespace Holds

variable {k : Collection δ α} {p : Facet} {classesOf : α → List ClassHandle}
  {Describes : Resolver → Host → ClassHandle → Module → δ → α → Prop} {r : Class}

lemma set_unknown (hk : k.Holds p classesOf Describes) (hr : k.get r = .unknown) :
    k.set r .unknown = r := by
  rw [← hr, hk.set_get]

lemma unknown_iff (hk : k.Holds p classesOf Describes) : p.Unknown r ↔ k.get r = .unknown := by
  rw [Facet.Unknown, hk.erase_eq]
  refine ⟨fun heq => ?_, hk.set_unknown⟩
  rw [← heq, hk.get_set]

lemma fills (hk : k.Holds p classesOf Describes) (hr : k.get r = .unknown) (items : List α) :
    p.Fills r (k.set r (.known items)) := by
  refine ⟨?_, hk.unknown_iff.mpr hr⟩
  rw [hk.erase_eq, hk.erase_eq, hk.set_set]

lemma classes_subset (hk : k.Holds p classesOf Describes) {items : List α}
    (hr : k.get r = .known items) {i : α} (hi : i ∈ items) : classesOf i ⊆ r.mentions := by
  intro x hx
  rw [hk.mem_mentions, hr]
  exact .inr (List.mem_flatMap.mpr ⟨i, hi, hx⟩)

lemma mem_mentions_set (hk : k.Holds p classesOf Describes) {items : List α}
    (hr : k.get r = .unknown) {x : ClassHandle}
    (hx : x ∈ (k.set r (.known items)).mentions) :
    x ∈ r.mentions ∨ ∃ i ∈ items, x ∈ classesOf i := by
  rw [hk.mem_mentions, hk.get_set, hk.set_set, hk.set_unknown hr] at hx
  exact hx.imp_right List.mem_flatMap.mp

end Holds

end Collection

namespace Op

/-- The members of a class are built by steps of reflection that leave all facets alone but those
of `K`; they mention only classes that exist, and the definitions describe them. -/
def Builds (w : World) (K : List Facet) (c : ClassHandle) (classesOf : α → List ClassHandle)
    (Describes : Resolver → Host → ClassHandle → Module → δ → α → Prop)
    (build : Class → Module → List δ → Op (List α)) : Prop :=
  ∀ h r m defs, h.Wellformed → h.Has c → h.Has r.handle → h.HasAll m.classes →
    (build r m defs).Obeys w (Host.Learns w K) h fun items h' =>
      (∀ i ∈ items, h'.HasAll (classesOf i)) ∧
        List.Forall₂ (Describes w.resolver h' c m) defs items

/-- Members that are built one after the other, when what describes one of them goes on doing so.
The definitions may carry something along on the way. -/
lemma builds_each {δ' : Type} {c : ClassHandle} {classesOf : α → List ClassHandle}
    {Describes : Resolver → Host → ClassHandle → Module → δ → α → Prop}
    {build : Class → Module → List δ → Op (List α)}
    (one : Class → Module → δ' → Op α) (arrange : List δ → List δ') (plain : δ' → δ)
    (hplain : ∀ defs, (arrange defs).map plain = defs)
    (hbuild : ∀ r m defs, build r m defs = each (one r m) (arrange defs))
    (hstable : ∀ m d i (h₁ h₂ : Host), h₁.Remembers h₂ → Describes w.resolver h₁ c m d i →
      Describes w.resolver h₂ c m d i)
    (hone : ∀ h r m d, h.Wellformed → h.Has c → h.Has r.handle → h.HasAll m.classes →
      (one r m d).Obeys w (Host.Learns w K) h fun i h' =>
        h'.HasAll (classesOf i) ∧ Describes w.resolver h' c m (plain d) i) :
    Builds w K c classesOf Describes build := by
  intro h r m defs hw hc hr hm
  rw [hbuild]
  refine (obeys_each₂ (P := fun d i g =>
    g.HasAll (classesOf i) ∧ Describes w.resolver g c m (plain d) i)
    (fun d i g g' hl hi => ⟨hl.hasAll hi.1, hstable m _ i g g' hl.remembers hi.2⟩)
    fun d _ h₁ hl => hone h₁ r m d (hl.wellformed hw) (hl.has hc) (hl.has hr) (hl.hasAll hm)).post
    fun items h' _ hall => ⟨forall_mem_of_forall₂ (hall.imp fun _ _ hi => hi.1), ?_⟩
  rw [← hplain defs, List.forall₂_map_left_iff]
  exact hall.imp fun _ _ hi => hi.2

/-- The members of a class, known or derived, mention only classes that exist, and they are kept,
if they are built in keeping with the contract and the facet of the collection is left alone. -/
lemma collect_obeys {k : Collection δ α} {p : Facet} {classesOf : α → List ClassHandle}
    {Describes : Resolver → Host → ClassHandle → Module → δ → α → Prop}
    (hk : k.Holds p classesOf Describes) (hp : p ∉ K) {c : ClassHandle}
    {build : Class → Module → List δ → Op (List α)}
    (hb : Builds w K c classesOf Describes build) (hw : h.Wellformed) :
    (collect k c build).Obeys w (Host.Learns w (p :: K)) h fun items h' =>
      (∀ i ∈ items, h'.HasAll (classesOf i)) ∧
        ∃ r, h'.cls c = .ok r ∧ k.get r = .known items := by
  refine (obeys_cls c).bind fun r h₁ _ hq => ?_
  obtain ⟨rfl, hr⟩ := hq
  split
  · rename_i items hitems
    exact obeys_pure ⟨fun i hi x hx => hw.has_of_mention hr (hk.classes_subset hitems hi hx),
      r, hr, hitems⟩
  · rename_i hunknown
    refine (obeys_module r.module).bind fun m h₂ _ hq => ?_
    obtain ⟨rfl, hm⟩ := hq
    have hask : h₂.Learns w (p :: K) (h₂.note (.asked m.source k.query r.row (some c))) :=
      .single (.asks List.mem_cons_self hk.query?_eq hr (hk.unknown_iff.mpr hunknown) hm)
    refine (obeys_ask hask).bind fun defs h₃ _ hq => ?_
    obtain ⟨rfl, hdefs⟩ := hq
    set h₃ := h₂.note (.asked m.source k.query r.row (some c))
    have hw₃ : h₃.Wellformed := hw.note _
    have hr₃ : h₃.cls c = .ok r := hr
    have hbuild : (build r m defs).Obeys w (Host.Learns w (p :: K)) h₃ fun items h' =>
        h₃.Learns w K h' ∧ (∀ i ∈ items, h'.HasAll (classesOf i)) ∧
          List.Forall₂ (Describes w.resolver h' c m) defs items :=
      (hb h₃ r m defs hw₃ (Host.has_iff_cls.mpr ⟨r, hr₃⟩)
        (hw₃.has_of_mention hr₃ List.mem_cons_self) fun x hx => hw.has_of_mem hm hx).mono
        (fun _ hl => hl.mono (List.subset_cons_self p K)) fun _ _ hl hq => ⟨hl, hq⟩
    refine hbuild.bind fun items h₄ _ hq => ?_
    obtain ⟨hl, hitems, hdescribes⟩ := hq
    obtain ⟨r', hr', hbare, hagree⟩ := hl.cls hr₃
    -- building the members leaves this facet alone, so the collection is unknown to the end
    have hunknown' : k.get r' = .unknown :=
      (hk.get_eq r r' (hagree p fun hmem => absurd hmem hp)).trans hunknown
    have hreported : h₄.Reported w.resolver c r' k (Describes w.resolver h₄ c) items := by
      obtain ⟨-, hmod, hrow, -, -⟩ := Class.eq_of_bare_eq hbare
      have hm₃ : h₃.module r'.module = .ok m := hmod ▸ hm
      -- the last question about these members is still the one that was put just now
      have hasked : h₄.journal.whenAsked k.query c = h₃.journal := by
        rw [(hl.unasked hk.query?_eq hp).whenAsked_eq]
        exact List.dropWhile_cons_of_neg (by simp [JournalEntry.asksFor])
      refine ⟨m, defs, ⟨hl.keeps.module hm₃, ?_, ?_⟩, hdescribes⟩
      · rw [hasked, hrow]
        rfl
      · rw [hasked, hrow]
        exact hdefs
    refine (obeys_fill List.mem_cons_self hr' (hk.fills hunknown' items) (fun x hx => ?_)
      (hk.vouches _ h₄ c r' items hreported)).bind fun _ h₅ hl₅ hr₅ =>
        obeys_pure ⟨fun i hi => hl₅.hasAll (hitems i hi), _, hr₅, hk.get_set r' _⟩
    rcases hk.mem_mentions_set hunknown' hx with hx | ⟨i, hi, hx⟩
    · exact (hl.wellformed hw₃).has_of_mention hr' hx
    · exact hitems i hi x hx

/-! ## Fields and layouts -/

lemma fields_builds (w : World) (c : ClassHandle) :
    Builds w [.byValue] c Field.classes (fun R h _ => h.DescribesField R)
      fun _ m defs => each (field c m) defs := by
  refine builds_each (fun _ m => field c m) id id List.map_id (fun _ _ _ => rfl)
    (fun _ _ _ _ _ hk hd => hd.of_remembers hk) fun h r m d hw hc hr hm => ?_
  refine (signature_obeys d.type hw hm).bind fun t h₁ hl ht =>
    obeys_pure ⟨fun x hx => ?_, rfl, ht.2⟩
  rcases List.mem_cons.mp hx with rfl | hx
  · exact hl.has hc
  · exact ht.1 x hx

lemma fields_obeys (c : ClassHandle) (hw : h.Wellformed) :
    (fields c).Obeys w (Host.Learns w [.fields, .byValue]) h fun fs h' =>
      (∀ f ∈ fs, h'.HasAll f.classes) ∧ ∃ r, h'.cls c = .ok r ∧ r.fields = .known fs :=
  collect_obeys Collection.holds_fields (by decide) (fields_builds w c) hw

/-- The layout of a class is kept. -/
def LayoutKept (c : ClassHandle) (l : Layout) (h : Host) : Prop :=
  ∃ r, h.cls c = .ok r ∧ r.layout = some l

lemma extent_obeys {layoutOf : ClassHandle → Op Layout} (s : Signature ClassHandle)
    (hl : ∀ c, (layoutOf c).Obeys w (Host.Learns w K) h (LayoutKept c)) :
    (extent layoutOf s).Obeys w (Host.Learns w K) h fun l h' => h'.extent? s = some l := by
  cases s with
  | value c =>
    refine (hl c).post fun l h' _ hq => ?_
    obtain ⟨r, hr, hlayout⟩ := hq
    exact Option.bind_eq_some_iff.mpr ⟨r, Host.cls?_eq_some_iff.mpr hr, hlayout⟩
  | _ => exact obeys_pure rfl

lemma keepLayout_obeys {c : ClassHandle} {r : Class} {l : Layout} (hw : h.Wellformed)
    (hr : h.cls c = .ok r) (hl : h.Composed r l) :
    (keepLayout c l).Obeys w (Host.Learns w [.layout, .fields, .byValue]) h (LayoutKept c) := by
  refine (obeys_cls c).bind fun r₁ h₁ _ hq => ?_
  obtain ⟨rfl, hr₁⟩ := hq
  rw [hr] at hr₁
  cases hr₁
  split
  · rename_i kept hkept
    exact obeys_pure ⟨r, hr, hkept⟩
  · rename_i hnone
    have hunknown : Facet.layout.Unknown r := by simp only [Facet.Unknown, Facet.erase, ← hnone]
    have hvouches : h₁.Vouches w.resolver c { r with layout := some l } .layout := by
      intro l' hl'
      cases hl'
      exact hl
    -- a layout mentions no classes
    refine (obeys_fill List.mem_cons_self hr ⟨rfl, hunknown⟩
      (fun x hx => hw.has_of_mention hr hx) hvouches).bind
      fun _ h₂ _ hr₂ => obeys_pure ⟨_, hr₂, rfl⟩

lemma layoutWithin_obeys (depth : Nat) (c : ClassHandle) (hw : h.Wellformed) :
    (layoutWithin depth c).Obeys w (Host.Learns w [.layout, .fields, .byValue]) h
      (LayoutKept c) := by
  induction depth generalizing h c with
  | zero =>
    rw [layoutWithin]
    refine (obeys_cls c).bind fun r h₁ _ hq => ?_
    obtain ⟨rfl, hr⟩ := hq
    split
    · rename_i l hl
      exact obeys_pure ⟨r, hr, hl⟩
    · exact obeys_fail
  | succ depth ih =>
    rw [layoutWithin]
    refine (obeys_cls c).bind fun r h₁ _ hq => ?_
    obtain ⟨rfl, hr⟩ := hq
    split
    · rename_i l hl
      exact obeys_pure ⟨r, hr, hl⟩
    refine ((fields_obeys c hw).weaken (List.subset_cons_self _ _)).bind fun fs h₂ hl₂ hq => ?_
    obtain ⟨-, r₂, hr₂, hfs⟩ := hq
    have hw₂ := hl₂.wellformed hw
    refine (obeys_each₂ (R := Host.Learns w [.layout, .fields, .byValue])
      (P := fun (f : Field) l g => g.extent? f.type = some l)
      (fun _ _ _ _ hl hp => hl.remembers.extent? hp)
      fun f (_ : f ∈ fs.filter (!·.isStatic)) h₃ hl₃ =>
        extent_obeys f.type fun d => ih d (hl₃.wellformed hw₂)).bind fun parts h₃ hl₃ hparts => ?_
    -- the fields are still those from which the parts were computed
    obtain ⟨r₃, hr₃, hfs₃⟩ := hl₃.remembers.fields hr₂ hfs
    exact keepLayout_obeys (hl₃.wellformed hw₂) hr₃ ⟨fs, parts, hfs₃, hparts, rfl⟩

lemma layout_obeys (c : ClassHandle) (hw : h.Wellformed) :
    (layout c).Obeys w (Host.Learns w [.layout, .fields, .byValue]) h (LayoutKept c) :=
  layoutWithin_obeys _ c hw

lemma sizeOf_obeys (s : Signature ClassHandle) (hw : h.Wellformed) :
    (sizeOf s).Obeys w (Host.Learns w [.layout, .fields, .byValue]) h
      fun n h' => (h'.extent? s).map (·.size) = some n :=
  (extent_obeys s fun c => layout_obeys c hw).bind fun l _ _ hl => obeys_pure (by rw [hl]; rfl)

/-! ## Interfaces, nested classes and methods -/

lemma interfaces_builds (w : World) (c : ClassHandle) :
    Builds w [] c (fun i => [i]) (fun _ _ _ _ _ _ => True)
      fun _ m refs => each (resolve m) refs := by
  refine builds_each (fun _ m => resolve m) id id List.map_id (fun _ _ _ => rfl)
    (fun _ _ _ _ _ _ _ => trivial) fun h r m ref hw hc hr hm => ?_
  exact (resolve_obeys ref hw hm).post fun i _ _ hi =>
    ⟨fun x hx => List.mem_singleton.mp hx ▸ hi.has, trivial⟩

lemma interfaces_obeys (c : ClassHandle) (hw : h.Wellformed) :
    (interfaces c).Obeys w (Host.Learns w [.interfaces]) h fun cs h' => h'.HasAll cs :=
  (collect_obeys Collection.holds_interfaces (by decide) (interfaces_builds w c) hw).post
    fun _ _ _ hq x hx => hq.1 x hx x (List.mem_singleton.mpr rfl)

lemma nestedRow_obeys (c : ClassHandle) (r : Class) (m : Module) (row : Nat) :
    (nestedRow c r m row).Obeys w (Host.Learns w K) h fun i h' =>
      h'.Has i ∧ h'.DescribesNested c m row i := by
  unfold nestedRow
  split
  · exact obeys_fail
  · rename_i inner hinner
    refine (obeys_cls inner).bind fun r' h₁ _ hq => ?_
    obtain ⟨rfl, hr'⟩ := hq
    split
    · rename_i hdeclaring
      exact obeys_pure ⟨Host.has_iff_cls.mpr ⟨r', hr'⟩, hinner, r', hr', hdeclaring⟩
    · exact obeys_fail

lemma nested_builds (w : World) (c : ClassHandle) :
    Builds w [] c (fun i => [i]) (fun _ h => h.DescribesNested)
      fun record m rows => each (nestedRow c record m) rows := by
  refine builds_each (nestedRow c) id id List.map_id (fun _ _ _ => rfl)
    (fun _ _ _ _ _ hk hd => hd.of_remembers hk) fun h r m row hw hc hr hm => ?_
  exact (nestedRow_obeys c r m row).post fun i _ _ hi =>
    ⟨fun x hx => List.mem_singleton.mp hx ▸ hi.1, hi.2⟩

lemma nested_obeys (c : ClassHandle) (hw : h.Wellformed) :
    (nested c).Obeys w (Host.Learns w [.nested]) h fun cs h' =>
      h'.HasAll cs ∧ ∃ r, h'.cls c = .ok r ∧ r.nested = .known cs :=
  (collect_obeys Collection.holds_nested (by decide) (nested_builds w c) hw).post
    fun _ _ _ hq => ⟨fun x hx => hq.1 x hx x (List.mem_singleton.mpr rfl), hq.2⟩

/-- The parameters of a method have the signatures that their definitions denote. -/
lemma params_obeys {m : Module} (ps : List ParamDef) (hw : h.Wellformed) (hm : h.HasAll m.classes) :
    (each (fun p => do return { name := p.name, type := ← signature m p.type }) ps).Obeys w
      (Host.Learns w [.byValue]) h fun qs h' => List.Forall₂ (fun p q =>
        h'.HasAll (Param.type q).classes ∧ h'.Denotes w.resolver m (ParamDef.type p) q.type)
        ps qs :=
  obeys_each₂ (fun _ _ _ _ hl hq => ⟨hl.hasAll hq.1, hq.2.of_remembers hl.remembers⟩)
    fun p _ _ hl => (signature_obeys p.type (hl.wellformed hw) (hl.hasAll hm)).bind
      fun _ _ _ ht => obeys_pure ht

/-- A method that has been built is measured: the sizes from which its numbers of slots were
computed are those of layouts that are kept. -/
lemma method_obeys {r : Class} {m : Module} (row : Nat) (d : MethodDef) (hw : h.Wellformed)
    (hr : h.Has r.handle) (hm : h.HasAll m.classes) :
    (method r m row d).Obeys w (Host.Learns w [.layout, .fields, .byValue]) h
      fun x h' => h'.HasAll x.classes ∧ h'.Measured x ∧ h'.DescribesMethod w.resolver m d x := by
  have hsub : [Facet.byValue] ⊆ [.layout, .fields, .byValue] := by decide
  refine ((params_obeys d.params hw hm).weaken hsub).bind fun params h₁ hl₁ hps => ?_
  have hw₁ := hl₁.wellformed hw
  refine ((signature_obeys d.result hw₁ (hl₁.hasAll hm)).weaken hsub).bind
    fun result h₂ hl₂ hres => ?_
  have hw₂ := hl₂.wellformed hw₁
  refine (obeys_each₂ (P := fun (p : Param) n g => (g.extent? p.type).map (·.size) = some n)
    (fun _ _ _ _ hl hn => hl.remembers.size hn)
    fun (p : Param) _ h₃ hl₃ => sizeOf_obeys p.type (hl₃.wellformed hw₂)).bind
    fun sizes h₃ hl₃ hsizes => ?_
  refine (sizeOf_obeys result (hl₃.wellformed hw₂)).bind fun size h₄ hl₄ hsize => ?_
  have hl₁₄ := hl₂.trans (hl₃.trans hl₄)
  refine obeys_pure ⟨fun x hx => ?_, ⟨⟨sizes, ?_, rfl⟩, size, hsize, rfl⟩, rfl, ?_, ?_⟩
  · simp only [Method.classes, List.mem_cons, List.mem_append, List.mem_flatMap] at hx
    rcases hx with rfl | ⟨p, hp, hx⟩ | hx
    · exact hl₁₄.has (hl₁.has hr)
    · exact hl₁₄.has (forall_mem_of_forall₂ (hps.imp fun _ _ hq => hq.1) p hp x hx)
    · exact (hl₃.trans hl₄).has (hres.1 x hx)
  · exact hsizes.imp fun _ _ hn => hl₄.remembers.size hn
  · exact hps.imp fun _ _ hq => hq.2.of_remembers hl₁₄.remembers
  · exact hres.2.of_remembers (hl₃.trans hl₄).remembers

lemma methods_builds (w : World) (c : ClassHandle) :
    Builds w [.layout, .fields, .byValue] c Method.classes
      (fun R h _ m d x => h.Measured x ∧ h.DescribesMethod R m d x)
      fun record m defs => each (fun (d, row) => method record m row d) defs.zipIdx :=
  builds_each (fun r m d => method r m d.2 d.1) List.zipIdx Prod.fst
    (fun _ => List.zipIdx_map_fst _ _) (fun _ _ _ => rfl)
    (fun _ _ _ _ _ hk hd => ⟨hd.1.of_remembers hk, hd.2.of_remembers hk⟩)
    fun _ _ _ d hw _ hr hm => method_obeys d.2 d.1 hw hr hm

lemma methods_obeys (c : ClassHandle) (hw : h.Wellformed) :
    (methods c).Obeys w (Host.Learns w [.methods, .layout, .fields, .byValue]) h fun ms h' =>
      (∀ m ∈ ms, h'.HasAll m.classes) ∧ ∃ r, h'.cls c = .ok r ∧ r.methods = .known ms :=
  collect_obeys Collection.holds_methods (by decide) (methods_builds w c) hw

lemma typeInitializer_obeys (c : ClassHandle) (hw : h.Wellformed) :
    (typeInitializer c).Obeys w (Host.Learns w [.methods, .layout, .fields, .byValue]) h
      fun m h' => ∀ x, m = some x → x.isTypeInitializer ∧
        ∃ r, h'.cls c = .ok r ∧ x ∈ r.methods.items := by
  refine (methods_obeys c hw).bind fun ms h₁ _ hq => obeys_pure fun x hx => ?_
  obtain ⟨-, r, hr, hms⟩ := hq
  refine ⟨List.find?_some hx, r, hr, ?_⟩
  rw [hms]
  exact List.mem_of_find?_eq_some hx

/-! ## Properties and events -/

lemma accessor_obeys (c : ClassHandle) (name : Option String) (hw : h.Wellformed) :
    (accessor c name).Obeys w (Host.Learns w [.methods, .layout, .fields, .byValue]) h
      fun m h' => h'.HasAll (m.toList.flatMap (·.classes)) ∧ h'.Links c name m := by
  cases name with
  | none => exact obeys_pure ⟨by simp [Host.HasAll], rfl⟩
  | some name =>
    refine (methods_obeys c hw).bind fun ms h₁ _ hms => obeys_pure ⟨fun x hx => ?_, ?_⟩
    · obtain ⟨m, hm, hx⟩ := List.mem_flatMap.mp hx
      exact hms.1 m (List.mem_of_find?_eq_some (Option.mem_toList.mp hm)) x hx
    · obtain ⟨-, r, hr, hknown⟩ := hms
      exact ⟨r, ms, hr, hknown, rfl⟩

lemma properties_builds (w : World) (c : ClassHandle) :
    Builds w [.methods, .layout, .fields, .byValue] c Property.classes
      (fun R h => h.DescribesProperty R) fun _ m defs => each (property c m) defs := by
  refine builds_each (fun _ m => property c m) id id List.map_id (fun _ _ _ => rfl)
    (fun _ _ _ _ _ hk hd => hd.of_remembers hk) fun h r m d hw hc hr hm => ?_
  refine ((signature_obeys d.type hw hm).weaken (by decide)).bind fun t h₁ hl₁ ht => ?_
  have hw₁ := hl₁.wellformed hw
  refine (accessor_obeys c d.getter hw₁).bind fun getter h₂ hl₂ hg => ?_
  refine (accessor_obeys c d.setter (hl₂.wellformed hw₁)).bind fun setter h₃ hl₃ hs => ?_
  refine obeys_pure ⟨fun x hx => ?_, rfl, ht.2.of_remembers (hl₂.trans hl₃).remembers,
    hg.2.of_remembers hl₃.remembers, hs.2⟩
  simp only [Property.classes, List.mem_cons, List.mem_append, List.flatMap_append] at hx
  rcases hx with rfl | hx | hx | hx
  · exact (hl₁.trans (hl₂.trans hl₃)).has hc
  · exact (hl₂.trans hl₃).has (ht.1 x hx)
  · exact hl₃.has (hg.1 x hx)
  · exact hs.1 x hx

lemma properties_obeys (c : ClassHandle) (hw : h.Wellformed) :
    (properties c).Obeys w
      (Host.Learns w [.properties, .methods, .layout, .fields, .byValue]) h
      fun ps h' => ∀ p ∈ ps, h'.HasAll p.classes :=
  (collect_obeys Collection.holds_properties (by decide) (properties_builds w c) hw).post
    fun _ _ _ hq => hq.1

lemma events_builds (w : World) (c : ClassHandle) :
    Builds w [.methods, .layout, .fields, .byValue] c Event.classes
      (fun _ h c _ => h.DescribesEvent c) fun _ _ defs => each (event c) defs := by
  refine builds_each (fun _ _ => event c) id id List.map_id (fun _ _ _ => rfl)
    (fun _ _ _ _ _ hk hd => hd.of_remembers hk) fun h r m d hw hc hr hm => ?_
  refine (accessor_obeys c d.add hw).bind fun add h₁ hl₁ ha => ?_
  have hw₁ := hl₁.wellformed hw
  refine (accessor_obeys c d.remove hw₁).bind fun remove h₂ hl₂ hr => ?_
  refine (accessor_obeys c d.raise (hl₂.wellformed hw₁)).bind fun raise h₃ hl₃ hs => ?_
  refine obeys_pure ⟨fun x hx => ?_, rfl, ha.2.of_remembers (hl₂.trans hl₃).remembers,
    hr.2.of_remembers hl₃.remembers, hs.2⟩
  simp only [Event.classes, List.mem_cons, List.mem_append, List.flatMap_append] at hx
  rcases hx with rfl | (hx | hx) | hx
  · exact (hl₁.trans (hl₂.trans hl₃)).has hc
  · exact (hl₂.trans hl₃).has (ha.1 x hx)
  · exact hl₃.has (hr.1 x hx)
  · exact hs.1 x hx

lemma events_obeys (c : ClassHandle) (hw : h.Wellformed) :
    (events c).Obeys w (Host.Learns w [.events, .methods, .layout, .fields, .byValue]) h
      fun es h' => ∀ e ∈ es, h'.HasAll e.classes :=
  (collect_obeys Collection.holds_events (by decide) (events_builds w c) hw).post
    fun _ _ _ hq => hq.1

end Op

end ManagedHost
