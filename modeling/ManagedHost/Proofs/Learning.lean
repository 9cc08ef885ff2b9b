/-
# What reflection does to a host

Reflection loads assemblies, asks sources about facets that are unknown, and fills them in with
something that is vouched for.  `Host.Learns` is the relation between the states before and after,
and it names the facets that may have been asked about and filled in.  All other parts of a record
stay as they are, in particular the state of the initializer, and so does a facet that is known,
about which no question is asked any more (`Host.Unasked`).
-/
import ManagedHost.Proofs.Facets
import ManagedHost.Proofs.Loading

namespace ManagedHost

/-- The journal notes a question to the resolver or to a source. -/
def JournalEntry.IsInquiry : JournalEntry → Prop
  | .resolved _ => True
  | .asked _ _ _ _ => True
  | _ => False

lemma JournalEntry.IsQuestion.isInquiry {e : JournalEntry} (he : e.IsQuestion) : e.IsInquiry := by
  cases e with
  | resolved name => trivial
  | asked source query row target => trivial
  | _ => exact he

/-! ## The steps of reflection -/

namespace Host

variable {w : World} {K : List Facet} {h h₁ h' : Host}

/-- One step of reflection, which asks about and fills in no facets but those of `K`. -/
inductive LearnChange (w : World) (K : List Facet) : Host → Host → Prop
  /-- Questions are put to the outside, and assemblies are loaded. -/
  | loads {h h' : Host} (hl : h.Loads w h') : LearnChange w K h h'
  /-- The source of a class is asked about a facet of which nothing is known. -/
  | asks {h : Host} {p : Facet} (hp : p ∈ K) {query : Query} (hq : p.query? = some query)
      {c : ClassHandle} {r : Class} (hr : h.cls c = .ok r) (hu : p.Unknown r) {m : Module}
      (hm : h.module r.module = .ok m) :
      LearnChange w K h (h.note (.asked m.source query r.row (some c)))
  /-- A facet is filled in with something that is vouched for and that mentions only classes that
  exist. -/
  | fills {h : Host} {p : Facet} (hp : p ∈ K) {c : ClassHandle} {r r' : Class}
      (hr : h.cls c = .ok r) (hf : p.Fills r r') (hm : ∀ x ∈ r'.mentions, h.Has x)
      (hs : h.Vouches w.resolver c r' p) : LearnChange w K h (h.modifyClass c fun _ => r')

/-- `h'` arises from `h` by steps of reflection. -/
def Learns (w : World) (K : List Facet) : Host → Host → Prop :=
  Relation.ReflTransGen (LearnChange w K)

instance (w : World) (K : List Facet) : IsPreorder Host (Learns w K) where
  refl _ := .refl
  trans _ _ _ := .trans

lemma Loads.learns (hl : h.Loads w h') : h.Learns w K h' :=
  .single (.loads hl)

lemma Learns.mono {K' : List Facet} (hK : K ⊆ K') (hl : h.Learns w K h') :
    h.Learns w K' h' := by
  refine Relation.ReflTransGen.mono (fun g g' hstep => ?_) _ _ hl
  cases hstep with
  | loads hl => exact .loads hl
  | asks hp hq hr hu hm => exact .asks (hK hp) hq hr hu hm
  | fills hp hr hf hm hs => exact .fills (hK hp) hr hf hm hs

lemma journal_modifyClass (c : ClassHandle) (f : Class → Class) :
    (h.modifyClass c f).journal = h.journal := by
  unfold modifyClass
  split <;> rfl

lemma natives_modifyClass (c : ClassHandle) (f : Class → Class) :
    (h.modifyClass c f).natives = h.natives := by
  unfold modifyClass
  split <;> rfl

lemma corlib_modifyClass (c : ClassHandle) (f : Class → Class) :
    (h.modifyClass c f).corlib = h.corlib := by
  unfold modifyClass
  split <;> rfl

/-- Reflection notes nothing but inquiries. -/
lemma LearnChange.journal (hc : LearnChange w K h h') :
    ∃ new, h'.journal = new ++ h.journal ∧ ∀ e ∈ new, e.IsInquiry := by
  cases hc with
  | loads hl =>
    obtain ⟨new, hj, hnew⟩ := hl.toExtends.journal
    exact ⟨new, hj, fun e he => (hnew e he).isInquiry⟩
  | asks => exact ⟨[_], rfl, by simp [JournalEntry.IsInquiry]⟩
  | fills => exact ⟨[], journal_modifyClass _ _, by simp⟩

/-- How far the initializer of a class has come; a class that is not there is untouched. -/
def initOf (h : Host) (c : ClassHandle) : InitState :=
  ((h.cls? c).map (·.init)).getD .untouched

lemma initOf_of_cls {c : ClassHandle} {r : Class} (hr : h.cls c = .ok r) :
    h.initOf c = r.init := by
  rw [initOf, cls?_eq_some_iff.mpr hr]
  rfl

lemma initOf_of_not_has {c : ClassHandle} (hc : ¬h.Has c) : h.initOf c = .untouched := by
  rcases hr : h.cls? c with _ | r
  · rw [initOf, hr]
    rfl
  · exact absurd (has_iff_cls.mpr ⟨r, cls?_eq_some_iff.mp hr⟩) hc

namespace LearnChange

lemma wellformed (hc : LearnChange w K h h') (hw : h.Wellformed) : h'.Wellformed := by
  cases hc with
  | loads hl => exact hl.wellformed hw
  | asks => exact hw.note _
  | fills hp hr hf hm hs =>
    refine hw.modifyClass fun r₀ hr₀ => ?_
    rw [hr] at hr₀
    cases hr₀
    obtain ⟨hh, hmod, hrow, -, -⟩ := Class.eq_of_bare_eq hf.bare_eq
    exact ⟨hh, hmod, hrow, hm⟩

lemma keeps (hc : LearnChange w K h h') : h.Keeps h' := by
  cases hc with
  | loads hl => exact hl.keeps
  | asks => exact .note h _
  | fills hp hr hf hm hs =>
    refine .modifyClass fun r₀ hr₀ => ?_
    rw [hr] at hr₀
    cases hr₀
    exact Class.pristine_eq_of_bare_eq hf.bare_eq

/-- What is known of a class stays.  Of the facets of which nothing is known, only those of `K` may
be filled in. -/
lemma cls (hc : LearnChange w K h h') {c : ClassHandle} {r : Class} (hr : h.cls c = .ok r) :
    ∃ r', h'.cls c = .ok r' ∧ r'.bare = r.bare ∧
      ∀ q : Facet, (q ∈ K → ¬q.Unknown r) → q.Agrees r r' := by
  cases hc with
  | loads hl => exact ⟨r, hl.toExtends.cls hr, rfl, fun q _ => .rfl' q r⟩
  | asks => exact ⟨r, hr, rfl, fun q _ => .rfl' q r⟩
  | @fills p hp c₀ r₀ r₁ hr₀ hf hm hs =>
    by_cases hcc : c = c₀
    · subst hcc
      rw [hr] at hr₀
      cases hr₀
      refine ⟨r₁, ?_, hf.bare_eq, fun q hq => hf.agrees fun heq => ?_⟩
      · rw [cls_modifyClass, if_pos rfl, hr]
        rfl
      · subst heq
        exact hq hp hf.once
    · refine ⟨r, ?_, rfl, fun q _ => .rfl' q r⟩
      rw [cls_modifyClass, if_neg hcc]
      exact hr

/-- A class that was not there is as it was when it was added. -/
lemma fresh (hc : LearnChange w K h h') {c : ClassHandle} {r : Class} (hr : h'.cls c = .ok r) :
    h.Has c ∨ r.pristine = r := by
  cases hc with
  | loads hl => exact hl.toExtends.fresh c r hr
  | asks => exact .inl (has_iff_cls.mpr ⟨r, hr⟩)
  | fills hp hr₀ hf hm hs => exact .inl (has_modifyClass.mp (has_iff_cls.mpr ⟨r, hr⟩))

/-- What is known of a facet after a step was known before, or it has just been filled in. -/
lemma facet (hc : LearnChange w K h h') {c : ClassHandle} {r' : Class} (hr' : h'.cls c = .ok r')
    (q : Facet) :
    q.Unknown r' ∨ (∃ r, h.cls c = .ok r ∧ q.Agrees r r') ∨
      ∃ r, h.cls c = .ok r ∧ q.Fills r r' ∧ h.Vouches w.resolver c r' q ∧
        h'.journal = h.journal := by
  cases hc with
  | loads hl =>
    rcases hl.toExtends.fresh c r' hr' with hold | hnew
    · obtain ⟨r, hr⟩ := has_iff_cls.mp hold
      rw [hl.toExtends.cls hr] at hr'
      cases hr'
      exact .inr (.inl ⟨r', hr, .rfl' q r'⟩)
    · -- nothing has been derived of a class that was just added
      exact .inl (hnew ▸ q.unknown_pristine r')
  | asks => exact .inr (.inl ⟨r', hr', .rfl' q r'⟩)
  | @fills p hp c₀ r₀ r₁ hr₀ hf hm hs =>
    rw [cls_modifyClass] at hr'
    by_cases hcc : c = c₀
    · subst hcc
      rw [if_pos rfl, hr₀] at hr'
      cases hr'
      by_cases hqp : q = p
      · subst hqp
        exact .inr (.inr ⟨r₀, hr₀, hf, hs, journal_modifyClass _ _⟩)
      · exact .inr (.inl ⟨r₀, hr₀, hf.agrees hqp⟩)
    · rw [if_neg hcc] at hr'
      exact .inr (.inl ⟨r', hr', .rfl' q r'⟩)

/-- Reflection does not change how far initializers have come. -/
lemma initOf_eq (hc : LearnChange w K h h') (c : ClassHandle) : h'.initOf c = h.initOf c := by
  rcases hr : h.cls? c with _ | r
  · have hno : ¬h.Has c := by
      rw [has_iff_cls]
      rintro ⟨r, hr'⟩
      rw [cls?_eq_some_iff.mpr hr'] at hr
      cases hr
    rw [initOf_of_not_has hno]
    -- the class is still missing, or it has just been added
    by_cases hhas : h'.Has c
    · obtain ⟨r, hr'⟩ := has_iff_cls.mp hhas
      rw [initOf_of_cls hr', ← (hc.fresh hr').resolve_left hno]
      rfl
    · exact initOf_of_not_has hhas
  · rw [cls?_eq_some_iff] at hr
    obtain ⟨r', hr', hb, -⟩ := hc.cls hr
    rw [initOf_of_cls hr, initOf_of_cls hr']
    exact (Class.eq_of_bare_eq hb).2.2.2.2

end LearnChange

namespace Learns

lemma trans (h01 : h.Learns w K h₁) (h12 : h₁.Learns w K h') : h.Learns w K h' :=
  Relation.ReflTransGen.trans h01 h12

lemma wellformed (hl : h.Learns w K h') (hw : h.Wellformed) : h'.Wellformed := by
  induction hl with
  | refl => exact hw
  | tail _ hstep ih => exact hstep.wellformed ih

lemma keeps (hl : h.Learns w K h') : h.Keeps h' := by
  induction hl with
  | refl => exact .rfl' h
  | tail _ hstep ih => exact ih.trans hstep.keeps

lemma cls (hl : h.Learns w K h') {c : ClassHandle} {r : Class} (hr : h.cls c = .ok r) :
    ∃ r', h'.cls c = .ok r' ∧ r'.bare = r.bare ∧
      ∀ q : Facet, (q ∈ K → ¬q.Unknown r) → q.Agrees r r' := by
  induction hl with
  | refl => exact ⟨r, hr, rfl, fun q _ => .rfl' q r⟩
  | tail _ hstep ih =>
    obtain ⟨r₁, hr₁, hb₁, ha₁⟩ := ih
    obtain ⟨r₂, hr₂, hb₂, ha₂⟩ := hstep.cls hr₁
    refine ⟨r₂, hr₂, hb₂.trans hb₁, fun q hq => ?_⟩
    -- a facet that was known is still known after the steps before the last one
    exact (ha₁ q hq).trans (ha₂ q fun hK hu => hq hK ((ha₁ q hq).unknown hu))

lemma has (hl : h.Learns w K h') {c : ClassHandle} (hc : h.Has c) : h'.Has c :=
  hl.keeps.has hc

end Learns

/-! ## Questions about members -/

section Questions

variable {p : Facet} {query : Query} {c : ClassHandle}

/-- Nothing was asked about members of a class from `h` to `h'`. -/
def Unasked (query : Query) (c : ClassHandle) (h h' : Host) : Prop :=
  ∃ new, h'.journal = new ++ h.journal ∧ ∀ e ∈ new, e.asksFor query c = false

namespace Unasked

lemma of_journal_eq (hj : h'.journal = h.journal) : h.Unasked query c h' :=
  ⟨[], hj, by simp⟩

lemma note {e : JournalEntry} (he : e.asksFor query c = false) : h.Unasked query c (h.note e) :=
  ⟨[e], rfl, by simpa using he⟩

lemma trans (h01 : h.Unasked query c h₁) (h12 : h₁.Unasked query c h') : h.Unasked query c h' := by
  obtain ⟨new₁, hj₁, hq₁⟩ := h01
  obtain ⟨new₂, hj₂, hq₂⟩ := h12
  refine ⟨new₂ ++ new₁, by rw [hj₂, hj₁, List.append_assoc], fun e he => ?_⟩
  exact (List.mem_append.mp he).elim (hq₂ e) (hq₁ e)

lemma whenAsked_eq (hu : h.Unasked query c h') :
    h'.journal.whenAsked query c = h.journal.whenAsked query c := by
  obtain ⟨new, hj, hnew⟩ := hu
  rw [hj, Journal.whenAsked, List.dropWhile_append_of_pos fun e he => by simp [hnew e he],
    Journal.whenAsked]

end Unasked

/-- Nothing is asked about a facet that reflection does not look at, nor about one that is known
of the class. -/
lemma LearnChange.unasked (hc : LearnChange w K h h') (hq : p.query? = some query)
    (hk : p ∈ K → ∃ r, h.cls c = .ok r ∧ ¬p.Unknown r) : h.Unasked query c h' := by
  cases hc with
  | loads hl =>
    obtain ⟨new, hj, hnew⟩ := hl.toExtends.journal
    refine ⟨new, hj, fun e he => ?_⟩
    have hquestion := hnew e he
    rcases e with _ | ⟨_, _, _, _ | _⟩ | _ | _ | _ | _
    all_goals first | exact hquestion.elim | rfl
  | @asks p' hp' query' hq' c' r' hr' hu' m hm =>
    have hother : ¬(query' = query ∧ c' = c) := by
      rintro ⟨rfl, rfl⟩
      obtain rfl : p' = p := Facet.query?_inj hq' hq
      obtain ⟨r, hr, hknown⟩ := hk hp'
      rw [hr] at hr'
      cases hr'
      exact hknown hu'
    exact .note (by simpa [JournalEntry.asksFor] using hother)
  | fills => exact .of_journal_eq (journal_modifyClass _ _)

lemma Learns.unasked (hl : h.Learns w K h') (hq : p.query? = some query) (hp : p ∉ K) :
    h.Unasked query c h' := by
  induction hl with
  | refl => exact .of_journal_eq rfl
  | tail _ hstep ih => exact ih.trans (hstep.unasked hq fun hmem => absurd hmem hp)

end Questions

lemma Learns.remembers (hl : h.Learns w K h') : h.Remembers h' := by
  refine ⟨hl.keeps, fun c r hr => ?_⟩
  obtain ⟨r', hr', -, ha⟩ := hl.cls hr
  exact ⟨r', hr', fun q hq => ha q fun _ => hq⟩

/-! ## States between which no code has run -/

/-- No code has run from `h` to `h'`: there were questions only, no initializer has come any
further, and the native tables are the same. -/
structure Idle (h h' : Host) : Prop where
  journal : ∃ new, h'.journal = new ++ h.journal ∧ ∀ e ∈ new, e.IsInquiry
  initOf_eq : ∀ c, h'.initOf c = h.initOf c
  natives_eq : h'.natives = h.natives

lemma Idle.refl (h : Host) : h.Idle h :=
  ⟨⟨[], rfl, by simp⟩, fun _ => rfl, rfl⟩

lemma Idle.trans (h01 : h.Idle h₁) (h12 : h₁.Idle h') : h.Idle h' := by
  obtain ⟨new₁, hj₁, hq₁⟩ := h01.journal
  obtain ⟨new₂, hj₂, hq₂⟩ := h12.journal
  refine ⟨⟨new₂ ++ new₁, ?_, ?_⟩, fun c => ?_, ?_⟩
  · rw [hj₂, hj₁, List.append_assoc]
  · intro e he
    rcases List.mem_append.mp he with he | he
    · exact hq₂ e he
    · exact hq₁ e he
  · rw [h12.initOf_eq, h01.initOf_eq]
  · rw [h12.natives_eq, h01.natives_eq]

/-- A step of reflection runs no code. -/
lemma LearnChange.idle (hc : LearnChange w K h h') : h.Idle h' := by
  refine ⟨hc.journal, hc.initOf_eq, ?_⟩
  cases hc with
  | loads hl => exact hl.toExtends.natives_eq
  | asks => rfl
  | fills => exact natives_modifyClass _ _

lemma Learns.idle (hl : h.Learns w K h') : h.Idle h' := by
  induction hl with
  | refl => exact .refl h
  | tail _ hstep ih => exact ih.trans hstep.idle

end Host

end ManagedHost
