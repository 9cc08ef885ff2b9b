/-
# Hosts that know only what they were told

A host asks once and keeps the answer.  What it keeps can be relied on later: the signature of the
instances of a class is the one that would be determined now, members are still described by what
the source says, and layouts are still those of the fields.  `Host.Informed` collects all that is
known of a host which has always used the same reliable resolver.  It holds when the host has been
started and after every step of a run (`Later.informed`).

* `Host.Vouched`: every facet that is known follows from the present state of the host.
* `Host.VouchedBy`: the same of one facet, if there may be several resolvers (`vouches_of_worlds`).
-/
import ManagedHost.Proofs.CoreLibrary
import ManagedHost.Proofs.Faithful
import ManagedHost.Proofs.Inheritance
import ManagedHost.Proofs.Layouts

namespace ManagedHost

namespace Host

variable {R : Resolver} {w : World} {h h' : Host} {c : ClassHandle} {r r' : Class} {p : Facet}

/-! ## The flag of the core library -/

/-- Whether a module counts as the core library shows in the name of its assembly. -/
lemma Flagged.isCorlib_eq {i : Nat} {name : String} {n : NewModule} {m : Module}
    (hf : h.Flagged) (hR : R.Reliable) (he : h.Embodies R i name n)
    (hm : h.modules[i]? = some m) : m.isCorlib = (name == h.config.corlib) := by
  rw [Bool.eq_iff_iff, hf i m hm, he.mem_names_iff hR, beq_iff_eq]
  exact eq_comm

/-! ## Facets stay vouched for -/

/-- What is known of facets follows from the state of the host. -/
def Vouched (R : Resolver) (h : Host) : Prop :=
  ∀ c r, h.cls c = .ok r → ∀ p : Facet, h.Vouches R c r p

lemma vouches_of_unknown (hu : p.Unknown r) : h.Vouches R c r p := by
  cases p with
  | interfaces => trivial
  | nested => exact fun _ hcs => absurd hu (Facet.nested_known hcs)
  | methods => exact fun _ hms => absurd hu (Facet.methods_known hms)
  | fields => exact fun _ hfs => absurd hu (Facet.fields_known hfs)
  | properties => exact fun _ hps => absurd hu (Facet.properties_known hps)
  | events => exact fun _ hes => absurd hu (Facet.events_known hes)
  | layout => exact fun _ hl => absurd hu (Facet.layout_known hl)
  | byValue => exact fun _ hs => absurd hu (Facet.byValue_known hs)

lemma Reported.of_keeps {δ α : Type} {k : Collection δ α}
    {Describes Describes' : Module → δ → α → Prop} {items : List α}
    (hrep : h.Reported R c r k Describes items) (hk : h.Keeps h')
    (hj : h'.journal.whenAsked k.query c = h.journal.whenAsked k.query c)
    (hp : r'.pristine = r.pristine) (hd : ∀ m d i, Describes m d i → Describes' m d i) :
    h'.Reported R c r' k Describes' items := by
  obtain ⟨m, defs, htold, hall⟩ := hrep
  obtain ⟨-, hmod, hrow, -, -⟩ := Class.eq_of_pristine_eq hp
  have htold' : h'.Told R c r k m defs :=
    ⟨hk.module htold.module, hj ▸ htold.asked, hj ▸ htold.answer⟩
  exact ⟨m, defs, htold'.congr hmod hrow, hall.imp fun _ _ hi => hd m _ _ hi⟩

lemma byValueOf_of_keeps (hk : h.Keeps h') (hw : h.Wellformed) (hw' : h'.Wellformed)
    (hroot : h.Rooted) (hc : h.Has c) (hp : r'.pristine = r.pristine) (isCorlib : Bool) :
    h'.byValueOf c r' isCorlib = h.byValueOf c r isCorlib := by
  simp only [byValueOf, builtinOf_of_pristine_eq hp, isValueType_of_keeps hk hw hw' hroot hc]

/-- What follows from an earlier state follows from the present one, of a record that knows at least
as much, unless sources have been asked about it again. -/
lemma Vouches.of_remembers (hv : h.Vouches R c r p) (hk : h.Remembers h') (hw : h.Wellformed)
    (hw' : h'.Wellformed) (hroot : p = .byValue → h.Rooted) (hc : h.Has c)
    (hu : ∀ query, p.query? = some query → h.Unasked query c h')
    (hp : r'.pristine = r.pristine) (ha : p.Agrees r r')
    (hknown : ∀ q : Facet, ¬q.Unknown r → q.Agrees r r') : h'.Vouches R c r' p := by
  cases p with
  | interfaces => trivial
  | nested =>
    intro cs hcs
    exact (hv cs (Eq.trans (Eq.symm ha) hcs)).of_keeps hk.keeps (hu _ rfl).whenAsked_eq hp
      fun _ _ _ hd => hd.of_remembers hk
  | methods =>
    intro ms hms
    obtain ⟨hmeasured, hreported⟩ := hv ms (Eq.trans (Eq.symm ha) hms)
    exact ⟨fun x hx => (hmeasured x hx).of_remembers hk,
      hreported.of_keeps hk.keeps (hu _ rfl).whenAsked_eq hp fun _ _ _ hd => hd.of_remembers hk⟩
  | fields =>
    intro fs hfs
    exact (hv fs (Eq.trans (Eq.symm ha) hfs)).of_keeps hk.keeps (hu _ rfl).whenAsked_eq hp
      fun _ _ _ hd => hd.of_remembers hk
  | properties =>
    intro ps hps
    exact (hv ps (Eq.trans (Eq.symm ha) hps)).of_keeps hk.keeps (hu _ rfl).whenAsked_eq hp
      fun _ _ _ hd => hd.of_remembers hk
  | events =>
    intro es hes
    exact (hv es (Eq.trans (Eq.symm ha) hes)).of_keeps hk.keeps (hu _ rfl).whenAsked_eq hp
      fun _ _ _ hd => hd.of_remembers hk
  | layout =>
    intro l hl
    have hcomposed := hv l (Eq.trans (Eq.symm ha) hl)
    have hfields : r'.fields = r.fields := by
      obtain ⟨fs, parts, hfs, -⟩ := hcomposed
      exact hknown .fields (Facet.fields_known hfs)
    exact hcomposed.of_remembers hk hfields
  | byValue =>
    intro s hs
    obtain ⟨m, hm, heq⟩ := hv s (Eq.trans (Eq.symm ha) hs)
    obtain ⟨-, hmod, -⟩ := Class.eq_of_pristine_eq hp
    refine ⟨m, hmod ▸ hk.keeps.module hm, ?_⟩
    rw [byValueOf_of_keeps hk.keeps hw hw' (hroot rfl) hc hp]
    exact heq

/-- What is known of a facet of a class was told by one of the resolvers `S`. -/
def VouchedBy (S : Resolver → Prop) (h : Host) (p : Facet) : Prop :=
  ∀ c r, h.cls c = .ok r → p.Unknown r ∨ ∃ R, S R ∧ h.Vouches R c r p

section

variable {S : Resolver → Prop}

lemma RunChange.vouchedBy (hc : RunChange w h h') (hw : h.Wellformed) (hS : S w.resolver)
    (hroot : p = .byValue → h.Rooted) (hv : h.VouchedBy S p) : h'.VouchedBy S p := by
  intro c r' hr'
  have hk := hc.remembers
  have hw' := hc.wellformed hw
  rcases hc.facet hr' p with hu | ⟨r, hr, ha⟩ | ⟨r, hr, -, hp, hj⟩
  · exact .inl hu
  · obtain ⟨r'', hr'', hpristine, hknown⟩ := hk.record hr
    rw [hr'] at hr''
    cases hr''
    by_cases hu : p.Unknown r
    · exact .inl (ha.symm.unknown hu)
    obtain ⟨R, hR, hv⟩ := (hv c r hr).resolve_left hu
    exact .inr ⟨R, hR, hv.of_remembers hk hw hw' hroot (has_iff_cls.mpr ⟨r, hr⟩)
      (fun _ hq => hc.unasked hq hr hu) hpristine ha hknown⟩
  · exact .inr ⟨w.resolver, hS, hp.of_remembers hk hw hw' hroot (has_iff_cls.mpr ⟨r, hr⟩)
      (fun _ _ => .of_journal_eq hj) rfl (.rfl' p r') fun q _ => .rfl' q r'⟩

/-- What is known of a facet other than the signature of instances stays vouched for. -/
lemma Later.vouchedBy {W : World → Prop} (hl : h.Later W h') (hw : h.Wellformed)
    (hS : ∀ w, W w → S w.resolver) (hp : p ≠ .byValue) (hv : h.VouchedBy S p) :
    h'.VouchedBy S p := by
  refine (hl.preserves (P := fun g => g.Wellformed ∧ g.VouchedBy S p) (fun w hW g g' hc hg => ?_)
    ⟨hw, hv⟩).2
  exact ⟨hc.wellformed hg.1, hc.vouchedBy hg.1 (hS w hW) (fun heq => absurd heq hp) hg.2⟩

end

lemma Vouched.step (hv : h.Vouched w.resolver) (hc : RunChange w h h') (hw : h.Wellformed)
    (hroot : h.Rooted) : h'.Vouched w.resolver := by
  intro c r' hr' p
  have hby : h.VouchedBy (· = w.resolver) p := fun c r hr => .inr ⟨_, rfl, hv c r hr p⟩
  have hby' : h'.VouchedBy (· = w.resolver) p := hc.vouchedBy hw rfl (fun _ => hroot) hby
  rcases hby' c r' hr' with hu | ⟨_, rfl, hv'⟩
  · exact vouches_of_unknown hu
  · exact hv'

/-! ## Informed hosts -/

/-- All that the host knows was told by one resolver.  No load is under way, and some class does not
inherit from any. -/
structure Informed (R : Resolver) (corlib : String) (h : Host) : Prop where
  faithful : h.Faithful R
  pending_eq : h.pending = []
  /-- Name of the core library. -/
  corlib_eq : h.config.corlib = corlib
  flagged : h.Flagged
  rooted : h.Rooted
  vouched : h.Vouched R
  laidOut : h.LaidOut

lemma Informed.wellformed {corlib : String} (hi : h.Informed R corlib) : h.Wellformed :=
  hi.faithful.wellformed

lemma Informed.step {corlib : String} (hi : h.Informed w.resolver corlib)
    (hR : w.resolver.Reliable) (hc : RunChange w h h') : h'.Informed w.resolver corlib := by
  have hw := hi.wellformed
  have hsame : h'.pending = h.pending ∧ h'.config = h.config ∧ h'.Flagged := by
    rcases hc.loads_or_sameNames with hl | hs
    · exact ⟨hl.toExtends.pending_eq, hl.toExtends.config_eq, hl.flagged hw hi.flagged⟩
    · exact ⟨hs.pending_eq, hs.config_eq,
        hi.flagged.congr hs.id_eq hs.modules_eq hs.names_eq hs.config_eq⟩
  obtain ⟨hpending, hconfig, hflagged⟩ := hsame
  exact
    { faithful := hc.faithful hR hi.faithful
      pending_eq := hpending.trans hi.pending_eq
      corlib_eq := hconfig ▸ hi.corlib_eq
      flagged := hflagged
      rooted := hi.rooted.of_keeps hc.keeps
      vouched := hi.vouched.step hc hw hi.rooted
      laidOut := hi.laidOut.step hc }

lemma Later.informed {corlib : String} (hl : h.Later (·.resolver = R) h') (hR : R.Reliable)
    (hi : h.Informed R corlib) : h'.Informed R corlib := by
  refine hl.preserves (fun w hw g g' hstep hg => ?_) hi
  subst hw
  exact hg.step hR hstep

end Host

/-- A host that has just been started knows nothing but what was loaded. -/
lemma unknown_of_start {s : Setup} {next rest : Nat} {h : Host} (hs : s.start next = (.ok h, rest))
    {c : ClassHandle} {r : Class} (hr : h.cls c = .ok r) (p : Facet) : p.Unknown r := by
  obtain ⟨w, a, h₁, record, -, hload, -, rfl⟩ := start_eq_ok hs
  have hloads := ((Op.isLoader_load _ _ _ (Host.wellformed_blank next s.config)).of_ok hload).1
  have hpristine : r.pristine = r := (hloads.toExtends.fresh c r hr).resolve_left fun hold =>
    absurd hold.2 (by simp [Host.blank])
  exact hpristine ▸ p.unknown_pristine r

/-- What a host knows of a facet other than the signature of instances was told by a resolver of one
of the worlds in which it has been. -/
lemma vouches_of_worlds {s : Setup} {W : World → Prop} {next rest : Nat} {h₀ h : Host}
    (hs : s.start next = (.ok h₀, rest)) (hl : h₀.Later W h) {p : Facet} (hp : p ≠ .byValue)
    {c : ClassHandle} {r : Class} (hr : h.cls c = .ok r) (hknown : ¬p.Unknown r) :
    ∃ w, W w ∧ h.Vouches w.resolver c r p := by
  have hby : h.VouchedBy (fun R => ∃ w, W w ∧ w.resolver = R) p :=
    hl.vouchedBy (sound_start hs).settled.wellformed (fun w hw => ⟨w, hw, rfl⟩) hp
      fun c r hr => .inl (unknown_of_start hs hr p)
  obtain ⟨_, ⟨w, hw, rfl⟩, hv⟩ := (hby c r hr).resolve_left hknown
  exact ⟨w, hw, hv⟩

/-- The same, if the host has always used one resolver. -/
lemma vouches_of_later {s : Setup} {R : Resolver} {next rest : Nat} {h₀ h : Host}
    (hs : s.start next = (.ok h₀, rest)) (hl : h₀.Later (·.resolver = R) h) {p : Facet}
    (hp : p ≠ .byValue) {c : ClassHandle} {r : Class} (hr : h.cls c = .ok r) :
    h.Vouches R c r p := by
  by_cases hu : p.Unknown r
  · exact Host.vouches_of_unknown hu
  · obtain ⟨w, rfl, hv⟩ := vouches_of_worlds hs hl hp hr hu
    exact hv

lemma informed_of_start {s : Setup} {R : Resolver} {next rest : Nat} {h : Host}
    (hc : s.chosenResolver = some R) (hR : R.Reliable) (hs : s.start next = (.ok h, rest))
    (hroot : h.Rooted) : h.Informed R s.config.corlib := by
  have hfaithful := faithful_of_start hc hR hs
  have hpending := (sound_start hs).settled.pending_eq
  have hunknown : ∀ c r, h.cls c = .ok r → ∀ p : Facet, p.Unknown r :=
    fun c r hr p => unknown_of_start hs hr p
  obtain ⟨w, a, h₁, record, hw, hload, -, rfl⟩ := start_eq_ok hs
  have hblank := Host.wellformed_blank next s.config
  have hloads := ((Op.isLoader_load _ _ _ hblank).of_ok hload).1
  exact
    { faithful := hfaithful
      pending_eq := hpending
      corlib_eq := congrArg Config.corlib hloads.toExtends.config_eq
      flagged := (hloads.flagged hblank (Host.flagged_blank next s.config)).congr rfl rfl rfl rfl
      rooted := hroot
      vouched := fun c r hr p => Host.vouches_of_unknown (hunknown c r hr p)
      laidOut := fun c r l hr hl => absurd (hunknown c r hr .layout) (Facet.layout_known hl) }

end ManagedHost
