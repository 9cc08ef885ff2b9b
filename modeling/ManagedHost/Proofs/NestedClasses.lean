/-
# Nested classes and the classes around them

Which types are nested in which is said twice: a definition gives the row of the type around it,
which is read when the module is loaded, and a source lists the rows of the nested types of a type,
which is asked for when somebody needs the nested classes.  A source may contradict itself.  The
second answer is therefore checked against the first, row by row, and none of it is kept unless
all of it stands the test.

* `Source.Nests`: a source that does not contradict itself; assembled modules and images are such
  sources (`AssembledModule.nests`, `Image.nests`).
* `Host.Seats`: where the classes of a module are, and the classes around them, when its source has
  told which type is around which.
* `nested_agree`: nested classes know that they are nested, and with a source that does not
  contradict itself none of them is missing.
-/
import ManagedHost.Metadata.Assembled
import ManagedHost.Proofs.Collections
import ManagedHost.Proofs.Enclosing
import ManagedHost.Proofs.Informed

namespace ManagedHost

open Op

/-! ## Sources that do not contradict themselves -/

/-- The rows of the types that have the type of the given row around them. -/
def rowsWithin (enclosers : List (Option Nat)) (row : Nat) : List Nat :=
  (List.range enclosers.length).filter fun k => enclosers[k]? = some (some row)

lemma mem_rowsWithin {enclosers : List (Option Nat)} {row k : Nat} :
    k ∈ rowsWithin enclosers row ↔ enclosers[k]? = some (some row) := by
  simp only [rowsWithin, List.mem_filter, List.mem_range, decide_eq_true_eq, and_iff_right_iff_imp]
  exact fun hk => (List.getElem?_eq_some_iff.mp hk).1

lemma sorted_rowsWithin (enclosers : List (Option Nat)) (row : Nat) :
    (rowsWithin enclosers row).Pairwise (· < ·) :=
  List.pairwise_lt_range.filter _

/-- The source has told which types are around its types, and lists the types within them in
accordance with it. -/
structure Source.Nests (source : Source) (enclosers : List (Option Nat)) : Prop where
  typeCount_eq : source.typeCount = enclosers.length
  encloser : ∀ row d, source.typeDef row = .ok d → enclosers[row]? = some d.encloser
  nested_eq : ∀ row < enclosers.length, source.nested row = .ok (rowsWithin enclosers row)

/-- Selecting types by their enclosers. -/
lemma filter_eq_rowsWithin {α : Type} (types : List α) (encloser : α → Option Nat) (row : Nat) :
    ((List.range types.length).filter fun k => (types[k]?.bind encloser) == some row) =
      rowsWithin (types.map encloser) row := by
  rw [rowsWithin, List.length_map]
  refine List.filter_congr fun k _ => ?_
  rw [List.getElem?_map]
  cases types[k]? <;> simp [beq_eq_decide]

lemma AssembledModule.nests (a : AssembledModule) :
    a.source.Nests (a.types.map (·.definition.encloser)) := by
  refine ⟨(List.length_map _).symm, fun row d hd => ?_, fun row hrow => ?_⟩
  · have hd : (a.entry row).map (·.definition) = .ok d := hd
    rw [entry] at hd
    cases ht : a.types[row]? with
    | none => simp [ht, Except.map] at hd
    | some t =>
      simp only [ht, Except.map, Except.ok.injEq] at hd
      rw [List.getElem?_map, ht, Option.map_some, hd]
  · rw [List.length_map] at hrow
    have hentry : a.entry row = .ok a.types[row] := by
      rw [entry, List.getElem?_eq_getElem hrow]
    rw [← filter_eq_rowsWithin]
    change (a.entry row >>= fun _ => pure (a.nestedRows row)) = _
    rw [hentry]
    rfl

lemma ImageTypeDef.encloser_of_definition {t : ImageTypeDef} {d : TypeDef}
    (hd : t.definition = .ok d) : d.encloser = t.encloser := by
  rw [definition] at hd
  cases hp : t.parent.mapM ImageRef.typeRef with
  | error e => simp [hp, bind, Except.bind] at hd
  | ok parent =>
    simp only [hp, bind, Except.bind, pure, Except.pure, Except.ok.injEq] at hd
    rw [← hd]

lemma Image.nests (i : Image) (moduleName requested : String) :
    (i.source moduleName requested).Nests (i.types.map (·.encloser)) := by
  refine ⟨(List.length_map _).symm, fun row d hd => ?_, fun row hrow => ?_⟩
  · have hd : (i.entry moduleName row >>= (·.definition)) = .ok d := hd
    rw [entry] at hd
    cases ht : i.types[row]? with
    | none => simp [ht, bind, Except.bind] at hd
    | some t =>
      rw [ht] at hd
      rw [List.getElem?_map, ht, Option.map_some, ImageTypeDef.encloser_of_definition hd]
  · rw [List.length_map] at hrow
    have hentry : i.entry moduleName row = .ok i.types[row] := by
      rw [entry, List.getElem?_eq_getElem hrow]
    rw [← filter_eq_rowsWithin]
    change (i.entry moduleName row >>= fun _ => pure (i.nestedRows row)) = _
    rw [hentry]
    rfl

/-! ## Hosts with one resolver -/

namespace Host

variable {R : Resolver} {w : World} {h h' : Host}

lemma RunChange.pictured (hc : RunChange w h h') (hw : h.Wellformed)
    (hp : h.Pictured w.resolver) : h'.Pictured w.resolver := by
  rcases hc.loads_or_sameNames with hl | hs
  · exact pictured_of_loadChanges hl.changes hw hp
  · exact hp.of_keeps hc.keeps (by rw [hs.assemblies_eq])

/-- As long as one resolver is in use, every assembly is an image of what this resolver found. -/
lemma Later.pictured (hl : h.Later (·.resolver = R) h') (hw : h.Wellformed)
    (hp : h.Pictured R) : h'.Pictured R := by
  refine (hl.preserves (P := fun g => g.Wellformed ∧ g.Pictured R) (fun w hW g g' hc hg => ?_)
    ⟨hw, hp⟩).2
  subst hW
  exact ⟨hc.wellformed hg.1, hc.pictured hg.1 hg.2⟩

end Host

lemma pictured_of_start {s : Setup} {R : Resolver} {next rest : Nat} {h : Host}
    (hc : s.chosenResolver = some R) (hs : s.start next = (.ok h, rest)) : h.Pictured R := by
  obtain ⟨w, a, h₁, record, hw, hload, -, rfl⟩ := start_eq_ok hs
  obtain rfl : s.worldWith R = w := by simpa [Setup.world?, hc] using hw
  have hblank := Host.wellformed_blank next s.config
  have hloads := ((isLoader_load _ _ _ hblank).of_ok hload).1
  have hp : h₁.Pictured (s.worldWith R).resolver :=
    Host.pictured_of_loadChanges hloads.changes hblank fun _ hi => absurd hi (Nat.not_lt_zero _)
  exact hp.of_keeps (.of_eq rfl rfl rfl rfl rfl) rfl

/-! ## Where the classes of a module are -/

namespace Host

variable {R : Resolver} {h : Host} {c x : ClassHandle} {r : Class} {m : Module} {source : Source}
  {enclosers : List (Option Nat)} {base row : Nat}

/-- The classes of the module of number `i` stand one after the other from a position of the table
on, and the class around each of them is that of the row which is given for its type. -/
structure Seats (h : Host) (i : Nat) (m : Module) (enclosers : List (Option Nat)) (base : Nat) :
    Prop where
  classes_eq : m.classes = (List.range enclosers.length).map (⟨h.id, base + ·⟩)
  record : ∀ row e, enclosers[row]? = some e → ∃ r, h.cls ⟨h.id, base + row⟩ = .ok r ∧
    r.module = ⟨h.id, i⟩ ∧ r.row = row ∧ r.declaring = e.map (⟨h.id, base + ·⟩)

lemma Seats.getElem?_iff {i : Nat} (hs : h.Seats i m enclosers base) :
    m.classes[row]? = some x ↔ row < enclosers.length ∧ x = ⟨h.id, base + row⟩ := by
  rw [hs.classes_eq, List.getElem?_map]
  by_cases hrow : row < enclosers.length
  · simp [hrow, eq_comm]
  · simp [hrow]

/-- A source that does not contradict itself has given the classes their places. -/
lemma Pictured.seats (hp : h.Pictured R) (hw : h.Wellformed) {i : Nat}
    (hm : h.modules[i]? = some m) (hsource : ∀ j, R.source j m.source = source)
    (hn : source.Nests enclosers) : ∃ base, h.Seats i m enclosers base := by
  have hi : i < h.assemblies.length := hw.length_modules ▸ (List.getElem?_eq_some_iff.mp hm).1
  obtain ⟨request, n, he⟩ := hp i hi
  obtain ⟨base, m', hm', hid, hclasses, hrecord⟩ := he.module
  obtain rfl := Option.some.inj (hm.symm.trans hm')
  obtain ⟨j, hcount⟩ := he.describes.counted
  rw [← hid, hsource, hn.typeCount_eq] at hcount
  rw [← hcount] at hclasses
  have hlays : h.Lays base n := ⟨he.describes.named, fun row k hk => by
    obtain ⟨r, hr, hpristine⟩ := hrecord row k hk
    exact ⟨r, _, hr, hpristine⟩⟩
  refine ⟨base, hclasses, fun row e hrow => ?_⟩
  have hlt : row < enclosers.length := (List.getElem?_eq_some_iff.mp hrow).1
  -- the definition that was read is the one that the source would give again
  have hlt' : row < n.definitions.length := by
    rw [NewModule.definitions, List.length_map, ← hcount]
    exact hlt
  have hd := List.getElem?_eq_getElem hlt'
  obtain ⟨j, hdef⟩ := he.describes.defined row _ hd
  rw [← hid, hsource] at hdef
  obtain rfl := Option.some.inj (hrow.symm.trans (hn.encloser row _ hdef))
  obtain ⟨r, hr, hdeclaring⟩ := hlays.declaring hd
  have hget : m.classes[row]? = some ⟨h.id, base + row⟩ := by
    rw [hclasses, List.getElem?_map, List.getElem?_range hlt, Option.map_some]
  obtain ⟨r', hr', -, hmod, hrow'⟩ := hw.of_class i m row _ hm hget
  obtain rfl := Except.ok.inj (hr.symm.trans hr')
  exact ⟨r, hr, hmod, hrow', hdeclaring⟩

/-- The classes that a source lists as nested in a class. -/
def seatsWithin (h : Host) (enclosers : List (Option Nat)) (base row : Nat) : List ClassHandle :=
  (rowsWithin enclosers row).map (⟨h.id, base + ·⟩)

/-- The rows that the source lists pass the test. -/
lemma Seats.describes {i : Nat} (hs : h.Seats i m enclosers base) (row : Nat) :
    List.Forall₂ (h.DescribesNested ⟨h.id, base + row⟩ m) (rowsWithin enclosers row)
      (h.seatsWithin enclosers base row) := by
  rw [seatsWithin, List.forall₂_map_right_iff, List.forall₂_same]
  intro k hk
  have he := mem_rowsWithin.mp hk
  obtain ⟨r, hr, -, -, hdeclaring⟩ := hs.record k _ he
  exact ⟨hs.getElem?_iff.mpr ⟨(List.getElem?_eq_some_iff.mp he).1, rfl⟩, r, hr, hdeclaring⟩

/-- The classes in the rows that the source lists are in ascending order. -/
lemma Seats.sorted {i : Nat} (hs : h.Seats i m enclosers base) (row : Nat) :
    (h.seatsWithin enclosers base row).Pairwise fun x y =>
      ∃ rx ry, h.cls x = .ok rx ∧ h.cls y = .ok ry ∧ rx.row < ry.row := by
  rw [seatsWithin, List.pairwise_map]
  refine (sorted_rowsWithin enclosers row).imp_of_mem fun {k l} hk hl hlt => ?_
  obtain ⟨rx, hx, -, hxrow, -⟩ := hs.record k _ (mem_rowsWithin.mp hk)
  obtain ⟨ry, hy, -, hyrow, -⟩ := hs.record l _ (mem_rowsWithin.mp hl)
  exact ⟨rx, ry, hx, hy, by rwa [hxrow, hyrow]⟩

/-- They are the classes of the module that have the class around them. -/
lemma Seats.mem_iff {i : Nat} (hs : h.Seats i m enclosers base) (hw : h.Wellformed)
    (hm : h.modules[i]? = some m) :
    x ∈ h.seatsWithin enclosers base row ↔ ∃ rx, h.cls x = .ok rx ∧ rx.module = ⟨h.id, i⟩ ∧
      rx.declaring = some ⟨h.id, base + row⟩ := by
  constructor
  · intro hx
    obtain ⟨k, hk, rfl⟩ := List.mem_map.mp hx
    obtain ⟨rx, hrx, hmod, -, hdeclaring⟩ := hs.record k _ (mem_rowsWithin.mp hk)
    exact ⟨rx, hrx, hmod, hdeclaring⟩
  · rintro ⟨rx, hrx, hmod, hdeclaring⟩
    obtain ⟨i', m', hm', hmod', hget⟩ := hw.row_of_cls hrx
    obtain rfl : i = i' := congrArg ModuleHandle.index (hmod.symm.trans hmod')
    obtain rfl := Option.some.inj (hm.symm.trans hm')
    obtain ⟨hlt, rfl⟩ := hs.getElem?_iff.mp hget
    obtain ⟨r', hr', -, -, hdeclaring'⟩ := hs.record rx.row _ (List.getElem?_eq_getElem hlt)
    obtain rfl := Except.ok.inj (hrx.symm.trans hr')
    rw [hdeclaring] at hdeclaring'
    obtain ⟨e, he, heq⟩ := Option.map_eq_some_iff.mp hdeclaring'.symm
    have hrow : e = row := Nat.add_left_cancel (congrArg ClassHandle.index heq)
    refine List.mem_map.mpr ⟨rx.row, mem_rowsWithin.mpr ?_, rfl⟩
    rw [List.getElem?_eq_getElem hlt, he, hrow]

end Host

/-! ## Asking for nested classes -/

section Asking

variable {w : World} {h : Host} {c x : ClassHandle} {r : Class} {m : Module} {row : Nat}
  {rows : List Nat} {cs : List ClassHandle}

lemma nestedRow_run (hx : h.DescribesNested c m row x) :
    nestedRow c r m row w h = (.ok x, h) := by
  obtain ⟨rx, hrx, hdeclaring⟩ := hx.declaring
  rw [nestedRow, hx.row_eq]
  exact (bind_run_ok (cls_run hrx)).trans (by rw [if_pos hdeclaring]; rfl)

/-- All rows of a list pass the test if each one does. -/
lemma each_nestedRow_run (hall : List.Forall₂ (h.DescribesNested c m) rows cs) :
    each (nestedRow c r m) rows w h = (.ok cs, h) := by
  induction hall with
  | nil => rfl
  | cons hx _ ih =>
    rw [each, bind_run_ok (nestedRow_run hx), bind_run_ok ih]
    rfl

/-- A request that finds the nested classes unknown succeeds if the rows that the source lists pass
the test. -/
lemma nested_run (hr : h.cls c = .ok r) (hm : h.module r.module = .ok m)
    (hu : r.nested = .unknown)
    (hanswer : ∀ j, (w.source j m.source).nested r.row = .ok rows)
    (hall : List.Forall₂ (h.DescribesNested c m) rows cs) :
    ∃ h', nested c w h = (.ok cs, h') := by
  have hask : ask m.source .nested r.row (some c) Source.nested w h =
      (.ok rows, h.note (.asked m.source .nested r.row (some c))) := by
    change ofExcept ((w.source _ m.source).nested r.row) w _ = _
    rw [hanswer]
    rfl
  have hall' : List.Forall₂ ((h.note (.asked m.source .nested r.row (some c))).DescribesNested c m)
      rows cs := hall.imp fun _ _ hx => ⟨hx.row_eq, hx.declaring⟩
  have hget : Collection.nested.get r = .unknown := hu
  rw [nested, collect, bind_run_ok (cls_run hr), hget]
  exact ⟨_, (bind_run_ok (module_run hm)).trans ((bind_run_ok hask).trans
    (bind_run_ok (each_nestedRow_run hall')))⟩

/-- With a source that does not contradict itself, the answer is the list of the classes in the rows
that the source gives, whether it is known already or not. -/
lemma nested_run_of_seats {source : Source} {enclosers : List (Option Nat)} {i base : Nat}
    (hr : h.cls c = .ok r) (hm : h.module r.module = .ok m)
    (hv : h.Vouches w.resolver c r .nested) (hsource : ∀ j, w.source j m.source = source)
    (hn : source.Nests enclosers) (hseats : h.Seats i m enclosers base)
    (hrow : m.classes[r.row]? = some c) :
    ∃ h', nested c w h = (.ok (h.seatsWithin enclosers base r.row), h') := by
  obtain ⟨hlt, rfl⟩ := hseats.getElem?_iff.mp hrow
  have hdescribes := hseats.describes r.row
  rcases hget : r.nested with _ | cs
  · refine nested_run hr hm hget (fun j => ?_) hdescribes
    rw [hsource, hn.nested_eq r.row hlt]
  · obtain ⟨m', defs, htold, hall⟩ := hv cs hget
    obtain rfl := Except.ok.inj (hm.symm.trans htold.module)
    have hanswer : source.nested r.row = .ok defs := hsource _ ▸ htold.answer
    obtain rfl := Except.ok.inj ((hn.nested_eq r.row hlt).symm.trans hanswer)
    -- a row leads to one class only
    obtain rfl : cs = h.seatsWithin enclosers base r.row :=
      List.right_unique_forall₂' (fun _ _ _ hx hy => Option.some.inj
        (hx.row_eq.symm.trans hy.row_eq)) hall hdescribes
    exact ⟨h, (Kind.collects_request .nested _).run_known hr hget⟩

end Asking

section Run

variable {s : Setup} {W : World → Prop} {next rest : Nat} {h₀ h : Host} {c : ClassHandle}
  {r : Class}

/-- The classes that are known as nested in a class belong to its module and have the class around
them, whatever sources have said in the course of a run. -/
lemma declaring_of_known (hs : s.start next = (.ok h₀, rest)) (hl : h₀.Later W h)
    (hr : h.cls c = .ok r) {cs : List ClassHandle} (hknown : r.nested = .known cs) :
    ∃ m, h.module r.module = .ok m ∧ ∀ x ∈ cs, x ∈ m.classes ∧
      ∃ rx, h.cls x = .ok rx ∧ rx.module = r.module ∧ rx.declaring = some c := by
  obtain ⟨w, -, hv⟩ :=
    vouches_of_worlds hs hl (p := .nested) (by decide) hr (Facet.nested_known hknown)
  obtain ⟨m, rows, htold, hall⟩ := hv cs hknown
  refine ⟨m, htold.module, fun x hx => ?_⟩
  obtain ⟨row, -, hdescribes⟩ := exists_of_mem_forall₂ hall.flip hx
  obtain ⟨rx, hrx, hdeclaring⟩ := hdescribes.declaring
  -- the record of a class that the module lists names the module
  have hw := hl.wellformed (sound_start hs).settled.wellformed
  obtain ⟨howner, hmodule⟩ := Host.module_eq_ok_iff.mp htold.module
  obtain ⟨rx', hrx', -, hmod, -⟩ := hw.of_class _ m row x hmodule hdescribes.row_eq
  obtain rfl := Except.ok.inj (hrx.symm.trans hrx')
  refine ⟨List.mem_of_getElem? hdescribes.row_eq, rx, hrx, ?_, hdeclaring⟩
  rw [hmod, ← howner]

/-- With a source that does not contradict itself, the nested classes can always be given, and none
is missing. -/
lemma nested_of_nests {R : Resolver} {w : World} {m : Module} {source : Source}
    {enclosers : List (Option Nat)} (hc : s.chosenResolver = some R)
    (hs : s.start next = (.ok h₀, rest)) (hl : h₀.Later (·.resolver = R) h)
    (hr : h.cls c = .ok r) (hm : h.module r.module = .ok m)
    (hsource : ∀ j, R.source j m.source = source) (hn : source.Nests enclosers)
    (hw : w.resolver = R) :
    ∃ cs h', nested c w h = (.ok cs, h') ∧
      cs.Pairwise (fun x y => ∃ rx ry, h.cls x = .ok rx ∧ h.cls y = .ok ry ∧ rx.row < ry.row) ∧
      ∀ x, x ∈ cs ↔ ∃ rx, h.cls x = .ok rx ∧ rx.module = r.module ∧ rx.declaring = some c := by
  have hw₀ := (sound_start hs).settled.wellformed
  have hwf := hl.wellformed hw₀
  obtain ⟨i, m', hmi, hmod, hrow⟩ := hwf.row_of_cls hr
  obtain rfl : m' = m := by
    rw [hmod] at hm
    exact Option.some.inj (hmi.symm.trans (Host.module_eq_ok_iff.mp hm).2)
  have hp := hl.pictured hw₀ (pictured_of_start hc hs)
  obtain ⟨base, hseats⟩ := hp.seats hwf hmi hsource hn
  have hv : h.Vouches R c r .nested := vouches_of_later hs hl (by decide) hr
  subst hw
  obtain ⟨h', hrun⟩ := nested_run_of_seats hr hm hv hsource hn hseats hrow
  refine ⟨_, h', hrun, hseats.sorted r.row, fun x => ?_⟩
  obtain ⟨-, rfl⟩ := hseats.getElem?_iff.mp hrow
  rw [hmod, hseats.mem_iff hwf hmi]

end Run

/-- Nested classes and the classes around them agree.

* Whatever sources say: the classes that are given as nested in a class belong to its module, and
  each of them has the class around it.
* If the source of the module is an assembled module or an image, the nested classes of a class can
  always be given.  They are all those of the module that have the class around them, and their rows
  ascend, so that none is given twice. -/
theorem nested_agree :
    (∀ fs h, Reached fs h → ∀ c w cs h', nested c w h = (.ok cs, h') →
      ∃ r m, h'.cls c = .ok r ∧ h'.module r.module = .ok m ∧
        ∀ x ∈ cs, x ∈ m.classes ∧
          ∃ rx, h'.cls x = .ok rx ∧ rx.module = r.module ∧ rx.declaring = some c) ∧
    ∀ s R next rest h₀ h c r m w, Setup.chosenResolver s = some R →
      s.start next = (.ok h₀, rest) → h₀.Later (·.resolver = R) h →
      h.cls c = .ok r → h.module r.module = .ok m →
      ((∃ a : AssembledModule, ∀ j, R.source j m.source = a.source) ∨
        ∃ (i : Image) (moduleName requested : String),
          ∀ j, R.source j m.source = i.source moduleName requested) →
      World.resolver w = R →
      ∃ cs h', nested c w h = (.ok cs, h') ∧
        cs.Pairwise (fun x y =>
          ∃ rx ry, h.cls x = .ok rx ∧ h.cls y = .ok ry ∧ rx.row < ry.row) ∧
        ∀ x, x ∈ cs ↔
          ∃ rx, h.cls x = .ok rx ∧ rx.module = r.module ∧ rx.declaring = some c := by
  constructor
  · intro fs h hreached c w cs h' hrun
    obtain ⟨s, next, rest, h₀, hs, hl⟩ := hreached.exists_start
    have hw := hl.wellformed (sound_start hs).settled.wellformed
    obtain ⟨hlearns, -, r, hr, hknown⟩ := (nested_obeys (w := w) c hw).of_ok hrun
    have hl' : h₀.Later (fun _ => True) h' := hl.trans (hlearns.completes.later trivial)
    obtain ⟨m, hm, hall⟩ := declaring_of_known hs hl' hr hknown
    exact ⟨r, m, hr, hm, hall⟩
  · intro s R next rest h₀ h c r m w hc hs hl hr hm hsource hw
    rcases hsource with ⟨a, ha⟩ | ⟨i, moduleName, requested, hi⟩
    · exact nested_of_nests hc hs hl hr hm ha a.nests hw
    · exact nested_of_nests hc hs hl hr hm hi (i.nests moduleName requested) hw

/-! An assembled module, in which two types that do not follow each other are nested in one, and a
third in one of them. -/

namespace NestingSpecimen

/-- The module. -/
def library : AssembledModule where
  assemblyName := "mscorlib"
  types :=
    [{ definition := { space := "System", name := "Object" } },
     { definition := { space := "System", name := "List", parent := some (.definition 0) } },
     { definition := { space := "", name := "Node", encloser := some 1 } },
     { definition := { space := "", name := "Link", encloser := some 2 } },
     { definition := { space := "", name := "Cursor", encloser := some 1 } }]

/-- The resolver that finds the module under every name. -/
def resolver : Resolver where
  resolve _ name := .ok { name }
  source _ _ := library.source

/-- What the host is started with. -/
def setup : Setup :=
  { Specimen.setup with resolver := some resolver }

/-- The record of `System.List`. -/
def record : Class :=
  (setup.firstHost.cls? ⟨1, 1⟩).getD default

/-- The module of the host. -/
def home : Module :=
  setup.firstHost.modules.headD default

lemma start_eq : setup.start 1 = (.ok setup.firstHost, 2) := by decide +kernel

lemma record_eq : setup.firstHost.cls ⟨1, 1⟩ = .ok record := by decide +kernel

lemma home_eq : setup.firstHost.module record.module = .ok home := by decide +kernel

lemma nested_eq : (nested ⟨1, 1⟩ setup.world setup.firstHost).1 = .ok [⟨1, 2⟩, ⟨1, 4⟩] := by
  decide +kernel

end NestingSpecimen

open NestingSpecimen in
/-- The classes within `System.List` are `Node` and `Cursor`, and there are no others. -/
theorem nested_agree_specimen :
    setup.start 1 = (.ok setup.firstHost, 2) ∧
    setup.firstHost.cls ⟨1, 1⟩ = .ok record ∧
    setup.firstHost.module record.module = .ok home ∧
    (∀ j, resolver.source j home.source = library.source) ∧
    (∀ x, (∃ rx, setup.firstHost.cls x = .ok rx ∧ rx.module = record.module ∧
      rx.declaring = some ⟨1, 1⟩) ↔ x = ⟨1, 2⟩ ∨ x = ⟨1, 4⟩) ∧
    ∃ h' r m, nested ⟨1, 1⟩ setup.world setup.firstHost =
        (.ok [⟨1, 2⟩, ⟨1, 4⟩], h') ∧
      h'.cls ⟨1, 1⟩ = .ok r ∧ h'.module r.module = .ok m ∧ ⟨1, 2⟩ ∈ m.classes ∧
      ∃ rx, h'.cls ⟨1, 2⟩ = .ok rx ∧ rx.declaring = some ⟨1, 1⟩ := by
  obtain ⟨hany, hassembled⟩ := nested_agree
  obtain ⟨cs, h', hrun, -, hmem⟩ := hassembled setup resolver 1 2 _ _ ⟨1, 1⟩ record home
    setup.world rfl start_eq .refl record_eq home_eq (.inl ⟨library, fun _ => rfl⟩) rfl
  obtain rfl : cs = [⟨1, 2⟩, ⟨1, 4⟩] :=
    Except.ok.inj ((congrArg Prod.fst hrun).symm.trans nested_eq)
  obtain ⟨r, m, hr, hm, hall⟩ := hany [] _ (.started start_eq) _ _ _ _ hrun
  obtain ⟨hclasses, rx, hrx, -, hdeclaring⟩ := hall ⟨1, 2⟩ (by simp)
  refine ⟨start_eq, record_eq, home_eq, fun _ => rfl, fun x => ?_, h', r, m, hrun, hr, hm, hclasses,
    rx, hrx, hdeclaring⟩
  rw [← hmem x]
  simp

end ManagedHost
