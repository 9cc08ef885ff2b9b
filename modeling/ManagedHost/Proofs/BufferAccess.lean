/-
# Values are accessed where they lie in a buffer, and nowhere else

A value is written into the slots at a cursor as a whole, or not at all, and it is read from these
slots and from no others.  What decides is a comparison of two numbers, the position after the last
slot that is needed and the length of the buffer.  Positions are words, and a cursor may stand far
beyond the end of the buffer.  As long as the position after the last slot is a word, the comparison
is right.  Otherwise what is left of the position is compared, and an access that passes breaks down
at the cursor, before it has any effect.

The definitions of `Buffer.write` and `Buffer.read` cut lists, which is possible at any position.
A buffer in memory is worked on in place: a loop goes over the slots from the cursor on and over
pieces of eight bytes, and either of them might end too early.  `Buffer.writeInPlace` and
`Buffer.readInPlace` are these loops.  Their positions are words throughout, and whatever is out of
range breaks down where it is touched.

* `Buffer.Exact`: an access that fails exactly if there are not enough slots.
* `Buffer.Checked`: an access that is exact exactly if the position after its last slot is a word.
* `Buffer.checked_write`, `Buffer.checked_read`: what a write leaves behind and what a read gives.
* `Buffer.writeInPlace_eq`, `Buffer.readInPlace_eq`: the loops do the same.
* `access_exact`: the laws for arguments, which are accessed at a cursor, and for results.
-/
import ManagedHost.Proofs.Arguments

namespace ManagedHost

/-- A value takes the least number of slots that have room for its bytes. -/
lemma Slot.count_le_iff {n k : Nat} : Slot.count n ≤ k ↔ n ≤ 8 * k := by
  simp only [Slot.count, Slot.size]
  omega

/-! ## Reading and writing -/

namespace Buffer

variable {b b' : Buffer} {start size : Nat} {data found : List UInt8}

/-- The fault says that `size` bytes from slot `start` on reach beyond the end of the buffer. -/
def Overruns (b : Buffer) (start size : Nat) (e : AccessFault) : Prop :=
  b.length < start + Slot.count size ∧ e = .failed (.overrun (start + Slot.count size) b.length)

/-- An access to `size` bytes from slot `start` on fails exactly if they reach beyond the end of the
buffer, and its result is a good one otherwise. -/
structure Exact {α : Type} (b : Buffer) (start size : Nat) (outcome : Except AccessFault α)
    (Good : α → Prop) : Prop where
  fails : ∀ e, outcome = .error e ↔ b.Overruns start size e
  succeeds : start + Slot.count size ≤ b.length → ∃ a, outcome = .ok a ∧ Good a

/-- The fault where the position after the last slot wraps around: what is left of the position is
reported if it is beyond the end, and otherwise the access breaks down. -/
def wrapFault (b : Buffer) (start size : Nat) : AccessFault :=
  let needed := start + Slot.count size - wordSpan
  if b.length < needed then .failed (.overrun needed b.length) else b.outOfRange start

/-- An access is exact if, and only if, the position after the last slot is a word. -/
structure Checked {α : Type} (b : Buffer) (start size : Nat) (outcome : Except AccessFault α)
    (Good : α → Prop) : Prop where
  exact_iff : b.Exact start size outcome Good ↔ start + Slot.count size < wordSpan
  wraps : wordSpan ≤ start + Slot.count size → outcome = .error (b.wrapFault start size)

/-- The buffer `b'` is `b` with data in the slots from `start` on. -/
structure Receives (b : Buffer) (start : Nat) (data : List UInt8) (b' : Buffer) : Prop where
  length_eq : b'.length = b.length
  /-- The slots hold the data, and zeros up to the end of the last one. -/
  bytes_eq : Buffer.bytes ((b'.drop start).take (Slot.count data.length)) =
    data ++ List.replicate (8 * Slot.count data.length - data.length) 0
  /-- All other slots are as they were. -/
  frame : ∀ i, i < start ∨ start + Slot.count data.length ≤ i → b'[i]? = b[i]?

/-- The bytes `found` are the first ones in the slots from `start` on. -/
structure Yields (b : Buffer) (start size : Nat) (found : List UInt8) : Prop where
  length_eq : found.length = size
  first : found <+: Buffer.bytes ((b.drop start).take (Slot.count size))

end Buffer

/-! ## Positions are words -/

/-- So many bytes can lie in memory: they take less than half of all positions. -/
def Addressable (n : Nat) : Prop :=
  2 * n < wordSpan

instance : DecidablePred Addressable :=
  fun n => inferInstanceAs (Decidable (2 * n < wordSpan))

/-- Addressable bytes take less than an eighth of all positions. -/
lemma count_lt_of_addressable {n : Nat} (hn : Addressable n) : 8 * Slot.count n < wordSpan := by
  simp only [Addressable, wordSpan_eq, Slot.count, Slot.size] at hn ⊢
  omega

namespace Buffer

variable {b b' : Buffer} {start size : Nat} {data found : List UInt8}

lemma check_eq_error (hroom : b.length < start + Slot.count size)
    (hword : start + Slot.count size < wordSpan) :
    b.check start size = .error (.failed (.overrun (start + Slot.count size) b.length)) := by
  have hlate : ¬(b.length < start ∧ wrapWord (start + Slot.count size) ≤ b.length) := by
    rw [wrapWord_of_lt hword]
    omega
  rw [check, if_neg (Nat.not_le.mpr hroom), if_neg hlate, wrapWord_of_lt hword]

/-- A position that wraps around starts beyond the end. -/
lemma length_lt_of_wraps (hb : Addressable (8 * b.length)) (hsize : Addressable size)
    (hwrap : wordSpan ≤ start + Slot.count size) : b.length < start := by
  have hcount := count_lt_of_addressable hsize
  rw [Addressable] at hb
  omega

lemma check_eq_wrapFault (hb : Addressable (8 * b.length)) (hstart : start < wordSpan)
    (hsize : Addressable size) (hwrap : wordSpan ≤ start + Slot.count size) :
    b.check start size = .error (b.wrapFault start size) := by
  have hbeyond := length_lt_of_wraps hb hsize hwrap
  have hcount := count_lt_of_addressable hsize
  have hneeded : wrapWord (start + Slot.count size) = start + Slot.count size - wordSpan :=
    wrapWord_of_le hwrap (by omega)
  rw [check, if_neg (by omega), hneeded, wrapFault]
  by_cases hleft : b.length < start + Slot.count size - wordSpan
  · rw [if_neg (by omega), if_pos hleft]
  · rw [if_pos ⟨hbeyond, by omega⟩, if_neg hleft]

lemma wrapFault_ne_overrun (hwrap : wordSpan ≤ start + Slot.count size) :
    b.wrapFault start size ≠ .failed (.overrun (start + Slot.count size) b.length) := by
  have hpos : 0 < wordSpan := by decide
  rw [wrapFault]
  split
  · intro heq
    injection heq with heq
    injection heq with heq
    omega
  · intro heq
    cases heq

/-- Whatever begins with the check of the bounds, and cannot fail after it, is exact as long as
positions are words. -/
lemma exact_of_check {α : Type} {result : α} {Good : α → Prop}
    (hword : start + Slot.count size < wordSpan)
    (hgood : start + Slot.count size ≤ b.length → Good result) :
    b.Exact start size ((b.check start size).map fun _ => result) Good := by
  rcases Nat.lt_or_ge b.length (start + Slot.count size) with hroom | hroom
  · refine ⟨fun e => ?_, fun hle => absurd hroom (Nat.not_lt.mpr hle)⟩
    rw [check_eq_error hroom hword]
    simp [Except.map, Overruns, hroom, eq_comm]
  · refine ⟨fun e => ?_, fun hle => ⟨result, ?_, hgood hle⟩⟩
    · rw [check_eq_ok hroom]
      simp [Except.map, Overruns, Nat.not_lt.mpr hroom]
    · rw [check_eq_ok hroom]
      rfl

lemma checked_of_check {α : Type} {result : α} {Good : α → Prop}
    (hb : Addressable (8 * b.length)) (hstart : start < wordSpan) (hsize : Addressable size)
    (hgood : start + Slot.count size ≤ b.length → Good result) :
    b.Checked start size ((b.check start size).map fun _ => result) Good := by
  have hwraps : wordSpan ≤ start + Slot.count size →
      ((b.check start size).map fun _ => result) = .error (b.wrapFault start size) := by
    intro hwrap
    rw [check_eq_wrapFault hb hstart hsize hwrap]
    rfl
  refine ⟨⟨fun hexact => ?_, fun hword => exact_of_check hword hgood⟩, hwraps⟩
  -- the position that an exact access would report is never reported
  by_contra hlt
  have hwrap := Nat.not_lt.mp hlt
  obtain ⟨-, heq⟩ := (hexact.fails _).mp (hwraps hwrap)
  exact wrapFault_ne_overrun hwrap heq

lemma length_bytes (b : Buffer) : (Buffer.bytes b).length = 8 * b.length := by
  induction b with
  | nil => rfl
  | cons s b ih =>
    rw [bytes_cons, List.length_append, Slot.length_bytes, ih, List.length_cons]
    omega

lemma receives_slotsOfBytes (hroom : start + Slot.count data.length ≤ b.length) :
    b.Receives start data
      (b.take start ++ slotsOfBytes data ++ b.drop (start + Slot.count data.length)) := by
  have hfront : (b.take start).length = start := List.length_take_of_le (by omega)
  refine ⟨?_, ?_, ?_⟩
  · simp only [List.length_append, hfront, length_slotsOfBytes, List.length_drop]
    omega
  · have hslots : ((b.take start ++ slotsOfBytes data ++
        b.drop (start + Slot.count data.length)).drop start).take (Slot.count data.length) =
          slotsOfBytes data := by
      rw [List.append_assoc, List.drop_left' hfront, List.take_left' (length_slotsOfBytes data)]
    rw [hslots, bytes_slotsOfBytes]
  · rintro i (hi | hi)
    · rw [List.append_assoc, List.getElem?_append_left (by omega), List.getElem?_take_of_lt hi]
    · have hlen : (b.take start ++ slotsOfBytes data).length = start + Slot.count data.length := by
        rw [List.length_append, hfront, length_slotsOfBytes]
      rw [List.getElem?_append_right (by omega), hlen, List.getElem?_drop]
      congr 1
      omega

lemma yields_take (hroom : start + Slot.count size ≤ b.length) :
    b.Yields start size ((Buffer.bytes ((b.drop start).take (Slot.count size))).take size) := by
  refine ⟨List.length_take_of_le ?_, List.take_prefix _ _⟩
  rw [length_bytes, List.length_take_of_le (by rw [List.length_drop]; omega)]
  exact Slot.count_le_iff.mp le_rfl

lemma write_eq (b : Buffer) (start : Nat) (data : List UInt8) :
    b.write start data = (b.check start data.length).map fun _ =>
      b.take start ++ slotsOfBytes data ++ b.drop (start + Slot.count data.length) := by
  rw [write]
  cases b.check start data.length <;> rfl

lemma read_eq (b : Buffer) (start size : Nat) :
    b.read start size = (b.check start size).map fun _ =>
      (Buffer.bytes ((b.drop start).take (Slot.count size))).take size := by
  rw [read]
  cases b.check start size <;> rfl

/-- Data is written wherever there is room for it. -/
lemma exists_write (hroom : start + Slot.count data.length ≤ b.length) :
    ∃ b', b.write start data = .ok b' ∧ b.Receives start data b' := by
  rw [write_eq, check_eq_ok hroom]
  exact ⟨_, rfl, receives_slotsOfBytes hroom⟩

lemma checked_write (hb : Addressable (8 * b.length)) (hstart : start < wordSpan)
    (hdata : Addressable data.length) :
    b.Checked start data.length (b.write start data) (b.Receives start data) :=
  b.write_eq start data ▸ checked_of_check hb hstart hdata receives_slotsOfBytes

lemma checked_read (hb : Addressable (8 * b.length)) (hstart : start < wordSpan)
    (hsize : Addressable size) :
    b.Checked start size (b.read start size) (b.Yields start size) :=
  b.read_eq start size ▸ checked_of_check hb hstart hsize yields_take

/-- At the start of a buffer no position wraps around. -/
lemma Checked.exact_zero {α : Type} {outcome : Except AccessFault α} {Good : α → Prop}
    (hchecked : b.Checked 0 size outcome Good) (hsize : Addressable size) :
    b.Exact 0 size outcome Good := by
  have hcount := count_lt_of_addressable hsize
  exact hchecked.exact_iff.mpr (by omega)

end Buffer

/-! ## Loops over slots -/

/-- The outcome of a change that may fail, and the state after it, which is the old one if the
change has failed. -/
def orUnchanged {σ : Type} (old : σ) : Except AccessFault σ → Except AccessFault Unit × σ
  | .ok new => (.ok (), new)
  | .error e => (.error e, old)

/-- The first bytes of a row of bytes, unless there are fewer. -/
def firstBytes (n : Nat) (bs : List UInt8) : Except AccessFault (List UInt8) :=
  if n ≤ bs.length then .ok (bs.take n)
  else .error (.panicked s!"range end index {n} out of range for slice of length {bs.length}")

/-- Data in pieces of eight bytes.  The last piece may be shorter. -/
def pieces (data : List UInt8) : List (List UInt8) :=
  if data = [] then [] else data.take Slot.size :: pieces (data.drop Slot.size)
termination_by data.length
decreasing_by
  rename_i hne
  have hpos := List.length_pos_iff.mpr hne
  rw [List.length_drop, Slot.size]
  omega

/-- A slot that is zero up to the bytes of a piece, which take the place of its first ones. -/
def Slot.holding (piece : List UInt8) : Except AccessFault Slot := do
  let zeros := List.replicate Slot.size 0
  let place ← firstBytes piece.length zeros
  return Slot.ofBytes (piece ++ zeros.drop place.length)

/-- Puts pieces into slots, one into each, until there are no more of either. -/
def storePieces : List Slot → List (List UInt8) → Except AccessFault Unit × List Slot
  | s :: ss, p :: ps =>
    match Slot.holding p with
    | .ok stored => ((storePieces ss ps).1, stored :: (storePieces ss ps).2)
    | .error e => (.error e, s :: ss)
  | ss, _ => (.ok (), ss)

/-- Replaces pieces by bytes of slots, each by bytes of one slot, until there are no more of
either. -/
def fetchPieces : List Slot → List (List UInt8) → Except AccessFault Unit × List (List UInt8)
  | s :: ss, p :: ps =>
    match firstBytes p.length s.bytes with
    | .ok fetched => ((fetchPieces ss ps).1, fetched :: (fetchPieces ss ps).2)
    | .error e => (.error e, p :: ps)
  | _, ps => (.ok (), ps)

namespace Buffer

/-- Compares the position after the last slot, as a word, with the length of the buffer. -/
def checkBounds (b : Buffer) (start size : Nat) : Except AccessFault Unit :=
  let needed := wrapWord (start + Slot.count size)
  if b.length < needed then .error (.failed (.overrun needed b.length)) else .ok ()

/-- The slots from a position on, unless the position is out of range. -/
def slotsFrom (b : Buffer) (start : Nat) : Except AccessFault Buffer :=
  if start ≤ b.length then .ok (b.drop start) else .error (b.outOfRange start)

/-- The slots on which an access in place works. -/
def enter (b : Buffer) (start size : Nat) : Except AccessFault Buffer := do
  b.checkBounds start size
  b.slotsFrom start

/-- Writes data into the buffer itself. -/
def writeInPlace (b : Buffer) (start : Nat) (data : List UInt8) :
    Except AccessFault Unit × Buffer :=
  match b.enter start data.length with
  | .error e => (.error e, b)
  | .ok slots =>
    let (outcome, stored) := storePieces slots (pieces data)
    (outcome, b.take start ++ stored)

/-- Reads into a row of bytes, as many as it has. -/
def readInPlace (b : Buffer) (start : Nat) (target : List UInt8) :
    Except AccessFault Unit × List UInt8 :=
  match b.enter start target.length with
  | .error e => (.error e, target)
  | .ok slots =>
    let (outcome, fetched) := fetchPieces slots (pieces target)
    (outcome, fetched.flatten)

end Buffer

lemma pieces_nil : pieces [] = [] := by
  rw [pieces, if_pos rfl]

lemma pieces_of_ne_nil {data : List UInt8} (hne : data ≠ []) :
    pieces data = data.take 8 :: pieces (data.drop 8) := by
  rw [pieces, if_neg hne, Slot.size]

lemma holding_eq {piece : List UInt8} (hlen : piece.length ≤ 8) :
    Slot.holding piece = .ok (Slot.ofBytes piece) := by
  have hzeros : piece.length ≤ (List.replicate Slot.size (0 : UInt8)).length := by
    rwa [List.length_replicate, Slot.size]
  simp only [Slot.holding, firstBytes, if_pos hzeros, bind, Except.bind, List.drop_replicate,
    Slot.ofBytes, ofLittleEndian_append_zeros]
  rfl

lemma firstBytes_take (target : List UInt8) (s : Slot) :
    firstBytes (target.take 8).length s.bytes = .ok (s.bytes.take target.length) := by
  have hle : (target.take 8).length ≤ s.bytes.length := by
    rw [Slot.length_bytes]
    exact List.length_take_le 8 target
  have hall : (s.bytes.take target.length).length ≤ 8 := by
    rw [List.length_take, Slot.length_bytes]
    exact Nat.min_le_right _ 8
  rw [firstBytes, if_pos hle, List.length_take, ← List.take_take, List.take_of_length_le hall]

/-- Induction on data, a piece at a time. -/
lemma piecewise {P : List UInt8 → Prop} (nil : P [])
    (piece : ∀ data, data ≠ [] → P (data.drop 8) → P data) (data : List UInt8) : P data := by
  induction hn : data.length using Nat.strong_induction_on generalizing data with
  | _ n ih =>
    by_cases hne : data = []
    · exact hne ▸ nil
    · have hpos := List.length_pos_iff.mpr hne
      exact piece data hne (ih _ (by rw [← hn, List.length_drop]; omega) _ rfl)

lemma storePieces_pieces (data : List UInt8) {ss : List Slot}
    (hroom : Slot.count data.length ≤ ss.length) :
    storePieces ss (pieces data) =
      (.ok (), slotsOfBytes data ++ ss.drop (Slot.count data.length)) := by
  induction data using piecewise generalizing ss with
  | nil => cases ss <;> simp [pieces_nil, storePieces, slotsOfBytes, Slot.count, Slot.size]
  | piece data hne ih =>
    have hcount := Slot.count_of_pos (List.length_pos_iff.mpr hne)
    cases ss with
    | nil => simp [hcount] at hroom
    | cons s ss =>
      have hrest : Slot.count (data.drop 8).length ≤ ss.length := by
        simpa [hcount] using hroom
      simp only [pieces_of_ne_nil hne, storePieces, holding_eq (List.length_take_le 8 data),
        ih hrest, slotsOfBytes_eq_cons hne, hcount, List.length_drop]
      rfl

lemma fetchPieces_pieces (target : List UInt8) {ss : List Slot}
    (hroom : Slot.count target.length ≤ ss.length) :
    (fetchPieces ss (pieces target)).1 = .ok () ∧
    (fetchPieces ss (pieces target)).2.flatten =
      (Buffer.bytes (ss.take (Slot.count target.length))).take target.length := by
  induction target using piecewise generalizing ss with
  | nil => cases ss <;> simp [pieces_nil, fetchPieces]
  | piece target hne ih =>
    have hcount := Slot.count_of_pos (List.length_pos_iff.mpr hne)
    cases ss with
    | nil => simp [hcount] at hroom
    | cons s ss =>
      have hrest : Slot.count (target.drop 8).length ≤ ss.length := by
        simpa [hcount] using hroom
      obtain ⟨hok, hflat⟩ := ih hrest
      simp only [pieces_of_ne_nil hne, fetchPieces, firstBytes_take, hcount, List.take_succ_cons,
        Buffer.bytes_cons, List.take_append, Slot.length_bytes, List.length_drop,
        List.flatten_cons] at hok hflat ⊢
      exact ⟨hok, by rw [hflat]⟩

namespace Buffer

variable {b : Buffer} {start size : Nat} {data target : List UInt8}

/-- The comparison of words, with the slice that follows it, amounts to the check of the bounds. -/
lemma enter_eq (hb : Addressable (8 * b.length)) (hstart : start < wordSpan)
    (hsize : Addressable size) :
    b.enter start size = (b.check start size).map fun _ => b.drop start := by
  have hcount := count_lt_of_addressable hsize
  simp only [enter, checkBounds, slotsFrom]
  rcases Nat.lt_or_ge (start + Slot.count size) wordSpan with hword | hwrap
  · rw [wrapWord_of_lt hword]
    rcases Nat.lt_or_ge b.length (start + Slot.count size) with hroom | hroom
    · rw [check_eq_error hroom hword, if_pos hroom]
      rfl
    · rw [check_eq_ok hroom, if_neg (Nat.not_lt.mpr hroom), if_pos (by omega)]
      rfl
  · have hbeyond := length_lt_of_wraps hb hsize hwrap
    rw [check_eq_wrapFault hb hstart hsize hwrap, wrapWord_of_le hwrap (by omega), wrapFault,
      if_neg (Nat.not_le.mpr hbeyond)]
    by_cases hleft : b.length < start + Slot.count size - wordSpan
    · rw [if_pos hleft, if_pos hleft]
      rfl
    · rw [if_neg hleft, if_neg hleft]
      rfl

/-- A check of the bounds that passes has found room. -/
lemma le_of_check_eq_ok (hcheck : b.check start size = .ok ()) :
    start + Slot.count size ≤ b.length := by
  by_contra hlt
  rw [check, if_neg hlt] at hcheck
  split at hcheck <;> cases hcheck

/-- Writing in place does what `write` says, and has no effect if it fails. -/
lemma writeInPlace_eq (hb : Addressable (8 * b.length)) (hstart : start < wordSpan)
    (hdata : Addressable data.length) :
    b.writeInPlace start data = orUnchanged b (b.write start data) := by
  rw [writeInPlace, enter_eq hb hstart hdata, write_eq]
  cases hcheck : b.check start data.length with
  | error e => rfl
  | ok =>
    have hroom := le_of_check_eq_ok hcheck
    have hslots : Slot.count data.length ≤ (b.drop start).length := by
      rw [List.length_drop]
      omega
    simp only [Except.map, storePieces_pieces data hslots, List.drop_drop, ← List.append_assoc,
      orUnchanged]

/-- Reading in place does what `read` says, and has no effect if it fails. -/
lemma readInPlace_eq (hb : Addressable (8 * b.length)) (hstart : start < wordSpan)
    (htarget : Addressable target.length) :
    b.readInPlace start target = orUnchanged target (b.read start target.length) := by
  rw [readInPlace, enter_eq hb hstart htarget, read_eq]
  cases hcheck : b.check start target.length with
  | error e => rfl
  | ok =>
    have hroom := le_of_check_eq_ok hcheck
    have hslots : Slot.count target.length ≤ (b.drop start).length := by
      rw [List.length_drop]
      omega
    obtain ⟨hok, hflat⟩ := fetchPieces_pieces target hslots
    simp only [Except.map, hok, hflat, orUnchanged]

end Buffer

/-! ## Cursors -/

/-- Writes at the cursor in place, and moves the cursor once the data is written. -/
def ArgWriter.pushInPlace (w : ArgWriter) (data : List UInt8) :
    Except AccessFault Unit × ArgWriter :=
  match w.buffer.writeInPlace w.offset data with
  | (.error e, b) => (.error e, { w with buffer := b })
  | (.ok (), b) => (.ok (), ⟨b, wrapWord (w.offset + Slot.count data.length)⟩)

/-- Reads at the cursor into a row of bytes, and moves the cursor once the bytes are read. -/
def ArgReader.readInPlace (r : ArgReader) (target : List UInt8) :
    Except AccessFault Unit × List UInt8 × ArgReader :=
  match r.buffer.readInPlace r.offset target with
  | (.error e, bs) => (.error e, bs, r)
  | (.ok (), bs) =>
    (.ok (), bs, { r with offset := wrapWord (r.offset + Slot.count target.length) })

section Cursor

variable {b : Buffer} {cursor size : Nat} {data target : List UInt8}

lemma pushBytes_eq (b : Buffer) (cursor : Nat) (data : List UInt8) :
    ArgWriter.pushBytes ⟨b, cursor⟩ data = (b.check cursor data.length).map fun _ =>
      ⟨b.take cursor ++ slotsOfBytes data ++ b.drop (cursor + Slot.count data.length),
        cursor + Slot.count data.length⟩ := by
  rw [ArgWriter.pushBytes, Buffer.write_eq]
  cases b.check cursor data.length <;> rfl

lemma readBytes_eq (b : Buffer) (cursor size : Nat) :
    ArgReader.readBytes ⟨b, cursor⟩ size = (b.check cursor size).map fun _ =>
      ((Buffer.bytes ((b.drop cursor).take (Slot.count size))).take size,
        ⟨b, cursor + Slot.count size⟩) := by
  rw [ArgReader.readBytes, Buffer.read_eq]
  cases b.check cursor size <;> rfl

/-- Bytes are read wherever there are enough of them. -/
lemma exists_readBytes (hroom : cursor + Slot.count size ≤ b.length) :
    ∃ bs, ArgReader.readBytes ⟨b, cursor⟩ size = .ok (bs, ⟨b, cursor + Slot.count size⟩) ∧
      b.Yields cursor size bs := by
  rw [readBytes_eq, Buffer.check_eq_ok hroom]
  exact ⟨_, rfl, Buffer.yields_take hroom⟩

/-- Where there is room, the cursor does not wrap around. -/
lemma wrapWord_of_check (hb : Addressable (8 * b.length)) (hcheck : b.check cursor size = .ok ()) :
    wrapWord (cursor + Slot.count size) = cursor + Slot.count size := by
  have hroom := Buffer.le_of_check_eq_ok hcheck
  rw [Addressable] at hb
  exact wrapWord_of_lt (by omega)

lemma pushInPlace_eq (hb : Addressable (8 * b.length)) (hcursor : cursor < wordSpan)
    (hdata : Addressable data.length) :
    ArgWriter.pushInPlace ⟨b, cursor⟩ data =
      orUnchanged ⟨b, cursor⟩ (ArgWriter.pushBytes ⟨b, cursor⟩ data) := by
  rw [ArgWriter.pushInPlace, Buffer.writeInPlace_eq hb hcursor hdata, Buffer.write_eq, pushBytes_eq]
  cases hcheck : b.check cursor data.length with
  | error e => rfl
  | ok => simp only [Except.map, orUnchanged, wrapWord_of_check hb hcheck]

lemma argReader_readInPlace_eq (hb : Addressable (8 * b.length)) (hcursor : cursor < wordSpan)
    (htarget : Addressable target.length) :
    ArgReader.readInPlace ⟨b, cursor⟩ target =
      orUnchanged (target, ⟨b, cursor⟩) (ArgReader.readBytes ⟨b, cursor⟩ target.length) := by
  rw [ArgReader.readInPlace, Buffer.readInPlace_eq hb hcursor htarget, Buffer.read_eq, readBytes_eq]
  cases hcheck : b.check cursor target.length with
  | error e => rfl
  | ok => simp only [Except.map, orUnchanged, wrapWord_of_check hb hcheck]

/-- Writing at a cursor moves the cursor past the slots that receive the data. -/
lemma checked_pushBytes (hb : Addressable (8 * b.length)) (hcursor : cursor < wordSpan)
    (hdata : Addressable data.length) :
    b.Checked cursor data.length (ArgWriter.pushBytes ⟨b, cursor⟩ data) fun w =>
      w.offset = cursor + Slot.count data.length ∧ b.Receives cursor data w.buffer := by
  rw [pushBytes_eq]
  exact Buffer.checked_of_check hb hcursor hdata fun hroom =>
    ⟨rfl, Buffer.receives_slotsOfBytes hroom⟩

/-- Reading at a cursor moves the cursor past the slots that the bytes are from. -/
lemma checked_readBytes (hb : Addressable (8 * b.length)) (hcursor : cursor < wordSpan)
    (hsize : Addressable size) :
    b.Checked cursor size (ArgReader.readBytes ⟨b, cursor⟩ size) fun x =>
      x.2 = ⟨b, cursor + Slot.count size⟩ ∧ b.Yields cursor size x.1 := by
  rw [readBytes_eq]
  exact Buffer.checked_of_check hb hcursor hsize fun hroom => ⟨rfl, Buffer.yields_take hroom⟩

end Cursor

/-- Arguments are written and read at a cursor, and results at the start of a buffer.

* Accesses at a cursor are exact if, and only if, the position after the last slot is a word; if it
  is none, they fail with what is left of this position, or break down at the cursor.
* Accesses at the start are exact.
* The loops that work in place agree with this, and have no effect if they fail; so they touch
  nothing that is out of range unless a position wraps around. -/
theorem access_exact {b : Buffer} {cursor : Nat} {data target : List UInt8}
    (hb : Addressable (8 * b.length)) (hcursor : cursor < wordSpan)
    (hdata : Addressable data.length) (htarget : Addressable target.length) :
    (∀ n k, Slot.count n ≤ k ↔ n ≤ 8 * k) ∧
    -- arguments that are written
    b.Checked cursor data.length (ArgWriter.pushBytes ⟨b, cursor⟩ data) (fun w =>
      w.offset = cursor + Slot.count data.length ∧ b.Receives cursor data w.buffer) ∧
    ArgWriter.pushInPlace ⟨b, cursor⟩ data =
      orUnchanged ⟨b, cursor⟩ (ArgWriter.pushBytes ⟨b, cursor⟩ data) ∧
    -- arguments that are read
    b.Checked cursor target.length (ArgReader.readBytes ⟨b, cursor⟩ target.length) (fun x =>
      x.2 = ⟨b, cursor + Slot.count target.length⟩ ∧ b.Yields cursor target.length x.1) ∧
    ArgReader.readInPlace ⟨b, cursor⟩ target =
      orUnchanged (target, ⟨b, cursor⟩) (ArgReader.readBytes ⟨b, cursor⟩ target.length) ∧
    -- results that are written, and results that are read
    b.Exact 0 data.length (b.setReturn data) (b.Receives 0 data) ∧
    b.writeInPlace 0 data = orUnchanged b (b.setReturn data) ∧
    b.Exact 0 target.length (b.getReturn target.length) (b.Yields 0 target.length) ∧
    b.readInPlace 0 target = orUnchanged target (b.getReturn target.length) := by
  have hzero : 0 < wordSpan := by decide
  refine ⟨fun n k => Slot.count_le_iff, ?_, ?_, ?_, ?_, ?_, ?_, ?_, ?_⟩
  · exact checked_pushBytes hb hcursor hdata
  · exact pushInPlace_eq hb hcursor hdata
  · exact checked_readBytes hb hcursor htarget
  · exact argReader_readInPlace_eq hb hcursor htarget
  · exact (Buffer.checked_write hb hzero hdata).exact_zero hdata
  · exact Buffer.writeInPlace_eq hb hzero hdata
  · exact (Buffer.checked_read hb hzero htarget).exact_zero htarget
  · exact Buffer.readInPlace_eq hb hzero htarget

/-- One slot, with a cursor at the last position.  One byte needs a slot up to the position `0`,
and writing it breaks down; for seventeen bytes the position is `2`, which is reported.  One byte at
the start is written. -/
theorem access_exact_wrapped :
    ArgWriter.pushInPlace ⟨[7], 18446744073709551615⟩ [1] =
      (.error (.panicked
        "range start index 18446744073709551615 out of range for slice of length 1"),
        ⟨[7], 18446744073709551615⟩) ∧
    ArgReader.readInPlace ⟨[7], 18446744073709551615⟩ (List.replicate 17 0) =
      (.error (.failed (.overrun 2 1)), List.replicate 17 0, ⟨[7], 18446744073709551615⟩) ∧
    ∃ b', Buffer.setReturn [7] [1] = .ok b' ∧ Buffer.Receives [7] 0 [1] b' := by
  obtain ⟨-, hpush, hpush', hread, hread', hset, -⟩ :=
    @access_exact [7] 18446744073709551615 [1] (List.replicate 17 0)
      (show Addressable 8 by decide) (by decide) (show Addressable 1 by decide)
      (show Addressable 17 by decide)
  refine ⟨?_, ?_, hset.succeeds (by decide)⟩
  · rw [hpush', hpush.wraps (by decide)]
    decide
  · rw [hread', hread.wraps (by decide)]
    decide

end ManagedHost
