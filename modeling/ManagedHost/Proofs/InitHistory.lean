/-
# The verdict on an initializer follows from its history

Many threads may ask for the initializer of one class, and any of them may mark it ready or
failed, in any order.  What the next thread is told depends on two things of the past only: the
last mark, and, where there is no mark, the thread that was the first to ask.

A host keeps the state of an initializer in three cells: a code, the token of the thread that is
running the initializer, and the error of the last failure.  They are written one at a time, and
the slot of the error is never cleared.  `InitCells.Stores` says which states three cells stand
for; the cells and the states give the same answers, step by step.

* `InitEvent.verdict` : what the past says to a thread that asks.
* `ofHistory_eq` : the state after a history.
* `InitCells.Stores.answers` : cells and states answer alike.
* `begin_ofHistory` : the main statement.
-/
import Mathlib.Tactic.Basic
import ManagedHost.InitState

namespace ManagedHost

/-- What a thread does to the initializer of a class. -/
inductive InitEvent where
  /-- It asks what to do. -/
  | begin (t : Thread)
  /-- It marks the class ready. -/
  | markReady (t : Thread)
  /-- It marks the initializer failed. -/
  | markFailed (t : Thread) (e : Error)
deriving Repr, DecidableEq

/-! ## What a history says -/

namespace InitEvent

/-- The thread that asks. -/
def beginner? : InitEvent → Option Thread
  | begin t => some t
  | _ => none

/-- What a mark tells the threads that ask after it. -/
def report? : InitEvent → Option InitVerdict
  | begin _ => none
  | markReady _ => some .ready
  | markFailed _ e => some (.failed e)

/-- What the last mark of a history tells. -/
def lastReport (past : List InitEvent) : Option InitVerdict :=
  (past.filterMap report?).getLast?

/-- The first thread that asks in a history. -/
def firstBeginner (past : List InitEvent) : Option Thread :=
  (past.filterMap beginner?).head?

/-- What thread `t` is told after a history: the last mark, or to run the initializer if nobody
has asked before, or to go on or to wait. -/
def verdict (past : List InitEvent) (t : Thread) : InitVerdict :=
  match lastReport past, firstBeginner past with
  | some v, _ => v
  | none, none => .execute
  | none, some x => if x = t then .recursive else .wait

lemma lastReport_cons (ev : InitEvent) (rest : List InitEvent) :
    lastReport (ev :: rest) = (lastReport rest).or ev.report? := by
  cases hr : ev.report? with
  | none => simp [lastReport, hr]
  | some v => simp [lastReport, hr, List.getLast?_cons, Option.or_some]

lemma firstBeginner_cons (ev : InitEvent) (rest : List InitEvent) :
    firstBeginner (ev :: rest) = ev.beginner?.or (firstBeginner rest) := by
  cases hb : ev.beginner? <;> simp [firstBeginner, hb]

/-- The last report is that of a mark. -/
lemma exists_of_lastReport {past : List InitEvent} {v : InitVerdict}
    (hv : lastReport past = some v) : ∃ ev ∈ past, ev.report? = some v :=
  List.mem_filterMap.mp (List.mem_of_getLast? hv)

/-- Every event is a question or a mark. -/
lemma report?_eq_none_iff {ev : InitEvent} : ev.report? = none ↔ ∃ t, ev = .begin t := by
  cases ev <;> simp [report?]

end InitEvent

/-! ## Runs of a history -/

section

variable {σ : Type} (step : σ → InitEvent → Option InitVerdict × σ)

/-- The state in which a history ends. -/
def endOf (s : σ) (past : List InitEvent) : σ :=
  past.foldl (fun s ev => (step s ev).2) s

/-- The events of a history, each with the answer to it. -/
def answers (s : σ) : List InitEvent → List (InitEvent × Option InitVerdict)
  | [] => []
  | ev :: rest => (ev, (step s ev).1) :: answers (step s ev).2 rest

@[simp] lemma endOf_cons (s : σ) (ev : InitEvent) (rest : List InitEvent) :
    endOf step s (ev :: rest) = endOf step (step s ev).2 rest := rfl

end

namespace InitState

/-- One event, with the answer if the event is a question. -/
def step (s : InitState) : InitEvent → Option InitVerdict × InitState
  | .begin t => (some (s.begin t).1, (s.begin t).2)
  | .markReady _ => (none, s.markReady)
  | .markFailed _ e => (none, s.markFailed e)

/-- The state after a history. -/
def ofHistory (past : List InitEvent) : InitState :=
  endOf step untouched past

/-- The state that a report is about. -/
def ofReport : InitVerdict → InitState
  | .failed e => failed e
  | _ => ready

end InitState

/-! ## The three cells -/

/-- The token of a thread.  No thread has the token 0. -/
def Thread.token (t : Thread) : Nat :=
  t + 1

/-- The cells that hold the state of an initializer. -/
structure InitCells where
  /-- The state as a number. -/
  code : Nat := 0
  /-- The token of the thread that is running the initializer, or 0. -/
  owner : Nat := 0
  /-- The error of the last failure. -/
  failure : Option Error := none
deriving Repr, DecidableEq

namespace InitCells

/-- What thread `t` shall do, and the cells from then on. -/
def begin (cells : InitCells) (t : Thread) : InitVerdict × InitCells :=
  if cells.code = 0 then (.execute, { cells with code := 1, owner := t.token })
  else if cells.code = 2 then (.ready, cells)
  else if cells.code = 1 then (if cells.owner = t.token then .recursive else .wait, cells)
  else (.failed (cells.failure.getD (.invocation "type initializer failed")), cells)

/-- The cells after the owner has been cleared and the code set. -/
def finish (cells : InitCells) (code : Nat) : InitCells :=
  { cells with owner := 0, code }

/-- One event, with the answer if the event is a question. -/
def step (cells : InitCells) : InitEvent → Option InitVerdict × InitCells
  | .begin t => (some (cells.begin t).1, (cells.begin t).2)
  | .markReady _ => (none, cells.finish 2)
  | .markFailed _ e => (none, { cells with failure := some e }.finish 3)

/-- The cells after a history. -/
def ofHistory (past : List InitEvent) : InitCells :=
  endOf step {} past

/-- The cells hold a state.  The slot of the error matters only after a failure. -/
structure Stores (cells : InitCells) (s : InitState) : Prop where
  code : cells.code = s.code
  owner : cells.owner = s.owner?.elim 0 Thread.token
  failure : ∀ e, s = .failed e → cells.failure = some e

lemma stores_untouched : Stores {} .untouched where
  code := rfl
  owner := rfl
  failure := by
    intro e he
    cases he

variable {cells : InitCells} {s : InitState}

lemma Stores.begin (hs : Stores cells s) (t : Thread) :
    (cells.begin t).1 = (s.begin t).1 ∧ Stores (cells.begin t).2 (s.begin t).2 := by
  have hcode := hs.code
  cases s with
  | untouched =>
    simp only [InitState.code] at hcode
    refine ⟨by simp [InitCells.begin, InitState.begin, hcode], ?_⟩
    simp only [InitCells.begin, InitState.begin, hcode, if_true]
    exact ⟨rfl, rfl, by simp⟩
  | running x =>
    simp only [InitState.code] at hcode
    have howner : cells.owner = x.token := hs.owner
    have heq : cells.owner = t.token ↔ x = t := by
      rw [howner, Thread.token, Thread.token, Nat.add_right_cancel_iff]
    simp [InitCells.begin, InitState.begin, hcode, heq, hs]
  | ready =>
    simp only [InitState.code] at hcode
    simp [InitCells.begin, InitState.begin, hcode, hs]
  | failed e =>
    simp only [InitState.code] at hcode
    simp [InitCells.begin, InitState.begin, hcode, hs, hs.failure e rfl]

/-- One event keeps the cells and the state together. -/
lemma Stores.step (hs : Stores cells s) (ev : InitEvent) :
    (cells.step ev).1 = (s.step ev).1 ∧ Stores (cells.step ev).2 (s.step ev).2 := by
  cases ev with
  | begin t =>
    obtain ⟨hverdict, hnext⟩ := hs.begin t
    exact ⟨congrArg some hverdict, hnext⟩
  | markReady t => exact ⟨rfl, rfl, rfl, by simp [InitState.step, InitState.markReady]⟩
  | markFailed t e =>
    refine ⟨rfl, rfl, rfl, ?_⟩
    rintro e' he
    cases he
    rfl

lemma Stores.endOf (hs : Stores cells s) (past : List InitEvent) :
    Stores (endOf InitCells.step cells past) (endOf InitState.step s past) := by
  induction past generalizing cells s with
  | nil => exact hs
  | cons ev rest ih => exact ih (hs.step ev).2

lemma Stores.answers (hs : Stores cells s) (past : List InitEvent) :
    answers InitCells.step cells past = answers InitState.step s past := by
  induction past generalizing cells s with
  | nil => rfl
  | cons ev rest ih =>
    obtain ⟨hverdict, hnext⟩ := hs.step ev
    rw [ManagedHost.answers, ManagedHost.answers, hverdict, ih hnext]

lemma stores_ofHistory (past : List InitEvent) :
    Stores (ofHistory past) (InitState.ofHistory past) :=
  stores_untouched.endOf past

end InitCells

/-! ## The state after a history -/

namespace InitState

variable {s : InitState} {past : List InitEvent}

/-- Only an untouched state depends on who asks. -/
lemma step_of_ne_untouched (hs : s ≠ untouched) (ev : InitEvent) :
    (s.step ev).2 = ev.report?.elim s ofReport := by
  cases ev with
  | begin t =>
    cases s with
    | untouched => exact absurd rfl hs
    | _ => rfl
  | markReady t => rfl
  | markFailed t e => rfl

lemma step_ne_untouched (s : InitState) (ev : InitEvent) : (s.step ev).2 ≠ untouched := by
  cases ev with
  | begin t => cases s <;> simp [step, begin]
  | markReady t => simp [step, markReady]
  | markFailed t e => simp [step, markFailed]

/-- From a state that somebody has touched, only marks count. -/
lemma endOf_of_ne_untouched (hs : s ≠ untouched) (past : List InitEvent) :
    endOf step s past = (InitEvent.lastReport past).elim s ofReport := by
  induction past generalizing s with
  | nil => rfl
  | cons ev rest ih =>
    rw [endOf_cons, ih (step_ne_untouched s ev), step_of_ne_untouched hs,
      InitEvent.lastReport_cons]
    cases InitEvent.lastReport rest <;> rfl

/-- The state after a history is that of the last mark.  Without a mark it is running on the
first thread that asked. -/
lemma ofHistory_eq (past : List InitEvent) :
    ofHistory past = (InitEvent.lastReport past).elim
      ((InitEvent.firstBeginner past).elim untouched running) ofReport := by
  cases past with
  | nil => rfl
  | cons ev rest =>
    rw [ofHistory, endOf_cons, endOf_of_ne_untouched (step_ne_untouched _ _),
      InitEvent.lastReport_cons, InitEvent.firstBeginner_cons]
    cases ev <;> cases InitEvent.lastReport rest <;> rfl

lemma owner?_ofReport (v : InitVerdict) : (ofReport v).owner? = none := by
  cases v <;> rfl

/-- A thread owns the initializer from its first question until the first mark. -/
lemma owner?_ofHistory (x : Thread) :
    (ofHistory past).owner? = some x ↔
      InitEvent.firstBeginner past = some x ∧ InitEvent.lastReport past = none := by
  rw [ofHistory_eq]
  cases InitEvent.lastReport past with
  | some v => simp [owner?_ofReport]
  | none => cases InitEvent.firstBeginner past <;> simp [owner?]

/-- After a mark, everybody is told what the mark says. -/
lemma begin_ofReport {ev : InitEvent} {v : InitVerdict} (hv : ev.report? = some v) (t : Thread) :
    ((ofReport v).begin t).1 = v := by
  cases ev with
  | begin x => simp [InitEvent.report?] at hv
  | markReady x =>
    cases hv
    rfl
  | markFailed x e =>
    cases hv
    rfl

lemma begin_ofHistory_eq_verdict (past : List InitEvent) (t : Thread) :
    ((ofHistory past).begin t).1 = InitEvent.verdict past t := by
  rw [ofHistory_eq, InitEvent.verdict]
  cases hreport : InitEvent.lastReport past with
  | some v =>
    obtain ⟨ev, -, hv⟩ := InitEvent.exists_of_lastReport hreport
    exact begin_ofReport hv t
  | none => cases InitEvent.firstBeginner past <;> rfl

lemma ofHistory_eq_untouched_iff : ofHistory past = untouched ↔ past = [] := by
  cases past with
  | nil => simp [ofHistory, endOf]
  | cons ev rest =>
    have hne : ofHistory (ev :: rest) ≠ untouched := by
      rw [ofHistory, endOf_cons, endOf_of_ne_untouched (step_ne_untouched _ _)]
      cases hreport : InitEvent.lastReport rest with
      | none => exact step_ne_untouched _ _
      | some v => cases v <;> simp [ofReport]
    simp [hne]

/-! ## Who is told to run the initializer -/

lemma begin_eq_execute_iff {t : Thread} : (s.begin t).1 = .execute ↔ s = untouched := by
  cases s with
  | running x => by_cases hx : x = t <;> simp [begin, hx]
  | _ => simp [begin]

/-- Nobody is told to run an initializer that somebody has touched. -/
lemma execute_notMem_answers (hs : s ≠ untouched) :
    ∀ a ∈ answers step s past, a.2 ≠ some .execute := by
  induction past generalizing s with
  | nil => simp [answers]
  | cons ev rest ih =>
    simp only [answers, List.mem_cons, forall_eq_or_imp]
    refine ⟨?_, ih (step_ne_untouched s ev)⟩
    cases ev with
    | begin t =>
      intro hexec
      exact hs (begin_eq_execute_iff.mp (Option.some.inj hexec))
    | markReady t => simp [step]
    | markFailed t e => simp [step]

/-- Exactly the thread whose question opens the history is told to run the initializer. -/
lemma begin_execute_mem_answers {x : Thread} :
    (.begin x, some .execute) ∈ answers step untouched past ↔
      past.head? = some (.begin x) := by
  cases past with
  | nil => simp [answers]
  | cons ev rest =>
    have hrest : (InitEvent.begin x, some .execute) ∉ answers step (untouched.step ev).2 rest :=
      fun hmem => execute_notMem_answers (step_ne_untouched _ ev) _ hmem rfl
    rw [answers, List.mem_cons, or_iff_left hrest]
    cases ev <;> simp [step, begin, eq_comm]

lemma count_execute_le_one (past : List InitEvent) :
    (answers step untouched past).countP (fun a => a.2 = some .execute) ≤ 1 := by
  cases past with
  | nil => simp [answers]
  | cons ev rest =>
    have hrest : (answers step (untouched.step ev).2 rest).countP
        (fun a => a.2 = some .execute) = 0 := by
      rw [List.countP_eq_zero]
      intro a ha
      simpa using execute_notMem_answers (step_ne_untouched _ ev) a ha
    rw [answers, List.countP_cons, hrest]
    split <;> omega

end InitState

/-- A history without a mark consists of questions, so its first event is the first question. -/
lemma InitEvent.head?_eq_begin_iff {past : List InitEvent} (hmark : lastReport past = none)
    (x : Thread) : past.head? = some (.begin x) ↔ firstBeginner past = some x := by
  cases past with
  | nil => simp [firstBeginner]
  | cons ev rest =>
    rw [lastReport_cons, Option.or_eq_none_iff] at hmark
    obtain ⟨t, rfl⟩ := report?_eq_none_iff.mp hmark.2
    simp [firstBeginner, beginner?]

/-- The owner is the thread that was told to run the initializer, until the first mark. -/
lemma InitState.owner?_ofHistory_iff {past : List InitEvent} (x : Thread) :
    (InitState.ofHistory past).owner? = some x ↔
      (.begin x, some .execute) ∈ answers InitState.step .untouched past ∧
        InitEvent.lastReport past = none := by
  rw [owner?_ofHistory, begin_execute_mem_answers]
  constructor
  · rintro ⟨hfirst, hmark⟩
    exact ⟨(InitEvent.head?_eq_begin_iff hmark x).mpr hfirst, hmark⟩
  · rintro ⟨hhead, hmark⟩
    exact ⟨(InitEvent.head?_eq_begin_iff hmark x).mp hhead, hmark⟩

/-- For every history of one initializer, by any threads in any order:

* a thread that asks after it is told what `InitEvent.verdict` says, by the state and by the
  three cells, and along the way both have given the same answers;
* a thread is told to run the initializer only if nothing has happened before, so this is told
  at most once;
* where there is no mark, the first thread that asked is the one that was told so;
* this thread is the owner from then on until the first mark, and there is no owner at all other
  times; the cell of the owner holds the token of the owner, or 0. -/
theorem begin_ofHistory (past : List InitEvent) :
    (∀ t, ((InitState.ofHistory past).begin t).1 = InitEvent.verdict past t ∧
      ((InitCells.ofHistory past).begin t).1 = InitEvent.verdict past t) ∧
    answers InitCells.step {} past = answers InitState.step .untouched past ∧
    (∀ t, ((InitState.ofHistory past).begin t).1 = .execute ↔ past = []) ∧
    (answers InitState.step .untouched past).countP (fun a => a.2 = some .execute) ≤ 1 ∧
    (InitEvent.lastReport past = none → ∀ x,
      (InitEvent.begin x, some InitVerdict.execute) ∈ answers InitState.step .untouched past ↔
        InitEvent.firstBeginner past = some x) ∧
    (∀ x, (InitState.ofHistory past).owner? = some x ↔
      (InitEvent.begin x, some InitVerdict.execute) ∈ answers InitState.step .untouched past ∧
        InitEvent.lastReport past = none) ∧
    (InitCells.ofHistory past).owner =
      (InitState.ofHistory past).owner?.elim 0 Thread.token := by
  have hstores := InitCells.stores_ofHistory past
  refine ⟨fun t => ?_, InitCells.stores_untouched.answers past, fun t => ?_,
    InitState.count_execute_le_one past, fun hmark x => ?_, InitState.owner?_ofHistory_iff,
    hstores.owner⟩
  · have hverdict := InitState.begin_ofHistory_eq_verdict past t
    exact ⟨hverdict, (hstores.begin t).1.trans hverdict⟩
  · rw [InitState.begin_eq_execute_iff, InitState.ofHistory_eq_untouched_iff]
  · rw [InitState.begin_execute_mem_answers, InitEvent.head?_eq_begin_iff hmark]

/-- A mark out of turn, a failure that overwrites it, and a question after both. -/
example : answers InitState.step .untouched
      [.begin 1, .begin 2, .markReady 2, .markFailed 3 (.overrun 1 0), .begin 1] =
    [(.begin 1, some .execute), (.begin 2, some .wait), (.markReady 2, none),
      (.markFailed 3 (.overrun 1 0), none), (.begin 1, some (.failed (.overrun 1 0)))] := by
  decide

end ManagedHost
