/-
# The state of a type initializer

A class may have an initializer that runs once, before anything else of the class. The
first thread that asks is told to run it. Other threads are told to wait, while the running
thread may go on as if the class were ready. How the run ended is kept for all later
requests, a failure together with its error.
-/
import ManagedHost.Error

namespace ManagedHost

/-- A thread, by number. -/
abbrev Thread := Nat

/-- How far the initializer of a class has come. -/
inductive InitState where
  /-- Nobody has asked yet. -/
  | untouched
  /-- The initializer is running on a thread. -/
  | running (owner : Thread)
  /-- The class is ready for use. -/
  | ready
  /-- The initializer failed. -/
  | failed (error : Error)
deriving Repr, DecidableEq, Inhabited

/-- What a thread that needs the class shall do. -/
inductive InitVerdict where
  /-- Run the initializer. -/
  | execute
  /-- Go on, the class is ready. -/
  | ready
  /-- Go on, this thread is running the initializer. -/
  | recursive
  /-- Give up, the initializer failed. -/
  | failed (error : Error)
  /-- Wait for another thread that is running the initializer. -/
  | wait
deriving Repr, DecidableEq, Inhabited

namespace InitState

/-- What thread `t` shall do, and the state from then on. -/
def begin (s : InitState) (t : Thread) : InitVerdict × InitState :=
  match s with
  | untouched => (.execute, running t)
  | running owner => (if owner = t then .recursive else .wait, s)
  | ready => (.ready, s)
  | failed e => (.failed e, s)

/-- The state after the initializer has ended without error. -/
def markReady (_ : InitState) : InitState :=
  ready

/-- The state after the initializer has failed. -/
def markFailed (_ : InitState) (e : Error) : InitState :=
  failed e

/-- The thread that is running the initializer. -/
def owner? : InitState → Option Thread
  | running t => some t
  | _ => none

/-- The state as a number. -/
def code : InitState → Nat
  | untouched => 0
  | running _ => 1
  | ready => 2
  | failed _ => 3

/-- The state as text. -/
def describe : InitState → String
  | untouched => "uninitialized"
  | running _ => "initializing"
  | ready => "initialized"
  | failed _ => "failed"

end InitState

end ManagedHost
