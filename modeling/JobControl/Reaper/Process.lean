import JobControl.Journal
import JobControl.Schedule
import JobControl.Settings

/-! # The reaper as a process

A reaper may run as a process of its own: it reads its settings from the environment, works on the
shared store, and ends when it is told to. -/

namespace JobControl.Reaper

inductive Startup where
  /-- It cannot begin; the second case leaves the connection to the store open. -/
  | refused
  | broken
  | serving (engine : Engine) (reaper : Reaper)
deriving DecidableEq, Repr

/-- Settings that cannot be read and levels that are no levels keep a process from connecting, and
without a number of slots it cannot begin its work. -/
def Startup.ofEnvironment (env : List (String × String)) : Startup :=
  match Settings.ofEnvironment env with
  | .error _ => .refused
  | .ok s =>
    match Journal.threshold (some s.logLevel) with
    | .error _ => .refused
    | .ok _ =>
      if s.workerPoolSize < 0 then .broken
      else .serving ⟨s.hostname.getD "", s.runLockMaxAttempts⟩
        ⟨s.reaperInterval, s.deadJobThreshold, s.cleanupKeepLast⟩

def grace : Micros := 1000

def isEnded (s : Schedule) (watch : Nat) : Bool :=
  s.deployment.watches[watch]?.all (·.loop.phase = .ended)

/-- Run a reaper as a process for a span of time, tell it to stop, and see what became of it. -/
def serve (env : List (String × String)) (span : Micros) (s : Schedule) : Reply × Schedule :=
  match Startup.ofEnvironment env with
  | .refused => (.process true true false, (s.advance span).advance grace)
  | .broken => (.process true true true, (s.advance span).advance grace)
  | .serving engine reaper =>
    let i := s.deployment.watches.length
    let watch : Watch := ⟨none, engine, reaper, .start reaper.pause⟩
    let d := { s.deployment with watches := s.deployment.watches ++ [watch] }
    let s := { s with deployment := d }.settle.advance span
    let before := isEnded s i
    let s := { s with deployment := s.deployment.modifyLoop i (·.stop) }.settle.advance grace
    (.process before (isEnded s i) (!isEnded s i), s)

end JobControl.Reaper
