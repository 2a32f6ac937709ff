import JobControl.Clock
import JobControl.Routine
import JobControl.Store.Basic

/-! # Units of work

A unit of work is a routine over a store and a clock that is carried out as one step: if it fails,
the store is as it was before. -/

namespace JobControl

structure Workspace where
  store : Store
  clock : Clock
deriving DecidableEq, Repr

abbrev UnitOfWork (α : Type) := Routine Empty Workspace α

namespace UnitOfWork
variable {α : Type}

/-- Carry out a unit of work; the store keeps what it did only if it does not fail. The readings of
the clock remain. -/
def commit (u : UnitOfWork α) (w : Workspace) : Except Failure α × Workspace :=
  match u.run w with
  | (.ok a, w') => (.ok a, w')
  | (.error e, w') => (.error e, { w' with store := w.store })

def query (f : Store → α) : UnitOfWork α := Routine.read fun w => f w.store

def change (f : Store → α × Store) : UnitOfWork α :=
  Routine.update fun w => ((f w.store).1, { w with store := (f w.store).2 })

def now : UnitOfWork Timestamp :=
  Routine.act fun w => (w.clock.read.1, { w with clock := w.clock.read.2 })

/-- The instant under which a time is stored. -/
def stored (t : Timestamp) : UnitOfWork Instant :=
  match t.toInstant? with
  | some i => pure i
  | none => Routine.fail .store

def onDocuments (r : Routine Empty Documents α) : UnitOfWork α :=
  r.zoom (·.store.documents) fun ds w => { w with store := { w.store with documents := ds } }

theorem commit_of_error {u : UnitOfWork α} {w : Workspace} {e : Failure}
    (h : (u.commit w).1 = .error e) : (u.commit w).2.store = w.store := by
  unfold commit at *
  split at h <;> simp_all

end UnitOfWork

/-! # Jobs in a unit of work -/

namespace Jobs
open UnitOfWork

def find? (id : String) : UnitOfWork (Option (Job Instant)) := query (·.find? id)

def findStatus? (id : String) : UnitOfWork (Option Status) := query (·.findStatus? id)

def findAll : UnitOfWork (List (Job Instant)) := query (·.findAll)

def findByType (jobType : String) : UnitOfWork (List (Job Instant)) := query (·.findByType jobType)

/-- A limit that is no count is refused. -/
def checkCount (count : Int) : UnitOfWork Unit :=
  if Store.isCount count then pure () else Routine.fail (.outOfRange .count)

def findLatest (count : Int) : UnitOfWork (List (Job Instant)) := do
  checkCount count
  query (·.findLatest count)

def findLatestBy (jobType : String) (count : Int) : UnitOfWork (List (Job Instant)) := do
  checkCount count
  query (·.findLatestBy jobType count)

def findAllWithoutMessages : UnitOfWork (List (Job Instant)) := query (·.findAllWithoutMessages)

def findLatestDistinct : UnitOfWork (List (Job Instant)) := query (·.findLatestDistinct)

def findStale (cutoff : Timestamp) : UnitOfWork (List (Job Instant)) := do
  let cutoff ← stored cutoff
  query (·.findStale cutoff)

def storedMessage (m : Message Timestamp) : UnitOfWork (Message Instant) :=
  return ⟨m.level, ← stored m.time, m.text⟩

def storedMessages : List (Message Timestamp) → UnitOfWork (List (Message Instant))
  | [] => pure []
  | m :: rest => return (← storedMessage m) :: (← storedMessages rest)

def storedJob (j : Job Timestamp) : UnitOfWork (Job Instant) := do
  let started ← stored j.started
  let lastUpdated ← stored j.lastUpdated
  let stopped ← match j.stopped with
    | none => pure none
    | some t => some <$> stored t
  let messages ← storedMessages j.messages
  return ⟨j.id, j.jobType, started, lastUpdated, stopped, j.status, j.hostname, messages⟩

/-- Add a job; its id must not be in use. -/
def create (j : Job Timestamp) : UnitOfWork Unit := do
  let job ← storedJob j
  if ← query (·.records.contains j.id) then Routine.fail .store
  change fun s => ((), s.insertJob job)

/-- Append a message, if there is such a job. -/
def append (id : String) (m : Message Timestamp) : UnitOfWork Bool := do
  if ← query (·.records.contains id) then
    let message ← storedMessage m
    change fun s => (true, s.appendMessage id message)
  else return false

def setStatus (id : String) (status : Status) : UnitOfWork Bool := change (·.setStatus id status)

def touch (id : String) (time : Timestamp) : UnitOfWork Bool := do
  let time ← stored time
  change (·.touch id time)

def stop (id : String) (time : Timestamp) (status : Option Status) : UnitOfWork Bool := do
  let time ← stored time
  change (·.stop id time status)

def dropIfStopped (id : String) : UnitOfWork Bool := change (·.dropIfStopped id)

end Jobs
end JobControl
