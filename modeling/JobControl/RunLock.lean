import JobControl.Routine
import JobControl.Job.Basic
import JobControl.Store.Document

/-! # Run locks

At most one job of a type runs at a time: its id stands in the running document under its type. Each
operation here is a routine of single statements on the shared documents, between which other
writers may act. A write takes effect only if the version that was read is still current; otherwise
the operation starts over, for a limited number of rounds. -/

namespace JobControl

inductive LockResult where
  | acquired
  | refused (reason : Refusal)
deriving DecidableEq, Repr

namespace LockResult

def label : LockResult → String
  | acquired => "acquired"
  | refused r => r.label

def isAcquired : LockResult → Bool
  | acquired => true
  | refused _ => false

def ofLabel? : String → Option LockResult
  | "acquired" => some .acquired
  | "disabled" => some (.refused .disabled)
  | "already_running" => some (.refused .alreadyRunning)
  | "blocked" => some (.refused .blocked)
  | _ => none

end LockResult

namespace RunLock

abbrev Statements (α : Type) := Routine Empty Documents α

/-- What a competing writer does in a given round, between reading and writing. -/
abbrev Rival := Nat → Statements Unit

def noRival : Rival := fun _ => pure ()

/-- Read a document, creating it if there is none. -/
def load (topic : Topic) : Statements Document := do
  match ← Routine.read (·.get topic) with
  | some d => return d
  | none =>
    Routine.modify (·.create topic)
    match ← Routine.read (·.get topic) with
    | some d => return d
    | none => Routine.fail .store

/-- Why the lock of a type is not given out, going by what was read. Only the disabling of the type
itself counts; the type itself is always among its blockers. -/
def refusal? (running disabled : Document) (jobType : String) (blockers : List String) :
    Option Refusal :=
  if disabled.data.contains jobType then some .disabled
  else if running.data.contains jobType then some .alreadyRunning
  else if blockers.any (running.data.contains ·) then some .blocked
  else none

/-- Rounds `round`, `round + 1`, … of an acquisition, `left` of them. -/
def acquireFrom (rival : Rival) (jobType id : String) (blockers : List String) (round : Nat) :
    Nat → Statements LockResult
  | 0 => Routine.fail (.contention (.acquiring jobType))
  | left + 1 => do
    let running ← load .running
    let disabled ← load .disabled
    rival round
    match refusal? running disabled jobType blockers with
    | some reason => return .refused reason
    | none =>
      let written ← Routine.update <|
        Documents.replaceRunning running.version disabled.version (running.data.insert jobType id)
      if written then return .acquired
      else acquireFrom rival jobType id blockers (round + 1) left

/-- Take the lock of a job type for a job. A negative number of rounds is none. -/
def tryAcquire (jobType id : String) (blockers : List String) (rounds : Int)
    (rival : Rival) : Statements LockResult :=
  acquireFrom rival jobType id blockers 0 rounds.toNat

def releaseFrom (rival : Rival) (jobType : String) (id : Option String) (round : Nat) :
    Nat → Statements Bool
  | 0 => Routine.fail (.contention (.releasing jobType))
  | left + 1 => do
    let running ← load .running
    rival round
    match running.data.get? jobType with
    | none => return false
    | some holder =>
      if id.any (· ≠ holder) then return false
      else
        let written ← Routine.update <|
          Documents.replace .running running.version (running.data.erase jobType)
        if written then return true else releaseFrom rival jobType id (round + 1) left

/-- Give back the lock of a job type; with an id, only if that job holds it. -/
def release (jobType : String) (id : Option String) (rounds : Int) (rival : Rival) :
    Statements Bool :=
  releaseFrom rival jobType id 0 rounds.toNat

def amendFrom (rival : Rival) (topic : Topic) (f : Mapping String String → Mapping String String)
    (round : Nat) : Nat → Statements Unit
  | 0 => Routine.fail (.contention (.updating topic.label))
  | left + 1 => do
    let d ← load topic
    rival round
    let written ← Routine.update (Documents.replace topic d.version (f d.data))
    if written then return () else amendFrom rival topic f (round + 1) left

def disable (jobType comment : String) (rounds : Int) (rival : Rival) : Statements Unit :=
  amendFrom rival .disabled (·.insert jobType comment) 0 rounds.toNat

def enable (jobType : String) (rounds : Int) (rival : Rival) : Statements Unit :=
  amendFrom rival .disabled (·.erase jobType) 0 rounds.toNat

/-- The job that holds the lock, for every locked type. -/
def snapshot : Statements (Mapping String String) := do
  return (← load .running).data

/-- The disabled types with the comments they were disabled with. -/
def disabledTypes : Statements (Mapping String String) := do
  return (← load .disabled).data

def runningJobs : Statements (List RunningJob) := do
  let entries := (← snapshot).entries.mergeSort fun a b => a.1 ≤ b.1
  return entries.map fun (jobType, id) => ⟨id, jobType⟩

end RunLock
end JobControl
