import JobControl.Handlers
import JobControl.Lifecycle

/-! # The service

What callers ask for beside the life of a single job: starting by name, queries, removal of old
jobs, and the administration of job types. -/

namespace JobControl.Service
open Cluster UnitOfWork

/-- Start a job of the type that a name stands for. -/
def start {η : Type} (handlers : Handlers η) (engine : Engine) (name : String) :
    Work (Option (Job Timestamp × Handler η)) := do
  let handler ← Routine.ofExcept (handlers.find name)
  match ← Lifecycle.start engine handler.definition with
  | some job => return some (job, handler)
  | none => return none

/-! ## Queries -/

def findJob (id : String) : Work (Option (Job Instant)) := atomically (Jobs.find? id)

def findStatus (id : String) : Work (Option Status) := atomically (Jobs.findStatus? id)

def defaultCount : Int := 10

def findJobs (jobType : Option String) (count : Int) : Work (List (Job Instant)) :=
  atomically <| match jobType with
    | some t => Jobs.findLatestBy t count
    | none => Jobs.findLatest count

def findLatestDistinct : Work (List (Job Instant)) := atomically Jobs.findLatestDistinct

def findAllWithoutMessages : Work (List (Job Instant)) := atomically Jobs.findAllWithoutMessages

/-! ## Removal of old jobs -/

/-- Drop those of the jobs that are stopped, and count them. -/
def dropStopped : List String → UnitOfWork Nat
  | [] => pure 0
  | id :: rest => do
    let dropped ← Jobs.dropIfStopped id
    let more ← dropStopped rest
    return (if dropped then 1 else 0) + more

/-- Delete the stopped jobs, of one type or of all. -/
def deleteJobs (jobType : Option String) : Work Nat :=
  atomically do
    let jobs ← match jobType with
      | some t => Jobs.findByType t
      | none => Jobs.findAll
    dropStopped ((jobs.filter (·.isStopped)).map (·.id))

/-- The stopped jobs beyond the first `count` of their type, in a list that has the newest first.
Running jobs count but are never listed. -/
def outdated (count : Int) (seen : Tally String) : List (Job Instant) → List String
  | [] => []
  | j :: rest =>
    let seen := seen.bump j.jobType
    let others := outdated count seen rest
    if count < seen.count j.jobType ∧ j.isStopped then j.id :: others else others

/-- Delete the stopped jobs except the newest of every type. -/
def keepLast (count : Int) : Work Nat := do
  let jobs ← atomically Jobs.findAllWithoutMessages
  atomically (dropStopped (outdated count ∅ jobs))

/-! ## Administration -/

def disable (engine : Engine) (jobType comment : String) : Work Unit :=
  atomically (onDocuments (RunLock.disable jobType comment engine.rounds RunLock.noRival))

def enable (engine : Engine) (jobType : String) : Work Unit :=
  atomically (onDocuments (RunLock.enable jobType engine.rounds RunLock.noRival))

def disabledTypes : Work (Mapping String String) := atomically (onDocuments RunLock.disabledTypes)

def runningJobs : Work (List RunningJob) := atomically (onDocuments RunLock.runningJobs)

end JobControl.Service
