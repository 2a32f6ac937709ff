import JobControl.Cluster
import JobControl.Job.Definition
import JobControl.RunLock

/-! # The life of a job

A job is created together with its run lock, notes messages while it runs, and is stopped once. A
running job that is not heard of for too long is killed. Each operation is a few units of work; what
names no existing job changes nothing. -/

namespace JobControl

namespace Note

def dead : String := "Job didn't receive updates for a while, considering it dead"
def skipped : String := "Skipped job .."
def restarted : String := "Restarting job .."

end Note

namespace Lifecycle
open Cluster UnitOfWork

/-! ## Starting -/

/-- Take the run lock and add the job, or do neither. -/
def enter (engine : Engine) (d : Definition) (job : Job Timestamp) : UnitOfWork Unit := do
  match ← onDocuments (RunLock.tryAcquire job.jobType job.id d.blockers engine.rounds
      RunLock.noRival) with
  | .acquired => Jobs.create job
  | .refused reason => Routine.fail (.refused job.jobType reason)

/-- Start a job of the defined type, unless its run lock is not given out. -/
def start (engine : Engine) (d : Definition) : Work (Option (Job Timestamp)) := do
  let id ← nextId
  let now ← Cluster.now
  let job := Job.new id d.jobType now engine.hostname
  match ← (atomically (enter engine d job)).attempt with
  | .ok () =>
    record (·.jobStarted job.jobType)
    return some job
  | .error (.refused jobType reason) =>
    record (·.jobBlocked jobType reason.label)
    return none
  | .error e => Routine.fail e

/-! ## Stopping -/

def unlock (engine : Engine) (jobType id : String) : UnitOfWork Bool :=
  onDocuments (RunLock.release jobType (some id) engine.rounds RunLock.noRival)

/-- Give back the run lock if the job holds it, and stop the job if it is running. -/
def leave (engine : Engine) (id : String) (status : Option Status) :
    UnitOfWork (Option (Job Instant) × Bool) := do
  match ← Jobs.find? id with
  | none => return (none, false)
  | some job =>
    let _ ← unlock engine job.jobType id
    let stopped ← Jobs.stop id (← UnitOfWork.now) status
    return (← Jobs.find? id, stopped)

/-- Stop a job; the second result tells whether it was running. -/
def finish (engine : Engine) (id : String) (status : Option Status) :
    Work (Option (Job Instant) × Bool) := do
  match ← atomically (leave engine id status) with
  | (some job, true) =>
    record (·.jobStopped job.jobType job.status.label)
    return (some job, true)
  | r => return r

/-- Stop a job and give back its run lock. The status stays unless another is given. -/
def stop (engine : Engine) (id : String) (status : Option Status) :
    Work (Option (Job Instant)) := do
  return (← finish engine id status).1

/-! ## Messages and signs of life -/

/-- Note a message; an error also makes itself the status of a running job, and is an update. -/
def noting (id : String) (m : Message Timestamp) : UnitOfWork Unit := do
  let appended ← Jobs.append id m
  if appended && m.level == .error then
    let _ ← Jobs.setStatus id .error
    match (← UnitOfWork.now).latest? m.time with
    | some time => let _ ← Jobs.touch id time
    | none => Routine.fail .mixedTimes

def append (id : String) (m : Message Timestamp) : Work Unit := atomically (noting id m)

def keepAlive (id : String) : Work Unit :=
  atomically do
    let _ ← Jobs.touch id (← UnitOfWork.now)

/-- Note a message, which is an update, and set the status of a running job. -/
def marking (id : String) (m : Message Timestamp) (status : Status) : UnitOfWork Unit := do
  if ← Jobs.append id m then
    let _ ← Jobs.touch id m.time
    let _ ← Jobs.setStatus id status

def mark (id : String) (level : Level) (text : String) (status : Status) : Work Unit := do
  let now ← Cluster.now
  atomically (marking id ⟨level, now, text⟩ status)

def markSkipped (id : String) : Work Unit := mark id .info Note.skipped .skipped

def markRestarted (id : String) : Work Unit := mark id .warning Note.restarted .ok

/-! ## Killing -/

/-- Stop a job as dead; if it was running, say so in a message and in an event. -/
def kill (engine : Engine) (id : String) : Work (Option (Job Instant)) := do
  match ← finish engine id (some .dead) with
  | (some job, true) =>
    append id ⟨.warning, ← Cluster.now, Note.dead⟩
    record (·.jobKilled job.jobType)
    announce ⟨id, job.jobType, ← Cluster.now, .dead⟩
    return some job
  | (job, _) => return job

def killSilent (engine : Engine) (job : Job Instant) : Work (Option String) := do
  match ← kill engine job.id with
  | some killed => return if killed.status == .dead then some job.id else none
  | none => return none

/-- Give back the lock of one entry, unless its job is running. -/
def releaseLeaked (engine : Engine) (entry : RunningJob) : UnitOfWork Bool := do
  let job ← Jobs.find? entry.id
  if job.any (!·.isStopped) then return false
  else unlock engine entry.jobType entry.id

def sweepEntry (engine : Engine) (entry : RunningJob) : Work (Option String) := do
  if ← atomically (releaseLeaked engine entry) then
    record (·.lockCleared entry.jobType)
    return some entry.jobType
  else return none

/-- Give back the run locks whose job is stopped or gone. Each is looked at again when its turn
comes, so a lock that was taken meanwhile is left alone. -/
def sweepLocks (engine : Engine) : Work (List String) := do
  let entries ← atomically (onDocuments RunLock.runningJobs)
  Routine.collect (sweepEntry engine) entries

/-- The time before which the last update of a job is too long ago. -/
def cutoff (seconds : Seconds) : Work Timestamp := do
  let now ← Cluster.now
  let span ← Routine.ofExcept seconds.toSpan
  match now.add? (-span) with
  | some t => return t
  | none => Routine.fail (.outOfRange .time)

/-- Kill the jobs that were found silent, then give back leaked locks. -/
def killAll (engine : Engine) (silent : List (Job Instant)) : Work (List String) := do
  let killed ← Routine.collect (killSilent engine) silent
  let _ ← sweepLocks engine
  return killed

/-- Kill the running jobs without an update since the given time, then give back leaked locks. -/
def killSilentBefore (engine : Engine) (since : Timestamp) : Work (List String) := do
  let silent ← atomically (Jobs.findStale since)
  killAll engine silent

/-- Kill the running jobs without an update for the given span, then give back leaked locks. -/
def killSilentSince (engine : Engine) (seconds : Seconds) : Work (List String) := do
  let since ← cutoff seconds
  killSilentBefore engine since

end Lifecycle
end JobControl
