import JobControl.Deployment.Basic

/-! # Performing commands

`Command.perform` is the routine by which a command is carried out at a site, `Reply` what it
answers. -/

namespace JobControl

inductive Reply where
  | nothing
  | flag (b : Bool)
  | count (n : Nat)
  | id (id : Option String)
  | names (names : List String)
  | status (s : Option Status)
  | job (j : Option (Job Timestamp))
  | jobs (js : List (Job Timestamp))
  | entries (m : Mapping String String)
  | running (rs : List RunningJob)
  | lock (r : LockResult)
  /-- What the calls of a unit of work answered, and the failure that ended it. -/
  | calls (replies : List Reply) (failure : Option Failure)
  | store (s : Store)
  /-- Whether what was waited for is over. -/
  | finished (b : Bool)
  | plan (r : Reaper)
  /-- Whether a process had ended before and after it was told to, and whether it is connected. -/
  | process (before after connected : Bool)

namespace Reply

def ofJob (j : Option (Job Instant)) : Reply := .job (j.map (·.map Timestamp.ofInstant))

def ofJobs (js : List (Job Instant)) : Reply := .jobs (js.map (·.map Timestamp.ofInstant))

end Reply

/-- The number of rounds of an engine for which none other is configured. -/
def defaultRounds : Int := 5

def LockCall.perform (rounds : Int) (rival : RunLock.Rival) : LockCall → RunLock.Statements Reply
  | tryAcquire jobType id blockers =>
    .lock <$> RunLock.tryAcquire jobType id blockers rounds rival
  | release jobType id => .flag <$> RunLock.release jobType id rounds rival
  | disable jobType comment =>
    (fun _ => .nothing) <$> RunLock.disable jobType comment rounds rival
  | enable jobType => (fun _ => .nothing) <$> RunLock.enable jobType rounds rival

/-- The calls of a competing writer; what becomes of them does not matter to others. -/
def LockCall.performAll : List LockCall → RunLock.Statements Unit
  | [] => pure ()
  | c :: rest => do
    let _ ← (c.perform defaultRounds RunLock.noRival).attempt
    performAll rest

def LockCall.rival (groups : List (List LockCall)) : RunLock.Rival :=
  fun round => performAll (groups[round]?.getD [])

namespace StoreCall
open UnitOfWork

def perform (engine : Engine) : StoreCall → UnitOfWork Reply
  | create job => do
    Jobs.create job
    return .job (some job)
  | find id => Reply.ofJob <$> Jobs.find? id
  | findStatus id => .status <$> Jobs.findStatus? id
  | findLatest count => Reply.ofJobs <$> Jobs.findLatest count
  | findLatestBy jobType count => Reply.ofJobs <$> Jobs.findLatestBy jobType count
  | findByType jobType => Reply.ofJobs <$> Jobs.findByType jobType
  | findAll => Reply.ofJobs <$> Jobs.findAll
  | findAllWithoutMessages => Reply.ofJobs <$> Jobs.findAllWithoutMessages
  | findLatestDistinct => Reply.ofJobs <$> Jobs.findLatestDistinct
  | findStale cutoff => do
    let stale ← Jobs.findStale cutoff
    return Reply.ofJobs (stale.mergeSort fun a b => a.id ≤ b.id)
  | append id m => .flag <$> Jobs.append id m
  | setStatus id status => .flag <$> Jobs.setStatus id status
  | touch id time => .flag <$> Jobs.touch id time
  | stop id time status => .flag <$> Jobs.stop id time status
  | dropIfStopped id => .flag <$> Jobs.dropIfStopped id
  | lock call rounds rivals =>
    onDocuments (call.perform (rounds.getD engine.rounds) (LockCall.rival rivals))
  | snapshot => .entries <$> onDocuments RunLock.snapshot
  | disabledTypes => .entries <$> onDocuments RunLock.disabledTypes
  | runningJobs => .running <$> onDocuments RunLock.runningJobs
  | raise e => Routine.fail e

/-- Perform calls one after the other up to the first failure; the replies before it are kept. -/
def performAll (engine : Engine) : List StoreCall → UnitOfWork (List Reply × Option Failure)
  | [] => pure ([], none)
  | c :: rest => do
    match ← (c.perform engine).attempt with
    | .ok reply =>
      let (replies, failure) ← performAll engine rest
      return (reply :: replies, failure)
    | .error e => return ([], some e)

/-- One unit of work made of calls. If a call fails, nothing of it remains but the answers. -/
def transaction (engine : Engine) (calls : List StoreCall) : Cluster.Work Reply :=
  Routine.yielding <| Routine.act fun c =>
    match (performAll engine calls).run c.toWorkspace with
    | (.ok (replies, none), w) => (.ok (.calls replies none), { c with toWorkspace := w })
    | (.ok (replies, some e), w) => (.ok (.calls replies (some e)), { c with clock := w.clock })
    | (.error e, w) => (.error e, { c with clock := w.clock })

end StoreCall

/-- The job in whose handler a command stands. -/
structure Identity where
  id : String
  jobType : String

namespace Command
open Deployment

def plan (interval deadAfter keepLast : Option Int) : Reaper :=
  ⟨interval.getD 60, deadAfter.getD 180, keepLast.getD 100⟩

/-- Start a job and submit its execution to the pool of the site. -/
def performStart (site : Nat) (name : String) : Work Reply := do
  let d ← Routine.read fun d => (d.handlers, d.engine site)
  match ← onCluster (Service.start d.1 d.2 name) with
  | some (job, handler) =>
    Routine.modify (·.modifyPool site (·.submit job.id handler))
    return .id (some job.id)
  | none => return .id none

def startWatch (site : Nat) (name : String) (reaper : Reaper) (d : Deployment) : Deployment :=
  { d with watches := d.watches ++ [⟨some name, d.engine site, reaper, .start reaper.pause⟩] }

def stopLatest (name : String) : List Watch → List Watch
  | [] => []
  | w :: rest =>
    if w.name == some name && !rest.any (·.name == some name) then
      { w with loop := w.loop.stop } :: rest
    else w :: stopLatest name rest

def reply {α : Type} (f : α → Reply) (r : Cluster.Work α) : Work Reply := f <$> onCluster r

def silently (r : Cluster.Work Unit) : Work Reply := reply (fun _ => .nothing) r

/-- Carry out a command at a site, for a job if it stands in its handler. -/
def perform (site : Nat) (self : Identity) (command : Command) : Work Reply := do
  let engine ← Routine.read (·.engine site)
  match command with
  | start jobType => performStart site (jobType.get self.jobType)
  | startDefined d => reply .job (Lifecycle.start engine d)
  | stop job status => reply .ofJob (Lifecycle.stop engine (job.get self.id) status)
  | kill job => reply .ofJob (Lifecycle.kill engine (job.get self.id))
  | keepAlive job => silently (Lifecycle.keepAlive (job.get self.id))
  | markSkipped job => silently (Lifecycle.markSkipped (job.get self.id))
  | markRestarted job => silently (Lifecycle.markRestarted (job.get self.id))
  | append job m => silently (Lifecycle.append (job.get self.id) m)
  | killSilent seconds => reply .names (Lifecycle.killSilentSince engine seconds)
  | sweepLocks => reply .names (Lifecycle.sweepLocks engine)
  | findJob job => reply .ofJob (Service.findJob (job.get self.id))
  | findStatus job => reply .status (Service.findStatus (job.get self.id))
  | findJobs jobType count =>
    reply .ofJobs (Service.findJobs (jobType.map (·.get self.jobType)) count)
  | findLatestDistinct => reply .ofJobs Service.findLatestDistinct
  | findAllWithoutMessages => reply .ofJobs Service.findAllWithoutMessages
  | deleteJobs jobType => reply .count (Service.deleteJobs (jobType.map (·.get self.jobType)))
  | keepLast count => reply .count (Service.keepLast count)
  | disable jobType comment => silently (Service.disable engine (jobType.get self.jobType) comment)
  | enable jobType => silently (Service.enable engine (jobType.get self.jobType))
  | disabledTypes => reply .entries Service.disabledTypes
  | runningJobs => reply .running Service.runningJobs
  | activeJobs => Routine.read fun d => .names (((d.pool? site).map (·.activeJobs)).getD [])
  | shutdown wait => do
    if !wait then Routine.modify (·.cancelTracked site)
    return .nothing
  | transaction calls => onCluster (StoreCall.transaction engine calls)
  | reap deadAfter keep =>
    reply .names ((plan none deadAfter keep).runOnce engine)
  | startReaper name interval deadAfter keep => do
    let reaper := plan interval deadAfter keep
    Routine.modify (startWatch site name reaper)
    return .plan reaper
  | stopReaper name => do
    Routine.modify fun d => { d with watches := stopLatest name d.watches }
    return .nothing
  | shiftClock d => do
    onCluster (Routine.modify fun c => { c with clock := c.clock.shift d })
    return .nothing
  | openGate name => do
    Routine.modify fun d => { d with gates := name :: d.gates }
    return .nothing
  | vanish job => do
    onCluster (Routine.modify fun c => { c with store := c.store.drop (job.get self.id) })
    return .nothing
  | dump => Routine.read fun d => .store d.cluster.store
  | malformed e => Routine.fail e

end Command
end JobControl
