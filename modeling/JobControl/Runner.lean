import JobControl.Deployment.Command

/-! # The runner

The runner executes the handler of a started job: it announces the start, keeps the job alive,
repeats an execution that failed as often as the definition allows, and in the end stops the job,
however the execution ended. -/

namespace JobControl

namespace Action
open Deployment

/-- From this number of ids on, handlers start no more jobs. -/
def startLimit : Nat := 20

def performCall (site : Nat) (self : Identity) : Command → Work Unit
  | .start jobType => do
    if (← Routine.read (·.cluster.ids.handed)) < startLimit then
      let _ ← Command.perform site self (.start jobType)
  | command => do
    let _ ← Command.perform site self command

def performNote (self : Identity) (level : Level) (text : String) : Work Unit :=
  onCluster do
    let now ← Cluster.now
    Lifecycle.append self.id ⟨level, now, text⟩

/-- Perform actions up to the one that ends the execution. A handler without a result did its
work. -/
def play (self : Identity) : List Action → Work Bool
  | [] => pure true
  | action :: rest => do
    match action with
    | note level text => performNote self level text; play self rest
    | keepAlive => onCluster (Lifecycle.keepAlive self.id); play self rest
    | sleep d => Routine.await (.after d); play self rest
    | await gate => Routine.await (.gate gate); play self rest
    | raise kind text => Routine.fail (.raised kind text)
    | finish result => return result.isTruthy
    | call site command => performCall site self command; play self rest

end Action

namespace Runner
open Deployment

def elapsed : Work Micros := Routine.read (·.now)

/-- Execute a handler once and record how long it took. -/
def execute (self : Identity) (handler : Handler Script) : Work Bool := do
  let began ← elapsed
  let body : Work Bool := do
    let n ← Routine.update (countExecution self.id)
    Action.play self (handler.body.execution n)
  body.ensure do
    let now ← elapsed
    onCluster (Cluster.record (·.jobRan handler.definition.jobType (now - began)))

def fatalText (self : Identity) (e : Failure) : String :=
  "Fatal error in job " ++ self.jobType ++ " (" ++ self.id ++ "): " ++ e.kind ++ ": " ++ e.noted

/-- Execute a handler once; if that fails, note it and go on with `again`. -/
def attemptOnce (self : Identity) (handler : Handler Script) (again : Work Unit) :
    Work Unit := do
  match ← (execute self handler).attempt with
  | .ok true => return ()
  | .ok false => onCluster (Lifecycle.markSkipped self.id)
  | .error e =>
    Action.performNote self .error (fatalText self e)
    again

/-- Wait for a number of seconds; one without end is never over. -/
def pause (seconds : Double) : Work Unit :=
  match seconds.toMicros with
  | .ok d => if d ≠ 0 then Routine.await (.after d) else pure ()
  | .error _ => Routine.await .never

/-- Execute a handler, and again after a failure, with at most the given number of restarts. -/
def attemptAll (self : Identity) (handler : Handler Script) : Nat → Work Unit
  | 0 => attemptOnce self handler (pure ())
  | restarts + 1 =>
    attemptOnce self handler do
      onCluster (Lifecycle.markRestarted self.id)
      pause handler.definition.retryDelay
      attemptAll self handler restarts

/-- End the heartbeat, stop the job and announce it. -/
def close (site ticket : Nat) (self : Identity) (began : Micros) : Work Unit := do
  Routine.modify (endHeartbeat site ticket)
  Routine.pass
  let engine ← Routine.read (·.engine site)
  let job ← onCluster (Lifecycle.stop engine self.id none)
  let now ← elapsed
  onCluster do
    let time ← Cluster.now
    Cluster.announce ⟨self.id, self.jobType, time, .stopped (job.map (·.status)) (now - began)⟩

/-- Announce the start of a job, keep it alive while its handler is executed, and close it. -/
def attend (site ticket : Nat) (self : Identity) (handler : Handler Script) (began : Micros) :
    Work Unit := do
  let engine ← Routine.read (·.engine site)
  onCluster do
    let time ← Cluster.now
    Cluster.announce ⟨self.id, self.jobType, time, .started engine.hostname⟩
  Routine.modify (beginHeartbeat site ticket self.id)
  (attemptAll self handler handler.definition.restarts).ensure (close site ticket self began)

/-- Go on with `work` if the job was found and is not stopped. -/
def unlessStopped (found : Option (Job Instant)) (work : Work Unit) : Work Unit :=
  match found with
  | none => pure ()
  | some job => if job.isStopped then pure () else work

/-- Look a job up and attend to it. A job that was stopped or removed while it waited for a slot is
left alone. -/
def inspect (site ticket : Nat) (id : String) (handler : Handler Script) (began : Micros) :
    Work Unit := do
  let found ← onCluster (Service.findJob id)
  unlessStopped found (attend site ticket ⟨id, handler.definition.jobType⟩ handler began)

def run (site ticket : Nat) (id : String) (handler : Handler Script) : Work Unit := do
  let began ← elapsed
  inspect site ticket id handler began

end Runner
end JobControl
