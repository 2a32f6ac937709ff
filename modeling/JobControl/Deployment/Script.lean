import JobControl.Input
import JobControl.Job.Basic
import JobControl.Job.Definition

/-! # Commands and scripts

A command is something that can be asked of a deployment. A script is a handler's behaviour, written
down: for each execution the actions it performs, which may be commands. -/

namespace JobControl

/-- A job or a job type: one that is named, or that of the job in whose handler this stands. -/
inductive Ref where
  | own
  | named (name : String)
deriving DecidableEq, Repr

def Ref.get (own : String) : Ref → String
  | .own => own
  | named name => name

inductive LockCall where
  | tryAcquire (jobType id : String) (blockers : List String)
  | release (jobType : String) (id : Option String)
  | disable (jobType comment : String)
  | enable (jobType : String)
deriving DecidableEq, Repr

inductive StoreCall where
  | create (job : Job Timestamp)
  | find (id : String)
  | findStatus (id : String)
  | findLatest (count : Int)
  | findLatestBy (jobType : String) (count : Int)
  | findByType (jobType : String)
  | findAll
  | findAllWithoutMessages
  | findLatestDistinct
  | findStale (cutoff : Timestamp)
  | append (id : String) (m : Message Timestamp)
  | setStatus (id : String) (status : Status)
  | touch (id : String) (time : Timestamp)
  | stop (id : String) (time : Timestamp) (status : Option Status)
  | dropIfStopped (id : String)
  /-- A call of the run locks, in a given number of rounds or in as many as the engine has. In each
  round a group of competing calls comes between reading and writing. -/
  | lock (call : LockCall) (rounds : Option Int) (rivals : List (List LockCall))
  | snapshot
  | disabledTypes
  | runningJobs
  | raise (e : Failure)
deriving DecidableEq, Repr

inductive Command where
  | start (jobType : Ref)
  | startDefined (d : Definition)
  | stop (job : Ref) (status : Option Status)
  | kill (job : Ref)
  | keepAlive (job : Ref)
  | markSkipped (job : Ref)
  | markRestarted (job : Ref)
  | append (job : Ref) (m : Message Timestamp)
  | killSilent (seconds : Seconds)
  | sweepLocks
  | findJob (job : Ref)
  | findStatus (job : Ref)
  | findJobs (jobType : Option Ref) (count : Int)
  | findLatestDistinct
  | findAllWithoutMessages
  | deleteJobs (jobType : Option Ref)
  | keepLast (count : Int)
  | disable (jobType : Ref) (comment : String)
  | enable (jobType : Ref)
  | disabledTypes
  | runningJobs
  | activeJobs
  /-- Wait for the tracked jobs of a pool, or cancel them. -/
  | shutdown (wait : Bool)
  | transaction (calls : List StoreCall)
  /-- One run of a reaper; what is not given has its default. -/
  | reap (deadAfter keepLast : Option Int)
  | startReaper (name : String) (interval deadAfter keepLast : Option Int)
  | stopReaper (name : String)
  | shiftClock (d : Micros)
  | openGate (name : String)
  /-- A record is lost together with its messages. -/
  | vanish (job : Ref)
  | dump
  /-- A command that was not understood fails when it is given. -/
  | malformed (e : Failure)
deriving Repr

inductive Action where
  | note (level : Level) (text : String)
  | keepAlive
  | sleep (d : Micros)
  | await (gate : String)
  | raise (kind text : String)
  | finish (result : Value)
  | call (site : Nat) (command : Command)

/-- What a handler does in its first, second, … execution of a job; the last entry stands for all
later ones. -/
abbrev Script := List (List Action)

def Script.execution (script : Script) (n : Nat) : List Action :=
  (script[min n (script.length - 1)]?).getD []

end JobControl
