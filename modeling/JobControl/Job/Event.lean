import JobControl.Job.Basic
import JobControl.Time.Seconds

/-! # Job events

What is announced about a job: that it started, that it stopped, that it was declared dead. -/

namespace JobControl

inductive Occasion where
  | started (hostname : String)
  | stopped (status : Option Status) (duration : Micros)
  | dead
deriving DecidableEq, Repr

structure Event where
  jobId : String
  jobType : String
  time : Timestamp
  occasion : Occasion
deriving DecidableEq, Repr

namespace Event

def label (e : Event) : String :=
  match e.occasion with
  | .started _ => "job.started"
  | .stopped .. => "job.stopped"
  | .dead => "job.dead"

/-- The length of a run as it is announced: it goes through a double number of seconds. -/
def duration (d : Micros) : Except Failure Micros :=
  match Double.ofMicros? d with
  | some x => x.toMicros
  | none => .error (.outOfRange .double)

/-- The status that goes with an event; that of a stopped job may have been lost. -/
def status (e : Event) : Option Status :=
  match e.occasion with
  | .started _ => some .ok
  | .stopped status _ => status
  | .dead => some .dead

/-- Earlier events come first, and of those at one time the smaller job id. -/
def notAfter (a b : Event) : Bool :=
  a.time.utcMicros < b.time.utcMicros || (a.time.utcMicros == b.time.utcMicros && a.jobId ≤ b.jobId)

/-- Events in order of time and job id, otherwise as they were announced. -/
def inOrder (events : List Event) : List Event := events.mergeSort notAfter

end Event
end JobControl
