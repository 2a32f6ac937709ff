import JobControl.Time.Timestamp

/-! # Jobs

The status of a job, its messages, and what is known of one execution. `Job τ` holds its times as
`τ`: as instants in the store, and as the timestamps of a clock where a job is created. -/

namespace JobControl

inductive Status where
  | ok
  | error
  | dead
  | skipped
deriving DecidableEq, Repr, Inhabited

namespace Status

def label : Status → String
  | ok => "OK"
  | error => "ERROR"
  | dead => "DEAD"
  | skipped => "SKIPPED"

def ofLabel? (s : String) : Option Status :=
  [ok, error, dead, skipped].find? (·.label == s)

end Status

inductive Level where
  | info
  | warning
  | error
deriving DecidableEq, Repr, Inhabited

namespace Level

def label : Level → String
  | info => "INFO"
  | warning => "WARNING"
  | error => "ERROR"

def ofLabel? (s : String) : Option Level :=
  [info, warning, error].find? (·.label == s)

end Level

structure Message (τ : Type) where
  level : Level
  time : τ
  text : String
deriving DecidableEq, Repr

/-- What is known of one execution of a job. It is over once `stopped` is set, whatever its
status. -/
structure Job (τ : Type) where
  id : String
  jobType : String
  started : τ
  lastUpdated : τ
  stopped : Option τ
  status : Status
  hostname : String
  messages : List (Message τ)
deriving DecidableEq, Repr

variable {τ υ : Type}

def Message.map (f : τ → υ) (m : Message τ) : Message υ := ⟨m.level, f m.time, m.text⟩

namespace Job

def isStopped (j : Job τ) : Bool := j.stopped.isSome

def new (id jobType : String) (now : τ) (hostname : String) : Job τ :=
  ⟨id, jobType, now, now, none, .ok, hostname, []⟩

def map (f : τ → υ) (j : Job τ) : Job υ :=
  ⟨j.id, j.jobType, f j.started, f j.lastUpdated, j.stopped.map f, j.status, j.hostname,
    j.messages.map (Message.map f)⟩

end Job

/-- An entry of the run-lock document: which job holds the lock of a job type. -/
structure RunningJob where
  id : String
  jobType : String
deriving DecidableEq, Repr

end JobControl
