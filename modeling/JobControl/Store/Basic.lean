import JobControl.Job.Basic
import JobControl.Store.Document

/-! # The job store

A store holds one record per job, the messages of all jobs in the order in which they were appended,
and the shared documents. -/

namespace JobControl

/-- What is stored of a job beside its id and its messages. -/
structure Record where
  jobType : String
  started : Instant
  lastUpdated : Instant
  stopped : Option Instant
  status : Status
  hostname : String
deriving DecidableEq, Repr

def Record.isStopped (r : Record) : Bool := r.stopped.isSome

structure Store where
  records : Mapping String Record
  messages : List (String × Message Instant)
  documents : Documents
deriving DecidableEq, Repr

namespace Store

def empty : Store := ⟨∅, [], {}⟩

instance : EmptyCollection Store := ⟨empty⟩

variable (s : Store)

/-- The messages of one job, in the order in which they were appended. -/
def messagesOf (id : String) : List (Message Instant) :=
  (s.messages.filter (·.1 = id)).map (·.2)

def assemble (id : String) (r : Record) (messages : List (Message Instant)) : Job Instant :=
  ⟨id, r.jobType, r.started, r.lastUpdated, r.stopped, r.status, r.hostname, messages⟩

/-! ## Queries -/

def find? (id : String) : Option (Job Instant) :=
  (s.records.get? id).map fun r => assemble id r (s.messagesOf id)

def findStatus? (id : String) : Option Status := (s.records.get? id).map (·.status)

def jobs : List (Job Instant) :=
  s.records.entries.map fun (id, r) => assemble id r (s.messagesOf id)

def newestFirst (js : List (Job Instant)) : List (Job Instant) :=
  js.mergeSort fun a b => b.started ≤ a.started

/-- At most `count` of the jobs; a negative count stands for no limit. -/
def limit (count : Int) (js : List (Job Instant)) : List (Job Instant) :=
  if count < 0 then js else js.take count.toNat

/-- Counts have 64 bits. -/
def isCount (n : Int) : Bool := -(Nat.pow 2 63 : Int) ≤ n && n < (Nat.pow 2 63 : Int)

def findAll : List (Job Instant) := newestFirst s.jobs

def findByType (jobType : String) : List (Job Instant) :=
  newestFirst (s.jobs.filter (·.jobType = jobType))

def findLatest (count : Int) : List (Job Instant) := limit count (newestFirst s.jobs)

def findLatestBy (jobType : String) (count : Int) : List (Job Instant) :=
  limit count (newestFirst (s.jobs.filter (·.jobType = jobType)))

def findAllWithoutMessages : List (Job Instant) :=
  newestFirst (s.records.entries.map fun (id, r) => assemble id r [])

/-- Whether no job of the same type started later. -/
def isLatest (j : Job Instant) : Bool :=
  s.jobs.all fun k => k.jobType ≠ j.jobType || k.started ≤ j.started

/-- Keep the first job of every type. -/
def onePerType : List (Job Instant) → List (Job Instant)
  | [] => []
  | j :: rest => j :: (onePerType rest).filter (·.jobType ≠ j.jobType)

/-- The latest job of every type, by type. -/
def findLatestDistinct : List (Job Instant) :=
  onePerType ((s.jobs.filter s.isLatest).mergeSort fun a b => a.jobType ≤ b.jobType)

/-- The running jobs whose last update lies before the cutoff, the longest silent first. -/
def findStale (cutoff : Instant) : List (Job Instant) :=
  (s.jobs.filter fun j => !j.isStopped && j.lastUpdated < cutoff).mergeSort
    fun a b => a.lastUpdated ≤ b.lastUpdated

/-! ## Changes -/

def insertJob (j : Job Instant) : Store :=
  { s with
    records := s.records.insert j.id
      ⟨j.jobType, j.started, j.lastUpdated, j.stopped, j.status, j.hostname⟩
    messages := s.messages ++ j.messages.map (j.id, ·) }

def appendMessage (id : String) (m : Message Instant) : Store :=
  { s with messages := s.messages ++ [(id, m)] }

/-- Change the record of a job if it meets a condition, and say whether it did. -/
def updateIf (id : String) (p : Record → Bool) (f : Record → Record) : Bool × Store :=
  if (s.records.get? id).any p then (true, { s with records := s.records.modify id f })
  else (false, s)

/-- The status of a stopped job stays as it is. -/
def setStatus (id : String) (status : Status) : Bool × Store :=
  s.updateIf id (!·.isStopped) fun r => { r with status }

/-- The time of the last update is only moved forward. -/
def touch (id : String) (time : Instant) : Bool × Store :=
  s.updateIf id (·.lastUpdated ≤ time) fun r => { r with lastUpdated := time }

/-- A job is stopped only once. -/
def stop (id : String) (time : Instant) (status : Option Status) : Bool × Store :=
  s.updateIf id (!·.isStopped) fun r =>
    { r with stopped := some time, lastUpdated := time, status := status.getD r.status }

def drop (id : String) : Store :=
  { s with records := s.records.erase id, messages := s.messages.filter (·.1 ≠ id) }

def dropIfStopped (id : String) : Bool × Store :=
  if (s.records.get? id).any (·.isStopped) then (true, s.drop id) else (false, s)

end Store
end JobControl
