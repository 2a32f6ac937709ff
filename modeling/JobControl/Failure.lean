/-! # Failures

`Failure` lists the causes for which an operation stops early. `Failure.kind` and
`Failure.message` give the two texts by which a failure is reported, `Failure.noted` the one that is
kept with a job. -/

namespace JobControl

/-- Why the run lock of a job type was not given out. -/
inductive Refusal where
  | disabled
  | alreadyRunning
  | blocked
deriving DecidableEq, Repr

def Refusal.label : Refusal → String
  | disabled => "disabled"
  | alreadyRunning => "already_running"
  | blocked => "blocked"

/-- How it is said that a start was not granted. -/
def notStarted (jobType result : String) : String :=
  "Job '" ++ jobType ++ "' not started: " ++ result

/-- What was still being attempted when competing writers had won every round. -/
inductive Contended where
  | acquiring (jobType : String)
  | releasing (jobType : String)
  | updating (document : String)
deriving DecidableEq, Repr

/-- What lay outside the range in which it can be held. -/
inductive Excess where
  /-- A time before the year 1 or after the year 9999. -/
  | time
  /-- A span of time of so many days. -/
  | span (days : Int)
  | endless
  /-- A count in a question to the store. -/
  | count
  | double
deriving DecidableEq, Repr

/-- Days from `-2 ^ 31` up to this bound are named where they are too many. -/
def Excess.namedDays : Int := Nat.pow 2 31

def Excess.text : Excess → String
  | time => "date value out of range"
  | span days =>
    if -namedDays ≤ days ∧ days < namedDays then
      "days=" ++ toString days ++ "; must have magnitude <= 999999999"
    else "Python int too large to convert to C int"
  | endless => "cannot convert float infinity to integer"
  | count => "Python int too large to convert to SQLite INTEGER"
  | double => "int too large to convert to float"

inductive Fault where
  | missing
  | notText
  | notInteger
  | fractional
  | unreadableInteger
  | integerTooLarge
  | notFinite
  | notNumber
  | unreadableNumber
  | notSet
  | notList
  | notRecord
  | notMember
  | notTime
  | unreadableTime
  | timeOutOfRange
  | belowMinimum
  | unsafeName (name : String)
deriving DecidableEq, Repr

namespace Fault

def label : Fault → String
  | missing => "missing"
  | notText => "string_type"
  | notInteger => "int_type"
  | fractional => "int_from_float"
  | unreadableInteger => "int_parsing"
  | integerTooLarge => "int_parsing_size"
  | notFinite => "finite_number"
  | notNumber => "float_type"
  | unreadableNumber => "float_parsing"
  | notSet => "frozen_set_type"
  | notList => "list_type"
  | notRecord => "model_attributes_type"
  | notMember => "enum"
  | notTime => "datetime_type"
  | unreadableTime => "datetime_from_date_parsing"
  | timeOutOfRange => "datetime_parsing"
  | belowMinimum => "greater_than_equal"
  | unsafeName _ => "value_error"

/-- Only an unsafe name comes with a sentence of its own. -/
def explanation : Fault → Option String
  | unsafeName name =>
    some ("Value error, Invalid job type '" ++ name ++
      "': only letters, digits, '-' and '_' are allowed")
  | _ => none

end Fault

inductive Failure where
  | unknownJobType (jobType : String)
  | duplicateHandler (jobType : String)
  | refused (jobType : String) (reason : Refusal)
  | contention (what : Contended)
  | store
  | mixedTimes
  | outOfRange (what : Excess)
  | notANumber
  | negativeSlots
  | notConnected
  | unknownLevel (name : String)
  | invalid (faults : List (String × Fault))
  | raised (kind text : String)
  | cancelled
deriving DecidableEq, Repr

namespace Failure

def kind : Failure → String
  | unknownJobType _ => "JobTypeNotFoundError"
  | duplicateHandler _ => "ValueError"
  | refused .. => "JobBlockedError"
  | contention _ => "StorageError"
  | store => "StorageError"
  | mixedTimes => "TypeError"
  | outOfRange _ => "OverflowError"
  | notANumber => "ValueError"
  | negativeSlots => "ValueError"
  | notConnected => "RuntimeError"
  | unknownLevel _ => "ValueError"
  | invalid _ => "ValidationError"
  | raised kind _ => kind
  | cancelled => "CancelledError"

def message : Failure → String
  | unknownJobType t => "No job handler registered for job type '" ++ t ++ "'"
  | duplicateHandler t => "A handler for job type '" ++ t ++ "' is already registered"
  | refused t reason => notStarted t reason.label
  | contention (.acquiring t) => "Could not acquire run lock for '" ++ t ++ "': too much contention"
  | contention (.releasing t) => "Could not release run lock for '" ++ t ++ "': too much contention"
  | contention (.updating d) => "Could not update '" ++ d ++ "': too much contention"
  | store => "Job store failure"
  | mixedTimes => "can't compare offset-naive and offset-aware datetimes"
  | outOfRange _ => ""
  | notANumber => "cannot convert float NaN to integer"
  | negativeSlots => "Semaphore initial value must be >= 0"
  | notConnected => "Database not initialized. Call init_db() first."
  | unknownLevel name => "Unknown level: '" ++ name ++ "'"
  | invalid faults => (faults.findSome? fun f => f.2.explanation).getD ""
  | raised _ text => text
  | cancelled => ""

/-- The text under which a failure is noted in a job. It also says what was out of range. -/
def noted : Failure → String
  | outOfRange what => what.text
  | e => e.message

end Failure
end JobControl
