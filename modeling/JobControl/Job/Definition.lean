import JobControl.Input
import JobControl.Time.Seconds

/-! # Job definitions

A definition describes a job type: which other types it does not run beside, and how often and after
what delay a failed execution is repeated. -/

namespace JobControl

def isNameChar (c : Char) : Bool :=
  c.isAlphanum || c = '-' || c = '_'

/-- Whether a text is accepted as a job type: one or more name characters, and after them at most
one line feed. -/
def isJobTypeName (name : String) : Bool :=
  let rest := name.toList.dropWhile isNameChar
  name.toList.head?.any isNameChar && (rest.isEmpty || rest == ['\n'])

structure Definition where
  jobType : String
  jobName : String
  description : String
  blockingTypes : List String
  restarts : Nat
  /-- In seconds. It may be infinite. -/
  retryDelay : Double
deriving DecidableEq, Repr

namespace Definition

/-- The job types that must not be running when this type starts: its own is always among them. -/
def blockers (d : Definition) : List String :=
  (d.jobType :: d.blockingTypes).eraseDups

theorem mem_blockers {d : Definition} {t : String} :
    t ∈ d.blockers ↔ t = d.jobType ∨ t ∈ d.blockingTypes := by
  simp [blockers, List.mem_eraseDups]

def build (jobType jobName description : String) (blockingTypes : List String) (restarts : Int)
    (retryDelay : Double) : Definition :=
  ⟨jobType, jobName, description, blockingTypes, restarts.toNat, retryDelay⟩

/-- A definition from its fields; all but the job type have defaults. -/
def ofFields (fields : List (String × Value)) : Except Failure Definition :=
  open Reader in
  Checked.toExcept <|
    build
      <$> (text.required "" fields "job_type").require "job_type"
        (fun t => if isJobTypeName t then none else some (.unsafeName t))
      <*> text.optional "" fields "job_name" ""
      <*> text.optional "" fields "description" ""
      <*> textSet.optional "" fields "blocking_types" []
      <*> (integer.optional "" fields "restarts" 0).require "restarts"
        (fun n => if n < 0 then some .belowMinimum else none)
      <*> (number.optional "" fields "retry_delay_seconds" .zero).require "retry_delay_seconds"
        (fun x => if x.isNonnegative then none else some .belowMinimum)

end Definition
end JobControl
