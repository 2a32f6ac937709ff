import JobControl.Job.Definition
import JobControl.Store.Mapping
import JobControl.Text.Lowercase

/-! # Handlers of job types

Handlers are kept by job type without regard to case, so that no two types differ only in case. `η`
is what a handler does. -/

namespace JobControl

structure Handler (η : Type) where
  definition : Definition
  body : η
deriving DecidableEq, Repr

/-- A handler is registered as it is, or made from the fields of its definition and from what it
does. -/
inductive Registration (η : Type) where
  | direct (h : Handler η)
  | made (fields : List (String × Value)) (body : η)

namespace Registration
variable {η : Type}

/-- What is done for a job type, with further fields of its definition. -/
def decorated (jobType : String) (further : List (String × Value)) (body : η) : Registration η :=
  made (("job_type", .text jobType) :: further) body

/-- What is to be registered, if the definition is valid. -/
def handler : Registration η → Except Failure (Handler η)
  | direct h => .ok h
  | made fields body => (Definition.ofFields fields).map fun d => ⟨d, body⟩

end Registration

/-- The handlers, by the lower-case form of their job type. -/
structure Handlers (η : Type) where
  byKey : Mapping String (Handler η)

namespace Handlers
variable {η : Type}

def empty : Handlers η := ⟨∅⟩

def register (hs : Handlers η) (h : Handler η) : Except Failure (Handlers η) :=
  let key := Text.lowercase h.definition.jobType
  if hs.byKey.contains key then .error (.duplicateHandler h.definition.jobType)
  else .ok ⟨hs.byKey.insert key h⟩

def accept (hs : Handlers η) (r : Registration η) : Except Failure (Handlers η) :=
  r.handler >>= hs.register

/-- A registration that fails leaves the handlers as they are. -/
def attempt (hs : Handlers η) (r : Registration η) : Handlers η :=
  match hs.accept r with
  | .ok hs' => hs'
  | .error _ => hs

/-- The handlers after some registrations. -/
def after (hs : Handlers η) (rs : List (Registration η)) : Handlers η := rs.foldl attempt hs

def get? (hs : Handlers η) (jobType : String) : Option (Handler η) :=
  hs.byKey.get? (Text.lowercase jobType)

/-- The handler of a job type; the failure names the type as it was asked for. -/
def find (hs : Handlers η) (jobType : String) : Except Failure (Handler η) :=
  match hs.get? jobType with
  | some h => .ok h
  | none => .error (.unknownJobType jobType)

def contains (hs : Handlers η) (jobType : String) : Bool := (hs.get? jobType).isSome

def size (hs : Handlers η) : Nat := hs.byKey.entries.length

/-- The job types as their definitions spell them, in order. -/
def jobTypes (hs : Handlers η) : List String :=
  (hs.byKey.entries.map (·.2.definition.jobType)).mergeSort fun a b => a ≤ b

end Handlers
end JobControl
