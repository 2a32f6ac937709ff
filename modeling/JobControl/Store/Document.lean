import JobControl.Store.Mapping

/-! # Shared documents

Two documents are shared by all engines: which job holds the run lock of a type, and which types are
disabled. A document is written only by comparing its version with the one that was read. -/

namespace JobControl

structure Document where
  data : Mapping String String
  version : Nat
deriving DecidableEq, Repr

inductive Topic where
  | running
  | disabled
deriving DecidableEq, Repr

def Topic.label : Topic → String
  | running => "RUNNING_JOBS"
  | disabled => "DISABLED_JOBS"

/-- The documents that have been created so far. -/
structure Documents where
  running : Option Document := none
  disabled : Option Document := none
deriving DecidableEq, Repr

namespace Documents

def get (ds : Documents) : Topic → Option Document
  | .running => ds.running
  | .disabled => ds.disabled

def set (ds : Documents) (topic : Topic) (d : Document) : Documents :=
  match topic with
  | .running => { ds with running := some d }
  | .disabled => { ds with disabled := some d }

/-- Create a document without entries, unless there is one. -/
def create (ds : Documents) (topic : Topic) : Documents :=
  match ds.get topic with
  | some _ => ds
  | none => ds.set topic ⟨∅, 0⟩

def versionIs (ds : Documents) (topic : Topic) (version : Nat) : Bool :=
  (ds.get topic).any (·.version == version)

/-- Write new content under the next version. -/
def write (ds : Documents) (topic : Topic) (version : Nat) (data : Mapping String String) :
    Documents :=
  ds.set topic ⟨data, version + 1⟩

/-- Write new content if the document still has the version that was read. -/
def replace (topic : Topic) (version : Nat) (data : Mapping String String) (ds : Documents) :
    Bool × Documents :=
  if ds.versionIs topic version then (true, ds.write topic version data) else (false, ds)

/-- Write the running document if neither document has changed since it was read. -/
def replaceRunning (version disabledVersion : Nat) (data : Mapping String String)
    (ds : Documents) : Bool × Documents :=
  if ds.versionIs .running version && ds.versionIs .disabled disabledVersion then
    (true, ds.write .running version data)
  else (false, ds)

@[simp] theorem get_set (ds : Documents) (topic topic' : Topic) (d : Document) :
    (ds.set topic d).get topic' = if topic' = topic then some d else ds.get topic' := by
  cases topic <;> cases topic' <;> rfl

end Documents
end JobControl
