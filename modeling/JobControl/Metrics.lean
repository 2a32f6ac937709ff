import JobControl.Store.Mapping
import JobControl.Text.Lowercase

/-! # Metrics

Counters of what happened to jobs, and the runtime of the last execution of every type. `ρ` is how a
runtime is measured. Samples stay in the order in which they were first used. -/

namespace JobControl

/-- A counter for every combination of labels that was used. -/
abbrev Tally (κ : Type) := Mapping κ Nat

namespace Tally
variable {κ : Type} [DecidableEq κ]

def count (t : Tally κ) (k : κ) : Nat := (t.get? k).getD 0

def bump (t : Tally κ) (k : κ) : Tally κ := t.insert k (t.count k + 1)

theorem count_bump (t : Tally κ) (k k' : κ) :
    (t.bump k).count k' = if k' = k then t.count k + 1 else t.count k' := by
  unfold count bump; rw [Mapping.get?_insert]; split <;> rfl

end Tally

structure Metrics (ρ : Type) where
  started : Tally String
  blocked : Tally (String × String)
  stopped : Tally (String × String)
  killed : Tally String
  locksCleared : Tally String
  runtime : Mapping String ρ
deriving DecidableEq

namespace Metrics
variable {ρ : Type}

def empty : Metrics ρ := ⟨∅, ∅, ∅, ∅, ∅, ∅⟩

def jobStarted (m : Metrics ρ) (jobType : String) : Metrics ρ :=
  { m with started := m.started.bump jobType }

def jobBlocked (m : Metrics ρ) (jobType reason : String) : Metrics ρ :=
  { m with blocked := m.blocked.bump (jobType, reason) }

def jobStopped (m : Metrics ρ) (jobType status : String) : Metrics ρ :=
  { m with stopped := m.stopped.bump (jobType, status) }

def jobKilled (m : Metrics ρ) (jobType : String) : Metrics ρ :=
  { m with killed := m.killed.bump jobType }

def lockCleared (m : Metrics ρ) (jobType : String) : Metrics ρ :=
  { m with locksCleared := m.locksCleared.bump jobType }

/-- Runtimes are kept per type without regard to case. -/
def jobRan (m : Metrics ρ) (jobType : String) (runtime : ρ) : Metrics ρ :=
  { m with runtime := m.runtime.insert (Text.lowercase jobType) runtime }

structure Sample (ρ : Type) where
  name : String
  labels : List (String × String)
  value : Nat ⊕ ρ

structure Family (ρ : Type) where
  name : String
  help : String
  isGauge : Bool
  samples : List (Sample ρ)

def perType (name : String) (t : Tally String) : List (Sample ρ) :=
  t.entries.map fun (jobType, n) => ⟨name, [("job_type", jobType)], .inl n⟩

def perTypeAnd (name label : String) (t : Tally (String × String)) : List (Sample ρ) :=
  t.entries.map fun ((jobType, other), n) => ⟨name, [("job_type", jobType), (label, other)], .inl n⟩

def families (m : Metrics ρ) : List (Family ρ) := [
  ⟨"jobs_started_total", "Total number of jobs started", false,
    perType "jobs_started_total" m.started⟩,
  ⟨"jobs_blocked_total", "Total number of job starts refused by the run lock", false,
    perTypeAnd "jobs_blocked_total" "reason" m.blocked⟩,
  ⟨"jobs_stopped_total", "Total number of jobs stopped", false,
    perTypeAnd "jobs_stopped_total" "status" m.stopped⟩,
  ⟨"jobs_killed_total", "Total number of jobs declared dead", false,
    perType "jobs_killed_total" m.killed⟩,
  ⟨"run_locks_cleared_total", "Total number of leaked run locks released", false,
    perType "run_locks_cleared_total" m.locksCleared⟩,
  ⟨"job_runtime_seconds", "Wall-clock duration of the last job execution in seconds", true,
    m.runtime.entries.map fun (jobType, r) =>
      ⟨"job_runtime_seconds", [("job_type", jobType)], .inr r⟩⟩]

/-- All samples, in order of their names and then of their labels. -/
def samples (m : Metrics ρ) : List (Sample ρ) :=
  (m.families.flatMap (·.samples)).mergeSort fun a b =>
    a.name < b.name ||
      (a.name == b.name && !(b.labels.map (·.2)).lex (a.labels.map (·.2)) (· < ·))

end Metrics
end JobControl
