import JobControl.Failure
import JobControl.Store.Mapping

/-! # The pool

A pool executes submitted work in a limited number of slots, in the order of submission. It tracks
one ticket per job, the latest; when any work of a job ends, the job is no longer tracked. -/

namespace JobControl

structure Ticket (ρ : Type) where
  number : Nat
  job : String
  work : ρ
deriving Repr

structure Pool (ρ : Type) where
  slots : Nat
  issued : Nat
  /-- Submitted work that has no slot yet, in order. -/
  queue : List (Ticket ρ)
  active : List (Ticket ρ)
  /-- The latest ticket of every job. -/
  tracked : Mapping String Nat
deriving Repr

namespace Pool
variable {ρ : Type}

/-- The number of slots of a pool. There may be none, but not fewer. -/
def slotCount (n : Int) : Except Failure Nat :=
  if n < 0 then .error .negativeSlots else .ok n.toNat

def empty (slots : Nat) : Pool ρ := ⟨slots, 0, [], [], ∅⟩

def submit (p : Pool ρ) (job : String) (work : ρ) : Pool ρ :=
  { p with
    issued := p.issued + 1
    queue := p.queue ++ [⟨p.issued, job, work⟩]
    tracked := p.tracked.insert job p.issued }

/-- Give a free slot to the work that has waited longest. -/
def grant? (p : Pool ρ) : Option (Ticket ρ × Pool ρ) :=
  if p.active.length < p.slots then
    match p.queue with
    | t :: rest => some (t, { p with queue := rest, active := p.active ++ [t] })
    | [] => none
  else none

/-- Work has ended and gives back its slot, or its place in the queue. -/
def finish (p : Pool ρ) (number : Nat) : Pool ρ :=
  let ended := (p.queue ++ p.active).filter (·.number = number)
  { p with
    queue := p.queue.filter (·.number ≠ number)
    active := p.active.filter (·.number ≠ number)
    tracked := ended.foldl (fun m t => m.erase t.job) p.tracked }

/-- The jobs that are submitted and have not ended, in order. -/
def activeJobs (p : Pool ρ) : List String := p.tracked.keys.mergeSort fun a b => a ≤ b

def isTracked (p : Pool ρ) (number : Nat) : Bool := p.tracked.entries.any (·.2 = number)

def trackedQueued (p : Pool ρ) : List (Ticket ρ) := p.queue.filter fun t => p.isTracked t.number

def trackedActive (p : Pool ρ) : List (Ticket ρ) := p.active.filter fun t => p.isTracked t.number

/-- Whether the work of a ticket has neither ended nor been dropped. -/
def isPending (p : Pool ρ) (number : Nat) : Bool := (p.queue ++ p.active).any (·.number = number)

def dropQueued (p : Pool ρ) : Pool ρ :=
  p.trackedQueued.foldl (fun p t => p.finish t.number) p

end Pool
end JobControl
