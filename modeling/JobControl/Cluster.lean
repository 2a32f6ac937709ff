import JobControl.Bus
import JobControl.Metrics
import JobControl.Store.UnitOfWork

/-! # What engines share

Any number of engines work on one store, with one clock, one supply of job ids, one event bus and
one set of metrics. -/

namespace JobControl

/-- Job ids: those given, and after them `job-k` for the `k`-th. -/
structure IdSupply where
  given : List String
  handed : Nat
deriving DecidableEq, Repr

def IdSupply.next (s : IdSupply) : String × IdSupply :=
  match s.given with
  | id :: rest => (id, ⟨rest, s.handed + 1⟩)
  | [] => ("job-" ++ toString (s.handed + 1), ⟨[], s.handed + 1⟩)

structure Cluster extends Workspace where
  ids : IdSupply
  metrics : Metrics Micros
  bus : Bus

structure Engine where
  hostname : String
  /-- In how many rounds it tries to write a shared document. -/
  rounds : Int
deriving DecidableEq, Repr

namespace Cluster
variable {α : Type}

/-- A routine that several engines take part in. -/
abbrev Work (α : Type) := Routine Wake Cluster α

/-- Carry out a unit of work as one step. -/
def atomically (u : UnitOfWork α) : Work α :=
  Routine.yielding <| Routine.act fun c =>
    let r := u.commit c.toWorkspace
    (r.1, { c with toWorkspace := r.2 })

def now : Work Timestamp :=
  Routine.act fun c => (c.clock.read.1, { c with clock := c.clock.read.2 })

def elapsed : Work Micros := Routine.read (·.clock.elapsed)

def nextId : Work String := Routine.update fun c => (c.ids.next.1, { c with ids := c.ids.next.2 })

def record (f : Metrics Micros → Metrics Micros) : Work Unit :=
  Routine.modify fun c => { c with metrics := f c.metrics }

def announce (e : Event) : Work Unit :=
  (Bus.publish e).zoom (·.bus) fun b c => { c with bus := b }

end Cluster
end JobControl
