import JobControl.Pool
import JobControl.Time.Timestamp

/-! # A pool on virtual time

Work that takes a given time in a pool, and a log of what happened. Time moves from the end of one
piece of work to the next. -/

namespace JobControl

/-- Work for the bench: how long it takes, and whether it fails in the end. -/
structure Task where
  name : String
  takes : Micros
  fails : Bool
deriving DecidableEq, Repr

inductive Mark where
  | began
  | ended
  | cancelled
deriving DecidableEq, Repr

def Mark.label : Mark → String
  | began => "begin"
  | ended => "end"
  | cancelled => "cancelled"

structure LogLine where
  time : Micros
  name : String
  mark : Mark
deriving DecidableEq, Repr

structure Bench where
  now : Micros
  pool : Pool Task
  /-- When the work that holds a slot ends, by ticket. -/
  due : Mapping Nat Micros
  log : List LogLine

namespace Bench

def starting (slots : Nat) : Bench := ⟨0, Pool.empty slots, ∅, []⟩

def note (b : Bench) (name : String) (mark : Mark) : Bench :=
  { b with log := b.log ++ [⟨b.now, name, mark⟩] }

def submit (b : Bench) (job : String) (task : Task) : Bench :=
  { b with pool := b.pool.submit job task }

/-- The work of a ticket has ended; one that fails leaves no line. -/
def finish (b : Bench) (t : Ticket Task) : Bench :=
  let b := { b with pool := b.pool.finish t.number, due := b.due.erase t.number }
  if t.work.fails then b else b.note t.work.name .ended

/-- The next thing that happens at the present time, if any: work ends, or gets a slot. -/
def next? (b : Bench) : Option Bench :=
  match b.pool.active.find? fun t => (b.due.get? t.number).any (· ≤ b.now) with
  | some t => some (b.finish t)
  | none =>
    match b.pool.grant? with
    | some (t, pool) =>
      let due := b.due.insert t.number (b.now + max 0 t.work.takes)
      some ({ b with pool, due }.note t.work.name .began)
    | none => none

def settleWithin : Nat → Bench → Bench
  | 0, b => b
  | fuel + 1, b => match b.next? with
    | some b => settleWithin fuel b
    | none => b

/-- Each piece of work begins once and ends once. -/
def settle (b : Bench) : Bench :=
  settleWithin (2 * (b.pool.queue.length + b.pool.active.length)) b

def nextDue? (b : Bench) : Option Micros := (b.due.entries.map (·.2)).min?

def advanceWithin (target : Micros) : Nat → Bench → Bench
  | 0, b => { b with now := target }
  | fuel + 1, b =>
    match b.nextDue? with
    | some t =>
      if t ≤ target then advanceWithin target fuel ({ b with now := max b.now t }.settle)
      else { b with now := target }
    | none => { b with now := target }

def advance (b : Bench) (span : Micros) : Bench :=
  let b := b.settle
  advanceWithin (b.now + span) (b.pool.queue.length + b.pool.active.length + 1) b

/-- Move time forward until none of the tickets is pending. -/
def drainWithin (numbers : List Nat) : Nat → Bench → Bench
  | 0, b => b
  | fuel + 1, b =>
    if numbers.any b.pool.isPending then
      match b.nextDue? with
      | some t => drainWithin numbers fuel ({ b with now := max b.now t }.settle)
      | none => b
    else b

/-- Cut short the work of a ticket that holds a slot. -/
def interrupt (b : Bench) (t : Ticket Task) : Bench :=
  { b with pool := b.pool.finish t.number, due := b.due.erase t.number }.note t.work.name .cancelled

def shutdown (b : Bench) (wait : Bool) : Bench :=
  if wait then
    let numbers := b.pool.tracked.entries.map (·.2)
    let b := b.settle
    drainWithin numbers (b.pool.queue.length + b.pool.active.length + 1) b
  else
    let cut := b.pool.trackedActive
    cut.foldl interrupt { b with pool := b.pool.dropQueued }

/-- The lines from a given one on, by time and name. -/
def logFrom (b : Bench) (start : Nat) : List LogLine :=
  (b.log.drop start).mergeSort fun x y => x.time < y.time || (x.time == y.time && x.name ≤ y.name)

end Bench
end JobControl
