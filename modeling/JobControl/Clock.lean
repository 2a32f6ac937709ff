import JobControl.Failure
import JobControl.Time.Timestamp

/-! # Clocks

A clock starts at some time and goes on with the time that has elapsed; it may be set forward or
back, and it may run ahead a little with every reading. -/

namespace JobControl

structure Clock where
  start : Timestamp
  /-- The time that has elapsed since the start; it never goes back. -/
  elapsed : Micros
  /-- By how much the clock has been set, its own running ahead included. -/
  drift : Micros
  /-- How far it runs ahead with each reading. -/
  tick : Micros
deriving DecidableEq, Repr

namespace Clock

def starting (start : Timestamp) (tick : Micros) : Clock := ⟨start, 0, 0, tick⟩

/-- What the clock shows, unless that is no time of the calendar. -/
def now? (c : Clock) : Option Timestamp := c.start.add? (c.elapsed + c.drift)

def read (c : Clock) : Except Failure Timestamp × Clock :=
  match c.now? with
  | some t => (.ok t, { c with drift := c.drift + c.tick })
  | none => (.error (.outOfRange .time), c)

def shift (c : Clock) (d : Micros) : Clock := { c with drift := c.drift + d }

end Clock
end JobControl
