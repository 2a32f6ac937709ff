import JobControl.Service

/-! # The reaper

The reaper kills silent jobs, gives back leaked locks and removes old jobs, again and again. `Loop`
is its schedule: it runs at once, and after each run waits for an interval or until it is told to
stop. -/

namespace JobControl

/-- What a reaper does: times are in seconds, and `keepLast = 0` keeps all jobs. -/
structure Reaper where
  interval : Int
  deadAfter : Int
  keepLast : Int
deriving DecidableEq, Repr

namespace Reaper

def pause (reaper : Reaper) : Micros := reaper.interval * Micros.perSecond

/-- One run; the result is the list of killed jobs. -/
def runOnce (reaper : Reaper) (engine : Engine) : Cluster.Work (List String) := do
  let killed ← Lifecycle.killSilentSince engine (.whole reaper.deadAfter)
  if 0 < reaper.keepLast then
    let _ ← Service.keepLast reaper.keepLast
  return killed

end Reaper

inductive Phase where
  /-- The loop has not begun yet. -/
  | scheduled
  | running
  | waiting (due : Micros)
  /-- The wait is over, and the next run has not begun yet. -/
  | woken
  | ended
deriving DecidableEq, Repr

/-- A loop that repeats a run, with an interval between the end of one and the start of the next. -/
structure Loop where
  interval : Micros
  stopping : Bool
  phase : Phase
deriving DecidableEq, Repr

namespace Loop

def start (interval : Micros) : Loop := ⟨interval, false, .scheduled⟩

/-- Whether a run is to begin. -/
def isDue (l : Loop) : Bool := l.phase = .scheduled || l.phase = .woken

def runBegan (l : Loop) : Loop := { l with phase := .running }

/-- A run has ended, well or badly. -/
def runEnded (l : Loop) (now : Micros) : Loop :=
  match l.phase with
  | .running => { l with phase := if l.stopping then .ended else .waiting (now + l.interval) }
  | _ => l

def wake (l : Loop) (now : Micros) : Loop :=
  match l.phase with
  | .waiting due => if due ≤ now then { l with phase := .woken } else l
  | _ => l

/-- No run starts after this; a run that is going on is not cut short. A loop that has not begun yet
does not hear of it. -/
def stop (l : Loop) : Loop :=
  match l.phase with
  | .scheduled => l
  | .waiting _ | .woken => { l with stopping := true, phase := .ended }
  | _ => { l with stopping := true }

def due? (l : Loop) : Option Micros :=
  match l.phase with
  | .waiting due => some due
  | _ => none

theorem due?_eq_some {l : Loop} {due : Micros} : l.due? = some due ↔ l.phase = .waiting due := by
  unfold due?
  split <;> simp_all

end Loop
end JobControl
