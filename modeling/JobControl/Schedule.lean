import JobControl.Runner

/-! # Schedules

A schedule is a deployment together with the work that has begun in it. `Schedule.step?` makes one
move, if it is possible; `settle` makes moves until none is possible at the present time; `advance`
goes from one due time to the next. -/

namespace JobControl

/-- What a thread belongs to: work that holds a slot, a run of a reaper, or a call from outside. -/
inductive Owner where
  | worker (site ticket : Nat)
  | watch (index : Nat)
  | caller (number : Nat)
deriving DecidableEq, Repr

/-- Work that has begun and waits. -/
structure Thread where
  owner : Owner
  routine : Deployment.Work Unit
  /-- When the span of time is over that it waits for. -/
  due : Micros

structure Schedule where
  deployment : Deployment
  threads : List Thread

inductive Move where
  /-- A thread that is to be cancelled is cancelled where it waits. -/
  | cancel (thread : Nat)
  /-- A thread goes on to the next place where it waits. -/
  | resume (thread : Nat)
  /-- The next work in the queue of a site gets a free slot. -/
  | grant (site : Nat)
  | beat (heartbeat : Nat)
  | wake (watch : Nat)
  | begin (watch : Nat)
deriving DecidableEq, Repr

/-- The thread of an owner, which has not begun and may still be cancelled. -/
def Thread.new (owner : Owner) (work : Deployment.Work Unit) : Thread :=
  ⟨owner, Routine.yielding work, 0⟩

def Thread.isReady (d : Deployment) (t : Thread) : Bool :=
  match t.routine.waitsFor with
  | some (.after _) => t.due ≤ d.now
  | some (.gate name) => d.gates.contains name
  | some .never => false
  | none => true

def Thread.due? (t : Thread) : Option Micros :=
  match t.routine.waitsFor with
  | some (.after _) => some t.due
  | _ => none

/-- When a routine is due that waits from now on. -/
def Deployment.dueOf (d : Deployment) (r : Deployment.Work Unit) : Micros :=
  match r.waitsFor with
  | some (.after span) => d.now + span
  | _ => d.now

/-- The work of an owner has ended, well or badly. -/
def Owner.ended (d : Deployment) : Owner → Deployment
  | worker site ticket => (d.modifyPool site (·.finish ticket)).spare site ticket
  | watch index => d.modifyLoop index (·.runEnded d.now)
  | caller _ => d

/-- One run of a reaper; what becomes of it does not matter to the loop. -/
def Watch.run (w : Watch) : Deployment.Work Unit :=
  let run := w.reaper.runOnce w.engine
  (fun _ => ()) <$> if w.name.isSome then Deployment.onCluster run else Deployment.onOwnBus run

namespace Schedule

def ofDeployment (d : Deployment) : Schedule := ⟨d, []⟩

def now (s : Schedule) : Micros := s.deployment.now

def play (s : Schedule) (i : Nat) (owner : Owner) (r : Deployment.Work Unit) : Schedule :=
  match r.advance s.deployment with
  | (.done _, d) => ⟨owner.ended d, s.threads.eraseIdx i⟩
  | (r, d) => ⟨d, s.threads.set i ⟨owner, r, d.dueOf r⟩⟩

def cancel? (s : Schedule) (i : Nat) : Option Schedule :=
  match s.threads[i]? with
  | some ⟨.worker site ticket, r, _⟩ =>
    if (site, ticket) ∈ s.deployment.doomed then
      let s := { s with deployment := s.deployment.spare site ticket }
      some (s.play i (.worker site ticket) r.cancel)
    else none
  | _ => none

def resume? (s : Schedule) (i : Nat) : Option Schedule :=
  match s.threads[i]? with
  | some t => if t.isReady s.deployment then some (s.play i t.owner t.routine.resume) else none
  | none => none

def grant? (s : Schedule) (site : Nat) : Option Schedule :=
  match (s.deployment.pool? site).bind (·.grant?) with
  | some (t, pool) =>
    let work := Runner.run site t.number t.job t.work
    some ⟨s.deployment.modifyPool site fun _ => pool,
      s.threads ++ [.new (.worker site t.number) work]⟩
  | none => none

/-- A heartbeat keeps its job alive and is due again; a failure is left to the next beat. -/
def beat? (s : Schedule) (i : Nat) : Option Schedule :=
  match s.deployment.heartbeats[i]? with
  | some h =>
    if h.due ≤ s.now then
      let d := ((Deployment.onCluster (Lifecycle.keepAlive h.job)).run s.deployment).2
      let h := { h with due := h.due + h.every }
      some { s with deployment := { d with heartbeats := d.heartbeats.set i h } }
    else none
  | none => none

def wake? (s : Schedule) (i : Nat) : Option Schedule :=
  match s.deployment.watches[i]?.bind (·.loop.due?) with
  | some due =>
    if due ≤ s.now then some { s with deployment := s.deployment.modifyLoop i (·.wake s.now) }
    else none
  | none => none

def begin? (s : Schedule) (i : Nat) : Option Schedule :=
  match s.deployment.watches[i]? with
  | some w =>
    if w.loop.isDue then
      some ⟨s.deployment.modifyLoop i (·.runBegan), s.threads ++ [.new (.watch i) w.run]⟩
    else none
  | none => none

def step? (s : Schedule) : Move → Option Schedule
  | .cancel i => s.cancel? i
  | .resume i => s.resume? i
  | .grant site => s.grant? site
  | .beat i => s.beat? i
  | .wake i => s.wake? i
  | .begin i => s.begin? i

/-- The moves that may be possible, those of the threads in turn, beginning with thread `first`. -/
def moves (s : Schedule) (first : Nat) : List Move :=
  let threads := (List.range s.threads.length).rotateLeft first
  let watches := List.range s.deployment.watches.length
  threads.map .cancel ++ threads.map .resume
    ++ (List.range s.deployment.sites.length).map .grant
    ++ (List.range s.deployment.heartbeats.length).map .beat
    ++ watches.map .wake ++ watches.map .begin

def next? (s : Schedule) (first : Nat) : Option (Move × Schedule) :=
  (s.moves first).findSome? fun m => (s.step? m).map fun s' => (m, s')

/-- The thread whose turn it is after a move: the one behind that which went on. -/
def successor (s s' : Schedule) (first : Nat) : Move → Nat
  | .resume i => if s'.threads.length < s.threads.length then i else i + 1
  | _ => first

/-- So many moves are made at one time, and so many due times are visited in one advance; a schedule
that has not come to rest by then is left as it is. -/
def patience : Nat := 1000000

def settleWithin : Nat → Nat → Schedule → Schedule
  | 0, _, s => s
  | fuel + 1, first, s => match s.next? first with
    | some (m, s') => settleWithin fuel (successor s s' first m) s'
    | none => s

/-- Make moves until all work waits for something that has not come true. The threads take turns. -/
def settle (s : Schedule) : Schedule := settleWithin patience 0 s

def nextDue? (s : Schedule) : Option Micros :=
  (s.threads.filterMap (·.due?) ++ s.deployment.heartbeats.map (·.due)
    ++ s.deployment.watches.filterMap (·.loop.due?)).min?

def atTime (s : Schedule) (t : Micros) : Schedule := { s with deployment := s.deployment.atTime t }

def advanceWithin (target : Micros) : Nat → Schedule → Schedule
  | 0, s => s
  | fuel + 1, s =>
    match s.nextDue? with
    | some t =>
      if t ≤ target then advanceWithin target fuel (s.atTime (max s.now t)).settle
      else s.atTime target
    | none => s.atTime target

/-- Let a span of time pass, and everything happen that becomes due in it. -/
def advance (s : Schedule) (span : Micros) : Schedule :=
  advanceWithin (s.now + max 0 span) patience s

/-! ## Commands from outside -/

/-- Begin to carry out a command at a site, so that other work may come in between. -/
def call (s : Schedule) (number site : Nat) (command : Command) : Schedule :=
  let work := (fun _ => ()) <$> command.perform site ⟨"", ""⟩
  { s with threads := s.threads ++ [.new (.caller number) work] }

/-- Carry out a command at a site and let everything settle. A shutdown is answered by whether the
work that was tracked before it is over by then. -/
def perform (s : Schedule) (site : Nat) (command : Command) : Except Failure Reply × Schedule :=
  let tracked := s.deployment.trackedTickets site
  let (outcome, d) := (command.perform site ⟨"", ""⟩).run s.deployment
  let s := { s with deployment := d }.settle
  match command, outcome with
  | .shutdown _, .ok _ => (.ok (.finished (!tracked.any (s.deployment.isPending site))), s)
  | _, outcome => (outcome, s)

end Schedule
end JobControl
