import JobControl.Proofs.Endings
import JobControl.Proofs.Seats

/-! # The phases of a runner's work

Once a runner has announced a job, its work goes through phases: it announces the start, executes
the handler, ends the heartbeat, stops the job and announces that. `Runner.Phase` lists what is left
of the work in each of them. A cancellation while the handler is executed, or in the wait after it,
leads to the next phase; in any other phase it is the end of the work. -/

namespace JobControl
open Routine (Keeps)

/-! ## Routines that are over when they are cancelled -/

namespace Routine
variable {ω σ α β : Type}

/-- The routine does not fail by itself, and cancelled where it waits it does nothing more. -/
def Plain : Routine ω σ α → Prop
  | done outcome => ∃ a, outcome = .ok a
  | step _ next => ∀ s, (next s).Plain
  | wait _ next abort => next.Plain ∧ abort = fail .cancelled

namespace Plain

theorem pure (a : α) : (Pure.pure a : Routine ω σ α).Plain := ⟨a, rfl⟩

theorem read (f : σ → α) : (Routine.read f : Routine ω σ α).Plain := fun s => ⟨f s, rfl⟩

theorem await (wake : ω) : (Routine.await wake : Routine ω σ Unit).Plain := ⟨pure (), rfl⟩

theorem bind {r : Routine ω σ α} {k : α → Routine ω σ β} (hr : r.Plain) (hk : ∀ a, (k a).Plain) :
    (r >>= k).Plain := by
  show (r.bind k).Plain
  induction r with
  | done outcome =>
    obtain ⟨a, rfl⟩ := hr
    exact hk a
  | step act next ih => exact fun s => ih s (hr s)
  | wait wake next abort ihn _ =>
    obtain ⟨hnext, rfl⟩ := hr
    exact ⟨ihn hnext, rfl⟩

theorem advance_cases {r : Routine ω σ α} (h : r.Plain) (s : σ) :
    (∃ a s', r.advance s = (done (.ok a), s')) ∨
    ∃ wake next s', r.advance s = (wait wake next (fail .cancelled), s') ∧ next.Plain := by
  induction r generalizing s with
  | done outcome =>
    obtain ⟨a, rfl⟩ := h
    exact .inl ⟨a, s, rfl⟩
  | step act next ih => exact ih s (h s) (act s)
  | wait wake next abort =>
    obtain ⟨hnext, rfl⟩ := h
    exact .inr ⟨wake, next, s, rfl, hnext⟩

end Plain

theorem advance_ensure (r : Routine ω σ α) (cleanup : Routine ω σ Unit) (s : σ) :
    (r.ensure cleanup).advance s =
      match r.advance s with
      | (done outcome, s') => (cleanup >>= fun _ => done outcome).advance s'
      | (r', s') => (r'.ensure cleanup, s') := by
  induction r generalizing s with
  | done outcome => rfl
  | step act next ih => exact ih s (act s)
  | wait wake next abort => rfl

end Routine
open Routine (Plain)

namespace Bus

theorem plain_deliver (e : Event) (name : String) : (deliver e name).Plain := by
  refine .bind (.read _) fun found => ?_
  cases found with
  | none => exact .pure ()
  | some l =>
    have hcall : ((Routine.act (call name l e)).rescue fun _ => pure () :
        Routine Wake Bus Unit).Plain := by
      rw [rescue_call]
      exact fun b => ⟨(), rfl⟩
    by_cases hdelay : 0 < l.delay
    · simp only [if_pos hdelay]
      exact (Plain.await _).bind fun _ => hcall
    · simp only [if_neg hdelay]
      exact (Plain.pure ()).bind fun _ => hcall

theorem plain_publish (e : Event) : (publish e).Plain := by
  have hall : ∀ names, (deliverAll e names).Plain := by
    intro names
    induction names with
    | nil => exact .pure ()
    | cons name rest ih => exact (plain_deliver e name).bind fun _ => ih
  exact fun b => hall b.subscribed

end Bus

namespace Deployment
variable {α β : Type}

def onBus (r : Routine Wake Bus α) : Work α :=
  onCluster (r.zoom (·.bus) fun b c => { c with bus := b })

def withBus (d : Deployment) (b : Bus) : Deployment :=
  { d with cluster := { d.cluster with bus := b } }

theorem advance_onBus (r : Routine Wake Bus α) (d : Deployment) :
    (onBus r).advance d =
      (onBus (r.advance d.cluster.bus).1, d.withBus (r.advance d.cluster.bus).2) := by
  unfold onBus
  rw [advance_onCluster, Routine.advance_zoom (fun c : Cluster => c.bus)
    (fun b c => { c with bus := b }) (fun _ _ => rfl) (fun _ _ _ => rfl) (fun _ => rfl)]
  rfl

/-- A delivery comes to its end, or waits for a listener. -/
theorem advance_onBus_cases {r : Routine Wake Bus α} (h : r.Plain) (k : α → Work β)
    (d : Deployment) :
    (∃ a b, (onBus r >>= k).advance d = (k a).advance (d.withBus b)) ∨
    ∃ wake next b, next.Plain ∧ (onBus r >>= k).advance d =
      (.wait wake (onBus next >>= k) (Routine.fail .cancelled), d.withBus b) := by
  rw [Routine.advance_bind, advance_onBus]
  rcases h.advance_cases d.cluster.bus with ⟨a, b, hdone⟩ | ⟨wake, next, b, hwait, hnext⟩
  · rw [hdone]
    exact .inl ⟨a, b, rfl⟩
  · rw [hwait]
    exact .inr ⟨wake, next, b, hnext, rfl⟩

theorem advance_announceNow (e : Timestamp → Event) (k : Unit → Work β) (d : Deployment) :
    (onCluster (do
        let time ← Cluster.now
        Cluster.announce (e time)) >>= k).advance d =
      match d.cluster.clock.read with
      | (.ok time, clock) => (onBus (Bus.publish (e time)) >>= k).advance
          { d with cluster := { d.cluster with clock } }
      | (.error failure, clock) =>
        (.done (.error failure), { d with cluster := { d.cluster with clock } }) := by
  have hsplit : onCluster (do
        let time ← Cluster.now
        Cluster.announce (e time)) >>= k =
      onCluster Cluster.now >>= fun time => onCluster (Cluster.announce (e time)) >>= k := by
    unfold onCluster
    rw [Routine.zoom_bind, Routine.bind_assoc]
  have hnow : (onCluster Cluster.now).advance d = (.done d.cluster.clock.read.1,
      { d with cluster := { d.cluster with clock := d.cluster.clock.read.2 } }) := rfl
  rw [hsplit, Routine.advance_bind, hnow]
  rcases d.cluster.clock.read with ⟨time | failure, clock⟩ <;> rfl

end Deployment

/-! ## The phases of the work -/

/-- The clock shows a time that can be stored. -/
def Clock.Storable (c : Clock) : Prop := ∃ t i, c.now? = some t ∧ t.toInstant? = some i

theorem Cluster.advance_atomically {α β : Type} (u : UnitOfWork α) (k : α → Work β) (c : Cluster) :
    (atomically u >>= k).resume.advance c =
      match u.commit c.toWorkspace with
      | (.ok a, w) => (k a).advance { c with toWorkspace := w }
      | (.error e, w) => (.done (.error e), { c with toWorkspace := w }) := by
  have hcommit : (atomically u >>= k).resume.advance c =
      ((Routine.done (u.commit c.toWorkspace).1 : Work α) >>= k).advance
        { c with toWorkspace := (u.commit c.toWorkspace).2 } := rfl
  rw [hcommit]
  rcases u.commit c.toWorkspace with ⟨_ | _, w⟩ <;> rfl

namespace Lifecycle
variable {engine : Engine}

theorem commit_leave_ok {w : Workspace} (hrounds : 0 < engine.rounds) (hclock : w.clock.Storable)
    (id : String) (status : Option Status) :
    ∃ result w', (leave engine id status).commit w = (.ok result, w') ∧
      w'.store.running? id = none := by
  have hok : ∃ result, ((leave engine id status).commit w).1 = .ok result := by
    rw [commit_leave]
    cases w.store.records.get? id with
    | none => exact ⟨_, rfl⟩
    | some r =>
      obtain ⟨t, i, hnow, htime⟩ := hclock
      simp [Int.not_le.mpr hrounds, Clock.read, hnow, htime]
  obtain ⟨result, hresult⟩ := hok
  exact ⟨result, _, Prod.ext hresult rfl, running?_of_leave hresult⟩

theorem advance_stop {id : String} {status : Option Status} {c : Cluster}
    {result : Option (Job Instant) × Bool} {w : Workspace}
    (hcommit : (leave engine id status).commit c.toWorkspace = (.ok result, w)) :
    ∃ metrics, (stop engine id status).resume.advance c =
      (.done (.ok result.1), { c with toWorkspace := w, metrics }) := by
  unfold stop finish
  rw [Routine.bind_assoc, Cluster.advance_atomically, hcommit]
  obtain ⟨_ | job, _ | _⟩ := result <;> exact ⟨_, rfl⟩

theorem advance_stop_of_error {id : String} {status : Option Status} {c : Cluster} {e : Failure}
    {w : Workspace} (hcommit : (leave engine id status).commit c.toWorkspace = (.error e, w)) :
    (stop engine id status).resume.advance c = (.done (.error e), { c with toWorkspace := w }) := by
  unfold stop finish
  rw [Routine.bind_assoc, Cluster.advance_atomically, hcommit]

end Lifecycle

namespace Runner
open Deployment
variable {site ticket : Nat} {who : Identity} {began : Micros} {d : Deployment}

/-- What follows the announcement of the start. -/
def tend (site ticket : Nat) (who : Identity) (handler : Handler Script) (began : Micros) :
    Work Unit := do
  Routine.modify (beginHeartbeat site ticket who.id)
  (attemptAll who handler handler.definition.restarts).ensure (close site ticket who began)

/-- What follows the stop of the job. -/
def report (who : Identity) (began : Micros) (job : Option (Job Instant)) : Work Unit := do
  let now ← elapsed
  onCluster do
    let time ← Cluster.now
    Cluster.announce ⟨who.id, who.jobType, time, .stopped (job.map (·.status)) (now - began)⟩

/-- What follows the end of the heartbeat. -/
def shut (site : Nat) (who : Identity) (began : Micros) : Work Unit := do
  let engine ← Routine.read (·.engine site)
  let job ← onCluster (Lifecycle.stop engine who.id none)
  report who began job

/-- What is left of the work of a job that was announced, by whether its handler is being executed
and whether the work has stopped the job. Under the condition `P` the store does not fail. -/
inductive Phase (site ticket : Nat) (who : Identity) (P : Prop) : Bool → Bool → Work Unit → Prop
  | announcing {handler : Handler Script} {began : Micros} {wake : Option Wake}
    {next : Routine Wake Bus Unit} (hnext : next.Plain) :
    Phase site ticket who P false false (.wait wake
      (onBus next >>= fun _ => tend site ticket who handler began) (Routine.fail .cancelled))
  | executing {began : Micros} {wake : Option Wake} {next abort : Work Unit}
    (hnext : Keeps (beside none) (fun _ => True) next true)
    (habort : Keeps (beside none) (fun _ => True) abort true) :
    Phase site ticket who P true false (.wait wake (next.ensure (close site ticket who began))
      (abort.ensure (close site ticket who began)))
  | passing {began : Micros} {outcome : Except Failure Unit} :
    Phase site ticket who P false false (.wait none (shut site who began >>= fun _ => .done outcome)
      (shut site who began >>= fun _ => .done outcome))
  | stopping {engine : Engine} {began : Micros} {outcome : Except Failure Unit}
    (hrounds : P → 0 < engine.rounds) :
    Phase site ticket who P false false ((onCluster (Lifecycle.stop engine who.id none) >>=
      report who began) >>= fun _ => .done outcome)
  | closed {wake : Option Wake} {next : Routine Wake Bus Unit} {outcome : Except Failure Unit}
    (hnext : next.Plain) :
    Phase site ticket who P false true (.wait wake (onBus next >>= fun _ => .done outcome)
      (Routine.fail .cancelled))

/-- A stretch has led to a phase. Under the condition `P` a job that the work has stopped has not
been started again. -/
inductive Proceeds (site ticket : Nat) (who : Identity) (P : Prop) : Work Unit × Deployment → Prop
  | intro {executing closed : Bool} {r : Work Unit} {d : Deployment}
    (hphase : Phase site ticket who P executing closed r)
    (hbeats : ∀ job, d.Beats site ticket job → executing ∧ job = who.id)
    (hclosed : closed → P → d.cluster.store.running? who.id = none) :
    Proceeds site ticket who P (r, d)

/-- A stretch has led to a phase or to the end of the work. -/
inductive Reaches (site ticket : Nat) (who : Identity) (P : Prop) : Work Unit × Deployment → Prop
  | proceeds {x : Work Unit × Deployment} (h : Proceeds site ticket who P x) :
    Reaches site ticket who P x
  | ended {outcome : Except Failure Unit} {d : Deployment}
    (hbeats : ∀ job, ¬d.Beats site ticket job)
    (hclosed : P → d.cluster.store.running? who.id = none) :
    Reaches site ticket who P (.done outcome, d)

variable {P P' : Prop}

theorem Phase.mono {executing closed : Bool} {r : Work Unit}
    (h : Phase site ticket who P executing closed r) (hP : P' → P) :
    Phase site ticket who P' executing closed r := by
  cases h with
  | announcing hnext => exact .announcing hnext
  | executing hnext habort => exact .executing hnext habort
  | passing => exact .passing
  | stopping hrounds => exact .stopping fun h => hrounds (hP h)
  | closed hnext => exact .closed hnext

theorem proceeds_ensure {r : Work Unit} (h : Keeps (beside none) (fun _ => True) r true)
    (hbeats : ∀ job, d.Beats site ticket job → job = who.id) :
    Proceeds site ticket who P ((r.ensure (close site ticket who began)).advance d) := by
  obtain ⟨hbeside, hrest⟩ := h.advance (s := d) trivial
  have hbeats' : ∀ job, (r.advance d).2.Beats site ticket job → job = who.id := fun job hjob =>
    hbeats job ((Beside.beats hbeside site ticket job nofun).mp hjob)
  rw [Routine.advance_ensure]
  rcases hadvance : r.advance d with ⟨rest, d'⟩
  rw [hadvance] at hrest hbeats'
  have hcases := Routine.advance_rests r d
  rw [hadvance] at hcases
  rcases hcases with ⟨outcome, rfl⟩ | ⟨wake, next, abort, rfl⟩
  · -- The handler is done with, well or badly: the heartbeat ends.
    have hend : ∀ job, ¬(d'.endHeartbeat site ticket).Beats site ticket job :=
      not_beats_endHeartbeat d' site ticket
    exact .intro .passing (fun job hjob => absurd hjob (hend job)) nofun
  · exact .intro (.executing hrest.1 hrest.2) (fun job hjob => ⟨rfl, hbeats' job hjob⟩) nofun

theorem proceeds_tend {handler : Handler Script} (hbeats : ∀ job, ¬d.Beats site ticket job) :
    Proceeds site ticket who P ((tend site ticket who handler began).advance d) := by
  have hminds : Keeps (beside none) (fun _ => True)
      (attemptAll who handler handler.definition.restarts) true :=
    Keeps.fresh_of_not
      ((minding none).attemptAll who handler _ (fun _ => trivial) trivial trivial)
  refine proceeds_ensure (d := d.beginHeartbeat site ticket who.id) hminds fun job hjob => ?_
  rcases beats_beginHeartbeat hjob with hold | hnew
  · exact absurd hold (hbeats job)
  · exact hnew

theorem proceeds_announcing {handler : Handler Script} {r : Routine Wake Bus Unit} (h : r.Plain)
    (hbeats : ∀ job, ¬d.Beats site ticket job) :
    Proceeds site ticket who P
      ((onBus r >>= fun _ => tend site ticket who handler began).advance d) := by
  rcases advance_onBus_cases h (fun _ => tend site ticket who handler began) d with
    ⟨_, b, hdone⟩ | ⟨wake, next, b, hnext, hwait⟩
  · rw [hdone]
    exact proceeds_tend (d := d.withBus b) hbeats
  · rw [hwait]
    exact .intro (.announcing hnext) (fun job hjob => absurd hjob (hbeats job)) nofun

theorem proceeds_shut {outcome : Except Failure Unit} (hrounds : P → 0 < (d.engine site).rounds)
    (hbeats : ∀ job, ¬d.Beats site ticket job) :
    Proceeds site ticket who P
      ((shut site who began >>= fun _ => .done outcome).advance d) :=
  .intro (.stopping hrounds) (fun job hjob => absurd hjob (hbeats job)) nofun

theorem reaches_closed {outcome : Except Failure Unit} {r : Routine Wake Bus Unit} (h : r.Plain)
    (hbeats : ∀ job, ¬d.Beats site ticket job)
    (hclosed : P → d.cluster.store.running? who.id = none) :
    Reaches site ticket who P ((onBus r >>= fun _ => .done outcome).advance d) := by
  rcases advance_onBus_cases h (fun _ => .done outcome) d with
    ⟨_, b, hdone⟩ | ⟨wake, next, b, hnext, hwait⟩
  · rw [hdone]
    exact .ended hbeats hclosed
  · rw [hwait]
    exact .proceeds
      (.intro (.closed hnext) (fun job hjob => absurd hjob (hbeats job)) fun _ => hclosed)

/-- The report reads the clock once more; if it cannot, the work ends there. -/
theorem reaches_report {outcome : Except Failure Unit} {job : Option (Job Instant)}
    (hbeats : ∀ job, ¬d.Beats site ticket job)
    (hclosed : P → d.cluster.store.running? who.id = none) :
    Reaches site ticket who P
      ((report who began job >>= fun _ => .done outcome).advance d) := by
  have hreport : (report who began job >>= fun _ => .done outcome).advance d =
      (onCluster (do
        let time ← Cluster.now
        Cluster.announce ⟨who.id, who.jobType, time, .stopped (job.map (·.status))
          (d.now - began)⟩) >>= fun _ => .done outcome).advance d := rfl
  rw [hreport, advance_announceNow]
  cases d.cluster.clock.read with
  | mk time clock =>
    cases time with
    | error e => exact .ended hbeats hclosed
    | ok time => exact reaches_closed (Bus.plain_publish _) hbeats hclosed

/-- The unit of work that stops the job succeeds, if the store does not fail. -/
theorem reaches_stop {engine : Engine} {outcome : Except Failure Unit}
    (hrounds : P → 0 < engine.rounds) (hclock : P → d.cluster.clock.Storable)
    (hbeats : ∀ job, ¬d.Beats site ticket job) :
    Reaches site ticket who P (((onCluster (Lifecycle.stop engine who.id none) >>=
      report who began) >>= fun _ => .done outcome).resume.advance d) := by
  have hresume : ((onCluster (Lifecycle.stop engine who.id none) >>= report who began) >>=
      fun _ => .done outcome).resume =
        onCluster (Lifecycle.stop engine who.id none).resume >>= fun job =>
          report who began job >>= fun _ => .done outcome := by
    rw [← Routine.bind_assoc]
    rfl
  rw [hresume, Routine.advance_bind, advance_onCluster]
  cases hcommit : (Lifecycle.leave engine who.id none).commit d.cluster.toWorkspace with
  | mk result w =>
    cases result with
    | ok result =>
      obtain ⟨metrics, hstop⟩ := Lifecycle.advance_stop hcommit
      have hstopped : w.store.running? who.id = none := by
        have := @Lifecycle.running?_of_leave engine who.id d.cluster.toWorkspace none result
        rw [hcommit] at this
        exact this rfl
      rw [hstop]
      exact reaches_report (d := { d with cluster := _ }) hbeats fun _ => hstopped
    | error e =>
      rw [Lifecycle.advance_stop_of_error hcommit]
      refine .ended hbeats fun hP => ?_
      obtain ⟨result, w', hok, -⟩ :=
        Lifecycle.commit_leave_ok (hrounds hP) (hclock hP) who.id none
      exact nomatch hcommit.symm.trans hok

/-! ### One stretch of a phase -/

theorem Phase.resume {executing closed : Bool} {r : Work Unit}
    (h : Phase site ticket who P executing closed r) (hclock : P → d.cluster.clock.Storable)
    (hrounds : P → 0 < (d.engine site).rounds)
    (hbeats : ∀ job, d.Beats site ticket job → executing ∧ job = who.id)
    (hclosed : closed → P → d.cluster.store.running? who.id = none) :
    Reaches site ticket who P (r.resume.advance d) := by
  cases h with
  | announcing hnext =>
    exact .proceeds (proceeds_announcing hnext fun job hjob => nomatch (hbeats job hjob).1)
  | executing hnext habort =>
    exact .proceeds (proceeds_ensure hnext fun job hjob => (hbeats job hjob).2)
  | passing => exact .proceeds (proceeds_shut hrounds fun job hjob => nomatch (hbeats job hjob).1)
  | stopping hpositive =>
    exact reaches_stop hpositive hclock fun job hjob => nomatch (hbeats job hjob).1
  | closed hnext =>
    exact reaches_closed hnext (fun job hjob => nomatch (hbeats job hjob).1) (hclosed rfl)

/-- Cancelled while its handler is executed, or while its heartbeat ends, the work goes on to close
the job; cancelled in another phase it is over. -/
theorem Phase.cancel {executing closed : Bool} {r : Work Unit}
    (h : Phase site ticket who P executing closed r) (hrounds : P → 0 < (d.engine site).rounds)
    (hbeats : ∀ job, d.Beats site ticket job → executing ∧ job = who.id) :
    Proceeds site ticket who P (r.cancel.advance d) ∨
      executing = false ∧ r.cancel = .done (.error .cancelled) := by
  cases h with
  | announcing | stopping | closed => exact .inr ⟨rfl, rfl⟩
  | executing hnext habort =>
    exact .inl (proceeds_ensure habort fun job hjob => (hbeats job hjob).2)
  | passing => exact .inl (proceeds_shut hrounds fun job hjob => nomatch (hbeats job hjob).1)

/-- A runner that found its job running announces it; if the clock cannot be read, it ends before
that. -/
theorem attend_cases (handler : Handler Script) (hbeats : ∀ job, ¬d.Beats site ticket job) :
    Proceeds site ticket who P ((attend site ticket who handler began).advance d) ∨
      ∃ e, (attend site ticket who handler began).advance d = (.done (.error e), d) := by
  have hattend : (attend site ticket who handler began).advance d =
      (onCluster (do
        let time ← Cluster.now
        Cluster.announce ⟨who.id, who.jobType, time, .started (d.engine site).hostname⟩) >>=
          fun _ => tend site ticket who handler began).advance d := rfl
  rw [hattend, advance_announceNow]
  unfold Clock.read
  cases d.cluster.clock.now? with
  | none => exact .inr ⟨_, rfl⟩
  | some time => exact .inl (proceeds_announcing (Bus.plain_publish _) hbeats)

theorem Proceeds.waits {x : Work Unit × Deployment} (h : Proceeds site ticket who P x) :
    ∃ wake next abort, x.1 = .wait wake next abort := by
  obtain ⟨hphase, -, -⟩ := h
  cases hphase <;> exact ⟨_, _, _, rfl⟩

end Runner

end JobControl
