import JobControl.Proofs.Deployments

/-! # Runs of a schedule

A run is made of turns: a move of the schedule, a call from outside, the passing of time, or a
setting of the clock, in any order. `Schedule.Run s₀ past s` keeps what happened on the way from
`s₀` to `s`. `Schedule.Took` lists once what each turn does. -/

namespace JobControl
open Routine (Keeps)

inductive Turn where
  | move (m : Move)
  | call (number site : Nat) (command : Command)
  | elapse (span : Micros)
  | shift (d : Micros)

def Turn.isService : Turn → Bool
  | call _ _ command => command.isService
  | _ => true

namespace Schedule

def shift (s : Schedule) (d : Micros) : Schedule :=
  let cluster := { s.deployment.cluster with clock := s.deployment.cluster.clock.shift d }
  { s with deployment := { s.deployment with cluster } }

def turn? (s : Schedule) : Turn → Option Schedule
  | .move m => s.step? m
  | .call number site command => some (s.call number site command)
  | .elapse span => if 0 ≤ span then some (s.atTime (s.now + span)) else none
  | .shift d => some (s.shift d)

def store (s : Schedule) : Store := s.deployment.cluster.store

end Schedule

structure Moment where
  before : Schedule
  turn : Turn
  after : Schedule

namespace Moment

/-- The job stopped being a running one. -/
def Ends (m : Moment) (job : String) : Prop :=
  m.before.store.running? job ≠ none ∧ m.after.store.running? job = none

/-- The job became a running one. -/
def Starts (m : Moment) (job : String) : Prop :=
  m.before.store.running? job = none ∧ m.after.store.running? job ≠ none

end Moment

def Schedule.replay? : List Turn → Schedule → Option (List Moment × Schedule)
  | [], s => some ([], s)
  | turn :: rest, s => do
    let after ← s.turn? turn
    let (past, last) ← replay? rest after
    return (⟨s, turn, after⟩ :: past, last)

/-- A heartbeat keeps its job alive and is due again. -/
def Deployment.afterBeat (d : Deployment) (i : Nat) (h : Heartbeat) : Deployment :=
  let d := ((onCluster (Lifecycle.keepAlive h.job)).run d).2
  { d with heartbeats := d.heartbeats.set i { h with due := h.due + h.every } }

namespace Schedule

/-- From `s₀` the turns in `past` led to the last schedule. -/
inductive Run (s₀ : Schedule) : List Moment → Schedule → Prop
  | start : Run s₀ [] s₀
  | turn {past : List Moment} {s s' : Schedule} {turn : Turn} (h : Run s₀ past s)
    (hservice : turn.isService) (hturn : s.turn? turn = some s') :
    Run s₀ (past ++ [⟨s, turn, s'⟩]) s'

/-- No job is known and no work has begun. -/
structure Initial (s : Schedule) : Prop where
  store : s.store = ∅
  proper : s.deployment.Proper
  threads : s.threads = []
  heartbeats : s.deployment.heartbeats = []

/-! ## What a turn does -/

/-- The possible turns and what they lead to. -/
inductive Took (s : Schedule) : Turn → Schedule → Prop
  | cancel {i site ticket : Nat} {r : Deployment.Work Unit} {due : Micros}
    (hthread : s.threads[i]? = some ⟨.worker site ticket, r, due⟩) :
    Took s (.move (.cancel i))
      ({ s with deployment := s.deployment.spare site ticket }.play i (.worker site ticket)
        r.cancel)
  | resume {i : Nat} {t : Thread} (hthread : s.threads[i]? = some t) :
    Took s (.move (.resume i)) (s.play i t.owner t.routine.resume)
  | grant {site : Nat} {p pool : Pool (Handler Script)} {t : Ticket (Handler Script)}
    (hpool : s.deployment.pool? site = some p) (hgrant : p.grant? = some (t, pool)) :
    Took s (.move (.grant site))
      ⟨s.deployment.modifyPool site fun _ => pool,
        s.threads ++ [.new (.worker site t.number) (Runner.run site t.number t.job t.work)]⟩
  | beat {i : Nat} {h : Heartbeat} (hbeat : s.deployment.heartbeats[i]? = some h)
    (hdue : h.due ≤ s.now) :
    Took s (.move (.beat i)) { s with deployment := s.deployment.afterBeat i h }
  | wake {i : Nat} {w : Watch} {due : Micros} (hwatch : s.deployment.watches[i]? = some w)
    (hphase : w.loop.phase = .waiting due) (hdue : due ≤ s.now) : Took s (.move (.wake i))
      { s with deployment := s.deployment.modifyLoop i (·.wake s.now) }
  | begin {i : Nat} {w : Watch} (hwatch : s.deployment.watches[i]? = some w)
    (hdue : w.loop.isDue) : Took s (.move (.begin i))
      ⟨s.deployment.modifyLoop i (·.runBegan), s.threads ++ [.new (.watch i) w.run]⟩
  | call (number site : Nat) (command : Command) :
    Took s (.call number site command) (s.call number site command)
  | elapse {span : Micros} (hspan : 0 ≤ span) :
    Took s (.elapse span) (s.atTime (s.now + span))
  | shift (d : Micros) : Took s (.shift d) (s.shift d)

theorem took_of_step? {s s' : Schedule} {m : Move} (h : s.step? m = some s') :
    s.Took (.move m) s' := by
  cases m with
  | cancel i =>
    simp only [step?, cancel?] at h
    split at h
    · split at h
      · rename_i hthread _
        obtain rfl := Option.some.inj h
        exact .cancel hthread
      · contradiction
    · contradiction
  | resume i =>
    simp only [step?, resume?] at h
    split at h
    · split at h
      · rename_i hthread _
        obtain rfl := Option.some.inj h
        exact .resume hthread
      · contradiction
    · contradiction
  | grant site =>
    simp only [step?, grant?] at h
    split at h
    · rename_i t pool hgrant
      obtain rfl := Option.some.inj h
      obtain ⟨p, hp, hgrant⟩ := Option.bind_eq_some_iff.mp hgrant
      exact .grant hp hgrant
    · contradiction
  | beat i =>
    simp only [step?, beat?] at h
    split at h
    · split at h
      · rename_i hbeat hdue
        obtain rfl := Option.some.inj h
        exact .beat hbeat hdue
      · contradiction
    · contradiction
  | wake i =>
    simp only [step?, wake?] at h
    split at h
    · rename_i due hwaits
      split at h
      · rename_i hdue
        obtain rfl := Option.some.inj h
        obtain ⟨w, hwatch, hwaits⟩ := Option.bind_eq_some_iff.mp hwaits
        exact .wake hwatch (Loop.due?_eq_some.mp hwaits) hdue
      · contradiction
    · contradiction
  | begin i =>
    simp only [step?, begin?] at h
    split at h
    · split at h
      · rename_i hwatch hdue
        obtain rfl := Option.some.inj h
        exact .begin hwatch hdue
      · contradiction
    · contradiction

theorem took_of_turn? {s s' : Schedule} {turn : Turn} (h : s.turn? turn = some s') :
    s.Took turn s' := by
  cases turn with
  | move m => exact took_of_step? h
  | call number site command =>
    obtain rfl := Option.some.inj h
    exact .call number site command
  | elapse span =>
    simp only [turn?] at h
    split at h
    · obtain rfl := Option.some.inj h
      exact .elapse ‹_›
    · contradiction
  | shift d =>
    obtain rfl := Option.some.inj h
    exact .shift d

/-! ## A thread plays a stretch -/

section
variable {s : Schedule} {i : Nat} {owner : Owner} {r : Deployment.Work Unit}

theorem play_of_done {outcome : Except Failure Unit} {d : Deployment}
    (h : r.advance s.deployment = (.done outcome, d)) :
    s.play i owner r = ⟨owner.ended d, s.threads.eraseIdx i⟩ := by
  unfold play
  rw [h]

theorem play_of_wait {wake : Option Wake} {next abort : Deployment.Work Unit} {d : Deployment}
    (h : r.advance s.deployment = (.wait wake next abort, d)) :
    s.play i owner r =
      ⟨d, s.threads.set i ⟨owner, .wait wake next abort, d.dueOf (.wait wake next abort)⟩⟩ := by
  unfold play
  rw [h]

/-- Either the thread is over, or what remains of it waits. -/
theorem play_cases (s : Schedule) (i : Nat) (owner : Owner) (r : Deployment.Work Unit) :
    (∃ outcome d, r.advance s.deployment = (.done outcome, d) ∧
      s.play i owner r = ⟨owner.ended d, s.threads.eraseIdx i⟩) ∨
    (∃ wake next abort d, r.advance s.deployment = (.wait wake next abort, d) ∧
      s.play i owner r =
        ⟨d, s.threads.set i ⟨owner, .wait wake next abort, d.dueOf (.wait wake next abort)⟩⟩) := by
  rcases h : r.advance s.deployment with ⟨rest, d⟩
  have hrest := Routine.advance_rests r s.deployment
  rw [h] at hrest
  rcases hrest with ⟨outcome, rfl⟩ | ⟨wake, next, abort, rfl⟩
  · exact .inl ⟨outcome, d, rfl, play_of_done h⟩
  · exact .inr ⟨wake, next, abort, d, rfl, play_of_wait h⟩

theorem deployment_play {wake : Option Wake} {next abort : Deployment.Work Unit}
    (h : (r.advance s.deployment).1 = .wait wake next abort) :
    (s.play i owner r).deployment = (r.advance s.deployment).2 := by
  rw [play_of_wait (Prod.ext h rfl)]

theorem cluster_play :
    (s.play i owner r).deployment.cluster = (r.advance s.deployment).2.cluster := by
  rcases play_cases s i owner r with
    ⟨outcome, d, hadvance, hplay⟩ | ⟨wake, next, abort, d, hadvance, hplay⟩
  · rw [hplay, hadvance]
    cases owner <;> rfl
  · rw [hplay, hadvance]

theorem mem_threads_play {t : Thread} (h : t ∈ (s.play i owner r).threads) :
    t ∈ s.threads ∨ (t.owner = owner ∧ t.routine = (r.advance s.deployment).1 ∧
      ∃ wake next abort, t.routine = .wait wake next abort) := by
  rcases play_cases s i owner r with
    ⟨outcome, d, -, hplay⟩ | ⟨wake, next, abort, d, hadvance, hplay⟩
  · rw [hplay] at h
    exact .inl (List.mem_of_mem_eraseIdx h)
  · rw [hplay] at h
    rcases List.mem_or_eq_of_mem_set h with h | rfl
    · exact .inl h
    · exact .inr ⟨rfl, by rw [hadvance], wake, next, abort, rfl⟩

end

end Schedule

namespace Owner
variable {own : Option String}

theorem around_ended (owner : Owner) (d : Deployment) : d.Around own (owner.ended d) := by
  cases owner with
  | worker site ticket =>
    have hfinish : d.Around own (d.modifyPool site (·.finish ticket)) :=
      .modifyPool fun p hp t ht => hp t (Pool.mem_queue_of_finish ht)
    exact hfinish.trans (.of_eq rfl rfl rfl rfl rfl)
  | watch i => exact .of_eq rfl rfl rfl rfl rfl
  | caller number => exact .refl d

theorem cluster_ended (owner : Owner) (d : Deployment) : (owner.ended d).cluster = d.cluster := by
  cases owner <;> rfl

end Owner

namespace Schedule
variable {s s' s₀ : Schedule} {turn : Turn} {past : List Moment}

/-- A stretch that a thread plays is one turn of its conduct. -/
theorem moved_play (i : Nat) (owner : Owner) {K : String → Prop} {own : Option String}
    {r : Deployment.Work Unit}
    (h : Keeps (Deployment.conduct K own) (fun _ => True) r true) (hs : s.deployment.Proper) :
    s.deployment.cluster.Moved K (s.play i owner r).deployment.cluster ∧
      s.deployment.Around own (s.play i owner r).deployment := by
  obtain ⟨⟨hmoved, haround⟩, -⟩ := h.advance hs
  rcases play_cases s i owner r with
    ⟨outcome, d, hadvance, hplay⟩ | ⟨wake, next, abort, d, hadvance, hplay⟩
  · rw [hadvance] at hmoved haround
    rw [hplay]
    exact ⟨(owner.cluster_ended d).symm ▸ hmoved, haround.trans (owner.around_ended d)⟩
  · rw [hadvance] at hmoved haround
    rw [hplay]
    exact ⟨hmoved, haround⟩

end Schedule
end JobControl
