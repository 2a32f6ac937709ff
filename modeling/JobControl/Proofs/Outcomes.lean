import JobControl.Proofs.Attempts
import JobControl.Proofs.Closing

/-! # How runs turn out

A run of a job that nothing else has a hand in: the work looks the job up and finds it as it was
created, and from then on heartbeats, the passing of time and the work of other jobs come in
between, but nothing that would change what the job shows of itself. Such a run comes to its end
after a bounded number of turns, and the executions, the messages and the status it leaves are those
of the attempts. -/

namespace JobControl
open Routine (Keeps Attains Leaving)

namespace Moment

/-- The thread of this work looks its job up and finds it as it was created. The handler was
executed so often before for a job of this id. -/
def Undertakes (m : Moment) (site ticket : Nat) (id : String) (handler : Handler Script)
    (executed : Nat) : Prop :=
  m.before.deployment.executed id = executed ∧
  ∃ i t began time hostname, m.turn = .move (.resume i) ∧ m.before.threads[i]? = some t ∧
    t.owner = .worker site ticket ∧ t.routine = Runner.inspect site ticket id handler began ∧
    m.before.store.find? id = some (Job.new id handler.definition.jobType time hostname)

/-- Of the job nothing was changed but the time of its last update. -/
structure LeavesAlone (m : Moment) (job : String) : Prop where
  executed : m.after.deployment.executed job = m.before.deployment.executed job
  messages : m.after.store.messagesOf job = m.before.store.messagesOf job
  record : ∀ r, m.before.store.records.get? job = some r →
    ∃ time, m.after.store.records.get? job = some { r with lastUpdated := time }

/-- The turn belongs to the thread of this work. -/
def plays (m : Moment) (site ticket : Nat) : Bool :=
  match m.turn with
  | .move (.resume i) | .move (.cancel i) =>
    m.before.threads[i]?.any fun t => t.owner = .worker site ticket
  | _ => false

theorem plays_iff {m : Moment} {site ticket : Nat} :
    m.plays site ticket ↔ m.OfWorker site ticket := by
  obtain ⟨s, turn, s'⟩ := m
  unfold plays OfWorker
  constructor
  · intro h
    split at h
    · rename_i i hturn
      obtain ⟨t, ht, howner⟩ := (Option.any_eq_true _ _).mp h
      exact ⟨i, t, .inl hturn, ht, of_decide_eq_true howner⟩
    · rename_i i hturn
      obtain ⟨t, ht, howner⟩ := (Option.any_eq_true _ _).mp h
      exact ⟨i, t, .inr hturn, ht, of_decide_eq_true howner⟩
    · contradiction
  · rintro ⟨i, t, rfl | rfl, ht, howner⟩
    · exact (Option.any_eq_true _ _).mpr ⟨t, ht, decide_eq_true howner⟩
    · exact (Option.any_eq_true _ _).mpr ⟨t, ht, decide_eq_true howner⟩

end Moment

namespace Schedule
variable {s s' s₀ : Schedule} {turn : Turn} {past : List Moment} {site ticket : Nat}

/-- At this time a unit of work at the site does not fail. -/
structure Reliable (s : Schedule) (site : Nat) : Prop where
  storable : s.clock.Storable
  rounds : 0 < (s.deployment.engine site).rounds

end Schedule

/-- The store does not fail, the work is not over and not cancelled, and the other threads leave
the job alone. -/
structure Moment.Undisturbed (m : Moment) (site ticket : Nat) (job : String) : Prop where
  before : m.before.Reliable site
  after : m.after.Reliable site
  present : .worker site ticket ∈ m.before.owners
  not_cancelled : ∀ i, m.turn = .move (.cancel i) → ¬m.OfWorker site ticket
  alone : ∀ i, m.turn = .move (.resume i) ∨ m.turn = .move (.cancel i) → ¬m.OfWorker site ticket →
    m.LeavesAlone job

/-! ## What others do -/

namespace Schedule
variable {s s' s₀ : Schedule} {turn : Turn} {past : List Moment} {site ticket : Nat} {job : String}

/-- A heartbeat, of whichever job, changes no more than the time of the last update. -/
theorem leavesAlone_beat (i : Nat) (b : Heartbeat) (turn : Turn) :
    Moment.LeavesAlone ⟨s, turn, { s with deployment := s.deployment.afterBeat i b }⟩ job := by
  have houtcome : Transaction.Outcome s.store (.touch b.job)
      (s.deployment.afterBeat i b).cluster.store :=
    Transaction.Makes.outcome (w := s.deployment.cluster.toWorkspace) rfl
  refine ⟨rfl, ?_, fun r hr => ?_⟩
  · show (s.deployment.afterBeat i b).cluster.store.messagesOf job = s.store.messagesOf job
    generalize (s.deployment.afterBeat i b).cluster.store = after at houtcome
    cases houtcome with
    | still _ hmessages =>
      unfold Store.messagesOf
      rw [hmessages]
    | touch time =>
      unfold Store.touch Store.messagesOf
      rw [Store.messages_updateIf]
  · show ∃ time, (s.deployment.afterBeat i b).cluster.store.records.get? job = _
    generalize (s.deployment.afterBeat i b).cluster.store = after at houtcome
    have hsame : r = { r with lastUpdated := r.lastUpdated } := rfl
    cases houtcome with
    | still hrecords _ =>
      rw [hrecords]
      exact ⟨r.lastUpdated, hr⟩
    | touch time =>
      rw [Store.get?_touch]
      split
      · subst job
        have hr : s.store.records.get? b.job = some r := hr
        rw [hr, Option.map_some]
        split
        · exact ⟨time, rfl⟩
        · exact ⟨r.lastUpdated, rfl⟩
      · exact ⟨r.lastUpdated, hr⟩

theorem Took.leavesAlone (h : s.Took turn s')
    (hplays : ∀ i, turn = .move (.resume i) ∨ turn = .move (.cancel i) →
      Moment.LeavesAlone ⟨s, turn, s'⟩ job) : Moment.LeavesAlone ⟨s, turn, s'⟩ job := by
  cases h with
  | cancel => exact hplays _ (.inr rfl)
  | resume => exact hplays _ (.inl rfl)
  | beat => exact leavesAlone_beat _ _ _
  | grant | wake | begin | call | elapse | shift => exact ⟨rfl, rfl, fun r hr => ⟨_, hr⟩⟩

theorem Run.start_eq (h : s₀.Run past s) (h₀ : s₀.Sound) : s.clock.start = s₀.clock.start := by
  induction h with
  | start => rfl
  | @turn past s s' turn hrun hservice hturn ih =>
    rw [← ih]
    rcases (took_of_turn? hturn).cases_around (hrun.sound h₀) hservice with
      ⟨span, -, -, rfl⟩ | ⟨d, -, rfl⟩ | ⟨i, b, -, -, -, rfl⟩ | ⟨own, -, hran⟩
    · rfl
    · rfl
    · exact (s.deployment.moved_afterBeat i b).clock.start_eq
    · exact hran.start_eq

theorem Run.prompt (h : s₀.Run past s) (h₀ : s₀.Sound)
    (hprompt : s₀.deployment.cluster.bus.Prompt) : s.deployment.cluster.bus.Prompt := by
  unfold Bus.Prompt
  rw [h.known h₀]
  exact hprompt

/-! ## Following the thread -/

/-- What a job shows of itself, and how often its handler was executed. -/
def Stands (s : Schedule) (id : String) (g : Nat × Standing) : Prop :=
  s.deployment.executed id = g.1 ∧ s.store.Tells id g.2

theorem Stands.alone {g : Nat × Standing} (h : s.Stands job g)
    (hm : Moment.LeavesAlone ⟨s, turn, s'⟩ job) : s'.Stands job g := by
  obtain ⟨hexecuted, hmessages, r, hr, hstatus, hstopped⟩ := h
  obtain ⟨time, hr'⟩ := hm.record r hr
  refine ⟨hm.executed.trans hexecuted, ?_, _, hr', hstatus, hstopped⟩
  rw [hm.messages]
  exact hmessages

/-- The thread of a worker goes on and comes to its end after at most `n` turns, with the account
`final`; or it has done so. -/
inductive Pursues (T : Tracking Wake Deployment (Nat × Standing)) (site ticket : Nat) (id : String)
    (final : Nat × Standing) (n : Nat) (s : Schedule) : Prop
  | goes {g : Nat × Standing} (hpresent : .worker site ticket ∈ s.owners) (hstands : s.Stands id g)
    (hthreads : ∀ t ∈ s.threads, t.owner = .worker site ticket →
      (∃ wake next abort, t.routine = .wait wake next abort) ∧
        t.routine.Attains T (Leaving final) g n)
  | ended (habsent : .worker site ticket ∉ s.owners) (hstands : s.Stands id final)

section
variable {id : String} {offset : Option Micros} {endless : Prop} {g final : Nat × Standing}
  {n : Nat}

/-- A stretch of the thread leads on. -/
theorem pursues_play (hseated : s.Seated) (hproper : s.deployment.Proper) {i : Nat} {t : Thread}
    (hthread : s.threads[i]? = some t) (howner : t.owner = .worker site ticket)
    {r : Deployment.Work Unit} {own : Option String}
    (hkeeps : Keeps (Deployment.conduct (fun _ => True) own) (fun _ => True) r true)
    (hshows : (Deployment.tracking site id offset endless).shows g s.deployment)
    (hbefore : s.clock.Storable) (hafter : (s.play i t.owner r).clock.Storable)
    (h : r.Attains (Deployment.tracking site id offset endless) (Leaving final) g n) :
    Pursues (Deployment.tracking site id offset endless) site ticket id final n
      (s.play i t.owner r) := by
  have hlast : (r.advance s.deployment).2.cluster.clock.Storable := by
    unfold clock at hafter
    rwa [cluster_play] at hafter
  obtain ⟨g', hshows', hattains⟩ := h.advance hkeeps hproper
    (fun d hd hd' => hbefore.between hlast hd.1.clock hd'.1.clock) hshows
  rcases worker_play_cases hseated hthread howner s.deployment r with
    ⟨wake, next, abort, hwait, hdeployment, hmem, hroutine⟩ | ⟨outcome, hdone, hcluster, -, hmem⟩
  · refine .goes (g := g') hmem ⟨?_, ?_⟩ fun t' ht' howner' => ?_
    · exact (congrArg (Deployment.executed · id) hdeployment).trans hshows'.1
    · show (s.play i t.owner r).deployment.cluster.store.Tells id g'.2
      rw [cluster_play]
      exact hshows'.2.1.1
    · rw [hroutine t' ht' howner']
      exact ⟨⟨wake, next, abort, hwait⟩, hattains⟩
  · rw [hdone] at hattains
    obtain ⟨x, -, rfl⟩ := hattains
    refine .ended hmem ⟨?_, ?_⟩
    · rw [executed_play_of_done id (Prod.ext hdone rfl)]
      exact hshows'.1
    · show (s.play i t.owner r).deployment.cluster.store.Tells id g'.2
      rw [cluster_play]
      exact hshows'.2.1.1

/-- Every turn of the thread takes one of the turns that were left to it, and no other turn keeps it
from its end. -/
theorem Run.pursues {s₁ : Schedule} {later : List Moment} (h : s₁.Run later s) (hsound : s₁.Sound)
    (hseated : s₁.Seated) (hprompt : s₁.deployment.cluster.bus.Prompt)
    (hbegin : s₁.Pursues (Deployment.tracking site id s₁.clock.start.offset endless) site ticket id
      final n)
    (hundisturbed : ∀ m ∈ later, m.Undisturbed site ticket id) :
    ∃ k, later.countP (·.plays site ticket) + k ≤ n ∧
      s.Pursues (Deployment.tracking site id s₁.clock.start.offset endless) site ticket id
        final k := by
  induction h with
  | start => exact ⟨n, by simp, hbegin⟩
  | @turn later s s' turn hrun hservice hturn ih =>
    obtain ⟨hearlier, hlast⟩ := forall_mem_concat hundisturbed
    obtain ⟨k, hk, hpursues⟩ := ih hearlier
    have hs := hrun.seated hseated
    have hproper := (hrun.sound hsound).proper
    have htook := took_of_turn? hturn
    rw [List.countP_append, List.countP_singleton]
    cases hpursues with
    | ended habsent => exact absurd hlast.present habsent
    | @goes g hpresent hstands hthreads =>
      by_cases hof : Moment.OfWorker ⟨s, turn, s'⟩ site ticket
      · rw [if_pos (Moment.plays_iff.mpr hof)]
        have hnot := fun i hi => hlast.not_cancelled i hi hof
        obtain ⟨i, t, rfl | rfl, hthread, howner⟩ := hof
        case inr => exact absurd rfl (hnot i)
        cases htook with
        | resume hthread' =>
          obtain rfl := Option.some.inj (hthread.symm.trans hthread')
          have hmem := List.mem_of_getElem? hthread
          obtain ⟨⟨wake, next, abort, hwait⟩, hattains⟩ := hthreads t hmem howner
          obtain ⟨own, hkeeps⟩ := (hrun.sound hsound).threads t hmem
          rw [hwait] at hattains
          obtain ⟨-, k', hk', hnext⟩ := hattains
          have hshows : (Deployment.tracking site id s₁.clock.start.offset endless).shows g
              s.deployment :=
            ⟨hstands.1, ⟨hstands.2, congrArg (·.offset) (hrun.start_eq hsound),
              hrun.prompt hsound hprompt⟩,
              hlast.before.rounds⟩
          have hnext' : t.routine.resume.Attains
              (Deployment.tracking site id s₁.clock.start.offset endless) (Leaving final) g k' := by
            rw [hwait]
            exact hnext
          refine ⟨k', by omega, ?_⟩
          exact pursues_play hs hproper hthread howner hkeeps.resume hshows hlast.before.storable
            hlast.after.storable hnext'
      · rw [if_neg (mt Moment.plays_iff.mp hof)]
        have halone := htook.leavesAlone fun i hi => hlast.alone i hi hof
        obtain ⟨-, hkeeps, hold⟩ := htook.aside hs hproper hof
        refine ⟨k, hk, .goes (hkeeps hpresent) (hstands.alone halone) fun t ht howner => ?_⟩
        rcases hold t ht howner with ht | ⟨habsent, -⟩
        · exact hthreads t ht howner
        · exact absurd hpresent habsent

end

/-! ## How the run of a job turns out -/

/-- The job is over after so many executions of its handler, and stopped. Its messages are those of
the attempts, its status is that of the last one, and it holds no run lock. -/
structure Concluded (s : Schedule) (who : Identity) (attempts : Nat → Attempt)
    (executions total : Nat) : Prop where
  executed : s.deployment.executed who.id = total
  job : ∃ job, s.store.find? who.id = some job ∧ job.isStopped ∧
    job.status = (attempts (executions - 1)).status ∧
    job.messages.map (fun m => (m.level, m.text)) = (List.range executions).flatMap fun i =>
      (attempts i).report who (decide (i + 1 < executions))
  unlocked : ∀ jobType, s.store.holder jobType ≠ some who.id

theorem tells_of_new {store : Store} {id jobType hostname : String} {time : Instant}
    (h : store.find? id = some (Job.new id jobType time hostname)) :
    store.Tells id ⟨[], .ok, false⟩ := by
  obtain ⟨r, hr, hjob⟩ := Option.map_eq_some_iff.mp h
  have hmessages : store.messagesOf id = [] := congrArg Job.messages hjob
  have hstatus : r.status = .ok := congrArg Job.status hjob
  have hstopped : r.stopped = none := congrArg Job.stopped hjob
  refine ⟨by rw [hmessages]; rfl, r, hr, hstatus, ?_⟩
  unfold Record.isStopped
  rw [hstopped]
  rfl

theorem Stands.concluded {who : Identity} {attempts : Nat → Attempt} {n total : Nat}
    (h : s.Stands who.id (total, ((⟨[], .ok, false⟩ : Standing).after who attempts n).close))
    (hs : s.store.Consistent) : s.Concluded who attempts n total := by
  obtain ⟨hexecuted, hmessages, r, hr, hstatus, hstopped⟩ := h
  have hidle : s.store.running? who.id = none := by
    rw [Store.running?_eq_none]
    rintro r' hr'
    obtain rfl := Option.some.inj (hr.symm.trans hr')
    exact hstopped
  have hjob : s.store.find? who.id =
      some (Store.assemble who.id r (s.store.messagesOf who.id)) := by
    unfold Store.find?
    rw [hr]
    rfl
  exact ⟨hexecuted, ⟨_, hjob, hstopped, hstatus, hmessages⟩, hs.holder_ne hidle⟩

theorem play_congr {i : Nat} {owner : Owner} {r r' : Deployment.Work Unit}
    (h : r.advance s.deployment = r'.advance s.deployment) :
    s.play i owner r = s.play i owner r' := by
  unfold play
  rw [h]

/-- What the thread has to attain after the look-up. The look-up finds the job running, so that the
thread goes on to attend to it. -/
theorem pursues_of_undertakes {c : Moment} {id : String} {handler : Handler Script} {e : Nat}
    (hundertakes : c.Undertakes site ticket id handler e)
    (hown : ∀ actions ∈ handler.body, ∀ x ∈ actions, x.isOwn) (offset : Option Micros) :
    ∃ N, c.before.Sound → c.before.Seated → c.before.deployment.cluster.bus.Prompt →
      c.before.clock.start.offset = offset → c.before.turn? c.turn = some c.after →
      c.before.Reliable site → c.after.Reliable site →
      c.after.Pursues (Deployment.tracking site id offset
          (∃ failure, handler.definition.retryDelay.toMicros = .error failure)) site ticket id
        (e + Attempt.count (handler.attempts e) handler.definition.restarts,
          ((⟨[], .ok, false⟩ : Standing).after ⟨id, handler.definition.jobType⟩
            (handler.attempts e)
            (Attempt.count (handler.attempts e) handler.definition.restarts)).close) N := by
  obtain ⟨s₁, turn, s₂⟩ := c
  obtain ⟨hexecuted, i, t, began, time, hostname, hcase, hthread, howner, hroutine, hfind⟩ :=
    hundertakes
  obtain rfl : turn = .move (.resume i) := hcase
  dsimp only at hexecuted hthread hfind ⊢
  obtain ⟨N, hattend⟩ := @Runner.attains_attend ⟨id, handler.definition.jobType⟩ handler site ticket
    offset (∃ failure, handler.definition.retryDelay.toMicros = .error failure) e
    ⟨[], .ok, false⟩ began (Script.forall_execution hown) (fun h => h) rfl rfl
  refine ⟨N, fun hsound hseated hprompt hoffset hturn hbefore hafter => ?_⟩
  cases took_of_turn? hturn with
  | resume hthread' =>
    obtain rfl := Option.some.inj (hthread.symm.trans hthread')
    have hplay : s₁.play i t.owner t.routine.resume = s₁.play i t.owner
        (Runner.attend site ticket ⟨id, handler.definition.jobType⟩ handler began) := by
      refine play_congr ?_
      rw [hroutine, Runner.advance_inspect]
      show (Runner.unlessStopped (s₁.store.find? id) _).advance _ = _
      rw [hfind]
      rfl
    have hafter := hafter.storable
    rw [hplay] at hafter ⊢
    have hservice : handler.IsService := fun actions ha x hx => by
      have := hown actions ha x hx
      cases x <;> first | rfl | contradiction
    have hkeeps := Runner.keeps_attend ⟨id, handler.definition.jobType⟩ hservice site ticket began
    have hshows : (Deployment.tracking site id offset
        (∃ failure, handler.definition.retryDelay.toMicros = .error failure)).shows
        (e, ⟨[], .ok, false⟩) s₁.deployment :=
      ⟨hexecuted, ⟨tells_of_new hfind, hoffset, hprompt⟩, hbefore.rounds⟩
    exact pursues_play hseated hsound.proper hthread howner hkeeps.fresh_of_not hshows
      hbefore.storable hafter hattend

/-- In the run of a job that nothing else has a hand in the handler is executed up to the first
attempt that does not fail, but not more often than there are restarts and once. When the run is
over, the job is stopped, and its messages and its status are those of the attempts. The run comes
to its end: only so many turns are left to its thread, and unless the retry delay is endless, the
thread waits for nothing that never happens. -/
theorem concluded_of_undertakes (h₀ : s₀.Initial) (hvacant : s₀.Vacant)
    (hprompt : s₀.deployment.cluster.bus.Prompt) {earlier : List Moment} {c : Moment} {id : String}
    {handler : Handler Script} {e : Nat} (hundertakes : c.Undertakes site ticket id handler e)
    (hown : ∀ actions ∈ handler.body, ∀ x ∈ actions, x.isOwn) :
    ∃ n N,
      ((∀ i, (handler.attempts e i).fails) → n = handler.definition.restarts + 1) ∧
      (∀ k, (∀ i < k, (handler.attempts e i).fails) → ¬(handler.attempts e k).fails →
        n = min (k + 1) (handler.definition.restarts + 1)) ∧
      ∀ later s, s₀.Run (earlier ++ c :: later) s →
        (∀ m ∈ c :: later, m.Undisturbed site ticket id) →
        (.worker site ticket ∉ s.owners →
          s.Concluded ⟨id, handler.definition.jobType⟩ (handler.attempts e) n (e + n)) ∧
        ∀ t ∈ s.threads, t.owner = .worker site ticket →
          later.countP (·.plays site ticket) < N ∧
            (t.routine.waitsFor = some .never →
              ∃ failure, handler.definition.retryDelay.toMicros = .error failure) := by
  obtain ⟨N, hpursues⟩ := pursues_of_undertakes hundertakes hown s₀.clock.start.offset
  refine ⟨_, N, fun hall => Attempt.count_of_forall hall _,
    fun k hk hlast => Attempt.count_of_first hk hlast _, fun later s hrun hundisturbed => ?_⟩
  obtain ⟨hfirst, hlater⟩ := List.forall_mem_cons.mp hundisturbed
  have hrun' := hrun
  rw [List.append_cons] at hrun'
  obtain ⟨s₁, hto, hfrom⟩ := hrun'.of_append
  obtain ⟨hbefore, -, hturn, rfl⟩ := hto.last
  have hbegin := hpursues (hbefore.sound h₀.sound) (hbefore.seated (h₀.seated hvacant))
    (hbefore.prompt h₀.sound hprompt) (congrArg (·.offset) (hbefore.start_eq h₀.sound)) hturn
    hfirst.before hfirst.after
  rw [← hto.start_eq h₀.sound] at hbegin
  obtain ⟨k, hk, hpursues⟩ := hfrom.pursues (hto.sound h₀.sound)
    (hto.seated (h₀.seated hvacant)) (hto.prompt h₀.sound hprompt) hbegin hlater
  refine ⟨fun habsent => ?_, fun t ht howner => ?_⟩
  · cases hpursues with
    | goes hpresent => exact absurd hpresent habsent
    | ended _ hstands => exact hstands.concluded (hrun.consistent h₀)
  · cases hpursues with
    | goes _ _ hthreads =>
      obtain ⟨⟨wake, next, abort, hwait⟩, hattains⟩ := hthreads t ht howner
      rw [hwait] at hattains ⊢
      obtain ⟨hpatient, k', hk', -⟩ := hattains
      exact ⟨by omega, fun hnever => hpatient .never hnever rfl⟩
    | ended habsent => exact absurd (howner ▸ List.mem_map_of_mem ht) habsent

end Schedule

/-! ## A run with a restart -/

instance (c : Clock) : Decidable c.Storable := decidable_of_iff _ Clock.storable_iff.symm

instance (s : Schedule) (site : Nat) : Decidable (s.Reliable site) :=
  decidable_of_iff (s.clock.Storable ∧ 0 < (s.deployment.engine site).rounds)
    ⟨fun h => ⟨h.1, h.2⟩, fun h => ⟨h.storable, h.rounds⟩⟩

/-- No other thread goes on in the turn, and none is cancelled. -/
def Moment.isSolo (m : Moment) (site ticket : Nat) : Bool :=
  match m.turn with
  | .move (.resume _) => m.plays site ticket
  | .move (.cancel _) => false
  | _ => true

theorem Moment.undisturbed_of_solo {m : Moment} {site ticket : Nat} {job : String}
    (hbefore : m.before.Reliable site) (hafter : m.after.Reliable site)
    (hpresent : .worker site ticket ∈ m.before.owners) (hsolo : m.isSolo site ticket) :
    m.Undisturbed site ticket job := by
  refine ⟨hbefore, hafter, hpresent, fun i hturn => ?_, fun i hturn hnot => ?_⟩
  · unfold isSolo at hsolo
    rw [hturn] at hsolo
    contradiction
  · unfold isSolo at hsolo
    rcases hturn with hturn | hturn
    · rw [hturn] at hsolo
      exact absurd (plays_iff.mp hsolo) hnot
    · rw [hturn] at hsolo
      contradiction

namespace Schedule

/-- A handler that reports an error and raises an exception in its first execution, and gives a
warning in the next. -/
def retrying : Handler Script :=
  ⟨.build "nightly" "" "" [] 1 (.ofRatio false 10 1),
    [[.note .info "first", .sleep (2 * Micros.perMinute), .note .error "bad",
        .raise "ValueError" "boom"],
      [.note .warning "second", .finish (.flag true)]]⟩

/-- A run of the handler to its end, by one engine. -/
def retried : Option (List Moment × Schedule) :=
  (single 1 Micros.perMinute retrying).replay? [.call 0 0 (.start (.named "nightly")),
    .move (.resume 0), .move (.resume 0), .move (.grant 0), .move (.resume 0), .move (.resume 0),
    .move (.resume 0), .elapse Micros.perMinute, .move (.beat 0), .elapse Micros.perMinute,
    .move (.beat 0), .move (.resume 0), .move (.resume 0), .move (.resume 0), .move (.resume 0),
    .elapse (10 * Micros.perSecond), .move (.resume 0), .move (.resume 0), .move (.resume 0),
    .move (.resume 0)]

/-- In the sixth turn the thread looks its job up. -/
theorem lookup_retried : (retried.bind fun r => r.1[5]?.map fun c =>
      (c.turn, c.before.threads[0]?.map fun t => (t.owner, t.routine),
        c.before.deployment.executed "job-1", c.before.store.find? "job-1")) =
    some (.move (.resume 0), some (.worker 0 0, Runner.inspect 0 0 "job-1" retrying 0), 0,
      some (Job.new "job-1" "nightly" ⟨63902822400000000⟩ "host")) := rfl

/-- Of the first attempt the messages remain, but not its status. -/
theorem concluded_of_undertakes_retrying :
    ∃ past s, (single 1 Micros.perMinute retrying).Run past s ∧
      s.Concluded ⟨"job-1", "nightly"⟩ (retrying.attempts 0) 2 2 ∧
      ∃ job, s.store.find? "job-1" = some job ∧ job.status = .ok ∧
        job.messages.map (fun m => (m.level, m.text)) =
          [(.info, "first"), (.error, "bad"),
            (.error, "Fatal error in job nightly (job-1): ValueError: boom"),
            (.warning, "Restarting job .."), (.warning, "second")] := by
  have hquiet : retried.any fun r =>
      (r.1.drop 5).all (fun m => decide (m.before.Reliable 0 ∧ m.after.Reliable 0 ∧
        .worker 0 0 ∈ m.before.owners) && m.isSolo 0 0) &&
      decide (.worker 0 0 ∉ r.2.owners) := by
    decide +kernel
  obtain ⟨⟨past, s⟩, hreplay, hquiet⟩ := (Option.any_eq_true _ _).mp hquiet
  have hlookup := lookup_retried
  rw [hreplay] at hlookup
  obtain ⟨c, hc, hfacts⟩ := Option.map_eq_some_iff.mp hlookup
  obtain ⟨hturn, hfacts⟩ := Prod.mk.inj hfacts
  obtain ⟨hthread, hfacts⟩ := Prod.mk.inj hfacts
  obtain ⟨hexecuted, hfind⟩ := Prod.mk.inj hfacts
  obtain ⟨t, ht, hthread⟩ := Option.map_eq_some_iff.mp hthread
  obtain ⟨howner, hroutine⟩ := Prod.mk.inj hthread
  have hundertakes : c.Undertakes 0 0 "job-1" retrying 0 :=
    ⟨hexecuted, 0, t, 0, _, _, hturn, ht, howner, hroutine, hfind⟩
  have hdrop : past.drop 5 = c :: past.drop 6 := by
    obtain ⟨hlt, rfl⟩ := List.getElem?_eq_some_iff.mp hc
    exact List.drop_eq_getElem_cons hlt
  have hsplit : past = past.take 5 ++ c :: past.drop 6 := by
    rw [← hdrop, List.take_append_drop]
  have hrun : (single 1 Micros.perMinute retrying).Run past s :=
    Run.of_replay? .start (List.all_eq_true.mp (by decide +kernel)) hreplay
  obtain ⟨hall, habsent⟩ := (Bool.and_eq_true _ _).mp hquiet
  have hundisturbed : ∀ m ∈ c :: past.drop 6, m.Undisturbed 0 0 "job-1" := by
    intro m hm
    obtain ⟨hstates, hsolo⟩ := (Bool.and_eq_true _ _).mp
      (List.all_eq_true.mp hall m (hdrop ▸ hm))
    obtain ⟨hbefore, hafter, hpresent⟩ := of_decide_eq_true hstates
    exact m.undisturbed_of_solo hbefore hafter hpresent hsolo
  have hown : ∀ actions ∈ retrying.body, ∀ x ∈ actions, x.isOwn := by
    simp [retrying, Action.isOwn]
  have hservice : retrying.IsService := by
    simp [Handler.IsService, retrying, Action.isService]
  have hprompt : (single 1 Micros.perMinute retrying).deployment.cluster.bus.Prompt :=
    fun _ l hl => absurd hl.symm (Option.some_ne_none l)
  have hvacant : (single 1 Micros.perMinute retrying).Vacant := by
    intro site hsite
    obtain rfl := List.mem_singleton.mp hsite
    exact ⟨rfl, rfl⟩
  obtain ⟨n, N, -, hfirst, hend⟩ := @concluded_of_undertakes _ _ _ (initial_single hservice) hvacant
    hprompt (past.take 5) c _ _ _ hundertakes hown
  obtain rfl : n = 2 := hfirst 1 (by decide) (by decide)
  have hconcluded := (hend (past.drop 6) s (hsplit ▸ hrun) hundisturbed).1
    (of_decide_eq_true habsent)
  obtain ⟨job, hjob, -, hstatus, hmessages⟩ := hconcluded.job
  exact ⟨past, s, hrun, hconcluded, job, hjob, hstatus, hmessages⟩

end Schedule
end JobControl
