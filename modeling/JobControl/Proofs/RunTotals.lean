import Mathlib.Algebra.GroupWithZero.Nat
import JobControl.Proofs.RecordLives

/-! # Totals of a run

Over a run of engines that share their counters and their events, everything is accounted for once:
the counters say how many jobs came in and how many were stopped, the jobs that came in and were not
stopped are those that hold the run locks, and who is said to be dead was stopped as dead. -/

namespace JobControl
open Store (arrivals departures)

/-! ## The jobs of one turn -/

namespace Mapping
variable {κ α : Type} [DecidableEq κ]

/-- A key has one entry. -/
theorem countP_key (m : Mapping κ α) (p : κ × α → Bool) (k : κ) :
    m.entries.countP (fun e => e.1 = k && p e) = ((m.get? k).any fun a => p (k, a)).toNat := by
  have hnodup : m.entries.Nodup := m.distinct.of_map
  cases hget : m.get? k with
  | none =>
    refine List.countP_eq_zero.mpr fun ⟨k', a⟩ he hk => ?_
    simp only [Bool.and_eq_true, decide_eq_true_eq] at hk
    obtain ⟨rfl, -⟩ := hk
    rw [(m.mem_entries_iff).mp he] at hget
    contradiction
  | some a =>
    have hmem : (k, a) ∈ m.entries := (m.mem_entries_iff).mpr hget
    have hsame : ∀ e ∈ m.entries, e.1 = k → e = (k, a) := by
      rintro ⟨k', a'⟩ he rfl
      obtain rfl := Option.some.inj (((m.mem_entries_iff).mp he).symm.trans hget)
      rfl
    rw [List.countP_eq_length_filter, Option.any_some]
    cases hp : p (k, a) with
    | false =>
      have hnil : m.entries.filter (fun e => e.1 = k && p e) = [] := by
        refine List.filter_eq_nil_iff.mpr fun e he hk => ?_
        simp only [Bool.and_eq_true, decide_eq_true_eq] at hk
        rw [hsame e he hk.1, hp] at hk
        exact absurd hk.2 nofun
      rw [hnil]
      rfl
    | true =>
      have hsingle : m.entries.filter (fun e => e.1 = k && p e) = [(k, a)] := by
        refine Store.eq_singleton_of_nodup (hnodup.filter _) fun e => ?_
        simp only [List.mem_filter, Bool.and_eq_true, decide_eq_true_eq]
        constructor
        · rintro ⟨he, hk, -⟩
          exact hsame e he hk
        · rintro rfl
          exact ⟨hmem, rfl, hp⟩
      rw [hsingle]
      rfl

end Mapping

/-- One, if the job is running and of such a type. -/
def Store.runs (s : Store) (q : String → Bool) (id : String) : Nat :=
  ((s.running? id).any fun r => q r.jobType).toNat

theorem Store.Consistent.runs_eq_count {s : Store} (h : s.Consistent) (t id : String) :
    s.runs (· = t) id = (s.holder t).toList.count id := by
  unfold runs
  cases hrunning : (s.running? id).any fun r => r.jobType = t with
  | true =>
    obtain ⟨r, hr, ht⟩ := (Option.any_eq_true _ _).mp hrunning
    rw [(h t id).mpr ⟨r, hr, of_decide_eq_true ht⟩, Option.toList_some, List.count_singleton_self]
    rfl
  | false =>
    have hother : id ∉ (s.holder t).toList := by
      intro hmem
      obtain ⟨r, hr, ht⟩ := (h t id).mp (Option.mem_toList.mp hmem)
      rw [hr, Option.any_some, ht] at hrunning
      exact of_decide_eq_false hrunning rfl
    rw [List.count_eq_zero_of_not_mem hother]
    rfl

/-- Of each job there is one fewer or more running as it comes in or goes. -/
theorem Transaction.Outcome.balance {tx : Transaction} {s s' : Store} (h : tx.Outcome s s')
    (q : String → Bool) (id : String) :
    (arrivals s s').countP (fun e => e.1 = id && q e.2.jobType) + s.runs q id =
      (departures s s').countP (fun e => e.1 = id && q e.2.jobType) + s'.runs q id := by
  have hfate := h.fate id
  unfold arrivals departures Store.runs
  rw [List.countP_filter, List.countP_filter]
  simp only [Bool.and_assoc]
  rw [Mapping.countP_key, Mapping.countP_key]
  unfold Store.running? Mapping.contains
  dsimp only
  generalize s.records.get? id = o at hfate
  generalize s'.records.get? id = o' at hfate
  cases hfate with
  | absent => rfl
  | start => simp [Option.filter_some, Record.isStopped]
  | remove _ stopped => simp [Option.filter_some, stopped]
  | @update r =>
    cases hstopped : r.stopped with
    | none => simp [Option.filter_some, Record.isStopped, hstopped]
    | some time => simp [Option.filter_some, Record.isStopped, hstopped]
  | mark running => simp [Option.filter_some, Record.isStopped, running]
  | stop running => simp [Option.filter_some, Record.isStopped, Record.ended, running]

namespace Moment

/-- The jobs that came in, and those that were stopped, in the turn. -/
def arrivals (m : Moment) : List (String × Record) := Store.arrivals m.before.store m.after.store

def departures (m : Moment) : List (String × Record) :=
  Store.departures m.before.store m.after.store

end Moment

/-! ## To stop a job again -/

/-- No record, message, counter or event is different. -/
structure Cluster.Unaltered (c c' : Cluster) : Prop where
  records : c'.store.records = c.store.records
  messages : c'.store.messages = c.store.messages
  metrics : c'.metrics = c.metrics
  bus : c'.bus = c.bus

namespace Lifecycle
variable {c : Cluster} {r : Record} {id : String}

theorem commit_leave_of_stopped {w : Workspace} (engine : Engine) (status : Option Status)
    (hr : w.store.records.get? id = some r) (hstopped : r.stopped ≠ none) :
    (∀ job, ((leave engine id status).commit w).1 ≠ .ok (some job, true)) ∧
      ((leave engine id status).commit w).2.store.records = w.store.records ∧
      ((leave engine id status).commit w).2.store.messages = w.store.messages := by
  have hidle : ∀ r', w.store.running? id ≠ some r' := by
    intro r' hr'
    obtain ⟨hknown, hrunning⟩ := Store.running?_eq_some.mp hr'
    obtain rfl := Option.some.inj (hr.symm.trans hknown)
    exact hstopped hrunning
  refine ⟨fun job hjob => ?_, ?_⟩
  · have hout := departures_leave engine id status
      (rfl : (leave engine id status).commit w = _)
    rcases hout with ⟨job', r', -, hdepartures, -⟩ | ⟨hother, -⟩
    · have hmem : (id, r') ∈ departures w.store ((leave engine id status).commit w).2.store := by
        rw [hdepartures]
        exact List.mem_singleton_self _
      obtain ⟨-, -, r₀, hr₀⟩ := Store.mem_departures.mp hmem
      exact hidle r₀ hr₀
    · exact hother job hjob
  · have hout := outcome_leave (w := w) engine id status
    generalize ((leave engine id status).commit w).2.store = s' at hout ⊢
    cases hout with
    | still records messages => exact ⟨records, messages⟩
    | stop time ds running => exact absurd running (hidle _)

/-- A stop of a stopped job is over in one stretch, and reports no stop. -/
theorem advance_finish_of_stopped (engine : Engine) (status : Option Status)
    (hr : c.store.records.get? id = some r) (hstopped : r.stopped ≠ none) :
    ∃ outcome c', (finish engine id status).resume.advance c = (.done outcome, c') ∧
      c.Unaltered c' ∧ ∀ job, outcome ≠ .ok (some job, true) := by
  obtain ⟨hother, hrecords, hmessages⟩ :=
    commit_leave_of_stopped (w := c.toWorkspace) engine status hr hstopped
  let out := (leave engine id status).commit c.toWorkspace
  have hunaltered : c.Unaltered { c with toWorkspace := out.2 } := ⟨hrecords, hmessages, rfl, rfl⟩
  refine ⟨out.1, _, ?_, hunaltered, hother⟩
  unfold finish
  show ((Routine.done out.1).bind _).advance { c with toWorkspace := out.2 } = _
  cases hout : out.1 with
  | error e => rfl
  | ok result =>
    obtain ⟨job, stopped⟩ := result
    cases job with
    | none => rfl
    | some job =>
      cases stopped with
      | false => rfl
      | true => exact absurd hout (hother job)

theorem advance_stop_of_stopped (engine : Engine) (status : Option Status)
    (hr : c.store.records.get? id = some r) (hstopped : r.stopped ≠ none) :
    ∃ outcome c', (stop engine id status).resume.advance c = (.done outcome, c') ∧
      c.Unaltered c' := by
  obtain ⟨outcome, c', hfinish, hunaltered, -⟩ :=
    advance_finish_of_stopped engine status hr hstopped
  have hadvance : (stop engine id status).resume.advance c =
      ((finish engine id status).resume >>= fun out => pure out.1).advance c := rfl
  rw [hadvance, Routine.advance_bind, hfinish]
  cases outcome with
  | error e => exact ⟨_, c', rfl, hunaltered⟩
  | ok out => exact ⟨_, c', rfl, hunaltered⟩

theorem advance_kill_of_stopped (engine : Engine) (hr : c.store.records.get? id = some r)
    (hstopped : r.stopped ≠ none) :
    ∃ outcome c', (kill engine id).resume.advance c = (.done outcome, c') ∧ c.Unaltered c' := by
  obtain ⟨outcome, c', hfinish, hunaltered, hother⟩ :=
    advance_finish_of_stopped engine (some .dead) hr hstopped
  unfold kill
  show ∃ outcome' c'', ((finish engine id (some .dead)).resume >>= _).advance c = _ ∧ _
  rw [Routine.advance_bind, hfinish]
  cases outcome with
  | error e => exact ⟨_, c', rfl, hunaltered⟩
  | ok out =>
    obtain ⟨job, stopped⟩ := out
    cases job with
    | none => exact ⟨_, c', rfl, hunaltered⟩
    | some job =>
      cases stopped with
      | false => exact ⟨_, c', rfl, hunaltered⟩
      | true => exact absurd rfl (hother job)

end Lifecycle

/-! ## Counting by status -/

def Status.all : List Status := [.ok, .error, .dead, .skipped]

theorem Status.countP_eq_sum {α : Type} (l : List α) (p : α → Bool) (f : α → Status) :
    l.countP p = (Status.all.map fun status => l.countP fun a => p a && f a = status).sum := by
  unfold all
  induction l with
  | nil => rfl
  | cons a l ih =>
    simp only [List.countP_cons, ih, List.map_cons, List.map_nil, List.sum_cons, List.sum_nil]
    cases p a with
    | false => simp
    | true => cases f a <;> simp <;> omega

namespace Schedule
variable {forged : Bool} {s s' s₀ : Schedule} {turn : Turn} {past : List Moment}
  {k k' : String → Nat}

/-- No job was counted, and nothing was announced. -/
structure Unused (s : Schedule) : Prop where
  metrics : s.deployment.cluster.metrics = .empty
  announced : s.deployment.cluster.bus.announced = []

/-- The counters and the events say what has happened in the past; `k` is how many threads may still
announce the death of a job. -/
structure Totals (forged : Bool) (past : List Moment) (k : String → Nat) (s : Schedule) : Prop where
  started : ∀ t, s.deployment.cluster.metrics.started.count t =
    (past.flatMap Moment.arrivals).countP (·.2.jobType = t)
  stopped : ∀ t status, s.deployment.cluster.metrics.stopped.count (t, status.label) =
    (past.flatMap Moment.departures).countP fun e => e.2.jobType = t && e.2.status = status
  killed : ∀ t, s.deployment.cluster.metrics.killed.count t =
    s.deployment.cluster.deaths.countP (·.jobType = t)
  dead : ∀ id, s.deployment.cluster.deaths.countP (·.jobId = id) + k id ≤
    (past.flatMap Moment.departures).countP fun e => e.1 = id && e.2.status = .dead
  obituaries : forged = false → ∀ id,
    s.store.obituaries id ≤ s.deployment.cluster.deaths.countP (·.jobId = id)

theorem Totals.start (h₀ : s.Initial) (hunused : s.Unused) :
    Totals forged [] (granted []) s := by
  have hdeaths : s.deployment.cluster.deaths = [] := by
    unfold Cluster.deaths
    rw [hunused.announced]
    rfl
  refine ⟨fun t => ?_, fun t status => ?_, fun t => ?_, fun id => ?_, fun _ id => ?_⟩
  · rw [hunused.metrics]
    rfl
  · rw [hunused.metrics]
    rfl
  · rw [hunused.metrics, hdeaths]
    rfl
  · rw [hdeaths]
    exact Nat.le_refl _
  · rw [h₀.store]
    exact Nat.zero_le _

theorem Totals.snoc (h : Totals forged past k s)
    (hagrees : s.deployment.cluster.Agrees forged k k' s'.deployment.cluster) :
    Totals forged (past ++ [⟨s, turn, s'⟩]) k' s' := by
  have harrivals : (past ++ [Moment.mk s turn s']).flatMap Moment.arrivals =
      past.flatMap Moment.arrivals ++ arrivals s.store s'.store := by
    rw [List.flatMap_append, List.flatMap_singleton]
    rfl
  have hdepartures : (past ++ [Moment.mk s turn s']).flatMap Moment.departures =
      past.flatMap Moment.departures ++ departures s.store s'.store := by
    rw [List.flatMap_append, List.flatMap_singleton]
    rfl
  refine ⟨fun t => ?_, fun t status => ?_, fun t => ?_, fun id => ?_, fun hforged id => ?_⟩
  · rw [harrivals, List.countP_append, ← h.started t]
    exact hagrees.started t
  · rw [hdepartures, List.countP_append, ← h.stopped t status]
    exact hagrees.stopped t status
  · have hkilled := hagrees.killed t
    have ht := h.killed t
    omega
  · have hdead := hagrees.dead id
    have hid := h.dead id
    rw [hdepartures, List.countP_append]
    unfold store
    omega
  · have hobituaries := hagrees.obituaries hforged id
    have hid := h.obituaries hforged id
    unfold store at hid ⊢
    omega

namespace Run

theorem totals (h : s₀.Run past s) (h₀ : s₀.Initial) (hunused : s₀.Unused)
    (hfit : s₀.deployment.Fit forged False) (hturns : ∀ m ∈ past, m.turn.isFit forged)
    (hclock : ∀ m ∈ past, m.after.clock.now? ≠ none) :
    ∃ ts, s.Kept forged False (fun _ => True) ts ∧ Totals forged past (granted ts) s := by
  induction h with
  | start =>
    exact ⟨[], ⟨hfit.supplied (.from_true _), h₀.threads.symm, nofun⟩, .start h₀ hunused⟩
  | @turn past s s' turn hrun hservice hturn ih =>
    obtain ⟨ts, hkept, htotals⟩ := ih (fun m hm => hturns m (List.mem_append_left _ hm))
      fun m hm => hclock m (List.mem_append_left _ hm)
    have hlast := hturns _ List.mem_concat_self
    obtain ⟨ts', haccounts⟩ :=
      (took_of_turn? hturn).accounts hlast (fun _ _ => trivial) hkept
    rcases haccounts.agrees with hhidden | hnone | hagrees
    · exact hhidden.elim
    · exact absurd hnone (hclock _ List.mem_concat_self)
    · exact ⟨ts', haccounts.kept, htotals.snoc hagrees⟩

/-- Of every job there are as many running as came in and were not stopped. -/
theorem balance (h : s₀.Run past s) (h₀ : s₀.Initial) (q : String → Bool) (id : String) :
    (past.flatMap Moment.arrivals).countP (fun e => e.1 = id && q e.2.jobType) =
      (past.flatMap Moment.departures).countP (fun e => e.1 = id && q e.2.jobType) +
        s.store.runs q id := by
  induction h with
  | start =>
    rw [h₀.store]
    rfl
  | @turn past s s' turn hrun hservice hturn ih =>
    obtain ⟨tx, hperforms⟩ := hrun.performs_next h₀ hservice hturn
    have hturn : (Moment.arrivals ⟨s, turn, s'⟩).countP _ + s.store.runs q id =
        (Moment.departures ⟨s, turn, s'⟩).countP _ + s'.store.runs q id :=
      (Transaction.Makes.outcome hperforms).balance q id
    rw [List.flatMap_append, List.flatMap_append, List.flatMap_singleton, List.flatMap_singleton,
      List.countP_append, List.countP_append]
    omega

/-- The jobs of a type that came in are those that were stopped and the one that holds the lock. -/
theorem holders (h : s₀.Run past s) (h₀ : s₀.Initial) (t : String) :
    (((past.flatMap Moment.arrivals).filter (·.2.jobType = t)).map (·.1)).Perm
      ((s.store.holder t).toList ++
        ((past.flatMap Moment.departures).filter (·.2.jobType = t)).map (·.1)) := by
  have count (l : List (String × Record)) (id : String) :
      ((l.filter (·.2.jobType = t)).map (·.1)).count id =
        l.countP fun e => e.1 = id && e.2.jobType = t := by
    unfold List.count
    rw [List.countP_map, List.countP_filter]
    rfl
  refine List.perm_iff_count.mpr fun id => ?_
  rw [List.count_append, count, count, h.balance h₀ (· = t) id,
    (h.consistent h₀).runs_eq_count t id, Nat.add_comm]

theorem countP_arrivals (h : s₀.Run past s) (h₀ : s₀.Initial) (t : String) :
    (past.flatMap Moment.arrivals).countP (·.2.jobType = t) =
      (past.flatMap Moment.departures).countP (·.2.jobType = t) +
        if (s.store.holder t).isSome then 1 else 0 := by
  have hlength := (h.holders h₀ t).length_eq
  rw [List.length_append, List.length_map, List.length_map, ← List.countP_eq_length_filter,
    ← List.countP_eq_length_filter] at hlength
  rw [hlength, Nat.add_comm]
  cases s.store.holder t <;> rfl

end Run

/-- In a run of engines that share their counters and their events, in which the clock never fails,
each of the following holds after every turn. By type, the counters say how many jobs came in, how
many were stopped with each status, and how many deaths were announced; one more was started than
stopped if the type is locked, and none otherwise. By job, no more deaths were announced than it was
stopped as dead, and it was stopped no more often than it came in; and unless handlers or callers
write the message themselves, no more often was it said to be dead. To stop or kill a stopped job
again alters nothing. -/
theorem accounted_once (h₀ : s₀.Initial) (hunused : s₀.Unused)
    (hshared : ∀ w ∈ s₀.deployment.watches, w.name ≠ none) (h : s₀.Run past s)
    (hclock : ∀ m ∈ past, m.after.clock.now? ≠ none) :
    let c := s.deployment.cluster
    let created := past.flatMap Moment.arrivals
    let ended := past.flatMap Moment.departures
    (∀ t,
      c.metrics.started.count t = created.countP (·.2.jobType = t) ∧
      (∀ status, c.metrics.stopped.count (t, status.label) =
        ended.countP fun e => e.2.jobType = t && e.2.status = status) ∧
      c.metrics.started.count t =
        (Status.all.map fun status => c.metrics.stopped.count (t, status.label)).sum +
          (if (c.store.holder t).isSome then 1 else 0) ∧
      c.metrics.killed.count t = c.deaths.countP (·.jobType = t)) ∧
    (∀ id,
      c.deaths.countP (·.jobId = id) ≤ ended.countP (fun e => e.1 = id && e.2.status = .dead) ∧
      ended.countP (·.1 = id) ≤ created.countP (·.1 = id) ∧
      (s₀.deployment.Fit false False → (∀ m ∈ past, m.turn.isFit false) →
        c.store.obituaries id ≤ c.deaths.countP (·.jobId = id))) ∧
    (∀ id r, c.store.records.get? id = some r → r.stopped ≠ none → ∀ engine,
      (∀ status, ∃ outcome c',
        (Lifecycle.stop engine id status).resume.advance c = (.done outcome, c') ∧
          c.Unaltered c') ∧
      ∃ outcome c', (Lifecycle.kill engine id).resume.advance c = (.done outcome, c') ∧
        c.Unaltered c') := by
  intro c created ended
  have hfit : s₀.deployment.Fit true False :=
    ⟨h₀.sound.fit.handlers, h₀.sound.fit.queued, fun w hw hname => hshared w hw hname⟩
  have hturns : ∀ m ∈ past, m.turn.isFit true := by
    intro m hm
    exact Turn.isFit_of_isService (h.isService m hm)
  obtain ⟨ts, -, htotals⟩ := h.totals h₀ hunused hfit hturns hclock
  refine ⟨fun t => ⟨htotals.started t, htotals.stopped t, ?_, htotals.killed t⟩,
    fun id => ⟨?_, ?_, fun hhonest hturns => ?_⟩,
    fun id r hr hstopped engine => ⟨fun status => ?_, ?_⟩⟩
  · have hended : ended.countP (·.2.jobType = t) =
        (Status.all.map fun status => c.metrics.stopped.count (t, status.label)).sum := by
      rw [Status.countP_eq_sum ended _ (·.2.status)]
      exact congrArg List.sum (List.map_congr_left fun status _ => (htotals.stopped t status).symm)
    rw [← hended, htotals.started t]
    exact h.countP_arrivals h₀ t
  · have hdead := htotals.dead id
    exact Nat.le_trans (Nat.le_add_right _ _) hdead
  · have hbalance := h.balance h₀ (fun _ => true) id
    simp only [Bool.and_true] at hbalance
    exact hbalance ▸ Nat.le_add_right _ _
  · obtain ⟨ts', -, htotals'⟩ := h.totals h₀ hunused hhonest hturns hclock
    exact htotals'.obituaries rfl id
  · exact Lifecycle.advance_stop_of_stopped engine status hr hstopped
  · exact Lifecycle.advance_kill_of_stopped engine hr hstopped

theorem fit_nightly : nightly.deployment.Fit false False := by
  refine ⟨fun name handler hhandler => ?_, fun site hsite t ht => ?_,
    fun w hw => absurd hw List.not_mem_nil⟩
  · unfold Handlers.get? at hhandler
    have hget : (((∅ : Mapping _ _).insert (Text.lowercase "nightly")
        (sleeper "nightly" Micros.perMinute)).get? (Text.lowercase name)) = some handler := hhandler
    rw [Mapping.get?_insert] at hget
    split at hget
    · obtain rfl := Option.some.inj hget
      intro actions hactions a ha
      obtain rfl := List.mem_singleton.mp hactions
      obtain rfl := List.mem_singleton.mp ha
      rfl
    · cases hget
  · obtain rfl := List.mem_singleton.mp hsite
    exact absurd ht List.not_mem_nil

/-- A job is killed, and another one of its type is started. -/
theorem accounted_once_nightly :
    ∃ past s, nightly.Run past s ∧ (∀ m ∈ past, m.after.clock.now? ≠ none) ∧
      s.deployment.cluster.metrics.started.count "nightly" = 2 ∧
      s.store.holder "nightly" = some "job-2" ∧
      (past.flatMap Moment.arrivals).countP (·.2.jobType = "nightly") = 2 ∧
      ((past.flatMap Moment.departures).countP fun e =>
        e.2.jobType = "nightly" && e.2.status = .dead) = 1 ∧
      s.deployment.cluster.deaths.countP (·.jobType = "nightly") = 1 ∧
      s.store.obituaries "job-1" ≤ s.deployment.cluster.deaths.countP (·.jobId = "job-1") ∧
      ∃ outcome c', (Lifecycle.kill ⟨"host", 5⟩ "job-1").resume.advance s.deployment.cluster =
        (.done outcome, c') ∧ s.deployment.cluster.Unaltered c' := by
  obtain ⟨past, s, hrun, hp⟩ := exists_run nightly
    [.call 0 0 (.start (.named "nightly")), .move (.resume 0), .move (.resume 0),
      .call 1 0 (.kill (.named "job-1")), .move (.resume 0), .move (.resume 0), .move (.resume 0),
      .call 2 0 (.start (.named "nightly")), .move (.resume 0), .move (.resume 0)]
    (fun past s => (past.all fun m => m.after.clock.now?.isSome && m.turn.isFit false) &&
      s.deployment.cluster.metrics.started.count "nightly" = 2 &&
      s.deployment.cluster.metrics.stopped.count ("nightly", "DEAD") = 1 &&
      s.deployment.cluster.metrics.killed.count "nightly" = 1 &&
      s.store.holder "nightly" = some "job-2" &&
      (s.store.records.get? "job-1").any fun r => r.stopped.isSome)
    (by decide +kernel) (by decide +kernel)
  simp only [Bool.and_eq_true, List.all_eq_true, decide_eq_true_eq, Option.any_eq_true] at hp
  obtain ⟨⟨⟨⟨⟨hpast, hstarted⟩, hstopped⟩, hkilled⟩, hholder⟩, r, hr, hended⟩ := hp
  have hclock : ∀ m ∈ past, m.after.clock.now? ≠ none := by
    intro m hm
    exact Option.isSome_iff_ne_none.mp (hpast m hm).1
  have hturns : ∀ m ∈ past, m.turn.isFit false := fun m hm => (hpast m hm).2
  have hshared : ∀ w ∈ nightly.deployment.watches, w.name ≠ none :=
    fun w hw => absurd hw List.not_mem_nil
  obtain ⟨htypes, hjobs, hagain⟩ := accounted_once initial_nightly ⟨rfl, rfl⟩ hshared hrun hclock
  obtain ⟨hcreated, hdeparted, -, hdeaths⟩ := htypes "nightly"
  have hobituaries := (hjobs "job-1").2.2 fit_nightly hturns
  have hkill := (hagain "job-1" r hr (Option.isSome_iff_ne_none.mp hended) ⟨"host", 5⟩).2
  exact ⟨past, s, hrun, hclock, hstarted, hholder, hcreated.symm.trans hstarted,
    (hdeparted .dead).symm.trans hstopped, hdeaths.symm.trans hkilled, hobituaries, hkill⟩

end Schedule
end JobControl
