import JobControl.Proofs.Heartbeats
import JobControl.Proofs.Isolation
import JobControl.Proofs.RecordLives
import JobControl.Proofs.ServingRuns

/-! # The times of a record

With a clock that never goes back, a job is started before anything else happens to it: it is not
updated before it was started, and not stopped before it was started or after its last update. The
times of messages may be any. What carries this through a run is that no job has started later than
the clock shows: a job comes in with a time that was read before, and a stop takes the time that the
clock shows then. -/

namespace JobControl
open UnitOfWork

/-! ## Clocks that do not go back -/

/-- A clock that runs ahead with its readings shows no less after them. -/
theorem Clock.Ran.reading_le {c c' : Clock} (h : c.Ran c') (htick : 0 ≤ c.tick) :
    c.reading c.elapsed ≤ c'.reading c'.elapsed := by
  obtain ⟨n, rfl⟩ := h
  have hahead : 0 ≤ (n : Int) * c.tick := Int.mul_nonneg (Int.natCast_nonneg n) htick
  show (c.start.utcMicros + c.elapsed + c.drift : Int) ≤
    c.start.utcMicros + c.elapsed + (c.drift + n * c.tick)
  exact Int.add_le_add_left (Int.le_add_of_nonneg_right hahead) _

/-- The clock does not go back while a routine waits. -/
def Pace.forward : Pace where
  inv c := 0 ≤ c.tick
  rely _ c c' := c.reading c.elapsed ≤ c'.reading c'.elapsed
  dated c t := t ≤ c.reading c.elapsed
  rely_refl _ _ := Int.le_refl _
  rely_trans h h' := Int.le_trans h h'
  inv_ran hc h := by
    obtain ⟨n, rfl⟩ := h
    exact hc
  rely_ran hc h := h.reading_le hc
  dated_read {c t c'} hc hnow h := by
    rw [Clock.utcMicros_of_now? hnow]
    exact Int.le_trans ((Clock.Ran.read c).reading_le hc) h

/-! ## The times of one record -/

/-- The times of a record are in order. -/
structure Record.InOrder (r : Record) : Prop where
  updated : r.started ≤ r.lastUpdated
  stopped : ∀ time, r.stopped = some time → r.started ≤ time ∧ time ≤ r.lastUpdated

namespace Record.InOrder
variable {r : Record} {time : Instant}

theorem new (jobType : String) (time : Instant) (status : Status) (hostname : String) :
    InOrder ⟨jobType, time, time, none, status, hostname⟩ :=
  ⟨Int.le_refl _, nofun⟩

/-- The last update may move forward, whatever the status. -/
theorem update (h : r.InOrder) (hforward : r.lastUpdated ≤ time) (status : Status) :
    InOrder { r with lastUpdated := time, status } where
  updated := Int.le_trans h.updated hforward
  stopped t ht := ⟨(h.stopped t ht).1, Int.le_trans (h.stopped t ht).2 hforward⟩

/-- A stop sets the last update, even back, but not to before the start. -/
theorem ended (hstarted : r.started ≤ time) (status : Option Status) :
    (r.ended time status).InOrder where
  updated := hstarted
  stopped t ht := by
    obtain rfl : time = t := Option.some.inj ht
    exact ⟨hstarted, Int.le_refl _⟩

end Record.InOrder

/-- A job is stopped at the time that the clock shows. -/
theorem Lifecycle.stopped_commit_leave {engine : Engine} {id : String} {status : Option Status}
    {w : Workspace} {r r' : Record} {time : Instant} (hr : w.store.running? id = some r)
    (hr' : ((leave engine id status).commit w).2.store.records.get? id = some r')
    (hstopped : r'.stopped = some time) : time.micros = w.clock.reading w.clock.elapsed := by
  have hget := Store.get?_of_running? hr
  have hrunning := (Store.running?_eq_some.mp hr).2
  -- A unit that fails leaves the job running.
  have hstays : w.store.records.get? id = some r' →
      time.micros = w.clock.reading w.clock.elapsed := by
    intro h
    obtain rfl := Option.some.inj (hget.symm.trans h)
    rw [hrunning] at hstopped
    contradiction
  rw [commit_leave_eq, hget] at hr'
  dsimp only at hr'
  split at hr'
  · exact hstays hr'
  unfold Clock.read at hr'
  cases hnow : w.clock.now? with
  | none =>
    rw [hnow] at hr'
    exact hstays hr'
  | some now =>
    rw [hnow] at hr'
    dsimp only at hr'
    cases htime : now.toInstant? with
    | none =>
      rw [htime] at hr'
      exact hstays hr'
    | some i =>
      rw [htime] at hr'
      have hrecord := congrArg Store.View.record (Store.view_letOut hget i status)
      have hended : r' = r.ended i status := by
        have hsome : some r' = some (r.ended i status) := by
          rw [← hr']
          simpa [Store.view, Record.isStopped, hrunning] using hrecord
        exact Option.some.inj hsome
      rw [hended] at hstopped
      obtain rfl : i = time := Option.some.inj hstopped
      rw [← Clock.utcMicros_of_now? hnow]
      exact (Timestamp.toInstant?_eq_some.mp htime).1.symm

/-! ## The times of all records -/

namespace Schedule
variable {s s' s₀ : Schedule} {turn : Turn} {past : List Moment} {W : Wake → Prop} {id : String}
  {r : Record}

theorem Serving.paced_forward (hs : s.Serving .forward W) (hturn : s.turn? turn = some s')
    (hforward : s.shown ≤ s'.shown) : Moment.Paced .forward ⟨s, turn, s'⟩ := by
  cases turn with
  | elapse span =>
    cases took_of_turn? hturn with
    | elapse hspan => exact ⟨hs.inv, fun _ _ => hforward⟩
  | shift d =>
    cases took_of_turn? hturn with
    | shift => exact ⟨hs.inv, fun _ _ => hforward⟩
  | move | call => trivial

/-- Where the clock does not go back, no job comes in with a time later than the clock shows. -/
theorem Run.serves_forward (h : s₀.Run past s) (h₀ : s₀.Initial) (htick : 0 ≤ s₀.clock.tick)
    (hforward : ∀ m ∈ past, m.before.shown ≤ m.after.shown) : ∀ m ∈ past, m.Serves .forward := by
  have hserving : s₀.Serving .forward fun _ => True := h₀.serving htick fun _ _ _ _ => trivial
  refine h.serves h₀.sound hserving ?_
  induction h with
  | start => exact fun m hm => absurd hm List.not_mem_nil
  | @turn past s s' turn hrun hservice hturn ih =>
    have hpaced := ih fun m hm => hforward m (List.mem_append_left _ hm)
    intro m hm
    rcases List.mem_append.mp hm with hm | hm
    · exact hpaced m hm
    · obtain rfl := List.mem_singleton.mp hm
      have hstep : s.shown ≤ s'.shown := hforward ⟨s, turn, s'⟩ List.mem_concat_self
      exact (hrun.serving h₀.sound hserving hpaced).paced_forward hturn hstep

/-- The times of a record are in order, and it has not started later than the clock shows. -/
structure Dated (s : Schedule) (r : Record) : Prop where
  inOrder : r.InOrder
  started : r.started.micros ≤ s.shown

/-- One turn keeps the times of all records in order. -/
theorem Dated.next {tx : Transaction} (hs : ∀ r, s.store.records.get? id = some r → s.Dated r)
    (hperforms : Moment.Performs ⟨s, turn, s'⟩ tx) (hserves : Moment.Serves .forward ⟨s, turn, s'⟩)
    (hforward : s.shown ≤ s'.shown) (hr : s'.store.records.get? id = some r) : s'.Dated r := by
  have hfate : tx.Fate id (s.store.records.get? id) (s'.store.records.get? id) :=
    hperforms.fate id
  generalize hbefore : s.store.records.get? id = o at hfate hs
  rw [hr] at hfate
  cases hfate with
  | start time htx =>
    have hidle : s.store.running? id = none := by simp [Store.running?, hbefore]
    have hdated : time.micros ≤ s.shown := hserves.dated id _ hidle
      (Store.running?_eq_some.mpr ⟨hr, rfl⟩)
    exact ⟨.new .., Int.le_trans hdated hforward⟩
  | @update r time hforward' =>
    obtain ⟨horder, hstarted⟩ := hs r rfl
    exact ⟨horder.update hforward' r.status, Int.le_trans hstarted hforward⟩
  | @mark r time status hrunning hforward' =>
    obtain ⟨horder, hstarted⟩ := hs r rfl
    exact ⟨horder.update hforward' status, Int.le_trans hstarted hforward⟩
  | @stop engine status r time hrunning htx =>
    obtain ⟨-, hstarted⟩ := hs r rfl
    obtain rfl := htx
    have hstop : s'.store =
        ((Lifecycle.leave engine id status).commit s.deployment.cluster.toWorkspace).2.store :=
      hperforms
    rw [hstop] at hr
    have htime : time.micros = s.shown := Lifecycle.stopped_commit_leave
      (Store.running?_eq_some.mpr ⟨hbefore, hrunning⟩) hr rfl
    have hstop : r.started ≤ time := Instant.le_def.mpr (htime ▸ hstarted)
    exact ⟨.ended hstop status, Int.le_trans hstarted hforward⟩

/-- In a run of the service in which the clock never goes back, in every schedule and of every
record, the job was not updated before it was started, and if it is stopped then it was stopped
between its start and its last update. -/
theorem times_inOrder (h₀ : s₀.Initial) (h : s₀.Run past s) (htick : 0 ≤ s₀.clock.tick)
    (hforward : ∀ m ∈ past, m.before.shown ≤ m.after.shown) :
    ∀ id r, s.store.records.get? id = some r →
      r.started ≤ r.lastUpdated ∧
      ∀ time, r.stopped = some time → r.started ≤ time ∧ time ≤ r.lastUpdated := by
  have hserves := h.serves_forward h₀ htick hforward
  suffices hdated : ∀ id r, s.store.records.get? id = some r → s.Dated r by
    intro id r hr
    obtain ⟨⟨hupdated, hstopped⟩, -⟩ := hdated id r hr
    exact ⟨hupdated, hstopped⟩
  induction h with
  | start =>
    intro id r hr
    rw [h₀.store] at hr
    exact absurd hr nofun
  | @turn past s s' turn hrun hservice hturn ih =>
    have ih := ih (fun m hm => hforward m (List.mem_append_left _ hm))
      fun m hm => hserves m (List.mem_append_left _ hm)
    obtain ⟨tx, hperforms⟩ := hrun.performs_next h₀ hservice hturn
    have hstep : s.shown ≤ s'.shown := hforward ⟨s, turn, s'⟩ List.mem_concat_self
    intro id r hr
    exact .next (ih id) hperforms (hserves _ List.mem_concat_self) hstep hr

/-- A job whose last update lies ahead of the clock, and which is then stopped before that. -/
theorem times_inOrder_nightly :
    ∃ past s, nightly.Initial ∧ nightly.Run past s ∧ 0 ≤ nightly.clock.tick ∧
      (∀ m ∈ past, m.before.shown ≤ m.after.shown) ∧
      ∃ r time, s.store.records.get? "job-1" = some r ∧ r.stopped = some time ∧
        r.started ≤ time ∧ time ≤ r.lastUpdated := by
  let ahead : Timestamp := ⟨63902822400000000 + 10 * Micros.perMinute, some 0⟩
  obtain ⟨past, s, hrun, hp⟩ := exists_run nightly
    [.call 0 0 (.start (.named "nightly")), .move (.resume 0), .move (.resume 0),
      .call 1 0 (.append (.named "job-1") ⟨.error, ahead, "clock ahead"⟩), .move (.resume 0),
      .move (.resume 0), .elapse Micros.perMinute, .call 2 0 (.stop (.named "job-1") none),
      .move (.resume 0), .move (.resume 0), .call 3 0 (.keepAlive (.named "job-1")),
      .move (.resume 0), .move (.resume 0)]
    (fun past s => past.all (fun m => m.before.shown ≤ m.after.shown) &&
      (s.store.records.get? "job-1").any (·.stopped.isSome))
    (by decide +kernel) (by decide +kernel)
  simp only [Bool.and_eq_true, List.all_eq_true, decide_eq_true_eq, Option.any_eq_true,
    Option.isSome_iff_exists] at hp
  obtain ⟨hforward, r, hr, time, hstopped⟩ := hp
  have htick : 0 ≤ nightly.clock.tick := by decide
  have horder := (times_inOrder initial_nightly hrun htick hforward "job-1" r hr).2 time hstopped
  exact ⟨past, s, initial_nightly, hrun, htick, hforward, r, time, hr, hstopped, horder⟩

end Schedule
end JobControl
