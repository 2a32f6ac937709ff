import JobControl.Proofs.AccountedRuns

/-! # The lives of records

What a transaction can make of a record says what a run can: once stopped a record stays as it is
until it is removed, and before that its status changes only where somebody marks or stops the job.
The last update moves forward, except where a job is stopped at a time that lies before it. -/

namespace JobControl

/-- The record is the same but for its last update. -/
structure Record.Frozen (r r' : Record) : Prop where
  stopped : r'.stopped = r.stopped
  status : r'.status = r.status
  jobType : r'.jobType = r.jobType
  started : r'.started = r.started
  hostname : r'.hostname = r.hostname

namespace Record.Frozen
variable {r r' r'' : Record}

theorem refl (r : Record) : r.Frozen r := ⟨rfl, rfl, rfl, rfl, rfl⟩

theorem trans (h : r.Frozen r') (h' : r'.Frozen r'') : r.Frozen r'' :=
  ⟨h'.stopped.trans h.stopped, h'.status.trans h.status, h'.jobType.trans h.jobType,
    h'.started.trans h.started, h'.hostname.trans h.hostname⟩

end Record.Frozen

namespace Transaction

theorem Marks.ne_dead {tx : Transaction} {id : String} {status : Status} (h : tx.Marks id status) :
    status ≠ .dead := by
  cases h <;> exact nofun

namespace Fate
variable {tx : Transaction} {id : String} {r r' : Record} {o o' : Option Record}

/-- A stopped record is frozen, or removed. -/
theorem frozen (h : Fate tx id (some r) o') (hstopped : r.stopped ≠ none) :
    (∃ r', o' = some r' ∧ r.Frozen r') ∨ (o' = none ∧ ∃ ids, tx = .remove ids) := by
  cases h with
  | remove htx _ => exact .inr ⟨rfl, _, htx⟩
  | update => exact .inl ⟨_, rfl, rfl, rfl, rfl, rfl, rfl⟩
  | mark running => exact absurd running hstopped
  | stop running => exact absurd running hstopped

/-- The status changes by a mark, or by the stop. -/
theorem status_change (h : Fate tx id (some r) (some r')) (hne : r'.status ≠ r.status) :
    tx.Marks id r'.status ∨
      ∃ engine, tx = .stop engine id (some r'.status) ∧ r'.stopped ≠ none := by
  cases h with
  | update => exact absurd rfl hne
  | mark _ _ htx => exact .inl htx
  | @stop engine status r time running htx =>
    cases status with
    | none => exact absurd rfl hne
    | some status => exact .inr ⟨engine, htx, Option.some_ne_none time⟩

/-- Only a stop makes a job dead. -/
theorem stopped_of_dead (h : Fate tx id o o')
    (ho : ∀ r, o = some r → r.status = .dead → r.stopped ≠ none) :
    ∀ r', o' = some r' → r'.status = .dead → r'.stopped ≠ none := by
  rintro r' rfl hdead
  cases h with
  | start => exact absurd hdead nofun
  | @update r time forward => exact ho r rfl hdead
  | mark _ _ htx => exact absurd hdead htx.ne_dead
  | @stop engine status r time => exact Option.some_ne_none time

/-- The last update of a job moves forward unless the job is stopped. -/
theorem forward (h : Fate tx id (some r) (some r')) :
    r.lastUpdated ≤ r'.lastUpdated ∨
      r.stopped = none ∧ r'.stopped = some r'.lastUpdated ∧
        ∃ engine status, tx = .stop engine id status := by
  cases h with
  | update forward => exact .inl forward
  | mark _ forward => exact .inl forward
  | stop running htx => exact .inr ⟨running, rfl, _, _, htx⟩

/-- A job that is stopped was last updated when it was stopped. -/
theorem lastUpdated_of_stop (h : Fate tx id (some r) (some r')) (hrunning : r.stopped = none)
    {time : Instant} (hstopped : r'.stopped = some time) : r'.lastUpdated = time := by
  cases h with
  | update => exact absurd (hrunning.symm.trans hstopped) (Option.some_ne_none time).symm
  | mark => exact absurd (hrunning.symm.trans hstopped) (Option.some_ne_none time).symm
  | stop => exact Option.some.inj hstopped

end Fate
end Transaction

theorem Moment.Performs.fate {m : Moment} {tx : Transaction} (h : m.Performs tx) (id : String) :
    tx.Fate id (m.before.store.records.get? id) (m.after.store.records.get? id) :=
  (Transaction.Makes.outcome h).fate id

namespace Schedule
variable {s s' s₀ : Schedule} {turn : Turn} {past later : List Moment} {id : String} {r r' : Record}

theorem Run.append (h : s₀.Run past s) (h' : s.Run later s') : s₀.Run (past ++ later) s' := by
  induction h' with
  | start => rwa [List.append_nil]
  | turn _ hservice hturn ih =>
    rw [← List.append_assoc]
    exact ih.turn hservice hturn

/-- A further turn of a run makes a transaction. -/
theorem Run.performs_next (h : s₀.Run past s) (h₀ : s₀.Initial) (hservice : turn.isService)
    (hturn : s.turn? turn = some s') : ∃ tx, Moment.Performs ⟨s, turn, s'⟩ tx :=
  (h.turn hservice hturn).performs h₀ _ List.mem_concat_self

/-- What becomes of a record in a further turn of a run. -/
theorem Run.fate_next (h : s₀.Run past s) (h₀ : s₀.Initial) (hservice : turn.isService)
    (hturn : s.turn? turn = some s') (hr : s.store.records.get? id = some r)
    (hr' : s'.store.records.get? id = some r') :
    ∃ tx, Moment.Performs ⟨s, turn, s'⟩ tx ∧ tx.Fate id (some r) (some r') := by
  obtain ⟨tx, hperforms⟩ := h.performs_next h₀ hservice hturn
  have hfate : tx.Fate id (s.store.records.get? id) (s'.store.records.get? id) := hperforms.fate id
  rw [hr, hr'] at hfate
  exact ⟨tx, hperforms, hfate⟩

/-- In a later run a stopped record is removed, or frozen. -/
theorem Run.frozen (h : s.Run later s') (htx : ∀ m ∈ later, ∃ tx, m.Performs tx)
    (hr : s.store.records.get? id = some r) (hstopped : r.stopped ≠ none) :
    (∃ r', s'.store.records.get? id = some r' ∧ r.Frozen r') ∨
      ∃ m ∈ later, ∃ r' ids, m.before.store.records.get? id = some r' ∧ r.Frozen r' ∧
        m.Performs (.remove ids) ∧ m.after.store.records.get? id = none := by
  induction h with
  | start => exact .inl ⟨r, hr, .refl r⟩
  | @turn later s₁ s' turn hrun hservice hturn ih =>
    rcases ih fun m hm => htx m (List.mem_append_left _ hm) with
      ⟨r₁, hr₁, hfrozen⟩ | ⟨m, hm, hremoved⟩
    · obtain ⟨tx, hperforms⟩ := htx _ List.mem_concat_self
      have hfate : tx.Fate id (s₁.store.records.get? id) (s'.store.records.get? id) :=
        hperforms.fate id
      rw [hr₁] at hfate
      rcases hfate.frozen (hfrozen.stopped ▸ hstopped) with ⟨r', hr', hfrozen'⟩ | ⟨hgone, ids, rfl⟩
      · exact .inl ⟨r', hr', hfrozen.trans hfrozen'⟩
      · exact .inr ⟨_, List.mem_concat_self, r₁, ids, hr₁, hfrozen, hperforms, hgone⟩
    · exact .inr ⟨m, List.mem_append_left _ hm, hremoved⟩

theorem Run.stopped_of_dead (h : s₀.Run past s) (h₀ : s₀.Initial) (id : String) :
    ∀ r, s.store.records.get? id = some r → r.status = .dead → r.stopped ≠ none := by
  induction h with
  | start =>
    intro r hr
    rw [h₀.store] at hr
    exact absurd hr nofun
  | turn hrun hservice hturn ih =>
    obtain ⟨tx, hperforms⟩ := hrun.performs_next h₀ hservice hturn
    exact (hperforms.fate id).stopped_of_dead ih

/-- In every run of the service a record that is stopped is frozen until a removal takes it away; a
record that is not changes its status only in a turn that notes an error, marks the job as skipped
or restarted, or stops it; and the records of dead jobs are stopped. -/
theorem stopped_frozen (h₀ : s₀.Initial) (h : s₀.Run past s) :
    (∀ id r, s.store.records.get? id = some r → r.stopped ≠ none →
      ∀ later s', s.Run later s' →
        (∃ r', s'.store.records.get? id = some r' ∧ r.Frozen r') ∨
        ∃ m ∈ later, ∃ r' ids, m.before.store.records.get? id = some r' ∧ r.Frozen r' ∧
          m.Performs (.remove ids) ∧ m.after.store.records.get? id = none) ∧
    (∀ turn s', turn.isService → s.turn? turn = some s' →
      ∀ id r r', s.store.records.get? id = some r → r.stopped = none →
        s'.store.records.get? id = some r' → r'.status ≠ r.status →
        ∃ tx, Moment.Performs ⟨s, turn, s'⟩ tx ∧
          (tx.Marks id r'.status ∨
            ∃ engine, tx = .stop engine id (some r'.status) ∧ r'.stopped ≠ none)) ∧
    (∀ id r, s.store.records.get? id = some r → r.status = .dead → r.stopped ≠ none) := by
  refine ⟨fun id r hr hstopped later s' hlater => ?_, fun turn s' hservice hturn => ?_,
    h.stopped_of_dead h₀⟩
  · have htx := (h.append hlater).performs h₀
    exact hlater.frozen (fun m hm => htx m (List.mem_append_right _ hm)) hr hstopped
  · intro id r r' hr hrunning hr' hne
    obtain ⟨tx, hperforms, hfate⟩ := h.fate_next h₀ hservice hturn hr hr'
    exact ⟨tx, hperforms, hfate.status_change hne⟩

/-- A job is killed, the clock is set back, an error is noted and the job marked as restarted. -/
theorem stopped_frozen_nightly :
    ∃ past s later s' r r', nightly.Run past s ∧ s.Run later s' ∧
      s.store.records.get? "job-1" = some r ∧ r.status = .dead ∧ r.stopped ≠ none ∧
      s'.store.records.get? "job-1" = some r' ∧ r.Frozen r' := by
  let later : List Turn :=
    [.shift (-Micros.perMinute),
      .call 2 0 (.append (.named "job-1") ⟨.error, ⟨63902822400000000, some 0⟩, "late"⟩),
      .move (.resume 0), .move (.resume 0), .call 3 0 (.markRestarted (.named "job-1")),
      .move (.resume 0), .move (.resume 0)]
  obtain ⟨past, s, hrun, hp⟩ := exists_run nightly
    [.call 0 0 (.start (.named "nightly")), .move (.resume 0), .move (.resume 0),
      .call 1 0 (.kill (.named "job-1")), .move (.resume 0), .move (.resume 0), .move (.resume 0)]
    (fun _ s => ((s.store.records.get? "job-1").any fun r => r.status = .dead) &&
      (s.replay? later).any fun p =>
        p.1.all fun m => (m.after.store.records.get? "job-1").isSome)
    (by decide +kernel) (by decide +kernel)
  simp only [Bool.and_eq_true, Option.any_eq_true, List.all_eq_true, decide_eq_true_eq] at hp
  obtain ⟨⟨r, hr, hdead⟩, ⟨moments, s'⟩, hreplay, hkept⟩ := hp
  have hlater : s.Run moments s' := Run.of_replay? .start (by decide) hreplay
  obtain ⟨hfrozen, -, hstopped⟩ := stopped_frozen initial_nightly hrun
  have hstopped : r.stopped ≠ none := hstopped _ r hr hdead
  rcases hfrozen _ r hr hstopped moments s' hlater with
    ⟨r', hr', hfrozen⟩ | ⟨m, hm, -, -, -, -, -, hgone⟩
  · exact ⟨past, s, moments, s', r, r', hrun, hlater, hr, hdead, hstopped, hr', hfrozen⟩
  · exact absurd (hkept m hm) (by simp [hgone])

/-- In every turn of a run of the service the last update of a record moves forward, unless the turn
stops the job at a time before it. -/
theorem lastUpdated_forward_iff (h₀ : s₀.Initial) (h : s₀.Run past s) (hservice : turn.isService)
    (hturn : s.turn? turn = some s') (hr : s.store.records.get? id = some r)
    (hr' : s'.store.records.get? id = some r') :
    (r.lastUpdated ≤ r'.lastUpdated ↔
      ∀ time, r.stopped = none → r'.stopped = some time → r.lastUpdated ≤ time) ∧
    (r'.lastUpdated < r.lastUpdated →
      ∃ engine status, Moment.Performs ⟨s, turn, s'⟩ (.stop engine id status)) := by
  obtain ⟨tx, hperforms, hfate⟩ := h.fate_next h₀ hservice hturn hr hr'
  refine ⟨⟨fun hle time hrunning hstopped => ?_, fun hstops => ?_⟩, fun hlt => ?_⟩
  · exact hfate.lastUpdated_of_stop hrunning hstopped ▸ hle
  · rcases hfate.forward with hle | ⟨hrunning, hstopped, -⟩
    · exact hle
    · exact hstops r'.lastUpdated hrunning hstopped
  · rcases hfate.forward with hle | ⟨-, -, engine, status, rfl⟩
    · exact absurd hlt (Int.not_lt.mpr hle)
    · exact ⟨engine, status, hperforms⟩

theorem lastUpdated_forward_iff_nightly :
    ∃ past s turn s' r r', nightly.Run past s ∧ turn.isService ∧ s.turn? turn = some s' ∧
      s.store.records.get? "job-1" = some r ∧ s'.store.records.get? "job-1" = some r' ∧
      r'.stopped = none ∧ r.lastUpdated ≤ r'.lastUpdated := by
  obtain ⟨past, s, hrun, hp⟩ := exists_run nightly
    [.call 0 0 (.start (.named "nightly")), .move (.resume 0), .move (.resume 0),
      .elapse Micros.perMinute, .call 1 0 (.keepAlive (.named "job-1")), .move (.resume 0)]
    (fun _ s => (s.store.records.get? "job-1").isSome &&
      (s.turn? (.move (.resume 0))).any fun s' =>
        (s'.store.records.get? "job-1").any fun r => r.stopped.isNone)
    (by decide +kernel) (by decide +kernel)
  simp only [Bool.and_eq_true, Option.any_eq_true, Option.isSome_iff_exists,
    Option.isNone_iff_eq_none] at hp
  obtain ⟨⟨r, hr⟩, s', hturn, r', hr', hrunning⟩ := hp
  have hforward := (lastUpdated_forward_iff initial_nightly hrun rfl hturn hr hr').1
  refine ⟨past, s, _, s', r, r', hrun, rfl, hturn, hr, hr', hrunning, hforward.mpr ?_⟩
  intro time _ hstopped
  exact absurd (hrunning.symm.trans hstopped) (Option.some_ne_none time).symm

/-- An error is noted with a time ten minutes ahead of the clock. When the job is stopped its last
update is set back. -/
theorem lastUpdated_set_back :
    ∃ past s turn s' r r', nightly.Initial ∧ nightly.Run past s ∧ turn.isService ∧
      s.turn? turn = some s' ∧ s.store.records.get? "job-1" = some r ∧
      s'.store.records.get? "job-1" = some r' ∧ r'.lastUpdated < r.lastUpdated := by
  let ahead : Timestamp := ⟨63902822400000000 + 10 * Micros.perMinute, some 0⟩
  obtain ⟨past, s, hrun, hp⟩ := exists_run nightly
    [.call 0 0 (.start (.named "nightly")), .move (.resume 0), .move (.resume 0),
      .call 1 0 (.append (.named "job-1") ⟨.error, ahead, "clock ahead"⟩), .move (.resume 0),
      .move (.resume 0), .call 2 0 (.stop (.named "job-1") none), .move (.resume 0)]
    (fun _ s => (s.store.records.get? "job-1").any fun r =>
      (s.turn? (.move (.resume 0))).any fun s' =>
        (s'.store.records.get? "job-1").any fun r' => r'.lastUpdated < r.lastUpdated)
    (by decide +kernel) (by decide +kernel)
  simp only [Option.any_eq_true, decide_eq_true_eq] at hp
  obtain ⟨r, hr, s', hturn, r', hr', hlt⟩ := hp
  exact ⟨past, s, _, s', r, r', initial_nightly, hrun, rfl, hturn, hr, hr', hlt⟩

end Schedule
end JobControl
