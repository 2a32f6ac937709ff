import JobControl.Proofs.Units

/-! # The units of work in the life of a job

What it takes to let a job in, to let it out and to take back a leaked lock, as equations; and that
each unit of work of the service is made of effects. -/

namespace JobControl
open UnitOfWork
variable {K : String → Prop} {w : Workspace}

namespace Store
variable {s : Store}

theorem find?_eq_none {id : String} : s.find? id = none ↔ s.records.get? id = none := by
  simp [find?]

theorem isStopped_find? {id : String} {j : Job Instant} (h : s.find? id = some j) :
    s.running? id = none ↔ j.isStopped := by
  unfold find? at h
  rw [Option.map_eq_some_iff] at h
  obtain ⟨r, hr, rfl⟩ := h
  rw [running?_eq_none, hr]
  simp [assemble, Job.isStopped, Record.isStopped]

theorem stop_of_not_running {id : String} (h : s.running? id = none) (time : Instant)
    (status : Option Status) : s.stop id time status = (false, s) := by
  unfold stop updateIf
  rw [if_neg]
  rw [running?_eq_none] at h
  cases hr : s.records.get? id with
  | none => simp
  | some r => simpa using h r hr

end Store

namespace Lifecycle

/-! ## Letting jobs in and out -/

theorem commit_enter (engine : Engine) (d : Definition) (id : String) (now : Timestamp)
    (hostname : String) :
    (enter engine d (Job.new id d.jobType now hostname)).commit w =
      if engine.rounds ≤ 0 then (.error (.contention (.acquiring d.jobType)), w) else
      match RunLock.refusal? (w.store.documents.current .running)
          (w.store.documents.current .disabled) d.jobType d.blockers with
      | some reason => (.error (.refused d.jobType reason), w)
      | none =>
        match now.toInstant? with
        | none => (.error .store, w)
        | some i =>
          if w.store.records.contains id then (.error .store, w)
          else (.ok (), { w with
            store := Store.enroll { w.store with documents := RunLock.created w.store.documents }
              (Job.new id d.jobType i hostname) }) := by
  unfold enter commit
  simp only [Routine.run_bind, run_onDocuments]
  rw [show (Job.new id d.jobType now hostname).jobType = d.jobType from rfl,
    show (Job.new id d.jobType now hostname).id = id from rfl, RunLock.run_tryAcquire]
  by_cases hrounds : engine.rounds ≤ 0
  · simp only [if_pos hrounds]
  · simp only [if_neg hrounds]
    cases RunLock.refusal? (w.store.documents.current .running)
      (w.store.documents.current .disabled) d.jobType d.blockers with
    | some reason => rfl
    | none =>
      simp only [Jobs.run_create_new]
      cases now.toInstant? with
      | none => rfl
      | some i =>
        cases h : w.store.records.contains id with
        | true => simp
        | false => simp [Store.enroll, Job.new]

theorem run_unlock (engine : Engine) (jobType id : String) :
    (unlock engine jobType id).run w =
      if engine.rounds ≤ 0 then (.error (.contention (.releasing jobType)), w)
      else (.ok (decide (w.store.holder jobType = some id)), { w with
        store := Store.unlock { w.store with documents := w.store.documents.create .running }
          jobType id }) := by
  unfold unlock
  rw [run_onDocuments, RunLock.run_release]
  split <;> rfl

theorem commit_leave (engine : Engine) (id : String) (status : Option Status) :
    (leave engine id status).commit w =
      match w.store.records.get? id with
      | none => (.ok (none, false), w)
      | some r =>
        if engine.rounds ≤ 0 then (.error (.contention (.releasing r.jobType)), w) else
        match w.clock.read with
        | (.error e, c) => (.error e, { w with clock := c })
        | (.ok time, c) =>
          match time.toInstant? with
          | none => (.error .store, { w with clock := c })
          | some i =>
            let out := (Store.unlock { w.store with
              documents := w.store.documents.create .running } r.jobType id).stop id i status
            (.ok (out.2.find? id, out.1), ⟨out.2, c⟩) := by
  unfold leave commit
  rw [Routine.run_bind, Jobs.run_find?]
  cases hr : w.store.records.get? id with
  | none => simp [Store.find?, hr]
  | some r =>
    simp only [Store.find?, hr, Option.map_some, Store.assemble, Routine.run_bind, run_unlock]
    by_cases hrounds : engine.rounds ≤ 0
    · simp only [if_pos hrounds]
    · simp only [if_neg hrounds, run_now]
      cases w.clock.read with
      | mk time c =>
        cases time with
        | error e => rfl
        | ok time =>
          simp only [Jobs.run_stop]
          cases time.toInstant? <;> rfl

/-- Whatever the job was before, letting it out is an effect on this job only. -/
theorem commits_leave {id : String} (hid : K id) (engine : Engine) (status : Option Status) :
    (leave engine id status).Commits K := by
  intro w
  have hclock : w.clock.Ran w.clock.read.2 := .read _
  rw [commit_leave]
  cases hr : w.store.records.get? id with
  | none => exact ⟨.refl _, .refl _⟩
  | some r =>
    dsimp only
    split
    · exact ⟨.refl _, .refl _⟩
    · split
      · rename_i heq; rw [heq] at hclock; exact ⟨.refl _, hclock⟩
      · rename_i heq
        rw [heq] at hclock
        split
        · exact ⟨.refl _, hclock⟩
        · refine ⟨.change (.trans (.of_effect (.create .running)) ?_), hclock⟩
          cases hrun : w.store.running? id with
          | some r' =>
            have hr' := Store.get?_of_running? hrun
            obtain rfl : r = r' := Option.some.inj (hr.symm.trans hr')
            exact .of_effect (.stop id hid _ status hrun)
          | none =>
            have hidle : (Store.unlock { w.store with
                documents := w.store.documents.create .running } r.jobType id).running? id = none :=
              hrun
            dsimp only
            rw [Store.stop_of_not_running hidle]
            exact .of_effect (.unlock _ id hrun)

theorem commits_enter {id : String} (hid : K id) (engine : Engine) (d : Definition)
    (now : Timestamp) (hostname : String) :
    (enter engine d (Job.new id d.jobType now hostname)).Commits K := by
  intro w
  rw [commit_enter]
  split
  · exact ⟨.refl _, .refl _⟩
  · split
    · exact ⟨.refl _, .refl _⟩
    · rename_i hfree
      split
      · exact ⟨.refl _, .refl _⟩
      · split
        · exact ⟨.refl _, .refl _⟩
        · rename_i hknown
          have hcreated : w.store.Change K
              { w.store with documents := RunLock.created w.store.documents } :=
            .trans (.of_effect (.create .running)) (.of_effect (.create .disabled))
          refine ⟨.change (hcreated.tail (.start _ hid ?_ ?_ rfl rfl rfl)), .refl _⟩
          · simpa [Mapping.contains, Job.new] using hknown
          · have := RunLock.get?_of_refusal?_eq_none hfree
            simpa [Store.holder, Job.new, Documents.content] using this

/-! ## The other units -/

theorem makes_noting {id : String} (hid : K id) (m : Message Timestamp) :
    (noting id m).Makes K := by
  unfold noting
  refine .bind (Jobs.makes_append hid m) fun appended => ?_
  split
  · refine .bind (Jobs.makes_setStatus hid _) fun _ => .bind .now fun _ => ?_
    split
    · exact .bind (Jobs.makes_touch hid _) fun _ => .pure _
    · exact .fail _
  · exact .pure _

theorem makes_marking {id : String} (hid : K id) (m : Message Timestamp) (status : Status) :
    (marking id m status).Makes K := by
  unfold marking
  refine .bind (Jobs.makes_append hid m) fun appended => ?_
  split
  · refine .bind (Jobs.makes_touch hid _) fun _ => ?_
    exact .bind (Jobs.makes_setStatus hid _) fun _ => .pure _
  · exact .pure _

/-- A lock is taken back only from a job that is stopped or gone. -/
theorem makes_releaseLeaked (engine : Engine) (entry : RunningJob) :
    (releaseLeaked engine entry).Makes K := by
  intro w
  unfold releaseLeaked
  rw [Routine.run_bind, Jobs.run_find?]
  dsimp only
  split
  · exact ⟨.refl _, .refl _⟩
  · rename_i hstopped
    rw [run_unlock]
    split
    · exact ⟨.refl _, .refl _⟩
    · refine ⟨.tail (.of_effect (.create .running)) (.unlock _ _ ?_), .refl _⟩
      show w.store.running? entry.id = none
      cases hj : w.store.find? entry.id with
      | none =>
        rw [Store.find?_eq_none] at hj
        simp [Store.running?, hj]
      | some j =>
        rw [Store.isStopped_find? hj]
        simpa [hj] using hstopped

theorem makes_runningJobs : (onDocuments RunLock.runningJobs).Makes K := by
  refine .onDocuments fun s => ?_
  rw [RunLock.run_runningJobs_state]
  exact .of_effect (.create .running)

end Lifecycle

namespace Service

theorem run_dropStopped_cons (id : String) (ids : List String) :
    ((dropStopped (id :: ids)).run w).2 =
      ((dropStopped ids).run { w with store := (w.store.dropIfStopped id).2 }).2 := by
  simp only [dropStopped, Jobs.dropIfStopped, Routine.run_bind, run_change]
  rcases (dropStopped ids).run { w with store := (w.store.dropIfStopped id).2 } with ⟨_ | _, _⟩ <;>
    rfl

theorem purges_dropStopped (ids : List String) : (dropStopped ids).Purges := by
  induction ids with
  | nil => exact fun _ => ⟨.refl, .refl _⟩
  | cons id ids ih =>
    intro w
    obtain ⟨hstore, hclock⟩ := ih { w with store := (w.store.dropIfStopped id).2 }
    rw [run_dropStopped_cons]
    exact ⟨.head ⟨id, rfl⟩ hstore, hclock⟩

/-- Which jobs are to go is asked in the same unit of work. -/
theorem purges_dropStopped_of {u : UnitOfWork (List (Job Instant))}
    {f : List (Job Instant) → List String} (hu : ∀ w, (u.run w).2 = w) :
    UnitOfWork.Purges (u >>= fun jobs => dropStopped (f jobs)) := by
  intro w
  have hw := hu w
  rw [Routine.run_bind]
  split
  · rename_i heq
    rw [heq] at hw
    obtain rfl := hw
    exact purges_dropStopped _ _
  · rename_i heq
    rw [heq] at hw
    obtain rfl := hw
    exact ⟨.refl, .refl _⟩

theorem makes_amend (f : Mapping String String → Mapping String String) (rounds : Int) :
    (onDocuments (RunLock.amendFrom RunLock.noRival .disabled f 0 rounds.toNat)).Makes K := by
  refine .onDocuments fun s => ?_
  rw [RunLock.run_amend]
  split
  · exact .refl _
  · exact .tail (.of_effect (.create .disabled)) (.amend _)

theorem makes_disabledTypes : (onDocuments RunLock.disabledTypes).Makes K := by
  refine .onDocuments fun s => ?_
  rw [RunLock.run_disabledTypes]
  exact .of_effect (.create .disabled)

end Service
end JobControl
