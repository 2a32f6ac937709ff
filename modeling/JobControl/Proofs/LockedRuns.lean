import JobControl.Proofs.LockedRecords
import JobControl.Proofs.Runs

/-! # One running job per type

Over every run of the service the run locks are held by the running jobs: a job that is killed,
stopped late, refused, or left behind by an engine never leaves a lock without its job or a running
job without its lock. -/

namespace JobControl.Schedule
variable {s s' s₀ : Schedule} {turn : Turn} {past : List Moment}

theorem Run.consistent (h : s₀.Run past s) (h₀ : s₀.Initial) : s.store.Consistent := by
  refine h.store_keeps (fun _ _ heffect hs => hs.effect heffect) (fun _ id hs => hs.drop id)
    h₀.sound ?_
  rw [h₀.store]
  exact .empty

/-- In every schedule of a run of the service from an empty store, a job type is locked for a job
exactly if there is a record of that job, of that type, that is not stopped. So at most one job of a
type is running; and no turn removes a running job, which has its type for good. -/
theorem holder_iff_running (h₀ : s₀.Initial) (h : s₀.Run past s) :
    (∀ jobType id, s.store.holder jobType = some id ↔
      ∃ r, s.store.records.get? id = some r ∧ r.jobType = jobType ∧ r.stopped = none) ∧
    (∀ id id' r r', s.store.records.get? id = some r → s.store.records.get? id' = some r' →
      r.stopped = none → r'.stopped = none → r.jobType = r'.jobType → id = id') ∧
    (∀ turn s', turn.isService → s.turn? turn = some s' →
      ∀ id r, s.store.records.get? id = some r → r.stopped = none →
        ∃ r', s'.store.records.get? id = some r' ∧ r'.jobType = r.jobType) := by
  have hconsistent := h.consistent h₀
  refine ⟨fun jobType id => ?_, ?_, ?_⟩
  · rw [hconsistent]
    constructor
    · rintro ⟨r, hr, ht⟩
      rw [Store.running?_eq_some] at hr
      exact ⟨r, hr.1, ht, hr.2⟩
    · rintro ⟨r, hr, ht, hstopped⟩
      exact ⟨r, Store.running?_eq_some.mpr ⟨hr, hstopped⟩, ht⟩
  · intro id id' r r' hr hr' hstopped hstopped' ht
    exact hconsistent.unique (Store.running?_eq_some.mpr ⟨hr, hstopped⟩)
      (Store.running?_eq_some.mpr ⟨hr', hstopped'⟩) ht
  · intro turn s' hservice hturn id r hr hstopped
    have hserved := (took_of_turn? hturn).served (h.sound h₀.sound) hservice
    exact hserved.store.known_of_running (Store.running?_eq_some.mpr ⟨hr, hstopped⟩)

/-- A job that was started by a call and is being executed. -/
theorem holder_iff_running_nightly :
    ∃ past s, nightly.Initial ∧
      nightly.Run past s ∧
      s.store.holder "nightly" = some "job-1" ∧
      ∃ r, s.store.records.get? "job-1" = some r ∧ r.jobType = "nightly" ∧ r.stopped = none := by
  obtain ⟨past, s, hrun, hholder⟩ := exists_run nightly
    [.call 0 0 (.start (.named "nightly")), .move (.resume 0), .move (.resume 0),
      .move (.grant 0), .move (.resume 0), .move (.resume 0)]
    (fun _ s => s.store.holder "nightly" = some "job-1" && s.deployment.executed "job-1" = 1)
    (by decide +kernel) (by decide +kernel)
  rw [Bool.and_eq_true, decide_eq_true_eq] at hholder
  exact ⟨past, s, initial_nightly, hrun, hholder.1,
    ((holder_iff_running initial_nightly hrun).1 _ _).mp hholder.1⟩

end JobControl.Schedule
