import JobControl.Proofs.Effect

/-! # Run locks and running jobs

`Store.Consistent`: the run lock of a type is held by a job exactly if that job is a running one of
the type. Each effect keeps it, because a job comes in with its run lock, goes out with it, and a
lock is taken from nobody else. -/

namespace JobControl.Store
variable {s s' : Store} {K : String → Prop}

/-- The run locks are held by the running jobs, each for its own type. -/
def Consistent (s : Store) : Prop :=
  ∀ jobType id, s.holder jobType = some id ↔ ∃ r, s.running? id = some r ∧ r.jobType = jobType

namespace Consistent

theorem empty : (∅ : Store).Consistent := by
  intro jobType id
  constructor
  · rintro ⟨⟩
  · rintro ⟨r, ⟨⟩, _⟩

theorem of_eq (h : s.Consistent) (hholder : ∀ t, s'.holder t = s.holder t)
    (htype : ∀ id, (s'.running? id).map (·.jobType) = (s.running? id).map (·.jobType)) :
    s'.Consistent := by
  intro jobType id
  rw [hholder, h]
  have := htype id
  constructor
  · rintro ⟨r, hr, rfl⟩
    rw [hr] at this
    exact Option.map_eq_some_iff.mp this
  · rintro ⟨r, hr, rfl⟩
    rw [hr] at this
    exact Option.map_eq_some_iff.mp this.symm

theorem documents (h : s.Consistent) {ds : Documents}
    (hds : ds.content .running = s.documents.content .running) :
    ({ s with documents := ds } : Store).Consistent :=
  h.of_eq (fun t => by unfold holder; rw [hds]) fun _ => rfl

/-- A job that does not run holds no lock. -/
theorem holder_ne (h : s.Consistent) {id : String} (hid : s.running? id = none) (t : String) :
    s.holder t ≠ some id := by
  intro ht
  obtain ⟨r, hr, -⟩ := (h t id).mp ht
  rw [hid] at hr
  contradiction

theorem unlock (h : s.Consistent) {jobType id : String} (idle : s.running? id = none) :
    (s.unlock jobType id).Consistent := by
  refine h.of_eq (fun t => ?_) fun _ => rfl
  rw [holder_unlock, if_neg fun e => h.holder_ne idle jobType e.2]

theorem enroll (h : s.Consistent) {j : Job Instant} (fresh : s.records.get? j.id = none)
    (free : s.holder j.jobType = none) (running : j.stopped = none) : (s.enroll j).Consistent := by
  intro jobType id
  have hidle : s.running? j.id = none := by simp [running?, fresh]
  rw [holder_enroll, running?_enroll running]
  by_cases hid : id = j.id
  · subst hid
    have := h.holder_ne hidle jobType
    by_cases ht : jobType = j.jobType <;> simp [ht, this, eq_comm]
  · by_cases ht : jobType = j.jobType
    · -- The lock was free, so no job of the type was running.
      subst ht
      have hno : ¬∃ r, s.running? id = some r ∧ r.jobType = j.jobType := by
        rw [← h, free]
        simp
      simpa [Ne.symm hid, hid] using hno
    · simpa [ht, hid] using h jobType id

theorem stop (h : s.Consistent) {id : String} {r : Record} (running : s.running? id = some r)
    (time : Instant) (status : Option Status) :
    ((s.unlock r.jobType id).stop id time status).2.Consistent := by
  have hheld : s.holder r.jobType = some id := (h _ _).mpr ⟨r, running, rfl⟩
  intro jobType k
  rw [holder_stop, holder_unlock, running?_stop, running?_unlock]
  by_cases ht : jobType = r.jobType
  · subst ht
    rw [if_pos ⟨rfl, hheld⟩]
    split
    · simp
    · rename_i hk
      have hno : ¬∃ r', s.running? k = some r' ∧ r'.jobType = r.jobType := by
        rw [← h, hheld]
        exact fun e => hk (Option.some.inj e).symm
      simpa using hno
  · rw [if_neg fun e => ht e.1]
    split
    · subst k
      have hno : s.holder jobType ≠ some id := by
        rw [Ne, h]
        rintro ⟨r', hr', rfl⟩
        rw [running] at hr'
        exact ht (Option.some.inj hr' ▸ rfl)
      simpa using hno
    · exact h jobType k

theorem effect (heffect : Effect K s s') (h : s.Consistent) : s'.Consistent := by
  cases heffect with
  | create topic => exact h.documents (s.documents.content_create topic .running)
  | amend data => exact h.documents (s.documents.content_running_amend_disabled data)
  | start j _ fresh free running => exact h.enroll fresh free running
  | unlock jobType id idle => exact h.unlock idle
  | stop id _ time status running => exact h.stop running time status
  | note id _ m => exact h.of_eq (fun _ => rfl) fun _ => rfl
  | setStatus id _ status =>
    refine h.of_eq (fun t => holder_updateIf ..) fun k => ?_
    rw [running?_setStatus]
    split
    · subst k; cases s.running? id <;> rfl
    · rfl
  | touch id _ time =>
    refine h.of_eq (fun t => holder_updateIf ..) fun k => ?_
    rw [running?_touch]
    split
    · subst k
      cases s.running? id with
      | none => rfl
      | some r => by_cases ht : r.lastUpdated ≤ time <;> simp [ht]
    · rfl

theorem drop (h : s.Consistent) (id : String) : (s.dropIfStopped id).2.Consistent :=
  h.of_eq (fun t => by rw [holder, holder, documents_dropIfStopped]) fun k => by
    rw [running?_dropIfStopped]

/-- At most one job of a type is running. -/
theorem unique (h : s.Consistent) {id id' : String} {r r' : Record} (hr : s.running? id = some r)
    (hr' : s.running? id' = some r') (ht : r.jobType = r'.jobType) : id = id' := by
  have hid := (h r.jobType id).mpr ⟨r, hr, rfl⟩
  have hid' := (h r.jobType id').mpr ⟨r', hr', ht.symm⟩
  exact Option.some.inj (hid.symm.trans hid')

end Consistent

/-- An effect leaves every job where it is, under its type. -/
theorem Effect.known (heffect : Effect K s s') {id : String} {r : Record}
    (hr : s.records.get? id = some r) :
    ∃ r', s'.records.get? id = some r' ∧ r'.jobType = r.jobType := by
  have updateIf : ∀ (s₁ : Store) k p f, s₁.records = s.records →
      (∀ r, (f r).jobType = r.jobType) →
      ∃ r', (s₁.updateIf k p f).2.records.get? id = some r' ∧ r'.jobType = r.jobType := by
    intro s₁ k p f hs hf
    rw [get?_updateIf, hs]
    split
    · subst k
      rw [hr]
      refine ⟨_, rfl, ?_⟩
      show (if p r then f r else r).jobType = r.jobType
      split
      · exact hf r
      · rfl
    · exact ⟨r, hr, rfl⟩
  cases heffect with
  | create | amend | unlock | note => exact ⟨r, hr, rfl⟩
  | start j _ fresh =>
    have hid : id ≠ j.id := by rintro rfl; rw [fresh] at hr; contradiction
    exact ⟨r, by rw [get?_enroll, if_neg hid]; exact hr, rfl⟩
  | stop => exact updateIf _ _ _ _ rfl fun _ => rfl
  | setStatus | touch => exact updateIf _ _ _ _ rfl fun _ => rfl

/-- A unit of work does not remove a running job: it may stop it or remove stopped ones, not
both. -/
theorem Deed.known_of_running (h : Deed K s s') {id : String} {r : Record}
    (hr : s.running? id = some r) :
    ∃ r', s'.records.get? id = some r' ∧ r'.jobType = r.jobType := by
  cases h with
  | change h =>
    induction h with
    | refl => exact ⟨r, get?_of_running? hr, rfl⟩
    | tail _ heffect ih =>
      obtain ⟨r', hr', ht⟩ := ih
      obtain ⟨r'', hr'', ht'⟩ := heffect.known hr'
      exact ⟨r'', hr'', ht'.trans ht⟩
  | purge h => exact ⟨r, get?_of_running? (by rw [h.running?_eq, hr]), rfl⟩

end JobControl.Store
