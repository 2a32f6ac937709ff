import JobControl.RunLock

/-! # Run locks without interference

What the operations on the run locks make of the shared documents if no other writer acts between
their statements. A document that was not created yet is read as one without entries, so creating it
changes nothing that can be read. -/

namespace JobControl

namespace Documents

def current (ds : Documents) (topic : Topic) : Document := (ds.get topic).getD ⟨∅, 0⟩

def content (ds : Documents) (topic : Topic) : Mapping String String := (ds.current topic).data

/-- Give a document other entries, under its next version. -/
def amend (ds : Documents) (topic : Topic) (data : Mapping String String) : Documents :=
  ds.write topic (ds.current topic).version data

/-- Take the lock of a type from a job, if the job holds it. -/
def release (ds : Documents) (jobType id : String) : Documents :=
  if (ds.content .running).get? jobType = some id then
    ds.amend .running ((ds.content .running).erase jobType)
  else ds

variable (ds : Documents) (topic topic' : Topic)

theorem current_of_get {d : Document} (h : ds.get topic = some d) : ds.current topic = d := by
  simp [current, h]

theorem get_create :
    (ds.create topic).get topic' =
      if topic' = topic then some (ds.current topic) else ds.get topic' := by
  unfold create current
  split
  · rename_i d hd
    split
    · subst topic'; simp [hd]
    · rfl
  · rename_i hd; simp [hd]

@[simp] theorem current_create : (ds.create topic).current topic' = ds.current topic' := by
  unfold current
  rw [get_create]
  split
  · subst topic'; rfl
  · rfl

@[simp] theorem content_create : (ds.create topic).content topic' = ds.content topic' := by
  simp [content]

theorem create_of_get {d : Document} (h : ds.get topic = some d) : ds.create topic = ds := by
  unfold create; rw [h]

@[simp] theorem content_amend (data : Mapping String String) :
    (ds.amend topic data).content topic' = if topic' = topic then data else ds.content topic' := by
  unfold amend content write current
  rw [get_set]
  split <;> rfl

theorem content_running_amend_disabled (data : Mapping String String) :
    (ds.amend .disabled data).content .running = ds.content .running := by simp

theorem get?_release (jobType id jobType' : String) :
    ((ds.release jobType id).content .running).get? jobType' =
      if jobType' = jobType ∧ (ds.content .running).get? jobType = some id then none
      else (ds.content .running).get? jobType' := by
  unfold release
  split
  · rename_i h; simp [h]
  · rename_i h; simp [h]

end Documents

namespace RunLock
variable (ds : Documents)

@[simp] theorem run_load (topic : Topic) :
    (load topic).run ds = (.ok (ds.current topic), ds.create topic) := by
  unfold load
  rw [Routine.run_bind]
  cases h : ds.get topic with
  | some d => simp [h, ds.current_of_get topic h, ds.create_of_get topic h]
  | none => simp [h, Routine.run_bind, ds.get_create]

def created : Documents := (ds.create .running).create .disabled

@[simp] theorem current_created (topic : Topic) :
    (created ds).current topic = ds.current topic := by
  simp [created]

@[simp] theorem content_created (topic : Topic) :
    (created ds).content topic = ds.content topic := by
  simp [Documents.content]

theorem get_created (topic : Topic) : (created ds).get topic = some (ds.current topic) := by
  unfold created
  rw [Documents.get_create]
  cases topic
  · simp [Documents.get_create]
  · simp

theorem run_acquireFrom (jobType id : String) (blockers : List String) (round left : Nat) :
    (acquireFrom noRival jobType id blockers round (left + 1)).run ds =
      match refusal? (ds.current .running) (ds.current .disabled) jobType blockers with
      | some reason => (.ok (.refused reason), created ds)
      | none => (.ok .acquired,
          (created ds).amend .running ((ds.content .running).insert jobType id)) := by
  have hwrite : Documents.replaceRunning (ds.current .running).version
      (ds.current .disabled).version ((ds.current .running).data.insert jobType id) (created ds) =
      (true, (created ds).amend .running ((ds.content .running).insert jobType id)) := by
    unfold Documents.replaceRunning Documents.versionIs Documents.amend
    simp [get_created, Documents.content]
  unfold acquireFrom
  simp only [Routine.run_bind, run_load, noRival, Routine.run_pure, Documents.current_create]
  rw [show ((ds.create .running).create .disabled) = created ds from rfl]
  cases refusal? (ds.current .running) (ds.current .disabled) jobType blockers with
  | some reason => rfl
  | none => simp only [Routine.run_bind, Routine.update, Routine.run_act, hwrite]; rfl

theorem run_tryAcquire (jobType id : String) (blockers : List String) (rounds : Int) :
    (tryAcquire jobType id blockers rounds noRival).run ds =
      if rounds ≤ 0 then (.error (.contention (.acquiring jobType)), ds) else
      match refusal? (ds.current .running) (ds.current .disabled) jobType blockers with
      | some reason => (.ok (.refused reason), created ds)
      | none => (.ok .acquired,
          (created ds).amend .running ((ds.content .running).insert jobType id)) := by
  unfold tryAcquire
  split
  · rw [Int.toNat_of_nonpos ‹_›]; rfl
  · obtain ⟨left, hleft⟩ : ∃ left, rounds.toNat = left + 1 := ⟨rounds.toNat - 1, by omega⟩
    rw [hleft, run_acquireFrom]

theorem replace_create (topic : Topic) (data : Mapping String String) :
    Documents.replace topic (ds.current topic).version data (ds.create topic) =
      (true, (ds.create topic).amend topic data) := by
  unfold Documents.replace Documents.versionIs Documents.amend
  simp [Documents.get_create]

theorem run_release (jobType id : String) (rounds : Int) :
    (release jobType (some id) rounds noRival).run ds =
      if rounds ≤ 0 then (.error (.contention (.releasing jobType)), ds)
      else (.ok (decide ((ds.content .running).get? jobType = some id)),
        (ds.create .running).release jobType id) := by
  unfold release
  split
  · rw [Int.toNat_of_nonpos ‹_›]; rfl
  · obtain ⟨left, hleft⟩ : ∃ left, rounds.toNat = left + 1 := ⟨rounds.toNat - 1, by omega⟩
    rw [hleft]
    unfold releaseFrom Documents.release
    simp only [Routine.run_bind, run_load, noRival, Routine.run_pure, Documents.content_create]
    rw [show (ds.current .running).data = ds.content .running from rfl]
    cases h : (ds.content .running).get? jobType with
    | none => simp
    | some holder =>
      by_cases hid : id = holder
      · subst hid
        simp [Routine.run_bind, Routine.update, replace_create]
      · simp [hid, Ne.symm hid]

theorem run_amendFrom (topic : Topic) (f : Mapping String String → Mapping String String)
    (round left : Nat) :
    (amendFrom noRival topic f round (left + 1)).run ds =
      (.ok (), (ds.create topic).amend topic (f (ds.content topic))) := by
  unfold amendFrom
  simp only [Routine.run_bind, run_load, noRival, Routine.run_pure, Routine.update,
    Routine.run_act]
  rw [show (ds.current topic).data = ds.content topic from rfl, replace_create]
  rfl

theorem run_amend (topic : Topic) (f : Mapping String String → Mapping String String)
    (rounds : Int) :
    (amendFrom noRival topic f 0 rounds.toNat).run ds =
      if rounds ≤ 0 then (.error (.contention (.updating topic.label)), ds)
      else (.ok (), (ds.create topic).amend topic (f (ds.content topic))) := by
  split
  · rw [Int.toNat_of_nonpos ‹_›]; rfl
  · obtain ⟨left, hleft⟩ : ∃ left, rounds.toNat = left + 1 := ⟨rounds.toNat - 1, by omega⟩
    rw [hleft, run_amendFrom]

theorem run_runningJobs_state : (runningJobs.run ds).2 = ds.create .running := by
  simp [runningJobs, snapshot, Routine.run_bind]

theorem run_disabledTypes : disabledTypes.run ds = (.ok (ds.content .disabled),
    ds.create .disabled) := by
  simp [disabledTypes, Routine.run_bind, Documents.content]

section
variable {running disabled : Document} {jobType : String} {blockers : List String}

/-- A lock is given out only where the type is not disabled and neither it nor a blocker runs. -/
theorem free_of_refusal? (h : refusal? running disabled jobType blockers = none) :
    ¬disabled.data.contains jobType ∧ ¬running.data.contains jobType ∧
      ∀ b ∈ blockers, ¬running.data.contains b := by
  unfold refusal? at h
  split at h
  · contradiction
  · split at h
    · contradiction
    · split at h
      · contradiction
      · rename_i hdisabled hrunning hblocked
        exact ⟨hdisabled, hrunning, fun b hb hb' => hblocked (List.any_eq_true.mpr ⟨b, hb, hb'⟩)⟩

theorem get?_of_refusal?_eq_none (h : refusal? running disabled jobType blockers = none) :
    running.data.get? jobType = none := by
  simpa [Mapping.contains] using (free_of_refusal? h).2.1

end

end RunLock
end JobControl
