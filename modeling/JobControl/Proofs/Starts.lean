import JobControl.Proofs.DisabledTypes

/-! # Starts without interference

Undisturbed, a start decides by the disabled types, the run lock of the type and those of the
blocking types, in this order, and by whether the id is in use. Either the job is let in with its
run lock (`Cluster.Enters`), or the store is as it was (`Cluster.TurnsAway`). -/

namespace JobControl

/-- One more is counted under a key, and no more under any other. -/
def Tally.Gains {κ : Type} [DecidableEq κ] (t : Tally κ) (k : κ) (t' : Tally κ) : Prop :=
  ∀ k', t'.count k' = t.count k' + if k' = k then 1 else 0

theorem Tally.gains_bump {κ : Type} [DecidableEq κ] (t : Tally κ) (k : κ) :
    t.Gains k (t.bump k) := by
  intro k'
  rw [count_bump]
  split
  · rename_i h
    rw [h]
  · rfl

namespace Cluster

/-- An id has been handed out and the clock has been read. -/
def asked (c : Cluster) : Cluster := { c with clock := c.clock.read.2, ids := c.ids.next.2 }

/-- Nothing was started; that was counted with the reason, and is all. -/
structure TurnsAway (c : Cluster) (jobType : String) (reason : Refusal) (c' : Cluster) : Prop where
  counted : c.metrics.blocked.Gains (jobType, reason.label) c'.metrics.blocked
  same : c' = { c.asked with metrics := { c.metrics with blocked := c'.metrics.blocked } }

/-- A job was let in: its record and its run lock were added, that was counted, and is all. -/
structure Enters (c : Cluster) (id jobType hostname : String) (now : Instant) (c' : Cluster) :
    Prop where
  records : c'.store.records.entries =
    c.store.records.entries ++ [(id, ⟨jobType, now, now, none, .ok, hostname⟩)]
  messages : c'.store.messages = c.store.messages
  /-- Unless there are messages under the id already, without a record. -/
  find : c.store.messagesOf id = [] → c'.store.find? id = some (.new id jobType now hostname)
  lock : ∃ d, c'.store.documents.running = some d ∧
    d.data.entries = (c.store.documents.content .running).entries ++ [(jobType, id)] ∧
    d.version = (c.store.documents.current .running).version + 1
  disabled : c'.store.documents.disabled = some (c.store.documents.current .disabled)
  counted : c.metrics.started.Gains jobType c'.metrics.started
  same : c' = { c.asked with
    store := c'.store, metrics := { c.metrics with started := c'.metrics.started } }

end Cluster

/-! ## The decision -/

/-- A type that is not running itself is blocked by those that its definition names. -/
theorem RunLock.refusal?_blockers (running disabled : Document) (d : Definition) :
    refusal? running disabled d.jobType d.blockers =
      if disabled.data.contains d.jobType then some .disabled
      else if running.data.contains d.jobType then some .alreadyRunning
      else if ∃ b ∈ d.blockingTypes, running.data.contains b then some .blocked
      else none := by
  unfold refusal?
  by_cases hown : running.data.contains d.jobType
  · simp only [hown, if_true]
  · have hany : d.blockers.any (running.data.contains ·) ↔
        ∃ b ∈ d.blockingTypes, running.data.contains b := by
      simp only [List.any_eq_true, Definition.mem_blockers]
      constructor
      · rintro ⟨b, rfl | hb, hrunning⟩
        · exact absurd hrunning hown
        · exact ⟨b, hb, hrunning⟩
      · rintro ⟨b, hb, hrunning⟩
        exact ⟨b, .inr hb, hrunning⟩
    simp only [hown, hany]

namespace Lifecycle
open Cluster
variable {engine : Engine} {d : Definition} {c : Cluster} {t : Timestamp} {now : Instant}

/-- Why a start is refused, going by what the store holds. -/
def refusal? (s : Store) (d : Definition) : Option Refusal :=
  RunLock.refusal? (s.documents.current .running) (s.documents.current .disabled) d.jobType
    d.blockers

theorem refusal?_eq (s : Store) (d : Definition) :
    refusal? s d =
      if s.disabled.contains d.jobType then some .disabled
      else if (s.holder d.jobType).isSome then some .alreadyRunning
      else if ∃ b ∈ d.blockingTypes, (s.holder b).isSome then some .blocked
      else none :=
  RunLock.refusal?_blockers _ _ d

theorem commit_enter_decides (hrounds : 0 < engine.rounds) (htime : t.toInstant? = some now)
    (d : Definition) (w : Workspace) (id hostname : String) :
    (enter engine d (Job.new id d.jobType t hostname)).commit w =
      match refusal? w.store d with
      | some reason => (.error (.refused d.jobType reason), w)
      | none =>
        if w.store.records.contains id then (.error .store, w)
        else (.ok (), { w with
          store := Store.enroll { w.store with documents := RunLock.created w.store.documents }
            (Job.new id d.jobType now hostname) }) := by
  rw [commit_enter, if_neg (Int.not_le.mpr hrounds), htime]
  rfl

section
variable (hrounds : 0 < engine.rounds) (hnow : c.clock.now? = some t)
  (htime : t.toInstant? = some now)
include hrounds hnow htime

theorem run_start_of_refusal {reason : Refusal} (h : refusal? c.store d = some reason) :
    ∃ c', (start engine d).run c = (.ok none, c') ∧ c.TurnsAway d.jobType reason c' := by
  have hcommit := commit_enter_decides hrounds htime d ⟨c.store, c.clock.read.2⟩ c.ids.next.1
    engine.hostname
  rw [h] at hcommit
  exact ⟨_, run_start hnow hcommit, Tally.gains_bump _ _, rfl⟩

variable (hfree : refusal? c.store d = none)
include hfree

theorem run_start_of_used (h : c.store.records.contains c.ids.next.1) :
    (start engine d).run c = (.error .store, c.asked) := by
  have hcommit := commit_enter_decides hrounds htime d ⟨c.store, c.clock.read.2⟩ c.ids.next.1
    engine.hostname
  rw [hfree] at hcommit
  dsimp only at hcommit
  rw [if_pos h] at hcommit
  exact run_start hnow hcommit

theorem run_start_of_unused (h : ¬c.store.records.contains c.ids.next.1) :
    ∃ c', (start engine d).run c =
        (.ok (some (.new c.ids.next.1 d.jobType t engine.hostname)), c') ∧
      c.Enters c.ids.next.1 d.jobType engine.hostname now c' := by
  have hcommit := commit_enter_decides hrounds htime d ⟨c.store, c.clock.read.2⟩ c.ids.next.1
    engine.hostname
  rw [hfree] at hcommit
  dsimp only at hcommit
  rw [if_neg h] at hcommit
  have hunlocked := RunLock.get?_of_refusal?_eq_none hfree
  have hunused : c.store.records.get? c.ids.next.1 = none := by
    simpa [Mapping.contains] using h
  refine ⟨_, run_start hnow hcommit, ⟨Mapping.entries_insert_of_get? hunused _, ?_, fun hnone => ?_,
    ⟨_, rfl, ?_, ?_⟩, ?_, Tally.gains_bump _ _, rfl⟩⟩
  · simp [Store.enroll, Store.insertJob, Job.new]
  · exact (Store.find?_insertJob _ _ hnone).trans (if_pos rfl)
  · rw [RunLock.content_created]
    exact Mapping.entries_insert_of_get? hunlocked _
  · rw [RunLock.current_created]
  · exact RunLock.get_created _ .disabled

end

/-- Undisturbed, a start is refused because the type is disabled, or else because it is running, or
else because a blocking type is running; or else it fails if the id is in use. In all these cases
the store stays as it is. Otherwise the job is let in with its run lock. -/
theorem start_decides (engine : Engine) (d : Definition) (c : Cluster) {t : Timestamp}
    {now : Instant} (hrounds : 0 < engine.rounds) (hnow : c.clock.now? = some t)
    (htime : t.toInstant? = some now) :
    if c.store.disabled.contains d.jobType then
      ∃ c', (start engine d).run c = (.ok none, c') ∧ c.TurnsAway d.jobType .disabled c'
    else if (c.store.holder d.jobType).isSome then
      ∃ c', (start engine d).run c = (.ok none, c') ∧ c.TurnsAway d.jobType .alreadyRunning c'
    else if ∃ b ∈ d.blockingTypes, (c.store.holder b).isSome then
      ∃ c', (start engine d).run c = (.ok none, c') ∧ c.TurnsAway d.jobType .blocked c'
    else if c.store.records.contains c.ids.next.1 then
      (start engine d).run c = (.error .store, c.asked)
    else
      ∃ c', (start engine d).run c =
          (.ok (some (.new c.ids.next.1 d.jobType t engine.hostname)), c') ∧
        c.Enters c.ids.next.1 d.jobType engine.hostname now c' := by
  have hrefusal := refusal?_eq c.store d
  split
  · rename_i hdisabled
    exact run_start_of_refusal hrounds hnow htime (hrefusal.trans (if_pos hdisabled))
  rename_i hdisabled
  rw [if_neg hdisabled] at hrefusal
  split
  · rename_i hrunning
    exact run_start_of_refusal hrounds hnow htime (hrefusal.trans (if_pos hrunning))
  rename_i hrunning
  rw [if_neg hrunning] at hrefusal
  split
  · rename_i hblocked
    exact run_start_of_refusal hrounds hnow htime (hrefusal.trans (if_pos hblocked))
  rename_i hblocked
  have hfree := hrefusal.trans (if_neg hblocked)
  split
  · rename_i hused
    exact run_start_of_used hrounds hnow htime hfree hused
  · rename_i hunused
    exact run_start_of_unused hrounds hnow htime hfree hunused

/-- While the backup runs, a job that it blocks is turned away, and one that it does not block is
let in unless it is given the id of the backup. -/
theorem start_decides_beside_backup :
    ∃ (c : Cluster) (t : Timestamp) (now : Instant),
      c.clock.now? = some t ∧ t.toInstant? = some now ∧
      (∃ c', (start ⟨"host", 1⟩ ⟨"nightly", "", "", ["backup"], 0, .zero⟩).run c = (.ok none, c') ∧
        c.TurnsAway "nightly" .blocked c') ∧
      (∃ c', (start ⟨"host", 1⟩ ⟨"hourly", "", "", ["nightly"], 0, .zero⟩).run c =
          (.ok (some (.new "job-2" "hourly" t "host")), c') ∧
        c.Enters "job-2" "hourly" "host" now c') ∧
      (start ⟨"host", 1⟩ ⟨"hourly", "", "", ["nightly"], 0, .zero⟩).run
          { c with ids := ⟨["job-1"], 1⟩ } =
        (.error .store, { c with clock := c.clock.read.2, ids := ⟨[], 2⟩ }) := by
  let now : Instant := ⟨63902822400000000⟩
  let t : Timestamp := ⟨63902829600000000, some (120 * Micros.perMinute)⟩
  let c : Cluster := ⟨⟨Store.enroll ∅ (.new "job-1" "backup" now "host"), .starting t 0⟩, ⟨[], 1⟩,
    .empty, .empty⟩
  have hnow : c.clock.now? = some t := by decide +kernel
  have htime : t.toInstant? = some now := by decide +kernel
  have hid : c.ids.next.1 = "job-2" := by decide +kernel
  refine ⟨c, t, now, hnow, htime, ?_, ?_, ?_⟩
  · have hstart := start_decides ⟨"host", 1⟩ ⟨"nightly", "", "", ["backup"], 0, .zero⟩ c
      (by decide) hnow htime
    rwa [if_neg (by decide +kernel), if_neg (by decide +kernel), if_pos (by decide +kernel)]
      at hstart
  · have hstart := start_decides ⟨"host", 1⟩ ⟨"hourly", "", "", ["nightly"], 0, .zero⟩ c
      (by decide) hnow htime
    rwa [if_neg (by decide +kernel), if_neg (by decide +kernel), if_neg (by decide +kernel),
      if_neg (by decide +kernel), hid] at hstart
  · have hstart := start_decides ⟨"host", 1⟩ ⟨"hourly", "", "", ["nightly"], 0, .zero⟩
      { c with ids := ⟨["job-1"], 1⟩ } (by decide) hnow htime
    rwa [if_neg (by decide +kernel), if_neg (by decide +kernel), if_neg (by decide +kernel),
      if_pos (by decide +kernel)] at hstart

end Lifecycle
end JobControl
