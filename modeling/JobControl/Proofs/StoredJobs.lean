import JobControl.Proofs.Queries
import JobControl.Proofs.View

/-! # Jobs in the store

A store keeps the instants of all times of a job and leaves the rest of the job as it is, so a job
that was read can be stored again and comes back unchanged (`Jobs.create_faithful`). Whatever clocks
the times were read from, wherever the store compares them it goes by their instants
(`Jobs.Kept`). -/

namespace JobControl
open UnitOfWork

/-! ## Times of a job -/

@[simp] theorem Timestamp.instant_ofInstant (i : Instant) : (ofInstant i).instant = i := by
  show (⟨i.micros - 0⟩ : Instant) = i
  rw [Int.sub_zero]

theorem Timestamp.Storable.inUtc {t : Timestamp} (h : t.Storable) :
    (ofInstant t.instant).Storable := by
  unfold Storable
  rwa [instant_ofInstant]

namespace Job
variable {τ υ : Type}

theorem times_map (f : τ → υ) (j : Job τ) : (j.map f).times = j.times.map f := by
  unfold times map
  cases j.stopped <;> simp [Message.map, Function.comp_def]

theorem map_instant_ofInstant (j : Job Instant) :
    (j.map Timestamp.ofInstant).map Timestamp.instant = j := by
  obtain ⟨id, jobType, started, lastUpdated, stopped, status, hostname, messages⟩ := j
  simp [map, Message.map, Function.comp_def]

end Job

/-! ## The store -/

namespace Store
variable {s : Store} {j k : Job Instant} {id : String}

theorem messagesOf_eq_nil (h : ∀ m ∈ s.messages, m.1 ≠ id) : s.messagesOf id = [] := by
  unfold messagesOf
  rw [List.filter_eq_nil_iff.mpr, List.map_nil]
  exact fun m hm heq => h m hm (of_decide_eq_true heq)

/-- Of two jobs the one that started later is listed first. -/
theorem sublist_findAll (hj : s.find? j.id = some j) (hk : s.find? k.id = some k)
    (h : k.started < j.started) : [j, k].Sublist s.findAll := by
  have hsorted := pairwise_newestFirst s.jobs
  obtain ⟨front, back, hall⟩ := List.append_of_mem (mem_findAll.mpr hj)
  have hmem : k ∈ front ++ j :: back := hall ▸ mem_findAll.mpr hk
  rw [← findAll, hall, List.pairwise_append, List.pairwise_cons] at hsorted
  have hback : k ∈ back := by
    rcases List.mem_append.mp hmem with hfront | hrest
    · exact absurd (hsorted.2.2 k hfront j List.mem_cons_self) (Int.not_le.mpr h)
    · rcases List.mem_cons.mp hrest with rfl | hback
      · exact absurd h (Int.lt_irrefl _)
      · exact hback
  rw [hall]
  exact ((List.singleton_sublist.mpr hback).cons_cons j).trans (List.sublist_append_right _ _)

theorem fst_touch (hj : s.find? id = some j) (time : Instant) :
    (s.touch id time).1 = decide (j.lastUpdated ≤ time) := by
  obtain ⟨r, hr, rfl⟩ := Option.map_eq_some_iff.mp hj
  rw [touch, fst_updateIf, view, hr]
  rfl

theorem find?_touch (hj : s.find? id = some j) (time : Instant) :
    (s.touch id time).2.find? id =
      some (if j.lastUpdated ≤ time then { j with lastUpdated := time } else j) := by
  obtain ⟨r, hr, rfl⟩ := Option.map_eq_some_iff.mp hj
  have hmessages : (s.touch id time).2.messagesOf id = s.messagesOf id := by
    rw [messagesOf, touch, messages_updateIf, messagesOf]
  rw [find?, get?_touch, if_pos rfl, hr, hmessages, Option.map_some, Option.map_some,
    apply_ite some]
  exact apply_ite (fun r => some (assemble id r (s.messagesOf id))) ..

end Store

namespace Jobs
variable {w : Workspace} {j : Job Timestamp}

/-- A job stands in the store with the instants of its times, and they are compared as such. -/
structure Kept (w : Workspace) (j : Job Timestamp) : Prop where
  find : (find? j.id).Answers w (some (j.map Timestamp.instant))
  stale : ∀ t : Timestamp, t.Storable → ∃ stale, (findStale t).Answers w stale ∧
    (j.map Timestamp.instant ∈ stale ↔ j.stopped = none ∧ j.lastUpdated.instant < t.instant)
  touch : ∀ t : Timestamp, t.Storable → ∃ w',
    (touch j.id t).commit w = (.ok (decide (j.lastUpdated.instant ≤ t.instant)), w') ∧
    (find? j.id).Answers w' (some (if j.lastUpdated.instant ≤ t.instant
      then { j.map Timestamp.instant with lastUpdated := t.instant }
      else j.map Timestamp.instant))
  newest : ∃ all, findAll.Answers w all ∧ ∀ k, (find? k.id).Answers w (some k) →
    (k.started < j.started.instant → [j.map Timestamp.instant, k].Sublist all) ∧
    (j.started.instant < k.started → [k, j.map Timestamp.instant].Sublist all)

theorem kept_of_find? (h : w.store.find? j.id = some (j.map Timestamp.instant)) : Kept w j where
  find := answers_find?.mpr h
  stale t ht := by
    refine ⟨w.store.findStale t.instant, ?_, ?_⟩
    · unfold Answers
      rw [commit_findStale, Timestamp.toInstant?_eq, if_pos ht]
    · refine Store.mem_findStale.trans ((and_iff_right h).trans ?_)
      exact and_congr_left' Option.map_eq_none_iff
  touch t ht := by
    have htouch := run_touch (w := w) j.id t
    rw [Timestamp.toInstant?_eq, if_pos ht] at htouch
    dsimp only at htouch
    rw [Store.fst_touch h] at htouch
    refine ⟨{ w with store := (w.store.touch j.id t.instant).2 }, ?_, ?_⟩
    · unfold commit
      rw [htouch]
      rfl
    · exact answers_find?.mpr (Store.find?_touch h t.instant)
  newest := by
    refine ⟨w.store.findAll, answers_query _ w, fun k hk => ?_⟩
    rw [answers_find?] at hk
    exact ⟨fun hlt => Store.sublist_findAll h hk hlt, fun hlt => Store.sublist_findAll hk h hlt⟩

theorem commit_create (hrecord : w.store.records.get? j.id = none)
    (htimes : ∀ t ∈ j.times, t.Storable) :
    (create j).commit w =
      (.ok (), { w with store := w.store.insertJob (j.map Timestamp.instant) }) := by
  unfold commit
  rw [run_create, if_pos ⟨htimes, by simp [Mapping.contains, hrecord]⟩]

/-- A job whose id is not in use and whose times can be stored is stored, and can be read: the same
job with the instants of its times. Every other job is read as before. What was read can be stored
again, and is read unchanged. -/
theorem create_faithful (w : Workspace) (j : Job Timestamp)
    (hrecord : w.store.records.get? j.id = none) (hmessages : ∀ m ∈ w.store.messages, m.1 ≠ j.id)
    (htimes : ∀ t ∈ j.times, t.Storable) :
    ∃ s', (create j).commit w = (.ok (), { w with store := s' }) ∧
      Kept { w with store := s' } j ∧
      (∀ id ≠ j.id, s'.find? id = w.store.find? id) ∧
      s'.documents = w.store.documents ∧
      ∀ clock, ∃ s'', (create ((j.map Timestamp.instant).map Timestamp.ofInstant)).commit
          ⟨∅, clock⟩ = (.ok (), ⟨s'', clock⟩) ∧
        s''.find? j.id = some (j.map Timestamp.instant) := by
  have hsilent := Store.messagesOf_eq_nil hmessages
  refine ⟨_, commit_create hrecord htimes, kept_of_find? ?_, fun id hid => ?_, rfl,
    fun clock => ⟨_, commit_create rfl ?_, ?_⟩⟩
  · exact (Store.find?_insertJob _ _ hsilent).trans (if_pos rfl)
  · exact (Store.find?_insertJob _ _ hsilent).trans (if_neg hid)
  · rw [Job.times_map, Job.times_map, List.forall_mem_map, List.forall_mem_map]
    exact fun t ht => (htimes t ht).inUtc
  · rw [Job.map_instant_ofInstant]
    exact (Store.find?_insertJob _ _ rfl).trans (if_pos rfl)

/-- By its wall time the job started after the other one, but it started before it, in the old
year. -/
theorem create_faithful_abroad :
    ∃ (w w' : Workspace) (j : Job Timestamp) (other : Job Instant),
      w.store.records.get? j.id = none ∧ (∀ m ∈ w.store.messages, m.1 ≠ j.id) ∧
      (∀ t ∈ j.times, t.Storable) ∧ (create j).commit w = (.ok (), w') ∧ Kept w' j ∧
      j.started.toText = "2026-01-01T00:30:00.000000+01:00" ∧
      (Timestamp.ofInstant j.started.instant).toText = "2025-12-31T23:30:00.000000Z" ∧
      (Timestamp.ofInstant other.started).toText = "2025-12-31T23:45:00.000000Z" ∧
      ∃ all, findAll.Answers w' all ∧ [other, j.map Timestamp.instant].Sublist all := by
  let newYear : Micros := 63902822400000000
  let other : Job Instant := .new "job-1" "nightly" ⟨newYear - 15 * Micros.perMinute⟩ "host"
  let w : Workspace := ⟨Store.insertJob ∅ other, .starting ⟨newYear, none⟩ 0⟩
  let j : Job Timestamp :=
    ⟨"job-2", "nightly", ⟨newYear + 30 * Micros.perMinute, some (60 * Micros.perMinute)⟩,
      ⟨newYear, none⟩, some ⟨newYear - 240 * Micros.perMinute, some (-300 * Micros.perMinute)⟩, .ok,
      "host", [⟨.info, ⟨newYear + 120 * Micros.perMinute + 1, some (120 * Micros.perMinute)⟩, "on"⟩,
        ⟨.warning, ⟨newYear, none⟩, "off"⟩]⟩
  have hrecord : w.store.records.get? j.id = none := by decide +kernel
  have hmessages : ∀ m ∈ w.store.messages, m.1 ≠ j.id := by decide +kernel
  have htimes : ∀ t ∈ j.times, t.Storable := by decide +kernel
  obtain ⟨s', hcreate, hkept, hothers, -⟩ := create_faithful w j hrecord hmessages htimes
  obtain ⟨all, hall, hlisted⟩ := hkept.newest
  have hother : s'.find? other.id = some other :=
    (hothers other.id (by decide +kernel)).trans (by decide +kernel)
  exact ⟨w, _, j, other, hrecord, hmessages, htimes, hcreate, hkept, by decide +kernel,
    by decide +kernel, by decide +kernel, all, hall,
    (hlisted other (answers_find?.mpr hother)).2 (by decide +kernel)⟩

end Jobs
end JobControl
