import JobControl.Proofs.KillPass
import JobControl.Proofs.Queries

/-! # Removal of old jobs

`Service.keepLast` counts the jobs of every type in one list, the newest first, in which running
jobs take places but are not removed. Undisturbed, it deletes exactly the stopped jobs that enough
others of their type started after (`Store.Retained`), and nothing else is different. -/

namespace JobControl
open UnitOfWork

/-! ## Outdated jobs -/

namespace Store
variable {s s' : Store} {count : Int}

/-- How many jobs of the same type started later. -/
def successors (s : Store) (r : Record) : Nat :=
  s.records.entries.countP fun e => e.2.jobType = r.jobType ∧ r.started < e.2.started

/-- Whether a job is stopped and not among the last of its type. -/
def isOutdated (s : Store) (count : Int) (r : Record) : Bool :=
  r.isStopped && count ≤ s.successors r

/-- No two jobs of one type started at the same time. -/
def StartsApartByType (s : Store) : Prop :=
  s.records.entries.Pairwise fun a b => a.2.jobType = b.2.jobType → a.2.started ≠ b.2.started

instance : DecidablePred StartsApartByType := fun s =>
  inferInstanceAs (Decidable (s.records.entries.Pairwise fun a b =>
    a.2.jobType = b.2.jobType → a.2.started ≠ b.2.started))

/-- The outdated jobs are gone with their messages, and nothing else is different. -/
structure Retained (s : Store) (count : Int) (s' : Store) : Prop where
  records : s'.records = s.records.filter fun _ r => !s.isOutdated count r
  messages : s'.messages =
    s.messages.filter fun m => !(s.records.get? m.1).any (s.isOutdated count)
  documents : s'.documents = s.documents

theorem StartsApartByType.descends (h : s.StartsApartByType) :
    s.findAllWithoutMessages.Pairwise fun a b => a.jobType = b.jobType → b.started < a.started := by
  have happart : s.findAllWithoutMessages.Pairwise fun a b =>
      a.jobType = b.jobType → a.started ≠ b.started :=
    ((perm_newestFirst _).pairwise_iff fun hab htype => (hab htype.symm).symm).mpr
      (List.pairwise_map.mpr h)
  refine (pairwise_newestFirst _).imp₂ (fun a b hle hne htype => ?_) happart
  exact Int.lt_iff_le_and_ne.mpr ⟨hle, fun heq => hne htype (congrArg Instant.mk heq.symm)⟩

end Store

namespace Service
variable {count : Int} {seen : Tally String} {j : Job Instant} {l : List (Job Instant)}

/-- How many jobs of the type of a job were seen, or are in the list and started later. -/
def ahead (seen : Tally String) (l : List (Job Instant)) (j : Job Instant) : Nat :=
  seen.count j.jobType + l.countP fun k => k.jobType = j.jobType ∧ j.started < k.started

theorem ahead_of_first (h : ∀ k ∈ l, j.jobType = k.jobType → k.started < j.started) :
    ahead seen (j :: l) j = seen.count j.jobType := by
  refine (Nat.add_eq_left).mpr (List.countP_eq_zero.mpr fun k hk hlater => ?_)
  obtain ⟨htype, hlt⟩ := of_decide_eq_true hlater
  rcases List.mem_cons.mp hk with rfl | hk
  · exact Int.lt_irrefl _ hlt
  · exact Int.lt_asymm hlt (h k hk htype.symm)

theorem ahead_bump {k : Job Instant} (h : j.jobType = k.jobType → k.started < j.started) :
    ahead (seen.bump j.jobType) l k = ahead seen (j :: l) k := by
  unfold ahead
  rw [Tally.count_bump, List.countP_cons]
  by_cases htype : j.jobType = k.jobType
  · have hlt := h htype
    simp only [htype, hlt, and_self, decide_true, if_true]
    omega
  · simp [htype, Ne.symm htype]

/-- In a list with the newest first, the counter of a type tells how many of the type started
later. -/
theorem outdated_eq (h : l.Pairwise fun a b => a.jobType = b.jobType → b.started < a.started) :
    outdated count seen l =
      (l.filter fun j => j.isStopped && count ≤ ahead seen l j).map (·.id) := by
  induction l generalizing seen with
  | nil => rfl
  | cons j rest ih =>
    obtain ⟨hj, hrest⟩ := List.pairwise_cons.mp h
    have hothers :
        (rest.filter fun k => k.isStopped && count ≤ ahead (seen.bump j.jobType) rest k) =
        rest.filter fun k => k.isStopped && count ≤ ahead seen (j :: rest) k :=
      List.filter_congr fun k hk => by rw [ahead_bump (hj k hk)]
    have hlt : count < ((seen.count j.jobType + 1 : Nat) : Int) ↔ count ≤ seen.count j.jobType := by
      omega
    rw [outdated, ih hrest, hothers, List.filter_cons, ahead_of_first hj, Tally.count_bump,
      if_pos rfl]
    simp only [hlt]
    by_cases hout : count ≤ seen.count j.jobType ∧ j.isStopped
    · rw [if_pos hout, if_pos (by simp [hout])]
      rfl
    · rw [if_neg hout, if_neg (by simpa [and_comm] using hout)]

/-- Where no job is to be left, all stopped jobs are outdated. -/
theorem outdated_of_nonpos (h : count ≤ 0) :
    outdated count seen l = (l.filter (·.isStopped)).map (·.id) := by
  induction l generalizing seen with
  | nil => rfl
  | cons j rest ih =>
    have hseen : count < (seen.bump j.jobType).count j.jobType := by
      rw [Tally.count_bump, if_pos rfl]
      omega
    rw [outdated, ih, List.filter_cons]
    cases hstopped : j.isStopped <;> simp [hseen]

/-- The outdated jobs of a store are picked from the list of all jobs. -/
theorem perm_outdated {s : Store} (h : s.StartsApartByType) (count : Int) :
    (outdated count ∅ s.findAllWithoutMessages).Perm
      ((s.records.entries.filter fun e => s.isOutdated count e.2).map Prod.fst) := by
  have hperm : s.findAllWithoutMessages.Perm
      (s.records.entries.map fun e => Store.assemble e.1 e.2 []) := Store.perm_newestFirst _
  have hahead : ∀ id r, ahead ∅ s.findAllWithoutMessages (Store.assemble id r []) =
      s.successors r := by
    intro id r
    unfold ahead Store.successors
    rw [hperm.countP_eq, List.countP_map]
    exact Nat.zero_add _
  have hfilter : ∀ e ∈ s.records.entries,
      ((Store.assemble e.1 e.2 []).isStopped &&
        decide (count ≤ ahead ∅ s.findAllWithoutMessages (Store.assemble e.1 e.2 []))) =
      s.isOutdated count e.2 := by
    intro e _
    rw [hahead]
    rfl
  rw [outdated_eq h.descends]
  refine ((hperm.filter _).map _).trans (.of_eq ?_)
  rw [List.filter_map, List.map_map, ← List.filter_congr hfilter]
  rfl

theorem mem_outdated {s : Store} (h : s.StartsApartByType) (count : Int) (id : String) :
    id ∈ outdated count ∅ s.findAllWithoutMessages ↔
      (s.records.get? id).any (s.isOutdated count) := by
  rw [(perm_outdated h count).mem_iff, Option.any_eq_true]
  simp only [List.mem_map, List.mem_filter, Prod.exists, Mapping.mem_entries_iff]
  constructor
  · rintro ⟨_, r, ⟨hr, hout⟩, rfl⟩
    exact ⟨r, hr, hout⟩
  · rintro ⟨r, hr, hout⟩
    exact ⟨id, r, ⟨hr, hout⟩, rfl⟩

/-! ## Removal -/

end Service

namespace Store
variable {s : Store} {id : String} {ids : List String}

/-- Some jobs are gone with their messages. -/
def without (s : Store) (ids : List String) : Store :=
  { s with
    records := s.records.filter fun id _ => id ∉ ids
    messages := s.messages.filter (·.1 ∉ ids) }

theorem without_nil (s : Store) : s.without [] = s := by
  unfold without
  simp [Mapping.filter]

theorem without_cons (s : Store) (id : String) (ids : List String) :
    (s.drop id).without ids = s.without (id :: ids) := by
  unfold without drop Mapping.erase Mapping.filter
  simp [List.filter_filter, Bool.and_comm]

theorem any_get?_drop {k : String} (hk : k ≠ id) (p : Record → Bool) :
    ((s.drop id).records.get? k).any p = (s.records.get? k).any p := by
  show ((s.records.erase id).get? k).any p = _
  rw [Mapping.get?_erase, if_neg hk]

end Store

namespace Service
open Cluster
variable {w : Workspace} {c : Cluster} {count : Int}

theorem run_dropStopped {ids : List String} (hdistinct : ids.Nodup)
    (hstopped : ∀ id ∈ ids, (w.store.records.get? id).any (·.isStopped)) :
    (dropStopped ids).run w = (.ok ids.length, { w with store := w.store.without ids }) := by
  induction ids generalizing w with
  | nil =>
    rw [Store.without_nil]
    rfl
  | cons id ids ih =>
    obtain ⟨hid, hdistinct⟩ := List.nodup_cons.mp hdistinct
    have hdropped : w.store.dropIfStopped id = (true, w.store.drop id) :=
      if_pos (hstopped id List.mem_cons_self)
    have hrest := ih (w := { w with store := w.store.drop id }) hdistinct fun k hk => by
      have hne : k ≠ id := fun heq => hid (heq ▸ hk)
      exact (Store.any_get?_drop hne _).trans (hstopped k (List.mem_cons_of_mem _ hk))
    rw [Store.without_cons] at hrest
    rw [dropStopped, Jobs.dropIfStopped, Routine.run_bind, run_change, hdropped]
    dsimp only
    rw [Routine.run_bind, hrest, List.length_cons, Nat.add_comm]
    rfl

theorem run_atomically_of_ok {α : Type} {u : UnitOfWork α} {a : α} {s' : Store}
    (h : u.run c.toWorkspace = (.ok a, { c.toWorkspace with store := s' })) :
    (atomically u).run c = (.ok a, { c with store := s' }) := by
  rw [Lifecycle.run_atomically]
  unfold UnitOfWork.commit
  rw [h]

theorem retained_without {s : Store} (h : s.StartsApartByType) (count : Int) :
    s.Retained count (s.without (outdated count ∅ s.findAllWithoutMessages)) where
  records := by
    refine Mapping.ext (List.filter_congr fun e he => ?_)
    have hget := (s.records.mem_entries_iff (k := e.1) (a := e.2)).mp he
    have hmem := mem_outdated h count e.1
    rw [hget, Option.any_some] at hmem
    cases hout : s.isOutdated count e.2 <;> simp [hmem, hout]
  messages := by
    refine List.filter_congr fun m _ => ?_
    have hmem := mem_outdated h count m.1
    cases hout : (s.records.get? m.1).any (s.isOutdated count) <;> simp [hmem, hout]
  documents := rfl

theorem run_keepLast (h : c.store.StartsApartByType) (count : Int) :
    (keepLast count).run c = (.ok (outdated count ∅ c.store.findAllWithoutMessages).length,
      { c with store := c.store.without (outdated count ∅ c.store.findAllWithoutMessages) }) := by
  refine run_atomically_of_ok (run_dropStopped ?_ fun id hid => ?_)
  · refine (perm_outdated h count).nodup_iff.mpr (c.store.records.distinct.sublist ?_)
    exact List.filter_sublist.map _
  · obtain ⟨r, hr, hout⟩ := (Option.any_eq_true ..).mp ((mem_outdated h count id).mp hid)
    exact (Option.any_eq_true ..).mpr ⟨r, hr, (Bool.and_eq_true_iff.mp hout).1⟩

theorem keepLast_of_nonpos (h : count ≤ 0) (c : Cluster) :
    (keepLast count).run c = (deleteJobs none).run c := by
  have hsame : outdated count ∅ c.store.findAllWithoutMessages =
      (c.store.findAll.filter (·.isStopped)).map (·.id) := by
    rw [outdated_of_nonpos h, Store.findAllWithoutMessages_eq, List.filter_map, List.map_map]
    rfl
  show (atomically (dropStopped (outdated count ∅ c.store.findAllWithoutMessages))).run c =
    (atomically (dropStopped ((c.store.findAll.filter (·.isStopped)).map (·.id)))).run c
  rw [hsame]

end Service

namespace Store.Retained
variable {s s' : Store} {count : Int}

theorem sublist (h : s.Retained count s') : s'.records.entries.Sublist s.records.entries := by
  rw [h.records]
  exact List.filter_sublist

theorem startsApart (h : s.Retained count s') (hs : s.StartsApartByType) : s'.StartsApartByType :=
  hs.sublist h.sublist

/-- What was left is not outdated now: no more jobs of its type started later than before. -/
theorem not_isOutdated (h : s.Retained count s') {e : String × Record}
    (he : e ∈ s'.records.entries) : ¬s'.isOutdated count e.2 := by
  intro hout
  have hkept : s.isOutdated count e.2 = false := by
    rw [h.records] at he
    simpa using (List.mem_filter.mp he).2
  have hle : s'.successors e.2 ≤ s.successors e.2 := h.sublist.countP_le
  unfold isOutdated at hout hkept
  simp only [Bool.and_eq_true, decide_eq_true_eq] at hout
  rw [hout.1, Bool.true_and, decide_eq_false_iff_not] at hkept
  omega

theorem outdated_eq_nil (h : s.Retained count s') (hs : s.StartsApartByType) :
    Service.outdated count ∅ s'.findAllWithoutMessages = [] := by
  refine List.eq_nil_iff_forall_not_mem.mpr fun id hid => ?_
  obtain ⟨r, hr, hout⟩ :=
    (Option.any_eq_true ..).mp ((Service.mem_outdated (h.startsApart hs) count id).mp hid)
  exact h.not_isOutdated ((Mapping.mem_entries_iff _).mpr hr) hout

end Store.Retained

namespace Service
variable {count : Int} {c : Cluster}

/-- Undisturbed, the removal of old jobs deletes exactly the stopped jobs that at least `count`
others of their type started after, and a second removal deletes nothing. With a count that is not
positive it is the removal of all stopped jobs. -/
theorem keepLast_exact (count : Int) (c : Cluster) :
    (c.store.StartsApartByType → ∃ s', c.store.Retained count s' ∧
      (keepLast count).run c =
        (.ok (c.store.records.entries.countP fun e => c.store.isOutdated count e.2),
          { c with store := s' }) ∧
      (keepLast count).run { c with store := s' } = (.ok 0, { c with store := s' })) ∧
    (count ≤ 0 → (keepLast count).run c = (deleteJobs none).run c) := by
  refine ⟨fun h => ?_, fun h => keepLast_of_nonpos h c⟩
  have hretained := retained_without h count
  refine ⟨_, hretained, ?_, ?_⟩
  · rw [run_keepLast h, (perm_outdated h count).length_eq, List.length_map,
      List.countP_eq_length_filter]
  · rw [run_keepLast (hretained.startsApart h), hretained.outdated_eq_nil h, Store.without_nil]
    rfl

/-- The job that runs takes a place: of the two that are stopped only the younger one is left. -/
theorem keepLast_exact_crowded :
    ∃ (c : Cluster) (s' : Store), c.store.StartsApartByType ∧ c.store.Retained 2 s' ∧
      s'.records.keys = ["job-2", "job-3", "job-4"] ∧ c.store.messages.length = 2 ∧
      s'.messages.length = 1 ∧ (keepLast 2).run c = (.ok 1, { c with store := s' }) ∧
      (keepLast 2).run { c with store := s' } = (.ok 0, { c with store := s' }) ∧
      (keepLast (-1)).run c = (deleteJobs none).run c := by
  let later (k : Micros) : Instant := ⟨63902822400000000 + k⟩
  let stopped (id jobType : String) (k : Micros) : Job Instant :=
    ⟨id, jobType, later k, later k, some (later k), .ok, "host", [⟨.info, later k, "done"⟩]⟩
  let s : Store := (((Store.insertJob ∅ (stopped "job-1" "nightly" 0)).insertJob
    (stopped "job-2" "nightly" 1)).insertJob (.new "job-3" "nightly" (later 2) "host")).insertJob
      (.new "job-4" "hourly" (later 1) "host")
  let c : Cluster :=
    ⟨⟨s, .starting (.ofInstant (later 3)) 0⟩, ⟨[], 0⟩, .empty, .empty⟩
  have hdistinct : c.store.StartsApartByType := by decide +kernel
  obtain ⟨hkeep, -⟩ := keepLast_exact 2 c
  obtain ⟨s', hretained, hrun, hagain⟩ := hkeep hdistinct
  obtain ⟨-, hall⟩ := keepLast_exact (-1) c
  exact ⟨c, s', hdistinct, hretained, by rw [hretained.records]; decide +kernel, by decide +kernel,
    by rw [hretained.messages]; decide +kernel, hrun, hagain, hall (by decide)⟩

end Service
end JobControl
