import JobControl.Proofs.Failures
import JobControl.Proofs.Queries
import JobControl.Proofs.View

/-! # Sweeping the run locks

A sweep asks once which locks are held and by whom, and looks at each of them again when its turn
comes. Undisturbed it takes exactly the locks of the jobs that are not running, whatever the store
it finds, and a second sweep finds nothing to do. Disturbed, it may leave locks behind, but none of
its steps takes a lock from a job that is running at that step. -/

namespace JobControl
open UnitOfWork

/-! ## Visiting the members of a list -/

namespace Routine
variable {ω σ α β : Type} {same : σ → σ → Prop}

theorem run_collect_cons (f : β → Routine ω σ (Option α)) (x : β) (l : List β) (s : σ) :
    (collect f (x :: l)).run s =
      match (f x).run s with
      | (.error e, s') => (.error e, s')
      | (.ok found, s') =>
        match (collect f l).run s' with
        | (.error e, s'') => (.error e, s'')
        | (.ok rest, s'') => (.ok (found.toList ++ rest), s'') := by
  rw [collect, run_bind]
  rcases (f x).run s with ⟨e | found, s'⟩
  · rfl
  · dsimp only
    rw [run_bind]
    rcases (collect f l).run s' with ⟨e | rest, s''⟩ <;> rfl

/-- The rule of the loop: `I` tells the state by the members visited and the results so far. -/
theorem run_collect_of {f : β → Routine ω σ (Option α)} {l : List β} {s : σ}
    {I : List β → List α → σ → Prop} (hI : I [] [] s)
    (hvisit : ∀ visited x rest found s, l = visited ++ x :: rest → I visited found s →
      ∃ a s', (f x).run s = (.ok a, s') ∧ I (visited ++ [x]) (found ++ a.toList) s') :
    ∃ found s', (collect f l).run s = (.ok found, s') ∧ I l found s' := by
  suffices hrest : ∀ rest visited found s, l = visited ++ rest → I visited found s →
      ∃ more s', (collect f rest).run s = (.ok more, s') ∧ I l (found ++ more) s' by
    obtain ⟨found, s', hrun, h⟩ := hrest l [] [] s rfl hI
    exact ⟨found, s', hrun, h⟩
  intro rest
  induction rest with
  | nil =>
    intro visited found s hl h
    obtain rfl : l = visited := by simpa using hl
    exact ⟨[], s, rfl, by simpa using h⟩
  | cons x rest ih =>
    intro visited found s hl h
    obtain ⟨a, s', hx, h'⟩ := hvisit visited x rest found s hl h
    obtain ⟨more, s'', hmore, h''⟩ :=
      ih (visited ++ [x]) (found ++ a.toList) s' (by simpa using hl) h'
    refine ⟨a.toList ++ more, s'', ?_, by simpa using h''⟩
    rw [run_collect_cons, hx]
    dsimp only
    rw [hmore]

/-- Where every visit leaves the state and finds nothing, so does the whole round. -/
theorem run_collect_of_none {f : β → Routine ω σ (Option α)} {l : List β} {s : σ}
    (h : ∀ x ∈ l, (f x).run s = (.ok none, s)) : (collect f l).run s = (.ok [], s) := by
  obtain ⟨found, s', hrun, rfl, rfl⟩ := run_collect_of (f := f) (l := l) (s := s)
    (I := fun _ found s' => found = [] ∧ s' = s) ⟨rfl, rfl⟩ fun visited x rest found s' hl hI => by
      obtain ⟨rfl, rfl⟩ := hI
      exact ⟨none, s', h x (by simp [hl]), rfl, rfl⟩
  exact hrun

namespace Idle

theorem same_of_way {r : Routine ω σ α} {steps : List (σ × σ)} {outcome : Except Failure α}
    (h : r.Idle same) (hway : r.Way steps outcome) : ∀ p ∈ steps, same p.1 p.2 := by
  induction hway with
  | done outcome => exact fun p hp => absurd hp List.not_mem_nil
  | step s _ ih => exact List.forall_mem_cons.mpr ⟨(h s).1, ih (h s).2⟩
  | resume _ ih => exact ih h.1
  | cancel _ ih => exact ih h.2

theorem bind {r : Routine ω σ α} {k : α → Routine ω σ β} (h : r.Idle same)
    (hk : ∀ a, (k a).Idle same) : (r >>= k).Idle same := by
  show (r.bind k).Idle same
  induction r with
  | done outcome =>
    cases outcome with
    | ok a => exact hk a
    | error e => trivial
  | step act next ih => exact fun s => ⟨(h s).1, ih s (h s).2⟩
  | wait wake next abort ihn iha => exact ⟨ihn h.1, iha h.2⟩

theorem collect {f : β → Routine ω σ (Option α)} (h : ∀ x, (f x).Idle same) (l : List β) :
    (Routine.collect f l).Idle same := by
  induction l with
  | nil => trivial
  | cons x l ih => exact .bind (h x) fun _ => .bind ih fun _ => trivial

end Idle
end Routine

/-! ## The entries of the running document -/

/-- The entries of the running document in the order of their types. -/
def Documents.runningJobs (ds : Documents) : List RunningJob :=
  ((ds.content .running).entries.mergeSort fun a b => a.1 ≤ b.1).map fun (jobType, id) =>
    ⟨id, jobType⟩

theorem RunLock.run_runningJobs (ds : Documents) :
    runningJobs.run ds = (.ok ds.runningJobs, ds.create .running) := by
  simp [runningJobs, snapshot, Routine.run_bind, Documents.runningJobs, Documents.content]

namespace Documents
variable (ds : Documents)

theorem mem_runningJobs {ds : Documents} {e : RunningJob} :
    e ∈ ds.runningJobs ↔ (ds.content .running).get? e.jobType = some e.id := by
  unfold runningJobs
  simp only [List.mem_map, List.mem_mergeSort, Prod.exists]
  constructor
  · rintro ⟨jobType, id, hmem, rfl⟩
    exact (Mapping.mem_entries_iff _).mp hmem
  · exact fun h => ⟨e.jobType, e.id, (Mapping.mem_entries_iff _).mpr h, rfl⟩

/-- No type is listed twice, and the types ascend. -/
theorem ascending_runningJobs : (ds.runningJobs.map (·.jobType)).Pairwise (· < ·) := by
  have htypes : ds.runningJobs.map (·.jobType) =
      ((ds.content .running).entries.mergeSort fun a b => a.1 ≤ b.1).map Prod.fst := by
    simp [runningJobs, Function.comp_def]
  have hdistinct : (ds.content .running).entries.Pairwise fun a b => a.1 ≠ b.1 :=
    List.pairwise_map.mp (ds.content .running).distinct
  rw [htypes]
  exact List.pairwise_map.mpr (ascends_mergeSort hdistinct)

theorem isSome_get_create (topic : Topic) : ((ds.create topic).get topic).isSome := by
  rw [get_create, if_pos rfl]
  rfl

theorem get_disabled_release (jobType id : String) :
    (ds.release jobType id).get .disabled = ds.get .disabled := by
  unfold release
  split
  · rw [amend, write, get_set, if_neg (by decide)]
  · rfl

theorem isSome_get_release {jobType id : String} (h : (ds.get .running).isSome) :
    ((ds.release jobType id).get .running).isSome := by
  unfold release
  split
  · rw [amend, write, get_set, if_pos rfl]
    rfl
  · exact h

end Documents

/-! ## One entry -/

namespace Store
variable {s s' : Store} {visited : List RunningJob} {e : RunningJob}

/-- Every running job keeps the locks that it holds. -/
def SparesRunning (s s' : Store) : Prop :=
  ∀ t i, s.holder t = some i → (s.running? i).isSome → s'.holder t = some i

theorem SparesRunning.refl (s : Store) : s.SparesRunning s := fun _ _ h _ => h

theorem holder_create (topic : Topic) (t : String) :
    Store.holder { s with documents := s.documents.create topic } t = s.holder t := by
  unfold holder
  rw [Documents.content_create]

/-- What a sweep has made of a store once it has looked at some of the entries. -/
structure Sweeping (s : Store) (visited : List RunningJob) (s' : Store) : Prop where
  records : s'.records = s.records
  messages : s'.messages = s.messages
  disabled : s'.documents.disabled = s.documents.disabled
  created : (s'.documents.get .running).isSome
  holder : ∀ t, s'.holder t =
    if t ∈ visited.map (·.jobType) then (s.holder t).filter fun i => (s.running? i).isSome
    else s.holder t

namespace Sweeping

theorem running?_eq (h : s.Sweeping visited s') (id : String) : s'.running? id = s.running? id := by
  unfold running?
  rw [h.records]

theorem start (s : Store) :
    s.Sweeping [] { s with documents := s.documents.create .running } where
  records := rfl
  messages := rfl
  disabled := by
    show (s.documents.create .running).get .disabled = s.documents.get .disabled
    rw [Documents.get_create, if_neg nofun]
  created := Documents.isSome_get_create s.documents .running
  holder t := holder_create .running t

theorem create_eq (h : s.Sweeping visited s') :
    { s' with documents := s'.documents.create .running } = s' := by
  obtain ⟨d, hd⟩ := Option.isSome_iff_exists.mp h.created
  rw [Documents.create_of_get _ _ hd]

/-- The entry of a running job is passed over. -/
theorem pass (h : s.Sweeping visited s') (hheld : s.holder e.jobType = some e.id)
    (hrunning : (s.running? e.id).isSome) : s.Sweeping (visited ++ [e]) s' where
  records := h.records
  messages := h.messages
  disabled := h.disabled
  created := h.created
  holder t := by
    rw [h.holder]
    by_cases ht : t = e.jobType
    · subst t
      simp [hheld, hrunning, Option.filter_some]
    · simp [ht]

/-- The entry of a job that does not run is taken out. -/
theorem yieldLock (h : s.Sweeping visited s') (hnew : e.jobType ∉ visited.map (·.jobType))
    (hheld : s.holder e.jobType = some e.id) (hidle : s.running? e.id = none) :
    s.Sweeping (visited ++ [e]) (s'.yieldLock e.jobType e.id) where
  records := h.records
  messages := h.messages
  disabled := (Documents.get_disabled_release (s'.documents.create .running) e.jobType e.id).trans
    ((Documents.get_create s'.documents .running .disabled).trans h.disabled)
  created := Documents.isSome_get_release _ (Documents.isSome_get_create s'.documents .running)
  holder t := by
    have hheld' : s'.holder e.jobType = some e.id := by rw [h.holder, if_neg hnew, hheld]
    rw [holder_yieldLock]
    by_cases ht : t = e.jobType
    · subst t
      simp [hheld', hheld, hidle, Option.filter_some]
    · simp [ht, h.holder]

end Sweeping

/-- The jobs that are not running have lost their locks, and nothing else is different. The types of
those locks are told in ascending order. -/
structure Swept (s s' : Store) (cleared : List String) : Prop where
  records : s'.records = s.records
  messages : s'.messages = s.messages
  disabled : s'.documents.disabled = s.documents.disabled
  holder : ∀ t, s'.holder t = (s.holder t).filter fun i => (s.running? i).isSome
  ascending : cleared.Pairwise (· < ·)
  mem_cleared : ∀ t, t ∈ cleared ↔ ∃ i, s.holder t = some i ∧ s.running? i = none

theorem mem_runningJobs : e ∈ s.documents.runningJobs ↔ s.holder e.jobType = some e.id :=
  Documents.mem_runningJobs

theorem Sweeping.swept (h : s.Sweeping s.documents.runningJobs s') :
    s.Swept s' ((s.documents.runningJobs.filter fun e =>
      (s.running? e.id).isNone).map (·.jobType)) where
  records := h.records
  messages := h.messages
  disabled := h.disabled
  holder t := by
    rw [h.holder]
    split
    · rfl
    · rename_i ht
      cases hi : s.holder t with
      | none => rfl
      | some i =>
        have hmem : (⟨i, t⟩ : RunningJob) ∈ s.documents.runningJobs := mem_runningJobs.mpr hi
        exact absurd (List.mem_map_of_mem hmem) ht
  ascending := (Documents.ascending_runningJobs s.documents).sublist (List.filter_sublist.map _)
  mem_cleared t := by
    simp only [List.mem_map, List.mem_filter, mem_runningJobs, Option.isNone_iff_eq_none]
    constructor
    · rintro ⟨e, ⟨hheld, hidle⟩, rfl⟩
      exact ⟨e.id, hheld, hidle⟩
    · rintro ⟨i, hheld, hidle⟩
      exact ⟨⟨i, t⟩, ⟨hheld, hidle⟩, rfl⟩

end Store

namespace Lifecycle
open Cluster
variable {engine : Engine} {c : Cluster}

theorem commit_releaseLeaked (engine : Engine) (e : RunningJob) (w : Workspace) :
    (releaseLeaked engine e).commit w =
      if (w.store.running? e.id).isSome then (.ok false, w)
      else if engine.rounds ≤ 0 then (.error (.contention (.releasing e.jobType)), w)
      else (.ok (decide (w.store.holder e.jobType = some e.id)),
        { w with store := w.store.yieldLock e.jobType e.id }) := by
  have hrunning : (w.store.find? e.id).any (!·.isStopped) = (w.store.running? e.id).isSome := by
    cases hj : w.store.find? e.id with
    | none => simp [Store.running?, Store.find?_eq_none.mp hj]
    | some j =>
      have hstopped := Store.isStopped_find? hj
      cases hr : w.store.running? e.id <;> simp_all
  unfold releaseLeaked commit
  rw [Routine.run_bind, Jobs.run_find?]
  dsimp only
  rw [hrunning]
  by_cases hrun : (w.store.running? e.id).isSome
  · simp only [if_pos hrun, Routine.run_pure]
  · simp only [if_neg hrun, run_unlock]
    by_cases hrounds : engine.rounds ≤ 0
    · simp only [if_pos hrounds]
    · simp only [if_neg hrounds]
      rfl

/-- Whatever the store is like by now, a running job does not lose its lock. -/
theorem spares_releaseLeaked (engine : Engine) (e : RunningJob) (w : Workspace) :
    w.store.SparesRunning ((releaseLeaked engine e).commit w).2.store := by
  rw [commit_releaseLeaked]
  split
  · exact .refl _
  split
  · exact .refl _
  · rename_i hidle _
    intro t i ht hi
    rw [Store.holder_yieldLock, if_neg]
    · exact ht
    · rintro ⟨rfl, hown⟩
      obtain rfl : i = e.id := Option.some.inj (ht.symm.trans hown)
      exact hidle hi

theorem run_sweepEntry (engine : Engine) (e : RunningJob) (c : Cluster) :
    (sweepEntry engine e).run c =
      match (releaseLeaked engine e).commit c.toWorkspace with
      | (.ok true, w) => (.ok (some e.jobType),
          { c with toWorkspace := w, metrics := c.metrics.lockCleared e.jobType })
      | (.ok false, w) => (.ok none, { c with toWorkspace := w })
      | (.error x, w) => (.error x, { c with toWorkspace := w }) := by
  unfold sweepEntry
  rw [Routine.run_bind]
  have hatomically : (atomically (releaseLeaked engine e)).run c =
    (((releaseLeaked engine e).commit c.toWorkspace).1,
      { c with toWorkspace := ((releaseLeaked engine e).commit c.toWorkspace).2 }) := rfl
  rw [hatomically]
  rcases (releaseLeaked engine e).commit c.toWorkspace with ⟨x | released, w⟩
  · rfl
  · cases released <;> rfl

/-- The entry of a running job is left alone. -/
theorem run_sweepEntry_of_running {e : RunningJob} (h : (c.store.running? e.id).isSome) :
    (sweepEntry engine e).run c = (.ok none, c) := by
  rw [run_sweepEntry, commit_releaseLeaked, if_pos h]

/-- The next entry of a sweep, still as it was listed. -/
theorem run_sweepEntry_of_sweeping {s : Store} {visited : List RunningJob} {e : RunningJob}
    (hrounds : 0 < engine.rounds) (h : s.Sweeping visited c.store)
    (hnew : e.jobType ∉ visited.map (·.jobType)) (hheld : s.holder e.jobType = some e.id) :
    ∃ a c', (sweepEntry engine e).run c = (.ok a, c') ∧ s.Sweeping (visited ++ [e]) c'.store ∧
      a.toList = ([e].filter fun e => (s.running? e.id).isNone).map (·.jobType) ∧
      c' = { c with store := c'.store, metrics := c'.metrics } := by
  have hrunning := h.running?_eq e.id
  cases hr : s.running? e.id with
  | some r =>
    rw [hr] at hrunning
    refine ⟨none, c, run_sweepEntry_of_running (by rw [hrunning]; rfl), ?_, by simp [hr], rfl⟩
    exact h.pass hheld (by rw [hr]; rfl)
  | none =>
    rw [hr] at hrunning
    have hheld' : c.store.holder e.jobType = some e.id := by rw [h.holder, if_neg hnew, hheld]
    refine ⟨some e.jobType, { c with
      store := c.store.yieldLock e.jobType e.id, metrics := c.metrics.lockCleared e.jobType },
      ?_, h.yieldLock hnew hheld hr, by simp [hr], rfl⟩
    rw [run_sweepEntry, commit_releaseLeaked, if_neg (by simp [hrunning]), if_neg (by omega)]
    simp [hheld']

/-! ## The sweep -/

theorem sweepLocks_eq (engine : Engine) :
    sweepLocks engine = .yielding (.step
      (fun c => { c with
        store := { c.store with documents := c.store.documents.create .running } })
      fun c => Routine.collect (sweepEntry engine) c.store.documents.runningJobs) := by
  have hrun : ∀ w, (onDocuments RunLock.runningJobs).commit w =
      (.ok w.store.documents.runningJobs, { w with
        store := { w.store with documents := w.store.documents.create .running } }) := by
    intro w
    unfold UnitOfWork.commit
    rw [run_onDocuments, RunLock.run_runningJobs]
  refine congrArg Routine.yielding
    (congrArg₂ Routine.step (funext fun c => ?_) (funext fun c => ?_))
  · show ({ c with
      toWorkspace := ((onDocuments RunLock.runningJobs).commit c.toWorkspace).2 } : Cluster) = _
    rw [hrun]
  · show (Routine.done ((onDocuments RunLock.runningJobs).commit c.toWorkspace).1).bind _ = _
    rw [hrun]
    rfl

/-- Undisturbed, a sweep takes all the locks of jobs that are not running, and has no more to do. -/
theorem run_sweepLocks (hrounds : 0 < engine.rounds) (c : Cluster) :
    ∃ cleared c', (sweepLocks engine).run c = (.ok cleared, c') ∧
      c.store.Swept c'.store cleared ∧ (sweepLocks engine).run c' = (.ok [], c') ∧
      c' = { c with store := c'.store, metrics := c'.metrics } := by
  obtain ⟨found, c', hrun, hsweeping, rfl, hrest⟩ := Routine.run_collect_of
    (f := sweepEntry engine) (l := c.store.documents.runningJobs)
    (s := { c with store := { c.store with documents := c.store.documents.create .running } })
    (I := fun visited found c' => c.store.Sweeping visited c'.store ∧
      found = (visited.filter fun e => (c.store.running? e.id).isNone).map (·.jobType) ∧
      c' = { c with store := c'.store, metrics := c'.metrics })
    ⟨.start c.store, rfl, rfl⟩ fun visited e rest found c' hl ⟨hsweeping, hfound, hrest⟩ => by
      have hheld := Store.mem_runningJobs.mp (hl ▸ List.mem_append_right visited List.mem_cons_self)
      have hnew : e.jobType ∉ visited.map (·.jobType) := fun hmem => by
        have hascending := c.store.documents.ascending_runningJobs
        rw [hl, List.map_append, List.pairwise_append] at hascending
        exact String.lt_irrefl _ (hascending.2.2 _ hmem e.jobType List.mem_cons_self)
      obtain ⟨a, c'', hrun, hsweeping', ha, hrest'⟩ :=
        run_sweepEntry_of_sweeping hrounds hsweeping hnew hheld
      refine ⟨a, c'', hrun, hsweeping', ?_, ?_⟩
      · rw [hfound, ha, List.filter_append, List.map_append]
      · rw [hrest', hrest]
  refine ⟨_, c', ?_, hsweeping.swept, ?_, hrest⟩
  · rw [sweepLocks_eq]
    exact hrun
  · rw [sweepLocks_eq]
    show (Routine.collect (sweepEntry engine) c'.store.documents.runningJobs).run { c' with
      store := { c'.store with documents := c'.store.documents.create .running } } = _
    rw [hsweeping.create_eq]
    refine Routine.run_collect_of_none fun e he => run_sweepEntry_of_running ?_
    have hheld := Store.mem_runningJobs.mp he
    rw [hsweeping.swept.holder, Option.filter_eq_some_iff] at hheld
    rw [hsweeping.running?_eq]
    exact hheld.2

theorem spares_sweepLocks (engine : Engine) :
    (sweepLocks engine).Idle fun c c' => c.store.SparesRunning c'.store := by
  rw [sweepLocks_eq]
  refine ⟨fun c => ⟨fun t i ht _ => ?_, .collect (fun e => ?_) _⟩, trivial⟩
  · exact (Store.holder_create .running t).trans ht
  · refine .bind ⟨fun c => ⟨spares_releaseLeaked engine e c.toWorkspace, trivial⟩, trivial⟩
      fun released => ?_
    split
    · exact .bind (fun c => ⟨.refl _, trivial⟩) fun _ => trivial
    · trivial

/-- Run undisturbed, a sweep takes exactly the locks of jobs that are stopped or gone, whatever the
store it finds, and a second one changes nothing. On any way through a sweep, whatever others do
between its steps, none of its steps takes a lock from a job that is running then. -/
theorem sweepLocks_exact (engine : Engine) :
    (0 < engine.rounds → ∀ c : Cluster, ∃ cleared c',
      (sweepLocks engine).run c = (.ok cleared, c') ∧ c.store.Swept c'.store cleared ∧
      (sweepLocks engine).run c' = (.ok [], c')) ∧
    ∀ steps outcome, (sweepLocks engine).Way steps outcome →
      ∀ p ∈ steps, p.1.store.SparesRunning p.2.store := by
  refine ⟨fun hrounds c => ?_,
    fun steps outcome hway => (spares_sweepLocks engine).same_of_way hway⟩
  obtain ⟨cleared, c', hrun, hswept, hagain, -⟩ := run_sweepLocks hrounds c
  exact ⟨cleared, c', hrun, hswept, hagain⟩

/-- Of three locks two belong to jobs that are stopped or gone. In another sweep the job that was
listed has been succeeded by another of its type when its turn comes. -/
theorem sweepLocks_exact_leaked :
    ∃ (engine : Engine) (c c' : Cluster) (cleared : List String), 0 < engine.rounds ∧
      (sweepLocks engine).run c = (.ok cleared, c') ∧ c.store.Swept c'.store cleared ∧
      "gone" ∈ cleared ∧ "old" ∈ cleared ∧ c'.store.holder "nightly" = some "job-1" ∧
      (sweepLocks engine).run c' = (.ok [], c') ∧
      ∃ steps outcome, (sweepLocks engine).Way steps outcome ∧ ∃ p ∈ steps,
        p.1.store.holder "nightly" = some "job-2" ∧ p.2.store.holder "nightly" = some "job-2" := by
  let today : Instant := ⟨63902822400000000⟩
  let job (id jobType : String) : Job Instant := .new id jobType today "host"
  let around (s : Store) : Cluster :=
    ⟨⟨s, .starting (.ofInstant today) 0⟩, ⟨[], 0⟩, .empty, .empty⟩
  let listed : Store := Store.enroll ∅ (job "job-1" "nightly")
  let stopped : Store := ((listed.enroll (job "job-3" "old")).stop "job-3" today none).2
  let leaked : Cluster := around { stopped with
    documents := stopped.documents.amend .running
      ((stopped.documents.content .running).insert "gone" "job-0") }
  let succeeded : Cluster :=
    around ((listed.stop "job-1" today none).2.enroll (job "job-2" "nightly"))
  let engine : Engine := ⟨"host", 5⟩
  obtain ⟨hsweep, hspares⟩ := sweepLocks_exact engine
  obtain ⟨cleared, c', hrun, hswept, hagain⟩ := hsweep (by decide) leaked
  have hway : ∃ steps outcome, (sweepLocks engine).Way steps outcome ∧
      ∃ p ∈ steps, p.1 = succeeded := by
    have hlisted : listed.documents.runningJobs = [⟨"job-1", "nightly"⟩] := by
      decide +kernel
    have hrest : (Routine.collect (sweepEntry engine) listed.documents.runningJobs).Way
        [(succeeded, { succeeded with
          toWorkspace := ((releaseLeaked engine ⟨"job-1", "nightly"⟩).commit
            succeeded.toWorkspace).2 })] (.ok []) := by
      rw [hlisted]
      exact .resume (.step succeeded (.done (.ok [])))
    rw [sweepLocks_eq]
    exact ⟨_, _, .resume (.step (around listed) hrest), (succeeded, _),
      List.mem_cons_of_mem _ List.mem_cons_self, rfl⟩
  obtain ⟨steps, outcome, hway, p, hp, hsucceeded⟩ := hway
  have hholder : p.1.store.holder "nightly" = some "job-2" := by rw [hsucceeded]; decide
  have hrunning : (p.1.store.running? "job-2").isSome := by rw [hsucceeded]; decide
  exact ⟨engine, leaked, c', cleared, by decide, hrun, hswept,
    (hswept.mem_cleared _).mpr ⟨"job-0", by decide, by decide⟩,
    (hswept.mem_cleared _).mpr ⟨"job-3", by decide, by decide⟩,
    by rw [hswept.holder]; decide, hagain, steps, outcome, hway, p, hp, hholder,
    hspares steps outcome hway p hp "nightly" "job-2" hholder hrunning⟩

end Lifecycle
end JobControl
