import JobControl.Proofs.Accounts
import JobControl.Proofs.Isolation
import JobControl.Proofs.LockSweep
import JobControl.Proofs.Passes

/-! # A pass for silent jobs without interference

Run with nothing in between, a pass kills exactly the running jobs that were not updated since the
cutoff, each of them once, and gives back the locks of all jobs that do not run, whatever the store
it finds. If there is no cutoff, it does nothing. -/

namespace JobControl
open UnitOfWork

/-! ## Announcements -/

theorem Bus.announced_run_publish (e : Event) (b : Bus) :
    ((publish e).run b).2.announced = b.announced ++ [e] := by
  have hcalls : (deliverAll e b.subscribed).Keeps Bus.silence (fun _ => True) false :=
    silent.deliverAll e _
  refine hcalls.run (R := fun b b' => b'.announced = b.announced)
    (s := { b with announced := b.announced ++ [e] }) (fun _ => rfl) (fun hact hrest => ?_) trivial
  exact Eq.trans hrest (silence_allows.mp hact)

theorem Cluster.run_announce (e : Event) (c : Cluster) :
    ∃ b : Bus, b.announced = c.bus.announced ++ [e] ∧
      (announce e).run c = (.ok (), { c with bus := b }) := by
  refine ⟨((Bus.publish e).run c.bus).2, Bus.announced_run_publish e c.bus, ?_⟩
  unfold announce
  rw [Routine.run_zoom (fun c : Cluster => c.bus) (fun b c => { c with bus := b })
    (fun _ _ => rfl) (fun _ _ _ => rfl) fun _ => rfl]
  exact congrArg (·, _) (Bus.fst_run_publish e c.bus)

/-! ## One kill -/

namespace Clock
variable {c : Clock} {now : Instant}

/-- A clock that stands still shows the same with every reading. -/
theorem read_of_still (htick : c.tick = 0) (hnow : c.now? = some (.ofInstant now)) :
    c.read = (.ok (.ofInstant now), c) := by
  have hclock : c.read.2 = c := (Ran.read c).eq_of_tick htick
  have htime : c.read.1 = .ok (.ofInstant now) := by
    unfold read
    rw [hnow]
  exact Prod.ext htime hclock

theorem range_of_now? (hnow : c.now? = some (.ofInstant now)) :
    0 ≤ now.micros ∧ now.micros < timeLimit := by
  unfold now? Timestamp.add? at hnow
  split at hnow
  · rename_i hrange
    have hwall : c.start.wall + (c.elapsed + c.drift) = now.micros :=
      congrArg Timestamp.wall (Option.some.inj hnow)
    exact hwall ▸ hrange
  · contradiction

end Clock

namespace Store
variable {s : Store} {id : String} {r : Record}

/-- A job is stopped as dead and has a message about it. -/
def bury (s : Store) (id : String) (r : Record) (now : Instant) : Store :=
  (s.letOut id r now (some .dead)).2.appendMessage id ⟨.warning, now, Note.dead⟩

theorem get?_bury (hr : s.running? id = some r) (now : Instant) (k : String) :
    (s.bury id r now).records.get? k =
      if k = id then some (r.ended now (some .dead)) else s.records.get? k := by
  have hget := get?_of_running? hr
  show (s.letOut id r now (some .dead)).2.records.get? k = _
  split
  · subst k
    have hrecord := congrArg View.record (view_letOut hget now (some .dead))
    simpa [view, Record.isStopped, (running?_eq_some.mp hr).2] using hrecord
  · rename_i hk
    exact (spares_letOut hget now (some .dead)).records k hk

theorem messages_bury (now : Instant) :
    (s.bury id r now).messages = s.messages ++ [(id, ⟨.warning, now, Note.dead⟩)] :=
  congrArg (· ++ _) (messages_updateIf ..)

/-- The announcement that a job which is running is dead. -/
def Obituary (s : Store) (now : Instant) (id : String) (e : Event) : Prop :=
  ∃ r, s.running? id = some r ∧ e = ⟨id, r.jobType, .ofInstant now, .dead⟩

theorem nodup_findStale (s : Store) (cut : Instant) : ((s.findStale cut).map (·.id)).Nodup := by
  refine ((List.mergeSort_perm _ _).map _).nodup_iff.mpr (s.nodup_jobs.sublist ?_)
  exact List.filter_sublist.map _

end Store

namespace Lifecycle
open Cluster
variable {engine : Engine} {c : Cluster} {w : Workspace} {id : String} {now : Instant} {r : Record}

theorem run_atomically {α : Type} (u : UnitOfWork α) (c : Cluster) :
    (atomically u).run c =
      ((u.commit c.toWorkspace).1, { c with toWorkspace := (u.commit c.toWorkspace).2 }) := rfl

/-- A message that is no error is noted for a job that there is. -/
theorem commit_noting {m : Message Timestamp} {time : Instant}
    (hknown : w.store.records.contains id) (htime : m.time.toInstant? = some time)
    (hlevel : (m.level == Level.error) = false) :
    (noting id m).commit w =
      (.ok (), { w with store := w.store.appendMessage id ⟨m.level, time, m.text⟩ }) := by
  unfold noting UnitOfWork.commit
  rw [Routine.run_bind, Jobs.run_append, if_pos hknown, htime]
  simp only [hlevel, Bool.and_false, Bool.false_eq_true, if_false]
  rfl

section
variable (hrounds : 0 < engine.rounds) (htick : c.clock.tick = 0)
  (hnow : c.clock.now? = some (.ofInstant now)) (hr : c.store.running? id = some r)
include hrounds htick hnow hr

theorem run_finish_of_running :
    ∃ job : Job Instant, job.jobType = r.jobType ∧ job.status = .dead ∧
      (finish engine id (some .dead)).run c =
        (.ok (some job, true), { c with
          store := (c.store.letOut id r now (some .dead)).2
          metrics := c.metrics.jobStopped r.jobType Status.dead.label }) := by
  have hget := Store.get?_of_running? hr
  have hrunning : r.isStopped = false := by
    simp [Record.isStopped, (Store.running?_eq_some.mp hr).2]
  refine ⟨Store.assemble id (r.ended now (some .dead)) (c.store.view id).messages, rfl, rfl, ?_⟩
  have hleave : (leave engine id (some .dead)).commit c.toWorkspace =
      (.ok (some (Store.assemble id (r.ended now (some .dead)) (c.store.view id).messages), true),
        { c.toWorkspace with store := (c.store.letOut id r now (some .dead)).2 }) := by
    rw [commit_leave_eq, hget]
    dsimp only
    rw [if_neg (by omega), Clock.read_of_still htick hnow]
    dsimp only
    rw [Timestamp.toInstant?_ofInstant (Clock.range_of_now? hnow)]
    dsimp only
    rw [Store.find?_eq, Store.view_letOut hget, Store.fst_letOut hget, hrunning]
    rfl
  unfold finish
  rw [Routine.run_bind, run_atomically, hleave]
  rfl

theorem run_kill_of_running :
    ∃ job m b, (kill engine id).run c =
        (.ok (some job), { c with store := c.store.bury id r now, metrics := m, bus := b }) ∧
      job.status = .dead ∧
      b.announced = c.bus.announced ++ [⟨id, r.jobType, .ofInstant now, .dead⟩] := by
  let stopped := c.metrics.jobStopped r.jobType Status.dead.label
  obtain ⟨job, htype, hstatus, hfinish⟩ := run_finish_of_running hrounds htick hnow hr
  have hget := Store.get?_of_running? hr
  have hreads : ∀ c' : Cluster, c'.clock = c.clock →
      Cluster.now.run c' = (.ok (.ofInstant now), c') := by
    intro c' hclock
    unfold Cluster.now
    rw [Routine.run_act, hclock, Clock.read_of_still htick hnow, ← hclock]
  have hknown : (c.store.letOut id r now (some .dead)).2.records.contains id := by
    have hrecord := Store.get?_bury hr now id
    rw [if_pos rfl] at hrecord
    exact Option.isSome_iff_exists.mpr ⟨_, hrecord⟩
  have happend : (append id ⟨.warning, .ofInstant now, Note.dead⟩).run
      { c with store := (c.store.letOut id r now (some .dead)).2, metrics := stopped } =
      (.ok (), { c with store := c.store.bury id r now, metrics := stopped }) := by
    unfold append
    rw [run_atomically, commit_noting hknown
      (Timestamp.toInstant?_ofInstant (Clock.range_of_now? hnow)) rfl]
    rfl
  obtain ⟨b, hb, hannounce⟩ := run_announce ⟨id, r.jobType, .ofInstant now, .dead⟩
    { c with store := c.store.bury id r now, metrics := stopped.jobKilled r.jobType }
  refine ⟨job, stopped.jobKilled r.jobType, b, ?_, hstatus, hb⟩
  have hfirst := hreads
    { c with store := (c.store.letOut id r now (some .dead)).2, metrics := stopped } rfl
  have hlast := hreads
    { c with store := c.store.bury id r now, metrics := stopped.jobKilled r.jobType } rfl
  refine (Routine.run_bind_of_ok hfinish).trans ?_
  refine (Routine.run_bind_of_ok hfirst).trans ?_
  refine (Routine.run_bind_of_ok happend).trans ?_
  rw [htype]
  refine (Routine.run_bind_of_ok rfl).trans ?_
  refine (Routine.run_bind_of_ok hlast).trans ?_
  exact Routine.run_bind_of_ok hannounce

end

end Lifecycle

/-! ## The pass -/

namespace Cluster
variable {now : Instant} {c c' : Cluster} {ids : List String}

/-- What a pass has made of a cluster when it has killed some jobs. -/
structure Killing (now : Instant) (ids : List String) (c c' : Cluster) : Prop where
  clock : c'.clock = c.clock
  records : ∀ id, c'.store.records.get? id = (c.store.records.get? id).map fun r =>
    if id ∈ ids then r.ended now (some .dead) else r
  messages : c'.store.messages =
    c.store.messages ++ ids.map (·, ⟨.warning, now, Note.dead⟩)
  disabled : c'.store.documents.disabled = c.store.documents.disabled
  holder : ∀ t, c'.store.holder t = c.store.holder t ∨
    c'.store.holder t = none ∧ ∃ i ∈ ids, c.store.holder t = some i
  announced : ∃ events, c'.bus.announced = c.bus.announced ++ events ∧
    List.Forall₂ (c.store.Obituary now) ids events

namespace Killing

theorem start (now : Instant) (c : Cluster) : c.Killing now [] c where
  clock := rfl
  records id := by simp
  messages := by simp
  disabled := rfl
  holder t := .inl rfl
  announced := ⟨[], by simp, .nil⟩

/-- Those who run now are those who ran and were not killed. -/
theorem running?_eq (h : c.Killing now ids c') (id : String) :
    c'.store.running? id = if id ∈ ids then none else c.store.running? id := by
  unfold Store.running?
  rw [h.records]
  cases c.store.records.get? id with
  | none => simp
  | some r =>
    split
    · simp [Option.filter_some, Record.isStopped, Record.ended]
    · simp

theorem kill {id : String} {r : Record} {m : Metrics Micros} {b : Bus} (h : c.Killing now ids c')
    (hnew : id ∉ ids) (hr : c.store.running? id = some r)
    (hb : b.announced = c'.bus.announced ++ [⟨id, r.jobType, .ofInstant now, .dead⟩]) :
    c.Killing now (ids ++ [id])
      { c' with store := c'.store.bury id r now, metrics := m, bus := b } := by
  have hr' : c'.store.running? id = some r := by rw [h.running?_eq, if_neg hnew, hr]
  have hspares := Store.spares_letOut (Store.get?_of_running? hr') now (some .dead)
  refine ⟨h.clock, fun k => ?_, ?_, hspares.disabled.trans h.disabled, fun t => ?_, ?_⟩
  · show (c'.store.bury id r now).records.get? k = _
    rw [Store.get?_bury hr', h.records]
    by_cases hk : k = id
    · subst k
      simp [Store.get?_of_running? hr]
    · simp [hk]
  · show (c'.store.bury id r now).messages = _
    rw [Store.messages_bury, h.messages]
    simp
  · rcases hspares.locks t with hsame | ⟨hheld, hfree, -⟩
    · rcases h.holder t with heq | ⟨hnone, i, hi, hi'⟩
      · exact .inl (hsame.trans heq)
      · exact .inr ⟨hsame.trans hnone, i, List.mem_append_left _ hi, hi'⟩
    · rcases h.holder t with heq | ⟨hnone, -⟩
      · exact .inr ⟨hfree, id, by simp, heq ▸ hheld⟩
      · rw [hnone] at hheld
        contradiction
  · obtain ⟨events, hevents, hobituaries⟩ := h.announced
    refine ⟨events ++ [⟨id, r.jobType, .ofInstant now, .dead⟩], ?_, ?_⟩
    · rw [hb, hevents, List.append_assoc]
    · exact List.rel_append hobituaries (.cons ⟨r, hr, rfl⟩ .nil)

/-- After a sweep the locks are left that are held by jobs which ran before and were not killed. -/
theorem holder_swept {s : Store} {cleared : List String} (h : c.Killing now ids c')
    (hswept : c'.store.Swept s cleared) (t : String) :
    s.holder t = (c.store.holder t).filter fun i => (c.store.running? i).isSome && i ∉ ids := by
  rw [hswept.holder]
  rcases h.holder t with hsame | ⟨hnone, i, hi, hi'⟩
  · rw [hsame]
    cases c.store.holder t with
    | none => rfl
    | some i => by_cases hi : i ∈ ids <;> simp [Option.filter_some, h.running?_eq, hi]
  · simp [hnone, hi', hi, Option.filter_some]

end Killing

/-- What a pass at the given time makes of a cluster: the running jobs without an update since the
cutoff are killed, and nobody who is not running has a lock any more. -/
structure Reaped (now since : Instant) (ids : List String) (c c' : Cluster) : Prop where
  nodup : ids.Nodup
  mem_ids : ∀ id, id ∈ ids ↔ ∃ r, c.store.running? id = some r ∧ r.lastUpdated < since
  records : ∀ id, c'.store.records.get? id = (c.store.records.get? id).map fun r =>
    if id ∈ ids then r.ended now (some .dead) else r
  messages : c'.store.messages =
    c.store.messages ++ ids.map (·, ⟨.warning, now, Note.dead⟩)
  disabled : c'.store.documents.disabled = c.store.documents.disabled
  holder : ∀ t, c'.store.holder t =
    (c.store.holder t).filter fun i => (c.store.running? i).isSome && i ∉ ids
  announced : ∃ events, c'.bus.announced = c.bus.announced ++ events ∧
    List.Forall₂ (c.store.Obituary now) ids events

end Cluster

namespace Lifecycle
open Cluster
variable {engine : Engine} {c : Cluster} {now since : Instant}

theorem run_killSilent {job : Job Instant} {r : Record} (hrounds : 0 < engine.rounds)
    (htick : c.clock.tick = 0) (hnow : c.clock.now? = some (.ofInstant now))
    (hr : c.store.running? job.id = some r) :
    ∃ m b, (killSilent engine job).run c =
        (.ok (some job.id), { c with store := c.store.bury job.id r now, metrics := m, bus := b }) ∧
      b.announced = c.bus.announced ++ [⟨job.id, r.jobType, .ofInstant now, .dead⟩] := by
  obtain ⟨killed, m, b, hkill, hstatus, hb⟩ := run_kill_of_running hrounds htick hnow hr
  refine ⟨m, b, (Routine.run_bind_of_ok hkill).trans ?_, hb⟩
  simp [hstatus]

/-- The jobs that were found silent are killed one after the other. -/
theorem run_collect_killSilent (hrounds : 0 < engine.rounds) (htick : c.clock.tick = 0)
    (hnow : c.clock.now? = some (.ofInstant now)) :
    ∃ c', (Routine.collect (killSilent engine) (c.store.findStale since)).run c =
        (.ok ((c.store.findStale since).map (·.id)), c') ∧
      c.Killing now ((c.store.findStale since).map (·.id)) c' := by
  have hnodup := c.store.nodup_findStale since
  obtain ⟨found, c', hrun, rfl, hkilling⟩ := Routine.run_collect_of (f := killSilent engine)
    (l := c.store.findStale since) (s := c)
    (I := fun visited found c' => found = visited.map (·.id) ∧ c.Killing now found c')
    ⟨rfl, .start now c⟩ fun visited job rest found c' hl ⟨hfound, hkilling⟩ => by
      have hmem : job.id ∈ (c.store.findStale since).map (·.id) := by simp [hl]
      have hnew : job.id ∉ found := fun h => by
        rw [hl, List.map_append, List.nodup_append] at hnodup
        exact hnodup.2.2 _ (hfound ▸ h) job.id List.mem_cons_self rfl
      obtain ⟨r, hr, -⟩ := Store.mem_map_id_findStale.mp hmem
      have hr' : c'.store.running? job.id = some r := by rw [hkilling.running?_eq, if_neg hnew, hr]
      obtain ⟨m, b, hrun, hb⟩ := run_killSilent hrounds (hkilling.clock ▸ htick)
        (hkilling.clock ▸ hnow) hr'
      exact ⟨some job.id, _, hrun, by simp [hfound], hkilling.kill hnew hr hb⟩
  exact ⟨c', hrun, hkilling⟩

theorem run_killAll (hrounds : 0 < engine.rounds) (htick : c.clock.tick = 0)
    (hnow : c.clock.now? = some (.ofInstant now)) :
    ∃ ids c', (killAll engine (c.store.findStale since)).run c = (.ok ids, c') ∧
      c.Reaped now since ids c' := by
  obtain ⟨c₁, hkills, hkilling⟩ := run_collect_killSilent hrounds htick hnow
  obtain ⟨cleared, c₂, hsweep, hswept, -, hrest⟩ := run_sweepLocks hrounds c₁
  refine ⟨_, c₂, (Routine.run_bind_of_ok hkills).trans (Routine.run_bind_of_ok hsweep), ?_⟩
  refine ⟨c.store.nodup_findStale since, fun id => Store.mem_map_id_findStale, fun id => ?_, ?_, ?_,
    hkilling.holder_swept hswept, ?_⟩
  · rw [hswept.records, hkilling.records]
  · rw [hswept.messages, hkilling.messages]
  · rw [hswept.disabled, hkilling.disabled]
  · rw [hrest]
    exact hkilling.announced

/-! ## The cutoff -/

theorem toSpan_whole (n : Int) :
    (Seconds.whole n).toSpan =
      if (Int.fdiv (n * Micros.perSecond) Micros.perDay).natAbs ≤ Seconds.dayBound then
        .ok (n * Micros.perSecond)
      else .error (.outOfRange (.span (Int.fdiv (n * Micros.perSecond) Micros.perDay))) := rfl

/-- A span between two times of the calendar is not too long. -/
theorem toSpan_whole_of_range {n : Int} (hnow : 0 ≤ now.micros ∧ now.micros < timeLimit)
    (hsince : 0 ≤ now.micros - n * Micros.perSecond ∧
      now.micros - n * Micros.perSecond < timeLimit) :
    (Seconds.whole n).toSpan = .ok (n * Micros.perSecond) := by
  have hdays : ∀ t d : Int, 0 ≤ t → t < 315537897600000000 → 0 ≤ t - d →
      t - d < 315537897600000000 → (Int.fdiv d 86400000000).natAbs ≤ 999999999 := by
    intro t d _ _ _ _
    rw [Int.fdiv_eq_ediv_of_nonneg _ (by omega)]
    omega
  rw [toSpan_whole, if_pos]
  exact hdays now.micros _ hnow.1 hnow.2 hsince.1 hsince.2

/-- The cutoff of a whole number of seconds, if it is a time of the calendar. -/
theorem cutoff_of_still {clock : Clock} (n : Int) (htick : clock.tick = 0)
    (hnow : clock.now? = some (.ofInstant now)) :
    (0 ≤ now.micros - n * Micros.perSecond ∧ now.micros - n * Micros.perSecond < timeLimit →
      clock.cutoff (.whole n) = .ok (.ofInstant ⟨now.micros - n * Micros.perSecond⟩)) ∧
    (¬(0 ≤ now.micros - n * Micros.perSecond ∧ now.micros - n * Micros.perSecond < timeLimit) →
      ∃ e, clock.cutoff (.whole n) = .error e ∧ e.kind = "OverflowError") := by
  have hadd (d : Micros) : (Timestamp.ofInstant now).add? (-d) =
      if 0 ≤ now.micros - d ∧ now.micros - d < timeLimit then
        some (.ofInstant ⟨now.micros - d⟩) else none := rfl
  unfold Clock.cutoff
  rw [Clock.read_of_still htick hnow]
  refine ⟨fun hsince => ?_, fun hsince => ?_⟩
  · rw [toSpan_whole_of_range (Clock.range_of_now? hnow) hsince]
    simp only [bind, Except.bind, hadd, if_pos hsince]
    rfl
  · rw [toSpan_whole]
    split
    · simp only [bind, Except.bind, hadd, if_neg hsince]
      exact ⟨_, rfl, rfl⟩
    · exact ⟨_, rfl, rfl⟩

theorem run_killSilentSince (engine : Engine) (seconds : Seconds) (c : Cluster) :
    (killSilentSince engine seconds).run c =
      match c.clock.cutoff seconds with
      | .ok since => (killSilentBefore engine since).run { c with clock := c.clock.read.2 }
      | .error e => (.error e, { c with clock := c.clock.read.2 }) := by
  rw [killSilentSince_eq, Routine.run]
  cases c.clock.cutoff seconds <;> rfl

theorem run_killSilentBefore (engine : Engine) (since : Timestamp) (c : Cluster) :
    (killSilentBefore engine since).run c =
      match since.toInstant? with
      | some cut => (killAll engine (c.store.findStale cut)).run c
      | none => (.error .store, c) := by
  rw [killSilentBefore_eq, Routine.yielding, Routine.run, Routine.run]
  cases since.toInstant? <;> rfl

/-- Without interference a pass kills exactly the running jobs that had no update since the cutoff,
each once, and leaves run locks to running jobs only, whatever the store it finds. If the cutoff is
no time of the calendar it fails and changes nothing. -/
theorem killSilentSince_exact (hrounds : 0 < engine.rounds) (htick : c.clock.tick = 0)
    (hnow : c.clock.now? = some (.ofInstant now)) (n : Int) :
    (0 ≤ now.micros - n * Micros.perSecond ∧ now.micros - n * Micros.perSecond < timeLimit →
      ∃ ids c', (killSilentSince engine (.whole n)).run c = (.ok ids, c') ∧
        c.Reaped now ⟨now.micros - n * Micros.perSecond⟩ ids c') ∧
    (¬(0 ≤ now.micros - n * Micros.perSecond ∧ now.micros - n * Micros.perSecond < timeLimit) →
      ∃ e, (killSilentSince engine (.whole n)).run c = (.error e, c) ∧
        e.kind = "OverflowError") := by
  obtain ⟨hcut, hnone⟩ := cutoff_of_still n htick hnow
  have hclock : c.clock.read.2 = c.clock := by rw [Clock.read_of_still htick hnow]
  rw [run_killSilentSince, hclock]
  refine ⟨fun hsince => ?_, fun hsince => ?_⟩
  · rw [hcut hsince]
    dsimp only
    rw [run_killSilentBefore, Timestamp.toInstant?_ofInstant hsince]
    exact run_killAll hrounds htick hnow
  · obtain ⟨e, he, hkind⟩ := hnone hsince
    rw [he]
    exact ⟨e, rfl, hkind⟩

/-- Of two running jobs one was last updated long ago, and a job that there is not holds a lock. -/
theorem killSilentSince_exact_leaked :
    ∃ (engine : Engine) (now : Instant) (c c' : Cluster) (ids : List String), 0 < engine.rounds ∧
      c.clock.tick = 0 ∧ c.clock.now? = some (.ofInstant now) ∧
      (killSilentSince engine (.whole 100)).run c = (.ok ids, c') ∧
      c.Reaped now ⟨now.micros - 100 * Micros.perSecond⟩ ids c' ∧
      "job-1" ∈ ids ∧ "job-2" ∉ ids ∧ c'.store.holder "gone" = none ∧
      ∃ e, (killSilentSince engine (.whole 1000000000000)).run c = (.error e, c) ∧
        e.kind = "OverflowError" := by
  let now : Instant := ⟨63902822400000000⟩
  let running : Store := (Store.enroll ∅ (.new "job-1" "nightly" ⟨63902822000000000⟩ "host")).enroll
    (.new "job-2" "hourly" now "host")
  let locks := (running.documents.content .running).insert "gone" "job-0"
  let c : Cluster := {
    store := { running with documents := running.documents.amend .running locks }
    clock := .starting (.ofInstant now) 0
    ids := ⟨[], 0⟩
    metrics := .empty
    bus := .empty }
  let engine : Engine := ⟨"host", 5⟩
  have hnow : c.clock.now? = some (.ofInstant now) := by decide
  have hrounds : 0 < engine.rounds := by decide
  obtain ⟨hpass, -⟩ := killSilentSince_exact hrounds rfl hnow 100
  obtain ⟨-, hfails⟩ := killSilentSince_exact hrounds rfl hnow 1000000000000
  obtain ⟨ids, c', hrun, hreaped⟩ := hpass (by decide)
  refine ⟨engine, now, c, c', ids, hrounds, rfl, hnow, hrun, hreaped, ?_, fun hmem => ?_, ?_,
    hfails (by decide)⟩
  · exact (hreaped.mem_ids _).mpr ⟨_, rfl, by decide⟩
  · obtain ⟨r, hr, hlt⟩ := (hreaped.mem_ids _).mp hmem
    obtain rfl : r = _ := Option.some.inj (hr.symm.trans rfl)
    exact absurd hlt (by decide)
  · have hheld : c.store.holder "gone" = some "job-0" := by decide
    have hidle : c.store.running? "job-0" = none := by decide
    simp [hreaped.holder, hheld, hidle, Option.filter_some]

end Lifecycle
end JobControl
