import JobControl.Proofs.LifecycleUnits

/-! # The transactions of the service

A transaction is a unit of work of the service together with what it is given; what only asks, or is
about run locks alone, is `aside`. `Transaction.Outcome` says once what may come of a transaction,
and `Transaction.Fate` reads off what becomes of a single record: it comes in by a start, goes by a
removal when it is stopped, and in between is updated, marked and stopped. -/

namespace JobControl

inductive Transaction where
  | aside
  | start (engine : Engine) (d : Definition) (id : String) (now : Timestamp)
  | stop (engine : Engine) (id : String) (status : Option Status)
  | note (id : String) (m : Message Timestamp)
  | skip (id : String) (now : Timestamp)
  | restart (id : String) (now : Timestamp)
  | touch (id : String)
  /-- Those of the jobs that are stopped are removed: a deletion, or all but the last of a type. -/
  | remove (ids : List String)

namespace UnitOfWork
variable {α : Type} {w : Workspace}

theorem store_commit (u : UnitOfWork α) :
    (u.commit w).2.store = match u.run w with
      | (.ok _, w') => w'.store
      | (.error _, _) => w.store := by
  unfold commit
  rcases u.run w with ⟨e | a, w'⟩ <;> rfl

end UnitOfWork

namespace Transaction

/-- The transaction leads from the workspace to a store. -/
def Makes (w : Workspace) (s' : Store) : Transaction → Prop
  | aside => w.store.Change (fun _ => False) s'
  | start engine d id now =>
    s' = ((Lifecycle.enter engine d (Job.new id d.jobType now engine.hostname)).commit w).2.store
  | stop engine id status => s' = ((Lifecycle.leave engine id status).commit w).2.store
  | note id m => s' = ((Lifecycle.noting id m).commit w).2.store
  | skip id now =>
    s' = ((Lifecycle.marking id ⟨.info, now, Note.skipped⟩ .skipped).commit w).2.store
  | restart id now =>
    s' = ((Lifecycle.marking id ⟨.warning, now, Note.restarted⟩ .ok).commit w).2.store
  | touch id =>
    s' = ((do let _ ← Jobs.touch id (← UnitOfWork.now) : UnitOfWork Unit).commit w).2.store
  | remove ids => s' = ((Service.dropStopped ids).commit w).2.store

/-- If the transaction starts a job, it starts it from one of these definitions. -/
def StartsFrom (P : Definition → Prop) (tx : Transaction) : Prop :=
  ∀ engine d id now, tx = .start engine d id now → P d

end Transaction

/-- The record after a sign of life with a status: only a running job takes the status on. -/
def Record.sign (r : Record) (time : Instant) (status : Status) : Record :=
  { r with
    lastUpdated := if r.lastUpdated ≤ time then time else r.lastUpdated
    status := if r.isStopped then r.status else status }

/-- The record of a job that is stopped at the time. -/
def Record.ended (r : Record) (time : Instant) (status : Option Status) : Record :=
  { r with stopped := some time, lastUpdated := time, status := status.getD r.status }

namespace Store
variable {s s' : Store}

theorem get?_setStatus (id k : String) (status : Status) :
    (s.setStatus id status).2.records.get? k =
      if k = id then (s.records.get? id).map fun r => if r.isStopped then r else { r with status }
      else s.records.get? k := by
  unfold setStatus
  rw [get?_updateIf]
  cases s.records.get? id with
  | none => rfl
  | some r => cases h : r.isStopped <;> simp [h]

theorem get?_touch (id k : String) (time : Instant) :
    (s.touch id time).2.records.get? k =
      if k = id then (s.records.get? id).map fun r =>
        if r.lastUpdated ≤ time then { r with lastUpdated := time } else r
      else s.records.get? k := by
  unfold touch
  rw [get?_updateIf]
  simp only [decide_eq_true_eq]

theorem get?_stop (id k : String) (time : Instant) (status : Option Status) :
    (s.stop id time status).2.records.get? k =
      if k = id then (s.records.get? id).map fun r => if r.isStopped then r else r.ended time status
      else s.records.get? k := by
  unfold stop
  rw [get?_updateIf]
  cases s.records.get? id with
  | none => rfl
  | some r => cases h : r.isStopped <;> simp [h, Record.ended]

theorem get?_touch_setStatus (id k : String) (time : Instant) (status : Status) :
    ((s.touch id time).2.setStatus id status).2.records.get? k =
      if k = id then (s.records.get? id).map (·.sign time status) else s.records.get? k := by
  rw [get?_setStatus, get?_touch, get?_touch, if_pos rfl]
  split
  · cases s.records.get? id with
    | none => rfl
    | some r =>
      obtain ⟨_, _, lastUpdated, stopped, _, _⟩ := r
      by_cases h : lastUpdated ≤ time <;> cases stopped <;>
        simp [Record.sign, Record.isStopped, h]
  · rfl

theorem get?_setStatus_touch (id k : String) (time : Instant) (status : Status) :
    ((s.setStatus id status).2.touch id time).2.records.get? k =
      if k = id then (s.records.get? id).map (·.sign time status) else s.records.get? k := by
  rw [get?_touch, get?_setStatus, get?_setStatus, if_pos rfl]
  split
  · cases s.records.get? id with
    | none => rfl
    | some r =>
      obtain ⟨_, _, lastUpdated, stopped, _, _⟩ := r
      by_cases h : lastUpdated ≤ time <;> cases stopped <;>
        simp [Record.sign, Record.isStopped, h]
  · rfl

@[simp] theorem messages_updateIf (id : String) (p : Record → Bool) (f : Record → Record) :
    (s.updateIf id p f).2.messages = s.messages := by
  unfold updateIf
  split <;> rfl

theorem get?_dropIfStopped (id k : String) :
    (s.dropIfStopped id).2.records.get? k =
      if k = id then (s.records.get? id).filter (!·.isStopped) else s.records.get? k := by
  unfold dropIfStopped drop
  cases hr : s.records.get? id with
  | none => split <;> simp_all
  | some r => cases hstopped : r.isStopped <;> split <;> simp_all [Option.filter_some]

/-- A removal takes stopped jobs away and leaves the others as they are. -/
theorem Purge.get?_cases (h : Purge s s') (k : String) :
    s'.records.get? k = s.records.get? k ∨
      ∃ r, s.records.get? k = some r ∧ r.isStopped ∧ s'.records.get? k = none := by
  induction h with
  | refl => exact .inl rfl
  | tail _ hdrop ih =>
    obtain ⟨id, rfl⟩ := hdrop
    rw [get?_dropIfStopped]
    split
    · subst k
      rcases ih with hsame | ⟨r, hr, hstopped, hgone⟩
      · rw [hsame]
        cases hr : s.records.get? id with
        | none => exact .inl rfl
        | some r =>
          cases hstopped : r.isStopped with
          | false => exact .inl (by simp [Option.filter_some, hstopped])
          | true => exact .inr ⟨r, rfl, hstopped, by simp [Option.filter_some, hstopped]⟩
      · exact .inr ⟨r, hr, hstopped, by rw [hgone]; rfl⟩
    · exact ih

/-- What concerns no job at all leaves all records and messages. -/
theorem Change.jobs_eq (h : Change (fun _ => False) s s') :
    s'.records = s.records ∧ s'.messages = s.messages := by
  induction h with
  | refl => exact ⟨rfl, rfl⟩
  | tail _ heffect ih =>
    cases heffect with
    | create | amend | unlock => exact ih
    | start _ hid | stop _ hid | note _ hid | setStatus _ hid | touch _ hid => exact hid.elim

end Store

namespace Jobs
open UnitOfWork
variable {w : Workspace}

theorem run_touch (id : String) (time : Timestamp) :
    (touch id time).run w =
      match time.toInstant? with
      | some i => (.ok (w.store.touch id i).1, { w with store := (w.store.touch id i).2 })
      | none => (.error .store, w) := by
  unfold touch
  rw [Routine.run_bind, run_stored]
  cases time.toInstant? <;> rfl

end Jobs

/-! ## What may come of a transaction -/

namespace Transaction

/-- The store after a transaction. -/
inductive Outcome (s : Store) : Transaction → Store → Prop
  /-- The transaction has failed, or had nothing to do with the jobs. -/
  | still {tx : Transaction} {s' : Store} (records : s'.records = s.records)
    (messages : s'.messages = s.messages) : Outcome s tx s'
  | start {engine : Engine} {d : Definition} {id : String} {now : Timestamp} (time : Instant)
    (ds : Documents) (fresh : s.records.get? id = none) :
    Outcome s (.start engine d id now)
      (Store.enroll { s with documents := ds } (Job.new id d.jobType time engine.hostname))
  | stop {engine : Engine} {id : String} {status : Option Status} {r : Record} (time : Instant)
    (ds : Documents) (running : s.running? id = some r) :
    Outcome s (.stop engine id status) (({ s with documents := ds } : Store).stop id time status).2
  | note {id : String} {m : Message Timestamp} (time : Instant) (level : m.level ≠ .error) :
    Outcome s (.note id m) (s.appendMessage id ⟨m.level, time, m.text⟩)
  | fail {id : String} {m : Message Timestamp} (time now : Instant) (level : m.level = .error) :
    Outcome s (.note id m)
      (((s.appendMessage id ⟨m.level, time, m.text⟩).setStatus id .error).2.touch id now).2
  | skip {id : String} {now : Timestamp} (time : Instant) :
    Outcome s (.skip id now) (((s.appendMessage id ⟨.info, time, Note.skipped⟩).touch id
      time).2.setStatus id .skipped).2
  | restart {id : String} {now : Timestamp} (time : Instant) :
    Outcome s (.restart id now) (((s.appendMessage id ⟨.warning, time, Note.restarted⟩).touch id
      time).2.setStatus id .ok).2
  | touch {id : String} (time : Instant) : Outcome s (.touch id) (s.touch id time).2
  | remove {ids : List String} {s' : Store} (h : s.Purge s') : Outcome s (.remove ids) s'

end Transaction

namespace Lifecycle
open UnitOfWork
variable {w : Workspace}

theorem outcome_enter (engine : Engine) (d : Definition) (id : String) (now : Timestamp) :
    Transaction.Outcome w.store (.start engine d id now)
      ((enter engine d (Job.new id d.jobType now engine.hostname)).commit w).2.store := by
  rw [commit_enter]
  split
  · exact .still rfl rfl
  split
  · exact .still rfl rfl
  split
  · exact .still rfl rfl
  split
  · exact .still rfl rfl
  · rename_i hknown
    have hfresh : w.store.records.get? id = none := by simpa [Mapping.contains] using hknown
    exact .start _ _ hfresh

theorem outcome_leave (engine : Engine) (id : String) (status : Option Status) :
    Transaction.Outcome w.store (.stop engine id status)
      ((leave engine id status).commit w).2.store := by
  rw [commit_leave]
  cases hr : w.store.records.get? id with
  | none => exact .still rfl rfl
  | some r =>
    dsimp only
    split
    · exact .still rfl rfl
    split
    · exact .still rfl rfl
    split
    · exact .still rfl rfl
    · rename_i time _
      cases hrun : w.store.running? id with
      | some r' => exact .stop time _ hrun
      | none =>
        have hidle : (Store.unlock { w.store with
            documents := w.store.documents.create .running } r.jobType id).running? id = none :=
          hrun
        dsimp only
        rw [Store.stop_of_not_running hidle]
        exact .still rfl rfl

theorem outcome_noting (id : String) (m : Message Timestamp) :
    Transaction.Outcome w.store (.note id m) ((noting id m).commit w).2.store := by
  unfold noting
  rw [store_commit, Routine.run_bind, Jobs.run_append]
  cases w.store.records.contains id with
  | false => exact .still rfl rfl
  | true =>
    cases m.time.toInstant? with
    | none => exact .still rfl rfl
    | some time =>
      by_cases hlevel : m.level = .error
      · -- An error is also an update, if the clock shows a time to compare with.
        simp only [if_true, Bool.true_and, hlevel, beq_self_eq_true, Jobs.setStatus,
          Routine.run_bind, run_change, run_now]
        rcases w.clock.read with ⟨e | now, c⟩
        · exact .still rfl rfl
        · dsimp only
          cases now.latest? m.time with
          | none => exact .still rfl rfl
          | some latest =>
            simp only [Routine.run_bind, Jobs.run_touch]
            cases latest.toInstant? with
            | none => exact .still rfl rfl
            | some i => exact hlevel ▸ .fail time i hlevel
      · have hlevel' : (m.level == Level.error) = false := by simpa using hlevel
        simp only [if_true, hlevel', Bool.and_false, Bool.false_eq_true, if_false]
        exact .note time hlevel

theorem store_marking (id : String) (m : Message Timestamp) (status : Status) :
    ((marking id m status).commit w).2.store = w.store ∨ ∃ time,
      ((marking id m status).commit w).2.store =
        (((w.store.appendMessage id ⟨m.level, time, m.text⟩).touch id time).2.setStatus id
          status).2 := by
  unfold marking
  rw [store_commit, Routine.run_bind, Jobs.run_append]
  cases w.store.records.contains id with
  | false => exact .inl rfl
  | true =>
    cases htime : m.time.toInstant? with
    | none => exact .inl rfl
    | some time =>
      refine .inr ⟨time, ?_⟩
      simp only [if_true, Routine.run_bind, Jobs.run_touch, htime, Jobs.setStatus, run_change]
      rfl

end Lifecycle

theorem Transaction.Makes.outcome {tx : Transaction} {w : Workspace} {s' : Store}
    (h : tx.Makes w s') : Transaction.Outcome w.store tx s' := by
  cases tx with
  | aside =>
    obtain ⟨hrecords, hmessages⟩ := Store.Change.jobs_eq h
    exact .still hrecords hmessages
  | start engine d id now => exact h ▸ Lifecycle.outcome_enter engine d id now
  | stop engine id status => exact h ▸ Lifecycle.outcome_leave engine id status
  | note id m => exact h ▸ Lifecycle.outcome_noting id m
  | skip id now =>
    obtain rfl := h
    rcases Lifecycle.store_marking id ⟨.info, now, Note.skipped⟩ .skipped with hs | ⟨time, hs⟩
    · rw [hs]
      exact .still rfl rfl
    · rw [hs]
      exact .skip time
  | restart id now =>
    obtain rfl := h
    rcases Lifecycle.store_marking id ⟨.warning, now, Note.restarted⟩ .ok with hs | ⟨time, hs⟩
    · rw [hs]
      exact .still rfl rfl
    · rw [hs]
      exact .restart time
  | touch id =>
    obtain rfl := h
    rw [UnitOfWork.store_commit, Routine.run_bind, UnitOfWork.run_now]
    rcases w.clock.read with ⟨e | now, c⟩
    · exact .still rfl rfl
    · simp only [Routine.run_bind, Jobs.run_touch]
      cases now.toInstant? with
      | none => exact .still rfl rfl
      | some time => exact .touch time
  | remove ids =>
    obtain rfl := h
    rw [UnitOfWork.store_commit]
    have hpurge := (Service.purges_dropStopped ids w).1
    split
    · rename_i hrun
      rw [hrun] at hpurge
      exact .remove hpurge
    · exact .still rfl rfl

/-! ## What becomes of a record -/

namespace Transaction

/-- The transaction marks a running job with a status. -/
inductive Marks : Transaction → String → Status → Prop
  | error {id : String} {m : Message Timestamp} (h : m.level = .error) :
    Marks (.note id m) id .error
  | skipped {id : String} {now : Timestamp} : Marks (.skip id now) id .skipped
  | restarted {id : String} {now : Timestamp} : Marks (.restart id now) id .ok

/-- What a transaction makes of the record of a job. -/
inductive Fate (tx : Transaction) (id : String) : Option Record → Option Record → Prop
  | absent : Fate tx id none none
  | start {engine : Engine} {d : Definition} {now : Timestamp} (time : Instant)
    (htx : tx = .start engine d id now) :
    Fate tx id none (some ⟨d.jobType, time, time, none, .ok, engine.hostname⟩)
  | remove {ids : List String} {r : Record} (htx : tx = .remove ids) (stopped : r.isStopped) :
    Fate tx id (some r) none
  | update {r : Record} {time : Instant} (forward : r.lastUpdated ≤ time) :
    Fate tx id (some r) (some { r with lastUpdated := time })
  | mark {r : Record} {time : Instant} {status : Status} (running : r.stopped = none)
    (forward : r.lastUpdated ≤ time) (htx : tx.Marks id status) :
    Fate tx id (some r) (some { r with lastUpdated := time, status })
  | stop {engine : Engine} {status : Option Status} {r : Record} {time : Instant}
    (running : r.stopped = none) (htx : tx = .stop engine id status) :
    Fate tx id (some r) (some (r.ended time status))

namespace Fate
variable {tx : Transaction} {id : String}

theorem same (r : Option Record) : Fate tx id r r := by
  cases r with
  | none => exact .absent
  | some r => exact .update (Int.le_refl r.lastUpdated.micros)

theorem of_eq {r r' : Option Record} (h : r' = r) : Fate tx id r r' := by
  rw [h]
  exact .same r

theorem sign (r : Option Record) (time : Instant) {status : Status} (htx : tx.Marks id status) :
    Fate tx id r (r.map (·.sign time status)) := by
  cases r with
  | none => exact .absent
  | some r =>
  show Fate tx id (some r) (some (r.sign time status))
  unfold Record.sign
  have hforward : r.lastUpdated ≤ if r.lastUpdated ≤ time then time else r.lastUpdated := by
    split
    · assumption
    · exact Int.le_refl _
  cases hstopped : r.isStopped with
  | true => exact .update hforward
  | false =>
    have hrunning : r.stopped = none := by simpa [Record.isStopped] using hstopped
    exact .mark hrunning hforward htx

end Fate

variable {s s' : Store} {tx : Transaction}

/-- One step in the life of a record. -/
theorem Outcome.fate (h : Outcome s tx s') (k : String) :
    Fate tx k (s.records.get? k) (s'.records.get? k) := by
  cases h with
  | still records => exact .of_eq (by rw [records])
  | @start engine d id now time ds fresh =>
    rw [Store.get?_enroll]
    split
    · rename_i hk
      obtain rfl : k = id := hk
      rw [fresh]
      exact .start time rfl
    · exact .same _
  | @stop engine id status r time ds running =>
    rw [Store.running?_eq_some] at running
    rw [Store.get?_stop]
    split
    · subst k
      simp only [running.1, Option.map_some, Record.isStopped, running.2, Option.isSome_none,
        Bool.false_eq_true, if_false]
      exact .stop running.2 rfl
    · exact .same _
  | note => exact .same _
  | @fail id m time now level =>
    rw [Store.get?_setStatus_touch]
    split
    · subst k
      exact .sign _ now (.error level)
    · exact .same _
  | @skip id now time =>
    rw [Store.get?_touch_setStatus]
    split
    · subst k
      exact .sign _ time .skipped
    · exact .same _
  | @restart id now time =>
    rw [Store.get?_touch_setStatus]
    split
    · subst k
      exact .sign _ time .restarted
    · exact .same _
  | @touch id time =>
    rw [Store.get?_touch]
    split
    · subst k
      cases s.records.get? id with
      | none => exact .absent
      | some r =>
        by_cases h : r.lastUpdated ≤ time
        · simp only [Option.map_some, if_pos h]
          exact .update h
        · simp only [Option.map_some, if_neg h]
          exact .same _
    · exact .same _
  | @remove ids s' hpurge =>
    rcases hpurge.get?_cases k with hsame | ⟨r, hr, hstopped, hgone⟩
    · exact .of_eq hsame
    · rw [hr, hgone]
      exact .remove rfl hstopped

end Transaction
end JobControl
