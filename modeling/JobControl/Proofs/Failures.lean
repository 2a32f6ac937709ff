import JobControl.Proofs.Transactions

/-! # What a failed operation leaves behind

An operation of the lifecycle or of the administration that fails has changed no job, no document,
no counter and no event: what it does before it can fail is undone with the unit of work in which it
fails, and what it does after that cannot fail. This holds of every way through the operation,
whatever others do between its steps and wherever it is cancelled. -/

namespace JobControl
open UnitOfWork

/-! ## Ways through a routine -/

namespace Routine
variable {ω σ α β : Type} {same : σ → σ → Prop}

/-- A way through a routine: its steps, each with the state that it found and the state that it
left, and how it ends. Between two steps others may act, and where it waits it may be cancelled. -/
inductive Way : Routine ω σ α → List (σ × σ) → Except Failure α → Prop
  | done (outcome : Except Failure α) : Way (.done outcome) [] outcome
  | step {act : σ → σ} {next : σ → Routine ω σ α} {steps : List (σ × σ)}
    {outcome : Except Failure α} (s : σ) (h : Way (next s) steps outcome) :
    Way (.step act next) ((s, act s) :: steps) outcome
  | resume {wake : Option ω} {next abort : Routine ω σ α} {steps : List (σ × σ)}
    {outcome : Except Failure α} (h : Way next steps outcome) :
    Way (.wait wake next abort) steps outcome
  | cancel {wake : Option ω} {next abort : Routine ω σ α} {steps : List (σ × σ)}
    {outcome : Except Failure α} (h : Way abort steps outcome) :
    Way (.wait wake next abort) steps outcome

/-- The routine cannot fail any more. -/
def Succeeds : Routine ω σ α → Prop
  | done outcome => ∃ a, outcome = .ok a
  | step _ next => ∀ s, (next s).Succeeds
  | wait _ next abort => next.Succeeds ∧ abort.Succeeds

/-- Every step leaves the state the same. -/
def Idle (same : σ → σ → Prop) : Routine ω σ α → Prop
  | done _ => True
  | step act next => ∀ s, same s (act s) ∧ (next s).Idle same
  | wait _ next abort => next.Idle same ∧ abort.Idle same

/-- Every step leaves the state the same, or nothing can fail after it. -/
def Spotless (same : σ → σ → Prop) : Routine ω σ α → Prop
  | done _ => True
  | step act next => ∀ s, (same s (act s) ∧ (next s).Spotless same) ∨ (next s).Succeeds
  | wait _ next abort => next.Spotless same ∧ abort.Spotless same

theorem Succeeds.not_way {r : Routine ω σ α} {steps : List (σ × σ)} {e : Failure}
    (h : r.Succeeds) : ¬r.Way steps (.error e) := by
  intro hway
  generalize houtcome : (Except.error e : Except Failure α) = outcome at hway
  induction hway with
  | done outcome =>
    obtain ⟨a, rfl⟩ := h
    contradiction
  | step s _ ih => exact ih (h s) houtcome
  | resume _ ih => exact ih h.1 houtcome
  | cancel _ ih => exact ih h.2 houtcome

theorem Succeeds.run {r : Routine ω σ α} (h : r.Succeeds) (s : σ) : ∃ a, (r.run s).1 = .ok a := by
  induction r generalizing s with
  | done outcome => exact h
  | step act next ih => exact ih s (h s) (act s)
  | wait wake next abort ih _ => exact ih h.1 s

theorem Succeeds.bind {r : Routine ω σ α} {k : α → Routine ω σ β} (h : r.Succeeds)
    (hk : ∀ a, (k a).Succeeds) : (r >>= k).Succeeds := by
  show (r.bind k).Succeeds
  induction r with
  | done outcome =>
    obtain ⟨a, rfl⟩ := h
    exact hk a
  | step act next ih => exact fun s => ih s (h s)
  | wait wake next abort ihn iha => exact ⟨ihn h.1, iha h.2⟩

namespace Spotless

/-- A way that ends in a failure leaves the state the same at every step. -/
theorem same_of_way {r : Routine ω σ α} {steps : List (σ × σ)} {e : Failure}
    (h : r.Spotless same) (hway : r.Way steps (.error e)) : ∀ p ∈ steps, same p.1 p.2 := by
  generalize houtcome : (Except.error e : Except Failure α) = outcome at hway
  induction hway with
  | done outcome => exact fun p hp => absurd hp List.not_mem_nil
  | step s hway ih =>
    subst houtcome
    rcases h s with ⟨hsame, hnext⟩ | hnext
    · exact List.forall_mem_cons.mpr ⟨hsame, ih hnext rfl⟩
    · exact absurd hway hnext.not_way
  | resume _ ih => exact ih h.1 houtcome
  | cancel _ ih => exact ih h.2 houtcome

theorem same_of_run (hrefl : ∀ s, same s s)
    (htrans : ∀ s s' s'', same s s' → same s' s'' → same s s'') {r : Routine ω σ α} {s : σ}
    {e : Failure} (h : r.Spotless same) (hrun : (r.run s).1 = .error e) : same s (r.run s).2 := by
  induction r generalizing s with
  | done outcome => exact hrefl s
  | step act next ih =>
    rcases h s with ⟨hsame, hnext⟩ | hnext
    · exact htrans _ _ _ hsame (ih s hnext hrun)
    · obtain ⟨a, ha⟩ := hnext.run (act s)
      have herror : ((next s).run (act s)).1 = .error e := hrun
      rw [ha] at herror
      contradiction
  | wait wake next abort ih _ => exact ih h.1 hrun

theorem of_succeeds {r : Routine ω σ α} (h : r.Succeeds) : r.Spotless same := by
  induction r with
  | done outcome => trivial
  | step act next ih => exact fun s => .inr (h s)
  | wait wake next abort ihn iha => exact ⟨ihn h.1, iha h.2⟩

/-- What leaves the state the same may come first. -/
theorem bind_idle {r : Routine ω σ α} {k : α → Routine ω σ β} (h : r.Idle same)
    (hk : ∀ a, (k a).Spotless same) : (r >>= k).Spotless same := by
  show (r.bind k).Spotless same
  induction r with
  | done outcome =>
    cases outcome with
    | ok a => exact hk a
    | error e => trivial
  | step act next ih => exact fun s => .inl ⟨(h s).1, ih s (h s).2⟩
  | wait wake next abort ihn iha => exact ⟨ihn h.1, iha h.2⟩

/-- What cannot fail may come last. -/
theorem bind_succeeds {r : Routine ω σ α} {k : α → Routine ω σ β} (h : r.Spotless same)
    (hk : ∀ a, (k a).Succeeds) : (r >>= k).Spotless same := by
  show (r.bind k).Spotless same
  induction r with
  | done outcome =>
    cases outcome with
    | ok a => exact .of_succeeds (hk a)
    | error e => trivial
  | step act next ih =>
    intro s
    rcases h s with ⟨hsame, hnext⟩ | hnext
    · exact .inl ⟨hsame, ih s hnext⟩
    · exact .inr (Succeeds.bind hnext hk)
  | wait wake next abort ihn iha => exact ⟨ihn h.1, iha h.2⟩

end Spotless
end Routine

/-! ## Operations -/

/-- The jobs, the documents, the counters and the events are what they were. -/
structure Cluster.Untouched (c c' : Cluster) : Prop where
  store : c'.store = c.store
  metrics : c'.metrics = c.metrics
  bus : c'.bus = c.bus

namespace Cluster
open Routine (Spotless Idle Succeeds)
variable {α : Type}

theorem Untouched.refl (c : Cluster) : c.Untouched c := ⟨rfl, rfl, rfl⟩

theorem Untouched.trans {c c' c'' : Cluster} (h : c.Untouched c') (h' : c'.Untouched c'') :
    c.Untouched c'' :=
  ⟨h'.store.trans h.store, h'.metrics.trans h.metrics, h'.bus.trans h.bus⟩

theorem idle_now : Idle Untouched now := fun _ => ⟨⟨rfl, rfl, rfl⟩, trivial⟩

theorem idle_nextId : Idle Untouched nextId := fun _ => ⟨⟨rfl, rfl, rfl⟩, trivial⟩

theorem succeeds_record (f : Metrics Micros → Metrics Micros) : (record f).Succeeds :=
  fun _ => ⟨(), rfl⟩

/-- A unit of work that fails is undone as a whole. -/
theorem untouched_of_commit {u : UnitOfWork α} {c : Cluster} {e : Failure}
    (h : (u.commit c.toWorkspace).1 = .error e) :
    c.Untouched { c with toWorkspace := (u.commit c.toWorkspace).2 } :=
  ⟨commit_of_error h, rfl, rfl⟩

theorem spotless_atomically (u : UnitOfWork α) : Spotless Untouched (atomically u) := by
  refine ⟨fun c => ?_, trivial⟩
  cases h : (u.commit c.toWorkspace).1 with
  | error e => exact .inl ⟨untouched_of_commit h, trivial⟩
  | ok a => exact .inr ⟨a, h⟩

/-- What is done about the outcome of a unit of work cannot fail after a success. -/
theorem spotless_attempt (u : UnitOfWork α) {β : Type} {k : Except Failure α → Work β}
    (hok : ∀ a, (k (.ok a)).Succeeds) (herror : ∀ e, (k (.error e)).Spotless Untouched) :
    Spotless Untouched ((atomically u).attempt >>= k) := by
  refine ⟨fun c => ?_, trivial⟩
  cases h : (u.commit c.toWorkspace).1 with
  | ok a =>
    right
    dsimp only
    rw [h]
    exact hok a
  | error e =>
    refine .inl ⟨untouched_of_commit h, ?_⟩
    dsimp only
    rw [h]
    cases e with
    | cancelled => trivial
    | _ => exact herror _

end Cluster

namespace Lifecycle
open Cluster Routine

theorem spotless_start (engine : Engine) (d : Definition) :
    Spotless Untouched (start engine d) := by
  refine .bind_idle idle_nextId fun id => .bind_idle idle_now fun now => ?_
  refine spotless_attempt _ (fun _ => ?_) fun e => ?_
  · exact .bind (succeeds_record _) fun _ => ⟨_, rfl⟩
  · cases e with
    | refused jobType reason =>
      exact .of_succeeds (.bind (succeeds_record _) fun _ => ⟨_, rfl⟩)
    | _ => trivial

theorem spotless_stop (engine : Engine) (id : String) (status : Option Status) :
    Spotless Untouched (stop engine id status) := by
  refine .bind_succeeds ?_ fun _ => ⟨_, rfl⟩
  refine .bind_succeeds (spotless_atomically _) fun out => ?_
  split
  · exact .bind (succeeds_record _) fun _ => ⟨_, rfl⟩
  · exact ⟨_, rfl⟩

theorem spotless_mark (id : String) (level : Level) (text : String) (status : Status) :
    Spotless Untouched (mark id level text status) :=
  .bind_idle idle_now fun _ => spotless_atomically _

end Lifecycle

/-- The operations that are over with one unit of work. -/
inductive Operation : {α : Type} → Cluster.Work α → Prop
  | start (engine : Engine) (d : Definition) : Operation (Lifecycle.start engine d)
  | stop (engine : Engine) (id : String) (status : Option Status) :
    Operation (Lifecycle.stop engine id status)
  | append (id : String) (m : Message Timestamp) : Operation (Lifecycle.append id m)
  | keepAlive (id : String) : Operation (Lifecycle.keepAlive id)
  | markSkipped (id : String) : Operation (Lifecycle.markSkipped id)
  | markRestarted (id : String) : Operation (Lifecycle.markRestarted id)
  | disable (engine : Engine) (jobType comment : String) :
    Operation (Service.disable engine jobType comment)
  | enable (engine : Engine) (jobType : String) : Operation (Service.enable engine jobType)
  | deleteJobs (jobType : Option String) : Operation (Service.deleteJobs jobType)

theorem Operation.spotless {α : Type} {r : Cluster.Work α} (h : Operation r) :
    r.Spotless Cluster.Untouched := by
  cases h with
  | start engine d => exact Lifecycle.spotless_start engine d
  | stop engine id status => exact Lifecycle.spotless_stop engine id status
  | markSkipped id => exact Lifecycle.spotless_mark _ _ _ _
  | markRestarted id => exact Lifecycle.spotless_mark _ _ _ _
  | append | keepAlive | disable | enable | deleteJobs => exact Cluster.spotless_atomically _

/-! ## Times that cannot be compared -/

theorem Timestamp.toInstant?_of_naive {t : Timestamp} (h : t.offset = none) (hlow : 0 ≤ t.wall)
    (hhigh : t.wall < timeLimit) : t.toInstant? = some ⟨t.wall⟩ := by
  have hutc : t.utcMicros = t.wall := by simp [utcMicros, h]
  rw [toInstant?_eq_some]
  exact ⟨hutc, hlow, hhigh⟩

theorem Timestamp.latest?_eq_none {a b : Timestamp} (h : a.offset.isSome) :
    a.latest? b = none ↔ b.offset = none := by
  unfold latest? comparable
  rw [h]
  cases b.offset <;> simp

namespace Lifecycle
variable {c : Cluster} {id : String} {m : Message Timestamp} {now : Timestamp}

theorem run_append_of_unknown (h : c.store.records.get? id = none) :
    (append id m).run c = (.ok (), c) := by
  have hunknown : c.store.records.contains id = false := by simp [Mapping.contains, h]
  have hcommit : (noting id m).commit c.toWorkspace = (.ok (), c.toWorkspace) := by
    unfold noting commit
    rw [Routine.run_bind, Jobs.run_append, hunknown]
    rfl
  unfold append Cluster.atomically
  simp only [Routine.yielding, Routine.run, Routine.act, hcommit]

/-- How noting a message ends while the clock shows a time. -/
theorem fst_run_append (hnow : c.clock.now? = some now)
    (hknown : (c.store.records.get? id).isSome) :
    ((append id m).run c).1 =
      match m.time.toInstant? with
      | none => .error .store
      | some _ =>
        if m.level = .error then
          match now.latest? m.time with
          | none => .error .mixedTimes
          | some latest => if latest.toInstant?.isSome then .ok () else .error .store
        else .ok () := by
  have hcontains : c.store.records.contains id = true := hknown
  have hread : c.clock.read.1 = .ok now := by
    unfold Clock.read
    rw [hnow]
  show ((noting id m).commit c.toWorkspace).1 = _
  unfold noting commit
  rw [Routine.run_bind, Jobs.run_append, hcontains]
  cases m.time.toInstant? with
  | none => rfl
  | some time =>
    by_cases hlevel : m.level = .error
    · simp only [if_true, Bool.true_and, hlevel, beq_self_eq_true, Jobs.setStatus,
        Routine.run_bind, run_change, run_now, hread]
      cases now.latest? m.time with
      | none => rfl
      | some latest =>
        simp only [Routine.run_bind, Jobs.run_touch]
        cases latest.toInstant? <;> rfl
    · have hlevel' : (m.level == Level.error) = false := by simpa using hlevel
      simp only [if_true, hlevel', Bool.and_false, Bool.false_eq_true, if_false, if_neg hlevel]
      rfl

/-- With a clock that has an offset, times that cannot be compared are the cause of a failure
exactly if an error without an offset is noted for a job that there is. -/
theorem append_mixedTimes_iff (hnow : c.clock.now? = some now) (haware : now.offset.isSome)
    (hlow : 0 ≤ m.time.wall) (hhigh : m.time.wall < timeLimit) :
    (∃ e, ((append id m).run c).1 = .error e ∧ e.kind = "TypeError") ↔
      (c.store.records.get? id).isSome ∧ m.level = .error ∧ m.time.offset = none := by
  cases hrecord : c.store.records.get? id with
  | none => simp [run_append_of_unknown hrecord]
  | some r =>
    rw [fst_run_append hnow (by simp [hrecord])]
    have hmixed := @Timestamp.latest?_eq_none now m.time haware
    constructor
    · rintro ⟨e, herror, hkind⟩
      refine ⟨rfl, ?_⟩
      split at herror
      · obtain rfl := Except.error.inj herror
        contradiction
      · split at herror
        · rename_i hlevel
          refine ⟨hlevel, ?_⟩
          split at herror
          · rename_i hnone
            exact hmixed.mp hnone
          · split at herror
            · contradiction
            · obtain rfl := Except.error.inj herror
              contradiction
        · contradiction
    · rintro ⟨-, hlevel, hnaive⟩
      rw [m.time.toInstant?_of_naive hnaive hlow hhigh, hmixed.mpr hnaive]
      exact ⟨.mixedTimes, by simp [hlevel], rfl⟩

/-- An operation that fails leaves no trace, on any way through it. With a clock that has an offset,
noting a message fails with a type error exactly if it is an error without an offset, for a job that
there is; for a job that there is not it does nothing at all. -/
theorem failure_leaves_no_trace :
    (∀ (α : Type) (r : Cluster.Work α), Operation r →
      (∀ c e, (r.run c).1 = .error e → c.Untouched (r.run c).2) ∧
      ∀ steps e, r.Way steps (.error e) → ∀ p ∈ steps, p.1.Untouched p.2) ∧
    ∀ (c : Cluster) (id : String) (m : Message Timestamp),
      (c.store.records.get? id = none → (append id m).run c = (.ok (), c)) ∧
      ∀ now, c.clock.now? = some now → now.offset.isSome → 0 ≤ m.time.wall →
        m.time.wall < timeLimit →
        ((∃ e, ((append id m).run c).1 = .error e ∧ e.kind = "TypeError") ↔
          (c.store.records.get? id).isSome ∧ m.level = .error ∧ m.time.offset = none) := by
  refine ⟨fun α r hr => ⟨fun c e hfails => ?_, fun steps e hway => ?_⟩, fun c id m => ⟨?_, ?_⟩⟩
  · exact hr.spotless.same_of_run .refl (fun _ _ _ => .trans) hfails
  · exact hr.spotless.same_of_way hway
  · exact run_append_of_unknown
  · exact fun now hnow haware hlow hhigh => append_mixedTimes_iff hnow haware hlow hhigh

/-- An error without an offset is noted for a running job, and another job is to be started by an
engine that gives up before its first round. -/
theorem failure_leaves_no_trace_single :
    ∃ (c : Cluster) (m : Message Timestamp) (engine : Engine) (d : Definition) (e e' : Failure),
      (c.store.records.get? "job-1").isSome ∧ ((append "job-1" m).run c).1 = .error e ∧
      e.kind = "TypeError" ∧ c.Untouched ((append "job-1" m).run c).2 ∧
      ((start engine d).run c).1 = .error e' ∧ c.Untouched ((start engine d).run c).2 := by
  let today : Micros := 63902822400000000
  let d : Definition := .build "nightly" "" "" [] 0 .zero
  let m : Message Timestamp := ⟨.error, ⟨today, none⟩, "no offset"⟩
  let c : Cluster := {
    store := Store.enroll ∅ (Job.new "job-1" "nightly" ⟨today⟩ "host")
    clock := .starting ⟨today, some 0⟩ 0
    ids := ⟨[], 1⟩
    metrics := .empty
    bus := .empty }
  obtain ⟨huntouched, hmixed⟩ := failure_leaves_no_trace
  have hknown : (c.store.records.get? "job-1").isSome := by decide
  obtain ⟨e, he, hkind⟩ := ((hmixed c "job-1" m).2 ⟨today, some 0⟩ (by decide) rfl (by decide)
    (by decide)).mpr ⟨hknown, rfl, rfl⟩
  have hstart : ((start ⟨"host", 0⟩ d).run c).1 = .error (.contention (.acquiring "nightly")) := rfl
  exact ⟨c, m, ⟨"host", 0⟩, d, e, _, hknown, he, hkind,
    (huntouched _ _ (.append "job-1" m)).1 c e he, hstart,
    (huntouched _ _ (.start ⟨"host", 0⟩ d)).1 c _ hstart⟩

end Lifecycle
end JobControl
