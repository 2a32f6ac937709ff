import JobControl.Proofs.LockedRecords
import JobControl.Service

/-! # What the units of work do

`UnitOfWork.Makes K` says that a unit of work does no more to the store than effects on the jobs in
`K`, and no more to the clock than reading it. Where a unit takes or gives back a run lock it is not
enough to look at its single steps; what it does is given as an equation instead.
`UnitOfWork.Demands` says that a unit only checks, as is done with all times of a job before it is
stored (`Jobs.run_create`). -/

namespace JobControl

/-! ## Times -/

namespace Timestamp

/-- The instant a clock shows: its wall time less its offset. A clock without one shows UTC. -/
def instant (t : Timestamp) : Instant :=
  match t.offset with
  | none => ⟨t.wall⟩
  | some d => ⟨t.wall - d⟩

theorem micros_instant (t : Timestamp) : t.instant.micros = t.utcMicros := by
  unfold instant utcMicros
  cases t.offset with
  | none => exact (Int.sub_zero _).symm
  | some d => rfl

/-- Whether a store can hold a time: its instant lies in the years 1 to 9999. -/
def Storable (t : Timestamp) : Prop := 0 ≤ t.instant.micros ∧ t.instant.micros < timeLimit

instance (t : Timestamp) : Decidable t.Storable :=
  inferInstanceAs (Decidable (0 ≤ t.instant.micros ∧ t.instant.micros < timeLimit))

theorem toInstant?_eq (t : Timestamp) :
    t.toInstant? = if t.Storable then some t.instant else none := by
  unfold toInstant? Storable
  rw [← micros_instant]
  rfl

end Timestamp

/-- All times that are kept of a job. -/
def Job.times {τ : Type} (j : Job τ) : List τ :=
  j.started :: j.lastUpdated :: (j.stopped.toList ++ j.messages.map (·.time))

/-! ## Readings of the clock -/

/-- The clock has been read some number of times. -/
def Clock.Ran (c c' : Clock) : Prop := ∃ n : Nat, c' = { c with drift := c.drift + n * c.tick }

namespace Clock.Ran
variable {c c' c'' : Clock}

theorem refl (c : Clock) : Ran c c := ⟨0, by simp⟩

theorem trans (h : Ran c c') (h' : Ran c' c'') : Ran c c'' := by
  obtain ⟨n, rfl⟩ := h
  obtain ⟨m, rfl⟩ := h'
  refine ⟨n + m, ?_⟩
  rw [Int.natCast_add, Int.add_mul, Int.add_assoc]

theorem read (c : Clock) : Ran c c.read.2 := by
  unfold Clock.read
  split
  · exact ⟨1, by simp⟩
  · exact refl c

theorem elapsed_eq (h : Ran c c') : c'.elapsed = c.elapsed := by
  obtain ⟨n, rfl⟩ := h; rfl

theorem eq_of_tick (h : Ran c c') (htick : c.tick = 0) : c' = c := by
  obtain ⟨n, rfl⟩ := h
  rw [htick, Int.mul_zero, Int.add_zero, ← htick]

end Clock.Ran

namespace UnitOfWork
variable {α β : Type} {w : Workspace}

/-! ## Runs of the primitives -/

@[simp] theorem run_query (f : Store → α) : (query f).run w = (.ok (f w.store), w) := rfl

@[simp] theorem run_change (f : Store → α × Store) :
    (change f).run w = (.ok (f w.store).1, { w with store := (f w.store).2 }) := rfl

@[simp] theorem run_now :
    now.run w = (w.clock.read.1, { w with clock := w.clock.read.2 }) := rfl

theorem run_stored (t : Timestamp) :
    (stored t).run w =
      match t.toInstant? with
      | some i => (.ok i, w)
      | none => (.error .store, w) := by
  unfold stored
  cases t.toInstant? <;> rfl

/-- A unit of work that changes nothing, and has its answer only on a condition. -/
def Demands (u : UnitOfWork α) (p : Prop) (a : α) : Prop :=
  ∀ w, (p → u.run w = (.ok a, w)) ∧ (¬p → u.run w = (.error .store, w))

theorem demands_pure (a : α) : Demands (pure a) True a := fun _ => ⟨fun _ => rfl, absurd trivial⟩

theorem demands_stored (t : Timestamp) : (stored t).Demands t.Storable t.instant := by
  intro w
  rw [run_stored, Timestamp.toInstant?_eq]
  exact ⟨fun h => by rw [if_pos h], fun h => by rw [if_neg h]⟩

namespace Demands
variable {u : UnitOfWork α} {k : α → UnitOfWork β} {p q : Prop} {a : α} {b : β}

theorem bind (h : u.Demands p a) (h' : (k a).Demands q b) : (u >>= k).Demands (p ∧ q) b := by
  intro w
  rw [Routine.run_bind]
  by_cases hp : p
  · rw [(h w).1 hp]
    exact ⟨fun hpq => (h' w).1 hpq.2, fun hpq => (h' w).2 fun hq => hpq ⟨hp, hq⟩⟩
  · rw [(h w).2 hp]
    exact ⟨fun hpq => absurd hpq.1 hp, fun _ => rfl⟩

theorem congr (h : u.Demands p a) (hiff : p ↔ q) : u.Demands q a :=
  propext hiff ▸ h

theorem map {β : Type} (f : α → β) (h : u.Demands p a) : (f <$> u).Demands p (f a) :=
  (h.bind (k := fun a => pure (f a)) (demands_pure _)).congr (iff_of_eq (and_true p))

end Demands

theorem run_onDocuments (r : Routine Empty Documents α) :
    (onDocuments r).run w = ((r.run w.store.documents).1,
      { w with store := { w.store with documents := (r.run w.store.documents).2 } }) :=
  Routine.run_zoom (fun w : Workspace => w.store.documents)
    (fun ds w => { w with store := { w.store with documents := ds } })
    (fun _ _ => rfl) (fun _ _ _ => rfl) (fun _ => rfl) r w

/-! ## Bounds -/

variable {K K' : String → Prop}

/-- Played to its end, or to a failure, the unit does no more than effects on jobs in `K`. -/
def Makes (K : String → Prop) (u : UnitOfWork α) : Prop :=
  ∀ w : Workspace, w.store.Change K (u.run w).2.store ∧ w.clock.Ran (u.run w).2.clock

/-- Played to its end, or to a failure, the unit removes stopped jobs only. -/
def Purges (u : UnitOfWork α) : Prop :=
  ∀ w : Workspace, w.store.Purge (u.run w).2.store ∧ w.clock.Ran (u.run w).2.clock

/-- What the unit does to the store when it is carried out as one step. -/
def Commits (K : String → Prop) (u : UnitOfWork α) : Prop :=
  ∀ w : Workspace, w.store.Deed K (u.commit w).2.store ∧ w.clock.Ran (u.commit w).2.clock

/-- A unit that fails has done nothing to the store. -/
theorem commits_of_run {u : UnitOfWork α}
    (h : ∀ w : Workspace, w.store.Deed K (u.run w).2.store ∧ w.clock.Ran (u.run w).2.clock) :
    u.Commits K := by
  intro w
  have hw := h w
  unfold commit
  split
  · rename_i heq; rw [heq] at hw; exact hw
  · rename_i heq; rw [heq] at hw; exact ⟨.refl _, hw.2⟩

theorem Makes.commits {u : UnitOfWork α} (h : u.Makes K) : u.Commits K :=
  commits_of_run fun w => ⟨.change (h w).1, (h w).2⟩

theorem Purges.commits {u : UnitOfWork α} (h : u.Purges) : u.Commits K :=
  commits_of_run fun w => ⟨.purge (h w).1, (h w).2⟩

namespace Makes

theorem pure (a : α) : Makes K (Pure.pure a : UnitOfWork α) := fun _ => ⟨.refl _, .refl _⟩

theorem fail (e : Failure) : Makes K (Routine.fail e : UnitOfWork α) :=
  fun _ => ⟨.refl _, .refl _⟩

theorem query (f : Store → α) : (query f).Makes K := fun _ => ⟨.refl _, .refl _⟩

theorem now : now.Makes K := fun _ => ⟨.refl _, .read _⟩

theorem stored (t : Timestamp) : (stored t).Makes K := by
  unfold UnitOfWork.stored
  split
  · exact pure _
  · exact fail _

theorem change {f : Store → α × Store} (h : ∀ s : Store, s.Effect K (f s).2) : (change f).Makes K :=
  fun _ => ⟨.of_effect (h _), .refl _⟩

theorem onDocuments {r : Routine Empty Documents α}
    (h : ∀ s : Store, s.Change K { s with documents := (r.run s.documents).2 }) :
    (onDocuments r).Makes K := by
  intro w
  rw [run_onDocuments]
  exact ⟨h _, .refl _⟩

theorem bind {u : UnitOfWork α} {k : α → UnitOfWork β} (hu : u.Makes K)
    (hk : ∀ a, (k a).Makes K) : Makes K (u >>= k) := by
  intro w
  have hw := hu w
  rw [Routine.run_bind]
  split
  · rename_i a w' heq
    rw [heq] at hw
    exact ⟨hw.1.trans (hk a w').1, hw.2.trans (hk a w').2⟩
  · rename_i e w' heq
    rw [heq] at hw
    exact hw

end Makes

/-! ## What is left alone -/

/-- Played to its end, or to a failure, the unit leaves a part of the store as it is. -/
def Leaves {γ : Type} (part : Store → γ) (u : UnitOfWork α) : Prop :=
  ∀ w : Workspace, part (u.run w).2.store = part w.store

namespace Leaves
variable {γ : Type} {part : Store → γ}

theorem pure (a : α) : Leaves part (Pure.pure a : UnitOfWork α) := fun _ => rfl

theorem fail (e : Failure) : Leaves part (Routine.fail e : UnitOfWork α) := fun _ => rfl

theorem query (f : Store → α) : Leaves part (query f) := fun _ => rfl

theorem now : Leaves part now := fun _ => rfl

theorem stored (t : Timestamp) : Leaves part (stored t) := by
  intro w
  rw [run_stored]
  split <;> rfl

theorem change {f : Store → α × Store} (h : ∀ s, part (f s).2 = part s) : Leaves part (change f) :=
  fun _ => h _

theorem bind {u : UnitOfWork α} {k : α → UnitOfWork β} (hu : u.Leaves part)
    (hk : ∀ a, (k a).Leaves part) : Leaves part (u >>= k) := by
  intro w
  have hw := hu w
  rw [Routine.run_bind]
  split
  · rename_i a w' heq
    rw [heq] at hw
    exact (hk a w').trans hw
  · rename_i e w' heq
    rwa [heq] at hw

/-- A unit that fails leaves everything as it is. -/
theorem commit {u : UnitOfWork α} (h : u.Leaves part) (w : Workspace) :
    part (u.commit w).2.store = part w.store := by
  have hw := h w
  unfold UnitOfWork.commit
  split
  · rename_i heq
    rwa [heq] at hw
  · rfl

end Leaves

end UnitOfWork

/-! ## Jobs -/

namespace Jobs
open UnitOfWork
variable {K : String → Prop} {w : Workspace}

theorem run_find? (id : String) : (find? id).run w = (.ok (w.store.find? id), w) := rfl

theorem run_append (id : String) (m : Message Timestamp) :
    (append id m).run w =
      if w.store.records.contains id then
        match m.time.toInstant? with
        | some time =>
          (.ok true, { w with store := w.store.appendMessage id ⟨m.level, time, m.text⟩ })
        | none => (.error .store, w)
      else (.ok false, w) := by
  unfold append storedMessage
  rw [Routine.run_bind, run_query]
  cases h : w.store.records.contains id with
  | false => simp
  | true =>
    simp only [if_true, Routine.run_bind, run_stored]
    cases m.time.toInstant? <;> rfl

theorem makes_append {id : String} (hid : K id) (m : Message Timestamp) :
    (append id m).Makes K := by
  intro w
  rw [run_append]
  split
  · rename_i hknown
    split
    · exact ⟨.of_effect (.note id hid _ hknown), .refl _⟩
    · exact ⟨.refl _, .refl _⟩
  · exact ⟨.refl _, .refl _⟩

theorem makes_setStatus {id : String} (hid : K id) (status : Status) :
    (setStatus id status).Makes K := .change fun _ => .setStatus id hid status

theorem makes_touch {id : String} (hid : K id) (time : Timestamp) : (touch id time).Makes K :=
  .bind (.stored time) fun i => .change fun _ => .touch id hid i

theorem makes_findStale (cutoff : Timestamp) : (findStale cutoff).Makes K :=
  .bind (.stored cutoff) fun _ => .query _

theorem commit_findStale (cutoff : Timestamp) :
    (findStale cutoff).commit w =
      match cutoff.toInstant? with
      | some cut => (.ok (w.store.findStale cut), w)
      | none => (.error .store, w) := by
  unfold commit findStale
  rw [Routine.run_bind, run_stored]
  cases cutoff.toInstant? <;> rfl

theorem makes_checkCount (count : Int) : (checkCount count).Makes K := by
  unfold checkCount
  split
  · exact .pure _
  · exact .fail _

theorem makes_findLatest (count : Int) : (findLatest count).Makes K :=
  .bind (makes_checkCount count) fun _ => .query _

theorem makes_findLatestBy (jobType : String) (count : Int) :
    (findLatestBy jobType count).Makes K :=
  .bind (makes_checkCount count) fun _ => .query _

theorem demands_storedMessages (ms : List (Message Timestamp)) :
    (storedMessages ms).Demands (∀ m ∈ ms, m.time.Storable)
      (ms.map (Message.map Timestamp.instant)) := by
  induction ms with
  | nil => exact (demands_pure _).congr (by simp)
  | cons m rest ih =>
    have hmessage : (storedMessage m).Demands m.time.Storable (m.map Timestamp.instant) :=
      (demands_stored m.time).map fun time => (⟨m.level, time, m.text⟩ : Message Instant)
    refine (hmessage.bind (ih.map (m.map Timestamp.instant :: ·))).congr ?_
    rw [List.forall_mem_cons]

/-- A job can be stored if all its times can. -/
theorem demands_storedJob (j : Job Timestamp) :
    (storedJob j).Demands (∀ t ∈ j.times, t.Storable) (j.map Timestamp.instant) := by
  obtain ⟨id, jobType, started, lastUpdated, stopped, status, hostname, messages⟩ := j
  have hrest (stopped : Option Instant) := (demands_storedMessages messages).map fun messages =>
    (⟨id, jobType, started.instant, lastUpdated.instant, stopped, status, hostname, messages⟩ :
      Job Instant)
  cases stopped with
  | none =>
    refine ((demands_stored started).bind ((demands_stored lastUpdated).bind
      ((demands_pure none).bind (hrest none)))).congr ?_
    simp [Job.times]
  | some t =>
    refine ((demands_stored started).bind ((demands_stored lastUpdated).bind
      (((demands_stored t).map some).bind (hrest (some t.instant))))).congr ?_
    simp [Job.times]

theorem run_create (j : Job Timestamp) :
    (create j).run w =
      if (∀ t ∈ j.times, t.Storable) ∧ ¬w.store.records.contains j.id then
        (.ok (), { w with store := w.store.insertJob (j.map Timestamp.instant) })
      else (.error .store, w) := by
  unfold create
  by_cases htimes : ∀ t ∈ j.times, t.Storable
  · rw [Routine.run_bind_of_ok ((demands_storedJob j w).1 htimes), Routine.run_bind, run_query]
    by_cases hused : w.store.records.contains j.id
    · dsimp only
      rw [if_pos hused, if_neg fun h => h.2 hused]
      rfl
    · dsimp only
      rw [if_neg hused, if_pos ⟨htimes, hused⟩]
      rfl
  · rw [Routine.run_bind, (demands_storedJob j w).2 htimes, if_neg fun h => htimes h.1]

theorem run_create_new (id jobType : String) (now : Timestamp) (hostname : String) :
    (create (Job.new id jobType now hostname)).run w =
      match now.toInstant? with
      | some i =>
        if w.store.records.contains id then (.error .store, w)
        else (.ok (), { w with store := w.store.insertJob (Job.new id jobType i hostname) })
      | none => (.error .store, w) := by
  have htimes : (∀ t ∈ (Job.new id jobType now hostname).times, t.Storable) ↔ now.Storable := by
    simp [Job.new, Job.times]
  simp only [run_create, htimes, Timestamp.toInstant?_eq]
  by_cases hnow : now.Storable
  · simp only [hnow, true_and, if_true]
    exact ite_not ..
  · simp [hnow]

theorem run_stop (id : String) (time : Timestamp) (status : Option Status) :
    (stop id time status).run w =
      match time.toInstant? with
      | some i =>
        (.ok (w.store.stop id i status).1, { w with store := (w.store.stop id i status).2 })
      | none => (.error .store, w) := by
  unfold stop
  rw [Routine.run_bind, run_stored]
  cases time.toInstant? <;> rfl

end Jobs
end JobControl
