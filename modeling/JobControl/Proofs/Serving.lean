import JobControl.Proofs.Pact
import JobControl.Proofs.Operations
import JobControl.Proofs.Transactions

/-! # When jobs come in, and what is disabled

Two things are followed through all operations here. A job comes in with the time that was read for
it before its unit of work: how old that may be depends on what the clock does while a routine
waits, which a `Pace` says. And the document of disabled types is only written by taking a type in
or out. `Cluster.pact` is the pact of both. -/

namespace JobControl
open UnitOfWork

/-! ## The disabled types -/

/-- What is done to the document of disabled types. -/
inductive Administration where
  | aside
  | disable (jobType comment : String)
  | enable (jobType : String)

def Administration.apply : Administration → Mapping String String → Mapping String String
  | aside, types => types
  | disable jobType comment, types => types.insert jobType comment
  | enable jobType, types => types.erase jobType

/-- The disabled types with their comments. -/
def Store.disabled (s : Store) : Mapping String String := s.documents.content .disabled

theorem Documents.content_disabled_release (ds : Documents) (jobType id : String) :
    (ds.release jobType id).content .disabled = ds.content .disabled := by
  unfold release
  split
  · rw [content_amend, if_neg (by decide)]
  · rfl

namespace UnitOfWork
variable {α : Type}

theorem leaves_onDocuments {r : Routine Empty Documents α}
    (h : ∀ ds, (r.run ds).2.content .disabled = ds.content .disabled) :
    (onDocuments r).Leaves Store.disabled := by
  intro w
  rw [run_onDocuments]
  exact h _

end UnitOfWork

namespace Store
variable {s : Store}

theorem disabled_updateIf (id : String) (p : Record → Bool) (f : Record → Record) :
    (s.updateIf id p f).2.disabled = s.disabled := by
  unfold disabled
  rw [documents_updateIf]

theorem disabled_dropIfStopped (id : String) : (s.dropIfStopped id).2.disabled = s.disabled := by
  unfold disabled
  rw [documents_dropIfStopped]

theorem disabled_enroll (ds : Documents) (j : Job Instant) :
    (enroll { s with documents := ds } j).disabled = ds.content .disabled := by
  show (ds.amend .running _).content .disabled = _
  rw [Documents.content_amend, if_neg nofun]

end Store

namespace Jobs

theorem leaves_append (id : String) (m : Message Timestamp) :
    (append id m).Leaves Store.disabled := by
  refine .bind (.query _) fun known => ?_
  split
  · exact .bind (.bind (.stored _) fun _ => .pure _) fun _ => .change fun _ => rfl
  · exact .pure _

theorem leaves_setStatus (id : String) (status : Status) :
    (setStatus id status).Leaves Store.disabled := .change fun _ => Store.disabled_updateIf ..

theorem leaves_touch (id : String) (time : Timestamp) : (touch id time).Leaves Store.disabled :=
  .bind (.stored time) fun _ => .change fun _ => Store.disabled_updateIf ..

theorem leaves_stop (id : String) (time : Timestamp) (status : Option Status) :
    (stop id time status).Leaves Store.disabled :=
  .bind (.stored time) fun _ => .change fun _ => Store.disabled_updateIf ..

end Jobs

namespace Lifecycle

theorem leaves_unlock (engine : Engine) (jobType id : String) :
    (unlock engine jobType id).Leaves Store.disabled := by
  refine leaves_onDocuments fun ds => ?_
  rw [RunLock.run_release]
  split
  · rfl
  · rw [Documents.content_disabled_release, Documents.content_create]

theorem leaves_leave (engine : Engine) (id : String) (status : Option Status) :
    (leave engine id status).Leaves Store.disabled := by
  refine .bind (.query _) fun found => ?_
  cases found with
  | none => exact .pure _
  | some job =>
    refine .bind (leaves_unlock engine _ id) fun _ => .bind .now fun now => ?_
    exact .bind (Jobs.leaves_stop id now status) fun _ => .bind (.query _) fun _ => .pure _

theorem leaves_noting (id : String) (m : Message Timestamp) :
    (noting id m).Leaves Store.disabled := by
  refine .bind (Jobs.leaves_append id m) fun appended => ?_
  split
  · refine .bind (Jobs.leaves_setStatus id _) fun _ => .bind .now fun now => ?_
    split
    · exact .bind (Jobs.leaves_touch id _) fun _ => .pure _
    · exact .fail _
  · exact .pure _

theorem leaves_marking (id : String) (m : Message Timestamp) (status : Status) :
    (marking id m status).Leaves Store.disabled := by
  refine .bind (Jobs.leaves_append id m) fun appended => ?_
  split
  · exact .bind (Jobs.leaves_touch id _) fun _ =>
      .bind (Jobs.leaves_setStatus id _) fun _ => .pure _
  · exact .pure _

theorem leaves_releaseLeaked (engine : Engine) (entry : RunningJob) :
    (releaseLeaked engine entry).Leaves Store.disabled := by
  refine .bind (.query _) fun found => ?_
  split
  · exact .pure _
  · exact leaves_unlock engine _ _

theorem leaves_runningJobs : (onDocuments RunLock.runningJobs).Leaves Store.disabled := by
  refine leaves_onDocuments fun ds => ?_
  rw [RunLock.run_runningJobs_state, Documents.content_create]

end Lifecycle

namespace Service

theorem leaves_dropStopped (ids : List String) : (dropStopped ids).Leaves Store.disabled := by
  induction ids with
  | nil => exact .pure _
  | cons id ids ih =>
    have hdrop : (Jobs.dropIfStopped id).Leaves Store.disabled :=
      .change fun _ => Store.disabled_dropIfStopped id
    exact .bind hdrop fun _ => .bind ih fun _ => .pure _

theorem leaves_disabledTypes : (onDocuments RunLock.disabledTypes).Leaves Store.disabled := by
  refine leaves_onDocuments fun ds => ?_
  rw [RunLock.run_disabledTypes, Documents.content_create]

end Service

/-! ## Units of work that let no job in -/

theorem Transaction.Fate.idle {tx : Transaction} {s s' : Store} {id : String}
    (h : tx.Fate id (s.records.get? id) (s'.records.get? id))
    (htx : ∀ engine d id now, tx ≠ .start engine d id now) (hidle : s.running? id = none) :
    s'.running? id = none := by
  rw [Store.running?_eq_none] at *
  intro r' hr'
  rw [hr'] at h
  cases hr : s.records.get? id with
  | none =>
    rw [hr] at h
    cases h with
    | start time htx' => exact absurd htx' (htx _ _ _ _)
  | some r =>
    have hstopped := hidle r hr
    rw [hr] at h
    cases h with
    | update => exact hstopped
    | mark running => simp [Record.isStopped, running] at hstopped
    | stop => rfl

/-- The unit lets no job in and leaves the disabled types as they are. -/
structure UnitOfWork.Plain {α : Type} (u : UnitOfWork α) : Prop where
  idle : ∀ w id, w.store.running? id = none → (u.commit w).2.store.running? id = none
  disabled : ∀ w, (u.commit w).2.store.disabled = w.store.disabled
  clock : ∀ w : Workspace, w.clock.Ran (u.commit w).2.clock

namespace UnitOfWork
variable {α : Type} {u : UnitOfWork α}

theorem plain_of_transaction {K : String → Prop} (tx : Transaction)
    (hmakes : ∀ w, tx.Makes w (u.commit w).2.store)
    (htx : ∀ engine d id now, tx ≠ .start engine d id now) (hcommits : u.Commits K)
    (hleaves : u.Leaves Store.disabled) : u.Plain where
  idle w _ := ((hmakes w).outcome.fate _).idle htx
  disabled w := hleaves.commit w
  clock w := (hcommits w).2

/-- What concerns no job at all lets none in. -/
theorem plain_of_commits (hcommits : u.Commits fun _ => False)
    (hleaves : u.Leaves Store.disabled) : u.Plain where
  idle w _ hidle := ((hcommits w).1.running?_eq not_false).trans hidle
  disabled w := hleaves.commit w
  clock w := (hcommits w).2

theorem plain_query (f : Store → α) : (query f).Plain :=
  plain_of_commits (Makes.query f).commits (.query f)

end UnitOfWork

namespace Lifecycle

theorem plain_leave (engine : Engine) (id : String) (status : Option Status) :
    (leave engine id status).Plain :=
  plain_of_transaction (.stop engine id status) (fun _ => rfl) nofun
    (commits_leave (K := fun _ => True) trivial engine status) (leaves_leave engine id status)

theorem plain_noting (id : String) (m : Message Timestamp) : (noting id m).Plain :=
  plain_of_transaction (.note id m) (fun _ => rfl) nofun
    (makes_noting (K := fun _ => True) trivial m).commits (leaves_noting id m)

theorem plain_keepAlive (id : String) :
    UnitOfWork.Plain (do let _ ← Jobs.touch id (← UnitOfWork.now)) :=
  plain_of_transaction (.touch id) (fun _ => rfl) nofun
    (makes_keepAlive (K := fun _ => True) trivial).commits
    (.bind .now fun _ => .bind (Jobs.leaves_touch id _) fun _ => .pure _)

theorem plain_skipping (id : String) (now : Timestamp) :
    (marking id ⟨.info, now, Note.skipped⟩ .skipped).Plain :=
  plain_of_transaction (.skip id now) (fun _ => rfl) nofun
    (makes_marking (K := fun _ => True) trivial _ _).commits (leaves_marking id _ _)

theorem plain_restarting (id : String) (now : Timestamp) :
    (marking id ⟨.warning, now, Note.restarted⟩ .ok).Plain :=
  plain_of_transaction (.restart id now) (fun _ => rfl) nofun
    (makes_marking (K := fun _ => True) trivial _ _).commits (leaves_marking id _ _)

end Lifecycle

theorem Service.plain_dropStopped (ids : List String) : (dropStopped ids).Plain :=
  plain_of_commits (purges_dropStopped ids).commits (leaves_dropStopped ids)

/-! ## The event bus -/

namespace Bus
open Routine (Fulfils)
variable {may : Wake → Prop}

/-- A listener may be waited for. -/
def Waited (may : Wake → Prop) (b : Bus) : Prop :=
  ∀ name l, b.known.get? name = some l → 0 < l.delay → may (.after l.delay)

theorem waited_empty : Bus.empty.Waited may := fun _ _ h => absurd h nofun

theorem Waited.of_known {b b' : Bus} (h : b.Waited may) (hknown : b'.known = b.known) :
    b'.Waited may := by
  unfold Waited
  rwa [hknown]

def pact (may : Wake → Prop) : Pact Wake Unit Bus where
  inv := Waited may
  turn := Bus.conduct.turn
  quiet := Bus.conduct.quiet
  quiet_refl := Bus.conduct.quiet_refl
  turn_of_quiet _ h := h
  turn_quiet := Bus.conduct.turn_quiet
  inv_turn hb h := hb.of_known h
  view _ := ()
  waits wake := ∀ w, wake = some w → may w
  rely _ _ _ := True
  rely_refl _ _ := trivial
  rely_trans _ _ := trivial

def serving (may : Wake → Prop) : Logic where
  toLogic := (pact may).logic
  call name l e := .act fun b _ => known_call name l e b
  await {_ name l} hb hl hdelay := .await (by rintro w ⟨⟩; exact hb name l hl hdelay)

theorem fulfils_publish (e : Event) : Fulfils (pact may) (publish e) :=
  (serving may).publish e (.update fun _ _ => rfl)

end Bus

/-! ## The pact -/

/-- What the clock does, and how old the date of a job that comes in may be. -/
structure Pace where
  inv : Clock → Prop
  /-- How the clock may go on while a routine waits. -/
  rely : Option Wake → Clock → Clock → Prop
  /-- The dates of jobs that come in when the clock stands so. -/
  dated : Clock → Micros → Prop
  rely_refl : ∀ wake c, rely wake c c
  rely_trans : ∀ {wake c c' c''}, rely wake c c' → rely wake c' c'' → rely wake c c''
  inv_ran : ∀ {c c'}, inv c → c.Ran c' → inv c'
  rely_ran : ∀ {wake c c'}, inv c → c.Ran c' → rely wake c c'
  /-- The time that is read is a date, and remains one while others have their turn. -/
  dated_read : ∀ {c t c'}, inv c → c.now? = some t → rely none c.read.2 c' → dated c' t.utcMicros

/-- The clock may go on and be set in any way. -/
def Pace.any : Pace where
  inv _ := True
  rely _ _ _ := True
  dated _ _ := True
  rely_refl _ _ := trivial
  rely_trans _ _ := trivial
  inv_ran _ _ := trivial
  rely_ran _ _ := trivial
  dated_read _ _ _ := trivial

/-- A unit of work has acted on the cluster. -/
structure Cluster.Serves (pace : Pace) (c c' : Cluster) : Prop where
  dated : ∀ id r, c.store.running? id = none → c'.store.running? id = some r →
    pace.dated c.clock r.lastUpdated.micros
  administers : ∃ a : Administration, c'.store.disabled = a.apply c.store.disabled
  clock : c.clock.Ran c'.clock
  known : c'.bus.known = c.bus.known

namespace Cluster
variable {pace : Pace} {may : Wake → Prop} {α : Type} {c c' c'' : Cluster}

theorem Calm.serves (h : Calm c c') : Serves pace c c' where
  dated id r hidle hr := by
    rw [h.store, hidle] at hr
    contradiction
  administers := ⟨.aside, congrArg Store.disabled h.store⟩
  clock := h.clock
  known := h.known

theorem Serves.calm (h : Serves pace c c') (h' : Calm c' c'') : Serves pace c c'' where
  dated id r hidle hr := h.dated id r hidle (h'.store ▸ hr)
  administers := h'.store ▸ h.administers
  clock := h.clock.trans h'.clock
  known := h'.known.trans h.known

/-- A routine may wait for a turn, and for what it `may`. That includes the listeners. -/
def pact (pace : Pace) (may : Wake → Prop) : Pact Wake Clock Cluster where
  inv c := pace.inv c.clock ∧ c.bus.Waited may
  turn := Serves pace
  quiet := Calm
  quiet_refl := .refl
  turn_of_quiet _ h := h.serves
  turn_quiet h h' := h.calm h'
  inv_turn hc h := ⟨pace.inv_ran hc.1 h.clock, hc.2.of_known h.known⟩
  view := (·.clock)
  waits wake := ∀ w, wake = some w → may w
  rely := pace.rely
  rely_refl := pace.rely_refl
  rely_trans := pace.rely_trans

open Routine (Fulfils)

theorem serves_of_plain {u : UnitOfWork α} (h : u.Plain) (c : Cluster) :
    c.Serves pace { c with toWorkspace := (u.commit c.toWorkspace).2 } := by
  refine ⟨fun id r hidle hr => ?_, ⟨.aside, h.disabled _⟩, h.clock _, rfl⟩
  have hidle' := h.idle c.toWorkspace id hidle
  exact absurd (hidle'.symm.trans hr) (Option.some_ne_none r).symm

theorem fulfils_atomically {u : UnitOfWork α} (h : u.Plain) :
    Fulfils (pact pace may) (atomically u) :=
  .yielding nofun fun _ c _ _ => ⟨serves_of_plain h c, trivial⟩

theorem fulfils_now : Fulfils (pact pace may) now := .act fun _ _ => ⟨rfl, .read _, rfl⟩

theorem fulfils_record (f : Metrics Micros → Metrics Micros) :
    Fulfils (pact pace may) (record f) := .modify fun _ _ => ⟨rfl, .refl _, rfl⟩

theorem fulfils_announce (e : Event) : Fulfils (pact pace may) (announce e) := by
  intro v
  refine Routine.Honours.zoom (D := pact pace may) (P := Bus.pact may) (f := fun _ => ())
    (fun c hc => hc.2) (fun c b fresh hc hb => ?_) (fun _ => rfl) (fun _ _ => rfl) (fun _ h => h)
    (fun _ _ _ _ => trivial) (Bus.fulfils_publish e ())
  have hknown : b.known = c.bus.known := by cases fresh <;> exact hb
  exact (pact pace may).allows_of_quiet hc ⟨rfl, .refl _, hknown⟩

end Cluster

/-! ## Operations -/

open Routine (Fulfils)
open Cluster

namespace Lifecycle
variable {pace : Pace} {may : Wake → Prop}

/-- A job that comes in comes in with the date that was read for it. -/
theorem serves_enter {c : Cluster} {engine : Engine} {d : Definition} {id : String}
    {now : Timestamp} (hdated : pace.dated c.clock now.utcMicros) (job : Job Timestamp)
    (hjob : job = Job.new id d.jobType now engine.hostname) :
    c.Serves pace { c with toWorkspace := ((enter engine d job).commit c.toWorkspace).2 } := by
  subst hjob
  have hrefl : c.Serves pace { c with toWorkspace := c.toWorkspace } := (Calm.refl c).serves
  rw [commit_enter]
  split
  · exact hrefl
  split
  · exact hrefl
  split
  · exact hrefl
  split
  · exact hrefl
  · rename_i i hi _
    refine ⟨fun k r hidle hr => ?_, ⟨.aside, ?_⟩, .refl _, rfl⟩
    · have hr : Store.running? (Store.enroll { c.store with
          documents := RunLock.created c.store.documents }
          (Job.new id d.jobType i engine.hostname)) k = some r := hr
      rw [Store.running?_enroll rfl] at hr
      split at hr
      · obtain rfl := Option.some.inj hr
        rw [Timestamp.toInstant?_eq_some] at hi
        exact hi.1 ▸ hdated
      · exact absurd (hidle.symm.trans hr) (Option.some_ne_none r).symm
    · exact (Store.disabled_enroll _ _).trans (RunLock.content_created _ _)

theorem honours_enter {v : Clock} {engine : Engine} {d : Definition} {id : String}
    {now : Timestamp} (hdated : ∀ v', pace.rely none v v' → pace.dated v' now.utcMicros) :
    (atomically (enter engine d (Job.new id d.jobType now engine.hostname))).Honours
      (pact pace may) false v := by
  refine ⟨nofun, fun v' hv => ⟨fun c _ hcv => ⟨?_, trivial⟩, trivial⟩⟩
  obtain rfl : c.clock = v' := hcv
  exact serves_enter (hdated _ hv) _ rfl

theorem fulfils_start (engine : Engine) (d : Definition) :
    Fulfils (pact pace may) (start engine d) := by
  refine .bind (.update fun _ _ => ⟨rfl, .refl _, rfl⟩) fun id => ?_
  -- The date that is read here is still one when the job comes in.
  intro v c hc _
  refine ⟨⟨rfl, .read _, rfl⟩, ?_⟩
  show ((Routine.done c.clock.read.1).bind fun now => (atomically (enter engine d
    (Job.new id d.jobType now engine.hostname))).attempt >>= fun outcome => _).Honours
      (pact pace may) false c.clock.read.2
  cases hread : c.clock.read.1 with
  | error e => trivial
  | ok now =>
    have hnow : c.clock.now? = some now := by
      unfold Clock.read at hread
      split at hread
      · rename_i heq
        exact heq.trans (congrArg some (Except.ok.inj hread))
      · contradiction
    have hdated : ∀ v', pace.rely none c.clock.read.2 v' → pace.dated v' now.utcMicros :=
      fun v' hv => pace.dated_read hc.1 hnow hv
    show Routine.Honours _ (Routine.attempt (atomically _) >>= _) false _
    refine .bind (honours_enter hdated).attempt fun outcome => ?_
    split
    · exact .bind (fulfils_record _) fun _ => .pure _
    · exact .bind (fulfils_record _) fun _ => .pure _
    · exact .fail _

end Lifecycle

namespace Service
variable {pace : Pace} {may : Wake → Prop}

theorem fulfils_findJobs (jobType : Option String) (count : Int) :
    Fulfils (pact pace may) (findJobs jobType count) := by
  have hcount : (Jobs.checkCount count).Leaves Store.disabled := by
    unfold Jobs.checkCount
    split
    · exact .pure _
    · exact .fail _
  refine fulfils_atomically ?_
  split
  · exact plain_of_commits (Jobs.makes_findLatestBy _ count).commits
      (.bind hcount fun _ => .query _)
  · exact plain_of_commits (Jobs.makes_findLatest count).commits (.bind hcount fun _ => .query _)

theorem fulfils_deleteJobs (jobType : Option String) :
    Fulfils (pact pace may) (deleteJobs jobType) := by
  have hplain {u : UnitOfWork (List (Job Instant))} {f : List (Job Instant) → List String}
      (hu : ∀ w, (u.run w).2 = w) : UnitOfWork.Plain (u >>= fun jobs => dropStopped (f jobs)) :=
    plain_of_commits (purges_dropStopped_of hu).commits
      (.bind (fun w => by rw [hu]) fun _ => leaves_dropStopped _)
  refine fulfils_atomically ?_
  cases jobType with
  | none => exact hplain fun _ => rfl
  | some t => exact hplain fun _ => rfl

/-- Only these write the document of disabled types. -/
theorem fulfils_amend {f : Mapping String String → Mapping String String} (a : Administration)
    (ha : ∀ types, f types = a.apply types) (rounds : Int) :
    Fulfils (pact pace may) (atomically (onDocuments
      (RunLock.amendFrom RunLock.noRival .disabled f 0 rounds.toNat))) := by
  refine .yielding nofun fun v c hc _ => ⟨?_, trivial⟩
  have hcommits := (makes_amend (K := fun _ => False) f rounds).commits c.toWorkspace
  refine ⟨fun id r hidle hr => ?_, ?_, hcommits.2, rfl⟩
  · have hidle' := (hcommits.1.running?_eq not_false).trans hidle
    exact absurd (hidle'.symm.trans hr) (Option.some_ne_none r).symm
  · show ∃ a : Administration, ((onDocuments _).commit c.toWorkspace).2.store.disabled = _
    rw [store_commit, run_onDocuments, RunLock.run_amend]
    by_cases hrounds : rounds ≤ 0
    · rw [if_pos hrounds]
      exact ⟨.aside, rfl⟩
    · rw [if_neg hrounds]
      refine ⟨a, ?_⟩
      show (Documents.amend _ _ _).content .disabled = _
      rw [Documents.content_amend, if_pos rfl, ha]
      rfl

end Service

theorem Jobs.plain_findStale (since : Timestamp) : (Jobs.findStale since).Plain :=
  plain_of_commits (Jobs.makes_findStale since).commits (.bind (.stored since) fun _ => .query _)

/-- All operations serve, and wait for nothing but listeners. -/
def Cluster.serving (pace : Pace) (may : Wake → Prop) : Logic where
  toLogic := (pact pace may).logic
  concerns _ := True
  admits _ := True
  notes _ := True
  now := fulfils_now
  announce e _ := fulfils_announce e
  recordRun jobType span := fulfils_record (·.jobRan jobType span)
  recordClearing jobType := fulfils_record (·.lockCleared jobType)
  start engine d _ := Lifecycle.fulfils_start engine d
  finish engine id status _ :=
    Lifecycle.holds_finish _ (fulfils_atomically (Lifecycle.plain_leave engine id status))
      fulfils_record
  kill engine id _ :=
    Lifecycle.holds_kill _
      (Lifecycle.holds_finish _ (fulfils_atomically (Lifecycle.plain_leave engine id _))
        fulfils_record)
      fulfils_now (fun m => fulfils_atomically (Lifecycle.plain_noting id m)) fulfils_record
      fulfils_announce
  append id m _ _ := fulfils_atomically (Lifecycle.plain_noting id m)
  keepAlive id _ := fulfils_atomically (Lifecycle.plain_keepAlive id)
  skip id time _ := fulfils_atomically (Lifecycle.plain_skipping id time)
  restart id time _ := fulfils_atomically (Lifecycle.plain_restarting id time)
  findStale since := fulfils_atomically (Jobs.plain_findStale since)
  releaseLeaked engine entry :=
    fulfils_atomically (plain_of_commits (Lifecycle.makes_releaseLeaked engine entry).commits
      (Lifecycle.leaves_releaseLeaked engine entry))
  runningJobs :=
    fulfils_atomically (plain_of_commits Lifecycle.makes_runningJobs.commits
      Lifecycle.leaves_runningJobs)
  disabledTypes :=
    fulfils_atomically (plain_of_commits Service.makes_disabledTypes.commits
      Service.leaves_disabledTypes)
  query f := fulfils_atomically (plain_query f)
  findJobs := Service.fulfils_findJobs
  deleteJobs := Service.fulfils_deleteJobs
  dropStopped ids := fulfils_atomically (Service.plain_dropStopped ids)
  disable engine jobType comment :=
    Service.fulfils_amend (.disable jobType comment) (fun _ => rfl) engine.rounds
  enable engine jobType := Service.fulfils_amend (.enable jobType) (fun _ => rfl) engine.rounds

end JobControl
