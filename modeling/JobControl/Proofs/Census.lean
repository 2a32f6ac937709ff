import Mathlib.Data.List.Nodup
import Mathlib.Data.List.Perm.Basic
import JobControl.Proofs.Transactions

/-! # Which jobs come and go

Between two states of the store some jobs have come in and some have been stopped. A start lets one
job in, a stop lets one out, and no other transaction does either; and only a note says that a job
is dead. -/

namespace JobControl

/-- The message in which a job is said to be dead. -/
def Message.isObituary {τ : Type} (m : Message τ) : Bool :=
  m.level == .warning && m.text == Note.dead

/-- One, for what is owed. -/
def owed {κ : Type} [DecidableEq κ] (o : Option κ) (k : κ) : Nat := if o = some k then 1 else 0

@[simp] theorem owed_none {κ : Type} [DecidableEq κ] (k : κ) : owed none k = 0 := rfl

theorem owed_some {κ : Type} [DecidableEq κ] (k k' : κ) :
    owed (some k') k = if k = k' then 1 else 0 := by
  unfold owed
  by_cases h : k = k'
  · simp [h]
  · simp [h, Ne.symm h]

namespace Store
variable {s s' : Store} {id : String}

/-- The jobs that were not there before. -/
def arrivals (s s' : Store) : List (String × Record) :=
  s'.records.entries.filter fun e => !s.records.contains e.1

/-- The jobs that were running before and are stopped now. -/
def departures (s s' : Store) : List (String × Record) :=
  s'.records.entries.filter fun e => e.2.isStopped && (s.running? e.1).isSome

/-- In how many messages the job is said to be dead. -/
def obituaries (s : Store) (id : String) : Nat :=
  s.messages.countP fun e => e.1 = id && e.2.isObituary

theorem mem_arrivals {e : String × Record} :
    e ∈ arrivals s s' ↔ s'.records.get? e.1 = some e.2 ∧ s.records.get? e.1 = none := by
  unfold arrivals
  rw [List.mem_filter, Mapping.mem_entries_iff]
  simp [Mapping.contains]

theorem mem_departures {e : String × Record} :
    e ∈ departures s s' ↔
      s'.records.get? e.1 = some e.2 ∧ e.2.isStopped ∧ ∃ r, s.running? e.1 = some r := by
  unfold departures
  rw [List.mem_filter, Mapping.mem_entries_iff, Bool.and_eq_true, Option.isSome_iff_exists]

theorem nodup_entries (s : Store) : s.records.entries.Nodup := s.records.distinct.of_map

theorem eq_singleton_of_nodup {α : Type} {l : List α} {e : α} (hnodup : l.Nodup)
    (h : ∀ x, x ∈ l ↔ x = e) : l = [e] := by
  have hperm := List.perm_ext_iff_of_nodup hnodup (List.nodup_singleton e)
  exact List.perm_singleton.mp (hperm.mpr (by simpa using h))

theorem arrivals_of_records_eq (h : s'.records = s.records) : arrivals s s' = [] := by
  refine List.eq_nil_iff_forall_not_mem.mpr fun e he => ?_
  obtain ⟨hafter, hbefore⟩ := mem_arrivals.mp he
  rw [h, hbefore] at hafter
  contradiction

theorem departures_of_records_eq (h : s'.records = s.records) : departures s s' = [] := by
  refine List.eq_nil_iff_forall_not_mem.mpr fun e he => ?_
  obtain ⟨hafter, hstopped, r, hr⟩ := mem_departures.mp he
  rw [running?_eq_some] at hr
  rw [h, hr.1] at hafter
  obtain rfl := Option.some.inj hafter
  simp [Record.isStopped, hr.2] at hstopped

/-- A job that comes in is the only one that does. -/
theorem arrivals_enroll {j : Job Instant} (ds : Documents) (fresh : s.records.get? j.id = none) :
    arrivals s (Store.enroll { s with documents := ds } j) =
      [(j.id, ⟨j.jobType, j.started, j.lastUpdated, j.stopped, j.status, j.hostname⟩)] := by
  refine eq_singleton_of_nodup ((nodup_entries _).filter _) fun ⟨k, r⟩ => ?_
  rw [mem_arrivals, get?_enroll, Prod.mk.injEq]
  dsimp only
  constructor
  · rintro ⟨hafter, hbefore⟩
    split at hafter
    · exact ⟨‹_›, (Option.some.inj hafter).symm⟩
    · rw [hbefore] at hafter
      contradiction
  · rintro ⟨rfl, rfl⟩
    exact ⟨if_pos rfl, fresh⟩

/-- A stop of a running job says that it has stopped it, and the job is found as it is then. -/
theorem stop_of_running {r : Record} (running : s.running? id = some r) (time : Instant)
    (status : Option Status) :
    (s.stop id time status).1 = true ∧
      (s.stop id time status).2.find? id =
        some (assemble id (r.ended time status) ((s.stop id time status).2.messagesOf id)) := by
  obtain ⟨hr, hrunning⟩ := running?_eq_some.mp running
  have hstopped : r.isStopped = false := by simp [Record.isStopped, hrunning]
  constructor
  · unfold stop updateIf
    rw [if_pos (by simp [hr, hstopped])]
  · unfold find?
    rw [get?_stop, if_pos rfl, hr, Option.map_some, hstopped]
    rfl

/-- A running job that is stopped is the only one that goes. -/
theorem departures_stop {r : Record} (ds : Documents) (time : Instant) (status : Option Status)
    (running : s.running? id = some r) :
    departures s (({ s with documents := ds } : Store).stop id time status).2 =
      [(id, r.ended time status)] := by
  rw [running?_eq_some] at running
  have hrunning : r.isStopped = false := by simp [Record.isStopped, running.2]
  refine eq_singleton_of_nodup ((nodup_entries _).filter _) ?_
  rintro ⟨k, r'⟩
  rw [mem_departures, get?_stop, Prod.mk.injEq]
  dsimp only
  rw [running.1, Option.map_some, hrunning]
  constructor
  · rintro ⟨hafter, hstopped, r₀, hr₀⟩
    split at hafter
    · exact ⟨‹_›, (Option.some.inj hafter).symm⟩
    · rw [running?_eq_some] at hr₀
      rw [hr₀.1] at hafter
      obtain rfl := Option.some.inj hafter
      simp [Record.isStopped, hr₀.2] at hstopped
  · rintro ⟨rfl, rfl⟩
    exact ⟨if_pos rfl, rfl, r, running?_eq_some.mpr running⟩

theorem obituaries_appendMessage (m : Message Instant) (k : String) :
    (s.appendMessage id m).obituaries k =
      s.obituaries k + if k = id ∧ m.isObituary then 1 else 0 := by
  unfold obituaries appendMessage
  rw [List.countP_append, List.countP_singleton]
  simp only [Bool.and_eq_true, decide_eq_true_eq, @eq_comm _ id k]

theorem obituaries_of_messages_eq (h : s'.messages = s.messages) (k : String) :
    s'.obituaries k = s.obituaries k := by
  unfold obituaries
  rw [h]

theorem Purge.obituaries_le (h : Purge s s') (k : String) : s'.obituaries k ≤ s.obituaries k := by
  induction h with
  | refl => exact Nat.le_refl _
  | tail _ hdrop ih =>
    obtain ⟨id, rfl⟩ := hdrop
    refine Nat.le_trans ?_ ih
    unfold dropIfStopped
    split
    · exact List.filter_sublist.countP_le
    · exact Nat.le_refl _

end Store

namespace Transaction
open Store
variable {tx : Transaction} {s s' : Store}

/-- The job that is said to be dead. -/
def obituary? : Transaction → Option String
  | note id m => if m.isObituary then some id else none
  | _ => none

/-- The transaction lets no job in or out, and does not say of one that it is dead, unless that may
be forged. -/
def isPlain (forged : Bool) : Transaction → Bool
  | start .. => false
  | stop .. => false
  | note _ m => forged || !m.isObituary
  | _ => true

theorem isPlain_note {forged : Bool} (id : String) {m : Message Timestamp}
    (hm : m.isObituary → forged) : (note id m).isPlain forged := by
  cases h : m.isObituary with
  | false => simp [isPlain, h]
  | true => simp [isPlain, hm h]

theorem startsFrom_of_isPlain {forged : Bool} {P : Definition → Prop} (h : tx.isPlain forged) :
    tx.StartsFrom P := by
  rintro engine d id now rfl
  contradiction

theorem obituary?_of_isPlain (h : tx.isPlain false) : tx.obituary? = none := by
  cases tx with
  | note id m =>
    have hm : m.isObituary = false := by simpa [isPlain] using h
    simp [obituary?, hm]
  | _ => rfl

theorem Outcome.obituaries_le (h : Outcome s tx s') (k : String) :
    s'.obituaries k ≤ s.obituaries k + owed tx.obituary? k := by
  have kept : s'.messages = s.messages →
      s'.obituaries k ≤ s.obituaries k + owed tx.obituary? k := by
    intro hmessages
    rw [obituaries_of_messages_eq hmessages]
    exact Nat.le_add_right _ _
  have noted : ∀ {id : String} {m : Message Timestamp} {time : Instant},
      s'.messages = (s.appendMessage id ⟨m.level, time, m.text⟩).messages →
      s'.obituaries k ≤ s.obituaries k + owed (obituary? (.note id m)) k := by
    intro id m time hmessages
    have hsame : Message.isObituary ⟨m.level, time, m.text⟩ = m.isObituary := rfl
    rw [obituaries_of_messages_eq hmessages, obituaries_appendMessage, hsame, obituary?]
    cases m.isObituary with
    | false => simp
    | true => simp [owed_some]
  have marked : ∀ {id : String} {m : Message Instant}, m.isObituary = false →
      s'.messages = (s.appendMessage id m).messages →
      s'.obituaries k ≤ s.obituaries k + owed tx.obituary? k := by
    intro id m hm hmessages
    rw [obituaries_of_messages_eq hmessages, obituaries_appendMessage, hm]
    simp
  cases h with
  | still _ messages => exact kept messages
  | start => exact kept (by simp [Store.enroll, insertJob, Job.new])
  | stop | touch => exact kept (messages_updateIf _ _ _)
  | note => exact noted rfl
  | fail => exact noted ((messages_updateIf _ _ _).trans (messages_updateIf _ _ _))
  | skip =>
    refine marked ?_ ((messages_updateIf _ _ _).trans (messages_updateIf _ _ _))
    rfl
  | restart =>
    refine marked ?_ ((messages_updateIf _ _ _).trans (messages_updateIf _ _ _))
    simp [Message.isObituary, Note.restarted, Note.dead]
  | remove hpurge => exact Nat.le_trans (hpurge.obituaries_le k) (Nat.le_add_right _ _)

theorem Outcome.arrivals_eq_nil (h : Outcome s tx s')
    (htx : ∀ engine d id now, tx ≠ .start engine d id now) : arrivals s s' = [] := by
  refine List.eq_nil_iff_forall_not_mem.mpr fun ⟨k, r⟩ he => ?_
  obtain ⟨hafter, hbefore⟩ := mem_arrivals.mp he
  have hfate := h.fate k
  rw [hbefore, hafter] at hfate
  cases hfate with
  | start time hstart => exact htx _ _ _ _ hstart

theorem Outcome.departures_eq_nil (h : Outcome s tx s')
    (htx : ∀ engine id status, tx ≠ .stop engine id status) : departures s s' = [] := by
  refine List.eq_nil_iff_forall_not_mem.mpr fun ⟨k, r'⟩ he => ?_
  obtain ⟨hafter, hstopped, r, hr⟩ := mem_departures.mp he
  rw [running?_eq_some] at hr
  have hrunning : r.isStopped = false := by simp [Record.isStopped, hr.2]
  have hfate := h.fate k
  rw [hr.1, hafter] at hfate
  cases hfate with
  | update => exact absurd hstopped (by simpa [Record.isStopped] using hrunning)
  | mark => exact absurd hstopped (by simpa [Record.isStopped] using hrunning)
  | stop _ hstop => exact htx _ _ _ hstop

end Transaction

namespace Lifecycle
open UnitOfWork Store
variable {w : Workspace}

/-- A start has let its job in, or has failed and changed nothing. -/
theorem arrivals_enter (engine : Engine) (d : Definition) (id : String) (now : Timestamp)
    {out : Except Failure Unit × Workspace}
    (hout : (enter engine d (Job.new id d.jobType now engine.hostname)).commit w = out) :
    (out.1 = .ok () ∧ ∃ r, arrivals w.store out.2.store = [(id, r)] ∧ r.jobType = d.jobType) ∨
      ((∃ e, out.1 = .error e) ∧ out.2.store = w.store) := by
  have failed : ∀ {e : Failure}, (.error e, w) = out →
      (∃ e, out.1 = .error e) ∧ out.2.store = w.store := by
    rintro e rfl
    exact ⟨⟨e, rfl⟩, rfl⟩
  rw [commit_enter] at hout
  split at hout
  · exact .inr (failed hout)
  split at hout
  · exact .inr (failed hout)
  split at hout
  · exact .inr (failed hout)
  split at hout
  · exact .inr (failed hout)
  · rename_i time _ hknown
    have hfresh : w.store.records.get? id = none := by simpa [Mapping.contains] using hknown
    subst hout
    refine .inl ⟨rfl, ⟨d.jobType, time, time, none, .ok, engine.hostname⟩, ?_, rfl⟩
    exact arrivals_enroll (j := Job.new id d.jobType time engine.hostname) _ hfresh

/-- A stop has let its job out, and says so, or the job was not running. -/
theorem departures_leave (engine : Engine) (id : String) (status : Option Status)
    {out : Except Failure (Option (Job Instant) × Bool) × Workspace}
    (hout : (leave engine id status).commit w = out) :
    (∃ job r, out.1 = .ok (some job, true) ∧ departures w.store out.2.store = [(id, r)] ∧
      r.jobType = job.jobType ∧ r.status = job.status ∧ ∀ st, status = some st → job.status = st) ∨
    ((∀ job, out.1 ≠ .ok (some job, true)) ∧ out.2.store.records = w.store.records) := by
  rw [commit_leave] at hout
  cases hr : w.store.records.get? id with
  | none =>
    rw [hr] at hout
    subst hout
    exact .inr ⟨nofun, rfl⟩
  | some r =>
    rw [hr] at hout
    dsimp only at hout
    split at hout
    · subst hout
      exact .inr ⟨nofun, rfl⟩
    split at hout
    · subst hout
      exact .inr ⟨nofun, rfl⟩
    split at hout
    · subst hout
      exact .inr ⟨nofun, rfl⟩
    rename_i _ time _ _ _ i _
    let s₁ := Store.unlock { w.store with documents := w.store.documents.create .running }
      r.jobType id
    cases hrun : w.store.running? id with
    | none =>
      have hidle : s₁.running? id = none := hrun
      rw [Store.stop_of_not_running hidle] at hout
      subst hout
      refine .inr ⟨fun job hjob => ?_, rfl⟩
      simp at hjob
    | some r' =>
      obtain rfl : r = r' := Option.some.inj (hr.symm.trans (get?_of_running? hrun))
      have hrun' : s₁.running? id = some r := hrun
      obtain ⟨hstops, hfinds⟩ := Store.stop_of_running hrun' i status
      subst hout
      refine .inl ⟨_, _, congrArg Except.ok (Prod.ext hfinds hstops),
        departures_stop _ i status hrun, rfl, rfl, ?_⟩
      rintro st rfl
      rfl

end Lifecycle
end JobControl
