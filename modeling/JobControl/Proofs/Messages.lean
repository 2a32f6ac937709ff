import JobControl.Proofs.RecordLives
import JobControl.Proofs.View

/-! # The messages of a job

The messages of all jobs stand in one table, in the order in which they were appended. A transaction
adds at most one message, to a job that there is, and a removal takes the messages of a job along
with its record. So the messages of a job are those that were appended to it since it came in. -/

namespace JobControl
open UnitOfWork

/-! ## What units of work do to the messages -/

/-- The messages stay as they are. -/
abbrev UnitOfWork.Mute {α : Type} (u : UnitOfWork α) : Prop := u.Leaves (·.messages)

namespace Jobs

theorem mute_setStatus (id : String) (status : Status) : (setStatus id status).Mute :=
  .change fun _ => Store.messages_updateIf ..

theorem mute_touch (id : String) (time : Timestamp) : (touch id time).Mute :=
  .bind (.stored time) fun _ => .change fun _ => Store.messages_updateIf ..

end Jobs

namespace UnitOfWork
variable {α : Type}

/-- A unit that appends a message and then leaves the messages alone appends it as it is stored, to
a job that there is, or changes no message; then it has failed or there is no such job. -/
theorem messages_commit_append {id : String} {m : Message Timestamp} {k : Bool → UnitOfWork α}
    (hk : ∀ appended, (k appended).Mute) (w : Workspace) :
    (∃ time, m.time.toInstant? = some time ∧ w.store.records.contains id ∧
      ((Jobs.append id m >>= k).commit w).2.store.messages =
        w.store.messages ++ [(id, ⟨m.level, time, m.text⟩)]) ∨
    ((Jobs.append id m >>= k).commit w).2.store.messages = w.store.messages ∧
      (w.store.records.contains id → ∃ e, ((Jobs.append id m >>= k).commit w).1 = .error e) := by
  unfold commit
  rw [Routine.run_bind, Jobs.run_append]
  cases hknown : w.store.records.contains id with
  | false =>
    right
    have hmute := hk false w
    simp only [Bool.false_eq_true, if_false]
    rcases hrun : (k false).run w with ⟨_ | _, w'⟩
    · exact ⟨rfl, nofun⟩
    · rw [hrun] at hmute
      exact ⟨hmute, nofun⟩
  | true =>
    simp only [if_true]
    cases htime : m.time.toInstant? with
    | none => exact .inr ⟨rfl, fun _ => ⟨_, rfl⟩⟩
    | some time =>
      have hmute := hk true { w with store := w.store.appendMessage id ⟨m.level, time, m.text⟩ }
      dsimp only
      rcases hrun : (k true).run _ with ⟨e | _, w'⟩
      · exact .inr ⟨rfl, fun _ => ⟨e, rfl⟩⟩
      · rw [hrun] at hmute
        exact .inl ⟨time, rfl, trivial, hmute⟩

end UnitOfWork

namespace Lifecycle

/-- What follows when a message has been noted: an error makes itself the status and an update. -/
def heed (id : String) (m : Message Timestamp) (appended : Bool) : UnitOfWork Unit := do
  if appended && m.level == .error then
    let _ ← Jobs.setStatus id .error
    match (← UnitOfWork.now).latest? m.time with
    | some time => let _ ← Jobs.touch id time
    | none => Routine.fail .mixedTimes

theorem noting_eq (id : String) (m : Message Timestamp) :
    noting id m = Jobs.append id m >>= heed id m := rfl

theorem mute_heed (id : String) (m : Message Timestamp) (appended : Bool) :
    (heed id m appended).Mute := by
  unfold heed
  split
  · refine .bind (Jobs.mute_setStatus id _) fun _ => .bind .now fun now => ?_
    split
    · exact .bind (Jobs.mute_touch id _) fun _ => .pure _
    · exact .fail _
  · exact .pure _

/-- What follows a message that is a mark. -/
def remark (id : String) (m : Message Timestamp) (status : Status) (appended : Bool) :
    UnitOfWork Unit := do
  if appended then
    let _ ← Jobs.touch id m.time
    let _ ← Jobs.setStatus id status

theorem marking_eq (id : String) (m : Message Timestamp) (status : Status) :
    marking id m status = Jobs.append id m >>= remark id m status := rfl

theorem mute_remark (id : String) (m : Message Timestamp) (status : Status) (appended : Bool) :
    (remark id m status appended).Mute := by
  unfold remark
  split
  · exact .bind (Jobs.mute_touch id _) fun _ => .bind (Jobs.mute_setStatus id _) fun _ => .pure _
  · exact .pure _

end Lifecycle

/-! ## What a transaction adds -/

namespace Store
variable {s s' : Store} {id : String}

theorem messagesOf_congr (h : s'.messages = s.messages) (id : String) :
    s'.messagesOf id = s.messagesOf id := by
  unfold messagesOf
  rw [h]

theorem messagesOf_of_append {k : String} {m : Message Instant}
    (h : s'.messages = s.messages ++ [(id, m)]) :
    s'.messagesOf k = if k = id then s.messagesOf k ++ [m] else s.messagesOf k :=
  (messagesOf_congr (s := s.appendMessage id m) h k).trans (messagesOf_appendMessage k m)

theorem messagesOf_dropIfStopped (id k : String) :
    (s.dropIfStopped id).2.messagesOf k =
      if k = id ∧ (s.records.get? id).any (·.isStopped) then [] else s.messagesOf k := by
  unfold dropIfStopped
  by_cases hstopped : (s.records.get? id).any (·.isStopped)
  · simp only [hstopped, if_true, and_true, drop, messagesOf, List.filter_filter]
    by_cases hk : k = id
    · subst hk
      simp
    · have hsame : ∀ e : String × Message Instant,
          (decide (e.1 = k) && decide (e.1 ≠ id)) = decide (e.1 = k) := by
        intro e
        by_cases he : e.1 = k <;> simp [he, hk]
      simp only [hsame, if_neg hk]
  · simp [hstopped]

/-- A removal takes a record and all its messages, or leaves both. -/
theorem Purge.messagesOf_cases (h : s.Purge s') (k : String) :
    (s'.records.get? k = s.records.get? k ∧ s'.messagesOf k = s.messagesOf k) ∨
      ((s.records.get? k).isSome ∧ s'.records.get? k = none ∧ s'.messagesOf k = []) := by
  induction h with
  | refl => exact .inl ⟨rfl, rfl⟩
  | tail _ hdrop ih =>
    obtain ⟨id, rfl⟩ := hdrop
    rw [get?_dropIfStopped, messagesOf_dropIfStopped]
    by_cases hk : k = id
    · subst hk
      rcases ih with ⟨hrecord, hmessages⟩ | ⟨hsome, hgone, hmessages⟩
      · rw [hrecord, hmessages]
        cases hr : s.records.get? k with
        | none => exact .inl ⟨by simp, by simp⟩
        | some r => cases hstopped : r.isStopped <;> simp [Option.filter_some, hstopped]
      · exact .inr ⟨hsome, by simp [hgone], by simp [hgone, hmessages]⟩
    · simpa only [hk, if_false, false_and] using ih

end Store

namespace Transaction

/-- The message that a transaction appends, if it comes to that, and the job that it is for. -/
def message? : Transaction → Option (String × Message Timestamp)
  | note id m => some (id, m)
  | skip id now => some (id, ⟨.info, now, Note.skipped⟩)
  | restart id now => some (id, ⟨.warning, now, Note.restarted⟩)
  | _ => none

/-- What a transaction adds to the messages of a job. -/
inductive Adds (tx : Transaction) (id : String) : List (Message Instant) → Prop
  | nothing : Adds tx id []
  | message {m : Message Timestamp} {time : Instant} (written : tx.message? = some (id, m))
    (stored : m.time.toInstant? = some time) : Adds tx id [⟨m.level, time, m.text⟩]

/-- What a transaction does to the record of a job and its messages: it adds to the messages of a
job that there is, or takes everything away. -/
inductive Chapter (tx : Transaction) (id : String) (s s' : Store) : Prop
  | goesOn {ms : List (Message Instant)} (adds : tx.Adds id ms)
    (messages : s'.messagesOf id = s.messagesOf id ++ ms)
    (known : s.records.get? id = none → ms = [])
    (stays : s'.records.get? id = none → s.records.get? id = none)
  | ends (known : (s.records.get? id).isSome) (gone : s'.records.get? id = none)
    (messages : s'.messagesOf id = [])

variable {tx : Transaction} {id : String} {s s' : Store} {w : Workspace}

theorem Fate.stays (h : tx.Fate id (s.records.get? id) (s'.records.get? id))
    (htx : ∀ ids, tx ≠ .remove ids) (hgone : s'.records.get? id = none) :
    s.records.get? id = none := by
  rw [hgone] at h
  cases hr : s.records.get? id with
  | none => rfl
  | some r =>
    rw [hr] at h
    cases h with
    | remove htx' => exact absurd htx' (htx _)

/-- A transaction other than a removal that leaves the table of messages as it is. -/
theorem Chapter.of_messages (h : tx.Fate id (s.records.get? id) (s'.records.get? id))
    (htx : ∀ ids, tx ≠ .remove ids) (hmessages : s'.messages = s.messages) :
    tx.Chapter id s s' := by
  refine .goesOn .nothing ?_ (fun _ => rfl) (h.stays htx)
  rw [Store.messagesOf_congr hmessages, List.append_nil]

/-- A transaction that appends its message. -/
theorem Chapter.of_append (h : tx.Fate id (s.records.get? id) (s'.records.get? id))
    {k : String} {m : Message Timestamp} {time : Instant} (hwritten : tx.message? = some (k, m))
    (hstored : m.time.toInstant? = some time) (hknown : s.records.contains k)
    (hmessages : s'.messages = s.messages ++ [(k, ⟨m.level, time, m.text⟩)]) :
    tx.Chapter id s s' := by
  have htx : ∀ ids, tx ≠ .remove ids := by
    rintro ids rfl
    contradiction
  have hlast := Store.messagesOf_of_append (k := id) hmessages
  by_cases hid : id = k
  · subst hid
    rw [if_pos rfl] at hlast
    refine .goesOn (.message hwritten hstored) hlast (fun hnone => ?_) (h.stays htx)
    simp [Mapping.contains, hnone] at hknown
  · rw [if_neg hid] at hlast
    exact .goesOn .nothing (hlast.trans (List.append_nil _).symm) (fun _ => rfl) (h.stays htx)

theorem Makes.chapter (h : tx.Makes w s') (id : String) : tx.Chapter id w.store s' := by
  have hfate := h.outcome.fate id
  have appending {k : String} {m : Message Timestamp} {u : UnitOfWork Unit}
      {f : Bool → UnitOfWork Unit} (hu : u = Jobs.append k m >>= f)
      (hf : ∀ appended, (f appended).Mute) (hwritten : tx.message? = some (k, m))
      (hs' : s' = (u.commit w).2.store) : tx.Chapter id w.store s' := by
    rw [hu] at hs'
    rcases messages_commit_append hf w with ⟨time, hstored, hknown, hmessages⟩ | ⟨hmessages, -⟩
    · exact .of_append hfate hwritten hstored hknown (hs' ▸ hmessages)
    · refine .of_messages hfate ?_ (hs' ▸ hmessages)
      rintro ids rfl
      contradiction
  cases tx with
  | aside => exact .of_messages hfate nofun (Store.Change.jobs_eq h).2
  | start engine d job now =>
    refine .of_messages hfate nofun ?_
    cases h.outcome with
    | still records messages => exact messages
    | start => exact List.append_nil _
  | stop engine job status =>
    refine .of_messages hfate nofun ?_
    cases h.outcome with
    | still records messages => exact messages
    | stop => exact Store.messages_updateIf ..
  | note k m => exact appending (Lifecycle.noting_eq k m) (Lifecycle.mute_heed k m) rfl h
  | skip k now => exact appending (Lifecycle.marking_eq k _ _) (Lifecycle.mute_remark k _ _) rfl h
  | restart k now =>
    exact appending (Lifecycle.marking_eq k _ _) (Lifecycle.mute_remark k _ _) rfl h
  | touch k =>
    refine .of_messages hfate nofun ?_
    cases h.outcome with
    | still records messages => exact messages
    | touch => exact Store.messages_updateIf ..
  | remove ids =>
    cases h.outcome with
    | still records messages =>
      refine .goesOn .nothing ?_ (fun _ => rfl) fun hgone => records ▸ hgone
      rw [Store.messagesOf_congr messages, List.append_nil]
    | remove hpurge =>
      rcases hpurge.messagesOf_cases id with ⟨hrecord, hmessages⟩ | ⟨hknown, hgone, hmessages⟩
      · exact .goesOn .nothing (hmessages.trans (List.append_nil _).symm) (fun _ => rfl)
          fun hgone => hrecord ▸ hgone
      · exact .ends hknown hgone hmessages

end Transaction

/-! ## Messages throughout a run -/

/-- The job is there before the moment and gone after it. -/
def Moment.Deletes (m : Moment) (id : String) : Prop :=
  (m.before.store.records.get? id).isSome ∧ m.after.store.records.get? id = none

theorem Moment.Performs.chapter {m : Moment} {tx : Transaction} (h : m.Performs tx) (id : String) :
    tx.Chapter id m.before.store m.after.store :=
  Transaction.Makes.chapter h id

/-- The moment adds to the messages of a job what its transaction appends. -/
def Moment.Adds (id : String) (m : Moment) (ms : List (Message Instant)) : Prop :=
  ∃ tx, m.Performs tx ∧ tx.Adds id ms

namespace Schedule
variable {s s' s₀ : Schedule} {turn : Turn} {past later : List Moment} {id : String}

/-- In a run that never removes the job its messages are only added to. -/
theorem Run.messagesOf_eq (h : s.Run later s') (htx : ∀ m ∈ later, ∃ tx, m.Performs tx)
    (hkept : ∀ m ∈ later, ¬m.Deletes id) (hknown : (s.store.records.get? id).isSome) :
    (s'.store.records.get? id).isSome ∧
      ∃ added, List.Forall₂ (Moment.Adds id) later added ∧
        s'.store.messagesOf id = s.store.messagesOf id ++ added.flatten := by
  induction h with
  | start => exact ⟨hknown, [], .nil, (List.append_nil _).symm⟩
  | @turn later s₁ s' turn hrun hservice hturn ih =>
    obtain ⟨hknown₁, added, hadded, hmessages⟩ := ih (fun m hm => htx m (List.mem_append_left _ hm))
      (fun m hm => hkept m (List.mem_append_left _ hm))
    obtain ⟨tx, hperforms⟩ := htx _ List.mem_concat_self
    have hstays : (s'.store.records.get? id).isSome := by
      rw [Option.isSome_iff_ne_none]
      exact fun hgone => hkept _ List.mem_concat_self ⟨hknown₁, hgone⟩
    cases hperforms.chapter id with
    | @goesOn ms hadds happended =>
      have hlast : List.Forall₂ (Moment.Adds id) [⟨s₁, turn, s'⟩] [ms] :=
        .cons ⟨tx, hperforms, hadds⟩ .nil
      have happended : s'.store.messagesOf id = s₁.store.messagesOf id ++ ms := happended
      refine ⟨hstays, added ++ [ms], List.rel_append hadded hlast, ?_⟩
      rw [happended, hmessages, List.flatten_concat, List.append_assoc]
    | ends hknown hgone => exact absurd ⟨hknown₁, hgone⟩ (hkept _ List.mem_concat_self)

/-- Where there is no record of a job, there are no messages of it. -/
theorem Run.messagesOf_of_unknown (h : s₀.Run past s) (h₀ : s₀.Initial) (id : String)
    (hnone : s.store.records.get? id = none) : s.store.messagesOf id = [] := by
  induction h with
  | start =>
    rw [h₀.store]
    rfl
  | turn hrun hservice hturn ih =>
    obtain ⟨tx, hperforms⟩ := hrun.performs_next h₀ hservice hturn
    cases hperforms.chapter id with
    | goesOn hadds hmessages hunknown hstays =>
      have hbefore := hstays hnone
      exact hmessages.trans (by rw [ih hbefore, hunknown hbefore, List.nil_append])
    | ends hknown hgone hmessages => exact hmessages

theorem Run.messages_known (h : s₀.Run past s) (h₀ : s₀.Initial) :
    ∀ e ∈ s.store.messages, (s.store.records.get? e.1).isSome := by
  intro e he
  rw [Option.isSome_iff_ne_none]
  intro hnone
  have hmem : e.2 ∈ s.store.messagesOf e.1 :=
    List.mem_map_of_mem (List.mem_filter.mpr ⟨he, decide_eq_true rfl⟩)
  rw [h.messagesOf_of_unknown h₀ e.1 hnone] at hmem
  exact absurd hmem List.not_mem_nil

/-- A job that comes in has no messages yet, whatever was known under its id before. -/
theorem Run.messagesOf_of_start (h : s₀.Run past s) (h₀ : s₀.Initial) (hservice : turn.isService)
    (hturn : s.turn? turn = some s') (hnone : s.store.records.get? id = none) :
    s'.store.messagesOf id = [] := by
  obtain ⟨tx, hperforms⟩ := h.performs_next h₀ hservice hturn
  cases hperforms.chapter id with
  | goesOn hadds hmessages hunknown =>
    exact hmessages.trans (by rw [h.messagesOf_of_unknown h₀ id hnone, hunknown hnone]; rfl)
  | ends hknown hgone hmessages => exact hmessages

end Schedule

namespace Store
variable {s : Store} {id : String} {job : Job Instant}

theorem messages_of_find? (h : s.find? id = some job) :
    (s.records.get? id).isSome ∧ job.messages = s.messagesOf id := by
  unfold find? at h
  obtain ⟨r, hr, rfl⟩ := Option.map_eq_some_iff.mp h
  exact ⟨by simp [hr], rfl⟩

theorem find?_of_isSome (h : (s.records.get? id).isSome) :
    ∃ job, s.find? id = some job ∧ job.messages = s.messagesOf id := by
  obtain ⟨r, hr⟩ := Option.isSome_iff_exists.mp h
  exact ⟨assemble id r (s.messagesOf id), by simp [find?, hr], rfl⟩

end Store

/-- A message that was appended to a known job without a failure is its last one. -/
theorem Lifecycle.find?_append {c : Cluster} {id : String} {m : Message Timestamp}
    {job : Job Instant} (hjob : c.store.find? id = some job)
    (hok : ((append id m).run c).1 = .ok ()) :
    ∃ time job', m.time.toInstant? = some time ∧
      ((append id m).run c).2.store.find? id = some job' ∧
      job'.messages = job.messages ++ [⟨m.level, time, m.text⟩] := by
  obtain ⟨hknown, hjob⟩ := Store.messages_of_find? hjob
  have hmakes : Transaction.Makes c.toWorkspace ((append id m).run c).2.store (.note id m) := rfl
  rcases messages_commit_append (mute_heed id m) c.toWorkspace with
    ⟨time, hstored, -, hmessages⟩ | ⟨-, hfails⟩
  · have hstays : (((append id m).run c).2.store.records.get? id).isSome := by
      rw [Option.isSome_iff_ne_none] at hknown ⊢
      exact fun hgone => hknown ((hmakes.outcome.fate id).stays nofun hgone)
    obtain ⟨job', hjob', hmessages'⟩ := Store.find?_of_isSome hstays
    have hlast := Store.messagesOf_of_append (k := id) hmessages
    rw [if_pos rfl, ← hjob] at hlast
    exact ⟨time, job', hstored, hjob', hmessages'.trans hlast⟩
  · obtain ⟨e, he⟩ := hfails hknown
    have herror : ((append id m).run c).1 = .error e := he
    rw [hok] at herror
    contradiction

namespace Schedule
variable {s s' s₀ : Schedule} {past : List Moment}

/-- Throughout every run of the service the messages of a job that is not removed are only added to,
each at the end whatever its time; every message belongs to a job that there is; and a job that
comes in has no messages. -/
theorem messages_append_only (h₀ : s₀.Initial) (h : s₀.Run past s) :
    (∀ later s' id job, s.Run later s' → (∀ m ∈ later, ¬m.Deletes id) →
      s.store.find? id = some job →
      ∃ job' added, s'.store.find? id = some job' ∧
        List.Forall₂ (Moment.Adds id) later added ∧
        job'.messages = job.messages ++ added.flatten) ∧
    (∀ id m job, s.store.find? id = some job →
      ((Lifecycle.append id m).run s.deployment.cluster).1 = .ok () →
      ∃ time job', m.time.toInstant? = some time ∧
        ((Lifecycle.append id m).run s.deployment.cluster).2.store.find? id = some job' ∧
        job'.messages = job.messages ++ [⟨m.level, time, m.text⟩]) ∧
    (∀ e ∈ s.store.messages, (s.store.find? e.1).isSome) ∧
    (∀ turn s' id job, turn.isService → s.turn? turn = some s' → s.store.find? id = none →
      s'.store.find? id = some job → job.messages = []) := by
  refine ⟨fun later s' id job hlater hkept hjob => ?_, fun id m job hjob hok => ?_,
    fun e he => ?_, fun turn s' id job hservice hturn hnone hjob => ?_⟩
  · have htx := (h.append hlater).performs h₀
    obtain ⟨hknown, hjob⟩ := Store.messages_of_find? hjob
    obtain ⟨hstays, added, hadded, hmessages⟩ :=
      hlater.messagesOf_eq (fun m hm => htx m (List.mem_append_right _ hm)) hkept hknown
    obtain ⟨job', hjob', hmessages'⟩ := Store.find?_of_isSome hstays
    exact ⟨job', added, hjob', hadded, hmessages'.trans (hjob ▸ hmessages)⟩
  · exact Lifecycle.find?_append hjob hok
  · obtain ⟨job, hjob, -⟩ := Store.find?_of_isSome (h.messages_known h₀ e he)
    simp [hjob]
  · rw [Store.find?_eq_none] at hnone
    rw [(Store.messages_of_find? hjob).2]
    exact h.messagesOf_of_start h₀ hservice hturn hnone

/-- One engine whose jobs all get the same id, one after the other. -/
def recurring : Schedule :=
  let d := nightly.deployment
  ofDeployment { d with cluster := { d.cluster with ids := ⟨["job", "job"], 0⟩ } }

theorem initial_recurring : recurring.Initial :=
  ⟨rfl, ⟨initial_nightly.proper.handlers, initial_nightly.proper.queued⟩, rfl, rfl⟩

/-- A job with a message is removed, and another starts under its id. Of the two messages that it
gets the second has an earlier time. -/
theorem messages_append_only_recurring :
    ∃ past s later s' job job', recurring.Run past s ∧ s.Run later s' ∧
      (∃ m ∈ past, m.Deletes "job") ∧ s.store.find? "job" = some job ∧ job.messages = [] ∧
      s'.store.find? "job" = some job' ∧ job.messages <+: job'.messages ∧
      job'.messages.map (·.text) = ["first", "second"] := by
  let note (number : Nat) (micros : Micros) (text : String) : List Turn :=
    [.call number 0 (.append (.named "job") ⟨.info, ⟨micros, some 0⟩, text⟩), .move (.resume 0),
      .move (.resume 0)]
  let start (number : Nat) : List Turn :=
    [.call number 0 (.start (.named "nightly")), .move (.resume 0), .move (.resume 0)]
  let later := note 5 63902822400000000 "first" ++ note 6 63902822300000000 "second"
  obtain ⟨past, s, hrun, hp⟩ := exists_run recurring
    (start 0 ++ note 1 63902822400000000 "old" ++
      [.call 2 0 (.stop (.named "job") none), .move (.resume 0), .move (.resume 0),
        .call 3 0 (.deleteJobs none), .move (.resume 0), .move (.resume 0)] ++ start 4)
    (fun past s =>
      (past.any fun m => (m.before.store.records.get? "job").isSome &&
        (m.after.store.records.get? "job").isNone) &&
      (s.store.find? "job").any fun job => job.messages.isEmpty &&
        (s.replay? later).any fun p =>
          (p.1.all fun m => (m.after.store.records.get? "job").isSome) &&
          (p.2.store.find? "job").any fun job =>
            job.messages.map (·.text) = ["first", "second"])
    (by decide +kernel) (by decide +kernel)
  simp only [Bool.and_eq_true, Option.any_eq_true, List.any_eq_true, List.all_eq_true,
    decide_eq_true_eq, Option.isNone_iff_eq_none, List.isEmpty_iff] at hp
  obtain ⟨hdeleted, job, hjob, hempty, ⟨moments, s'⟩, hreplay, hkept, job', hjob', htexts⟩ := hp
  have hlater : s.Run moments s' := Run.of_replay? .start (by decide) hreplay
  obtain ⟨happended, -⟩ := messages_append_only initial_recurring hrun
  have hkept : ∀ m ∈ moments, ¬m.Deletes "job" := by
    rintro m hm ⟨-, hgone⟩
    exact absurd (hkept m hm) (by simp [hgone])
  obtain ⟨last, added, hlast, -, hmessages⟩ := happended moments s' "job" job hlater hkept hjob
  obtain rfl := Option.some.inj (hjob'.symm.trans hlast)
  exact ⟨past, s, moments, s', job, job', hrun, hlater, hdeleted, hjob, hempty, hjob',
    ⟨_, hmessages.symm⟩, htexts⟩

end Schedule
end JobControl
