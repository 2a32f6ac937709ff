import JobControl.Proofs.Interference

/-! # Contests for the run locks

Any number of calls of the run locks contend with each other, statement by statement. A write takes
effect only if the documents that were compared are as they were read, because a version stands for
one content; so it changes the entry of its own call in the documents of that very instant. A call
that gives up was overtaken by another one in each of its rounds. -/

namespace JobControl
open Routine (Obeys)

namespace LockCall

def topic : LockCall → Topic
  | tryAcquire .. | release .. => .running
  | disable .. | enable _ => .disabled

/-- The documents whose versions the call compares when it writes. -/
def compared : LockCall → List Topic
  | tryAcquire .. => [.running, .disabled]
  | release .. => [.running]
  | disable .. | enable _ => [.disabled]

/-- What the call does to its own entry; the others stay. -/
def change : LockCall → Mapping String String → Mapping String String
  | tryAcquire jobType id _, data => data.insert jobType id
  | release jobType _, data => data.erase jobType
  | disable jobType comment, data => data.insert jobType comment
  | enable jobType, data => data.erase jobType

/-- The documents after the write of the call: one entry is changed, under the next version. -/
def write (call : LockCall) (ds : Documents) : Documents :=
  ds.amend call.topic (call.change (ds.content call.topic))

theorem get_write (call : LockCall) (ds : Documents) (topic' : Topic) :
    (call.write ds).get topic' =
      if topic' = call.topic then
        some ⟨call.change (ds.content topic'), (ds.current topic').version + 1⟩
      else ds.get topic' := by
  unfold write Documents.amend Documents.write
  rw [Documents.get_set]
  split
  · subst topic'
    rfl
  · rfl

def Allowed : LockCall → Documents → Prop
  | tryAcquire jobType _ blockers, ds => ¬(ds.content .disabled).contains jobType ∧
    ¬(ds.content .running).contains jobType ∧ ∀ b ∈ blockers, ¬(ds.content .running).contains b
  | release jobType id, ds => ∃ holder, (ds.content .running).get? jobType = some holder ∧
    ∀ j, id = some j → holder = j
  | disable .., _ | enable _, _ => True

def success : LockCall → Reply
  | tryAcquire .. => .lock .acquired
  | release .. => .flag true
  | disable .. | enable _ => .nothing

/-- The documents for which the call declines to write with the given answer. -/
def Declines : LockCall → Reply → Documents → Prop
  | tryAcquire jobType _ _, .lock (.refused .disabled), ds =>
    (ds.content .disabled).contains jobType
  | tryAcquire jobType _ _, .lock (.refused .alreadyRunning), ds =>
    (ds.content .running).contains jobType
  | tryAcquire _ _ blockers, .lock (.refused .blocked), ds =>
    ∃ b ∈ blockers, (ds.content .running).contains b
  | release jobType id, .flag false, ds =>
    ∀ holder, (ds.content .running).get? jobType = some holder → ∃ j, id = some j ∧ j ≠ holder
  | _, _, _ => False

/-- How the call fails if others have won every round. -/
def exhausted : LockCall → Failure
  | tryAcquire jobType .. => .contention (.acquiring jobType)
  | release jobType _ => .contention (.releasing jobType)
  | disable .. | enable _ => .contention (.updating Topic.disabled.label)

def reads (running disabled : Document) : Topic → Document
  | .running => running
  | .disabled => disabled

/-- The conditional write of the call, by what it has read. -/
def attempt : LockCall → (Topic → Document) → Documents → Bool × Documents
  | tryAcquire jobType id _, read => Documents.replaceRunning (read .running).version
    (read .disabled).version ((read .running).data.insert jobType id)
  | release jobType _, read =>
    Documents.replace .running (read .running).version ((read .running).data.erase jobType)
  | disable jobType comment, read => Documents.replace .disabled (read .disabled).version
    ((read .disabled).data.insert jobType comment)
  | enable jobType, read =>
    Documents.replace .disabled (read .disabled).version ((read .disabled).data.erase jobType)

/-- The statement is the write of the call. -/
structure Writes (call : LockCall) (e : Statement) : Prop where
  known : (e.before.get call.topic).isSome
  after : e.after = call.write e.before
  allowed : call.Allowed e.before

variable {call : LockCall} {e : Statement} {ds : Documents} {read : Topic → Document}

theorem topic_mem_compared : call.topic ∈ call.compared := by
  cases call <;> simp [topic, compared]

theorem Writes.grows (h : call.Writes e) : e.before.Grows e.after := by
  rw [h.after]
  exact .amend _ _ _

theorem attempt_of_kept (h : ∀ topic ∈ call.compared, ds.get topic = some (read topic)) :
    call.attempt read ds = (true, call.write ds) := by
  cases call with
  | tryAcquire jobType id blockers =>
    have hrunning := h .running (by simp [compared])
    have hdisabled := h .disabled (by simp [compared])
    simp [attempt, Documents.replaceRunning, Documents.versionIs, hrunning, hdisabled, write, topic,
      change, Documents.amend, Documents.content, ds.current_of_get .running hrunning]
  | release jobType id =>
    have hrunning := h .running (by simp [compared])
    simp [attempt, Documents.replace, Documents.versionIs, hrunning, write, topic, change,
      Documents.amend, Documents.content, ds.current_of_get .running hrunning]
  | disable jobType comment =>
    have hdisabled := h .disabled (by simp [compared])
    simp [attempt, Documents.replace, Documents.versionIs, hdisabled, write, topic, change,
      Documents.amend, Documents.content, ds.current_of_get .disabled hdisabled]
  | enable jobType =>
    have hdisabled := h .disabled (by simp [compared])
    simp [attempt, Documents.replace, Documents.versionIs, hdisabled, write, topic, change,
      Documents.amend, Documents.content, ds.current_of_get .disabled hdisabled]

theorem attempt_of_changed {topic : Topic} (htopic : topic ∈ call.compared) {d : Document}
    (hd : ds.get topic = some d) (hlt : (read topic).version < d.version) :
    call.attempt read ds = (false, ds) := by
  have hversion : ds.versionIs topic (read topic).version = false := by
    simpa [Documents.versionIs, hd] using Nat.ne_of_gt hlt
  cases call with
  | tryAcquire jobType id blockers =>
    simp only [compared, List.mem_cons, List.not_mem_nil, or_false] at htopic
    rcases htopic with rfl | rfl <;> simp [attempt, Documents.replaceRunning, hversion]
  | release jobType id | disable jobType comment | enable jobType =>
    obtain rfl := List.mem_singleton.mp htopic
    simp [attempt, Documents.replace, hversion]

end LockCall

/-! ## Attempts -/

variable {call : LockCall} {me : Nat} {ds₀ : Documents} {read : Topic → Document}
  {lost : List Statement}

/-- The caller found the document at one of the statements, and was idle after it. -/
def Found (me : Nat) (seg : List Statement) (topic : Topic) (d : Document) : Prop :=
  ∃ front r back, seg = front ++ r :: back ∧ r.caller = me ∧ r.after = r.before ∧
    r.before.get topic = some d ∧ Silent me back

/-- An attempt that comes to nothing: after the caller had found a document that it compares,
another caller changed it, and so the write of the caller has no effect. -/
def Beaten (call : LockCall) (me : Nat) (seg : List Statement) : Prop :=
  ∃ read topic front r back u, seg = front ++ r :: (back ++ [u]) ∧ topic ∈ call.compared ∧
    r.caller = me ∧ r.before.get topic = some (read topic) ∧ u.caller = me ∧
    u.act = (fun ds => (call.attempt read ds).2) ∧ u.after = u.before ∧
    ∃ e ∈ back, e.caller ≠ me ∧ e.Changes topic

namespace Found
variable {seg more : List Statement} {topic : Topic} {d : Document}

theorem append (h : Found me seg topic d) (hmore : Silent me more) :
    Found me (seg ++ more) topic d := by
  obtain ⟨front, r, back, rfl, hr, hsame, hd, hback⟩ := h
  exact ⟨front, r, back ++ more, by simp, hr, hsame, hd, hback.append hmore⟩

theorem last {r : Statement} (hr : r.caller = me) (hsame : r.after = r.before)
    (hd : r.before.get topic = some d) : Found me (seg ++ [r]) topic d :=
  ⟨seg, r, [], rfl, hr, hsame, hd, nofun⟩

/-- At the end of a path the document is as it was found, or another caller has changed it. -/
theorem kept_or_changed {ds : Documents} (h : Found me seg topic d)
    (hpath : Path ds₀ (lost ++ seg) ds) :
    ds.get topic = some d ∨ (∃ d', ds.get topic = some d' ∧ d.version < d'.version) ∧
      ∃ front r back, seg = front ++ r :: back ∧ r.caller = me ∧ r.before.get topic = some d ∧
        ∃ e ∈ back, e.caller ≠ me ∧ e.Changes topic := by
  obtain ⟨front, r, back, rfl, hr, hsame, hd, hback⟩ := h
  rw [← List.append_assoc, List.append_cons] at hpath
  obtain ⟨ds₁, hfront, hpath⟩ := hpath.of_append
  obtain ⟨-, -, rfl⟩ := hfront.snoc_cases
  rcases hpath.kept_or_changed (hsame ▸ hd) hback with hkept | ⟨hlt, hchanged⟩
  · exact .inl hkept
  · exact .inr ⟨hlt, front, r, back, rfl, hr, hd, hchanged⟩

end Found

/-- The rule for the conditional write: either the documents are as they were read, and the write
takes effect, or another caller has come first. -/
theorem obeys_attempt {α : Type} {Post : List Statement → Except Failure α → Prop}
    {seg : List Statement} {k : Bool → RunLock.Statements α} (hseg : Silent me seg)
    (hfound : ∀ topic ∈ call.compared, Found me seg topic (read topic))
    (hallowed : ∀ ds : Documents, (∀ topic ∈ call.compared, ds.get topic = some (read topic)) →
      call.Allowed ds)
    (hwon : ∀ others u, (∀ e ∈ others, e.caller ≠ me) → u.caller = me → call.Writes u →
      (k true).Obeys ds₀ me call.Writes Post (lost ++ seg ++ others ++ [u]))
    (hlost : ∀ seg', Beaten call me seg' → Silent me seg' →
      (k false).Obeys ds₀ me call.Writes Post (lost ++ seg')) :
    (Routine.update (call.attempt read) >>= k).Obeys ds₀ me call.Writes Post (lost ++ seg) := by
  refine .update fun others ds hothers hpath => ?_
  have hcases : (∀ topic ∈ call.compared, ds.get topic = some (read topic)) ∨
      ∃ topic ∈ call.compared, (∃ d, ds.get topic = some d ∧ (read topic).version < d.version) ∧
        ∃ front r back, seg ++ others = front ++ r :: back ∧ r.caller = me ∧
          r.before.get topic = some (read topic) ∧ ∃ e ∈ back, e.caller ≠ me ∧ e.Changes topic := by
    rw [List.append_assoc] at hpath
    by_cases hkept : ∀ topic ∈ call.compared, ds.get topic = some (read topic)
    · exact .inl hkept
    · -- A version stands for one content, so a document that has changed has a higher one.
      obtain ⟨topic, hnot⟩ := Classical.not_forall.mp hkept
      obtain ⟨htopic, hnot⟩ := Classical.not_imp.mp hnot
      have hfound' := (hfound topic htopic).append (.of_others hothers)
      exact .inr ⟨topic, htopic, (hfound'.kept_or_changed hpath).resolve_left hnot⟩
  rcases hcases with
    hkept | ⟨topic, htopic, ⟨d, hd, hlt⟩, front, r, back, hsplit, hr, hread, hchanged⟩
  · have hattempt := LockCall.attempt_of_kept hkept
    rw [hattempt]
    have hwrites : call.Writes ⟨me, fun ds => (call.attempt read ds).2, ds⟩ :=
      ⟨Option.isSome_of_eq_some (hkept _ LockCall.topic_mem_compared), congrArg Prod.snd hattempt,
        hallowed ds hkept⟩
    exact ⟨.inr hwrites, hwon others _ hothers rfl hwrites⟩
  · have hattempt := LockCall.attempt_of_changed htopic hd hlt
    rw [hattempt]
    have hidle : Statement.after ⟨me, fun ds => (call.attempt read ds).2, ds⟩ = ds :=
      congrArg Prod.snd hattempt
    refine ⟨.inl (.inl hidle), ?_⟩
    rw [List.append_assoc lost, List.append_assoc lost]
    refine hlost _
      ⟨read, topic, front, r, back, _, ?_, htopic, hr, hread, rfl, rfl, hidle, hchanged⟩
      ((hseg.append (.of_others hothers)).snoc (.inl hidle))
    rw [hsplit]
    simp

/-! ## What comes of a call -/

/-- So many attempts of the caller have come to nothing, one after the other. -/
def Lost (call : LockCall) (me n : Nat) (past : List Statement) : Prop :=
  ∃ attempts rest, past = List.flatten attempts ++ rest ∧ attempts.length = n ∧
    ∀ seg ∈ attempts, Beaten call me seg

/-- What the path has to say of a call that is over: it has written once, it has declined for a
reason that was true at one of its statements, or it has lost all its rounds; apart from the one
write all its statements were idle. -/
inductive Account (call : LockCall) (me : Nat) (rounds : Int) (past : List Statement) :
    Except Failure Reply → Prop
  | wrote {front back : List Statement} {e : Statement} (hpast : past = front ++ e :: back)
    (hcaller : e.caller = me) (hwrites : call.Writes e) (hfront : Silent me front)
    (hback : Silent me back) : Account call me rounds past (.ok call.success)
  | declined {reply : Reply} {r : Statement} (hr : r ∈ past) (hcaller : r.caller = me)
    (hreason : call.Declines reply r.before) (hsilent : Silent me past) :
    Account call me rounds past (.ok reply)
  | exhausted (hlost : Lost call me rounds.toNat past) (hsilent : Silent me past) :
    Account call me rounds past (.error call.exhausted)

theorem Lost.append {n : Nat} {past more : List Statement} (h : Lost call me n past) :
    Lost call me n (past ++ more) := by
  obtain ⟨attempts, rest, rfl, hlength, hbeaten⟩ := h
  exact ⟨attempts, rest ++ more, by simp, hlength, hbeaten⟩

theorem Lost.succ {n : Nat} {seg : List Statement} (h : Lost call me n lost)
    (hseg : Beaten call me seg) : Lost call me (n + 1) (lost ++ seg) := by
  obtain ⟨attempts, rest, rfl, hlength, hbeaten⟩ := h
  obtain ⟨read, topic, front, r, back, u, rfl, hseg⟩ := hseg
  refine ⟨attempts ++ [rest ++ (front ++ r :: (back ++ [u]))], [], by simp, by simp [hlength],
    fun seg hmem => ?_⟩
  rcases List.mem_append.mp hmem with hmem | hmem
  · exact hbeaten seg hmem
  · obtain rfl := List.mem_singleton.mp hmem
    exact ⟨read, topic, rest ++ front, r, back, u, by simp, hseg⟩

theorem Account.others {rounds : Int} {past others : List Statement}
    {outcome : Except Failure Reply} (hothers : ∀ e ∈ others, e.caller ≠ me)
    (h : Account call me rounds past outcome) :
    Account call me rounds (past ++ others) outcome := by
  have hsilent : Silent me others := .of_others hothers
  cases h with
  | @wrote front back e hpast hcaller hwrites hfront hback =>
    exact .wrote (by rw [hpast]; simp : past ++ others = front ++ e :: (back ++ others)) hcaller
      hwrites hfront (hback.append hsilent)
  | declined hr hcaller hreason hpast =>
    exact .declined (List.mem_append_left _ hr) hcaller hreason (hpast.append hsilent)
  | exhausted hlost hpast => exact .exhausted hlost.append (hpast.append hsilent)

theorem Account.wrote_last {rounds : Int} {front : List Statement} {u : Statement}
    (hcaller : u.caller = me) (hwrites : call.Writes u) (hfront : Silent me front) :
    Account call me rounds (front ++ [u]) (.ok call.success) :=
  .wrote rfl hcaller hwrites hfront nofun

theorem content_of_get {ds : Documents} {topic : Topic} {d : Document} (h : ds.get topic = some d) :
    ds.content topic = d.data := congrArg Document.data (ds.current_of_get topic h)

namespace RunLock
variable {rounds : Int}

theorem noRival_bind {α : Type} (round : Nat) (k : Unit → Statements α) :
    noRival round >>= k = k () := rfl

/-- A call that changes the disabled types, after the loss of `n` rounds. -/
theorem obeys_amendFrom {f : Mapping String String → Mapping String String}
    (hattempt : ∀ read, call.attempt read =
      Documents.replace .disabled (read .disabled).version (f (read .disabled).data))
    (hcompared : call.compared = [.disabled]) (hallowed : ∀ ds, call.Allowed ds)
    (hsuccess : call.success = .nothing)
    (hexhausted : call.exhausted = .contention (.updating Topic.disabled.label)) (left : Nat) :
    ∀ {n round lost}, n + left = rounds.toNat → Lost call me n lost → Silent me lost →
      (amendFrom noRival .disabled f round left).Obeys ds₀ me call.Writes
        (fun past o => Account call me rounds past (o.map fun _ => .nothing)) lost := by
  induction left with
  | zero =>
    intro n round lost hn hlost hsilent
    have hlost : Lost call me rounds.toNat lost := hn ▸ hlost
    show Account call me rounds lost (.error (.contention (.updating Topic.disabled.label)))
    rw [← hexhausted]
    exact .exhausted hlost hsilent
  | succ left ih =>
    intro n round lost hn hlost hsilent
    refine .load fun seg r d hseg hr hsame hd => ?_
    have hseg : Silent me (seg ++ [r]) := hseg.snoc (.inl hsame)
    rw [List.append_assoc lost seg [r]]
    show (Routine.update (Documents.replace .disabled d.version (f d.data)) >>= fun written =>
      if written then pure () else amendFrom noRival .disabled f (round + 1) left).Obeys _ _ _ _ _
    rw [← hattempt fun _ => d]
    refine obeys_attempt hseg (fun topic htopic => ?_) (fun ds _ => hallowed ds)
      (fun others u hothers hu hwrites => ?_) fun seg' hbeaten hseg' => ?_
    · rw [hcompared, List.mem_singleton] at htopic
      exact .last hr hsame (htopic ▸ hd)
    · show Account call me rounds _ (.ok .nothing)
      rw [← hsuccess]
      exact .wrote_last hu hwrites ((hsilent.append hseg).append (.of_others hothers))
    · exact ih (by omega) (hlost.succ hbeaten) (hsilent.append hseg')

theorem obeys_releaseFrom (jobType : String) (id : Option String) (left : Nat) :
    ∀ {n round lost}, n + left = rounds.toNat → Lost (.release jobType id) me n lost →
      Silent me lost →
      (releaseFrom noRival jobType id round left).Obeys ds₀ me
        (LockCall.Writes (.release jobType id))
        (fun past o => Account (.release jobType id) me rounds past (o.map .flag)) lost := by
  induction left with
  | zero =>
    intro n round lost hn hlost hsilent
    have hlost : Lost (.release jobType id) me rounds.toNat lost := hn ▸ hlost
    exact .exhausted hlost hsilent
  | succ left ih =>
    intro n round lost hn hlost hsilent
    refine .load fun seg r d hseg hr hsame hd => ?_
    have hseg : Silent me (seg ++ [r]) := hseg.snoc (.inl hsame)
    have hdata := content_of_get hd
    rw [List.append_assoc lost seg [r]]
    have declined : LockCall.Declines (.release jobType id) (.flag false) r.before →
        Account (.release jobType id) me rounds (lost ++ (seg ++ [r])) (.ok (.flag false)) :=
      fun h => .declined (by simp) hr h (hsilent.append hseg)
    rw [noRival_bind]
    cases hholder : d.data.get? jobType with
    | none =>
      refine declined fun holder hh => ?_
      rw [hdata, hholder] at hh
      contradiction
    | some holder =>
      by_cases hother : id.any (· ≠ holder)
      · simp only [hother, if_true]
        refine declined fun holder' hh => ?_
        rw [hdata, hholder] at hh
        obtain rfl := Option.some.inj hh
        obtain ⟨j, hj, hne⟩ := (Option.any_eq_true _ _).mp hother
        exact ⟨j, hj, of_decide_eq_true hne⟩
      · simp only [hother]
        show (Routine.update (LockCall.attempt (.release jobType id) fun _ => d) >>= fun written =>
          if written then pure true
          else releaseFrom noRival jobType id (round + 1) left).Obeys _ _ _ _ _
        refine obeys_attempt hseg (fun topic htopic => ?_) (fun ds hds => ?_)
          (fun others u hothers hu hwrites => ?_) fun seg' hbeaten hseg' => ?_
        · obtain rfl := List.mem_singleton.mp htopic
          exact .last hr hsame hd
        · refine ⟨holder, ?_, fun j hj => ?_⟩
          · rw [content_of_get (hds .running List.mem_cons_self), hholder]
          · rw [hj] at hother
            exact (by simpa using hother : j = holder).symm
        · exact .wrote_last hu hwrites ((hsilent.append hseg).append (.of_others hothers))
        · exact ih (by omega) (hlost.succ hbeaten) (hsilent.append hseg')

/-- A lock is refused for what stands in one of the two documents that were read. -/
theorem declines_of_refusal? {ds ds' : Documents} {running disabled : Document}
    {jobType id : String} {blockers : List String} {reason : Refusal}
    (hrunning : ds.get .running = some running) (hdisabled : ds'.get .disabled = some disabled)
    (h : refusal? running disabled jobType blockers = some reason) :
    LockCall.Declines (.tryAcquire jobType id blockers) (.lock (.refused reason)) ds ∨
      LockCall.Declines (.tryAcquire jobType id blockers) (.lock (.refused reason)) ds' := by
  have hdata := content_of_get hrunning
  have hdata' := content_of_get hdisabled
  unfold refusal? at h
  split at h
  · obtain rfl := Option.some.inj h
    exact .inr (by rwa [LockCall.Declines, hdata'])
  · split at h
    · obtain rfl := Option.some.inj h
      exact .inl (by rwa [LockCall.Declines, hdata])
    · split at h
      · obtain rfl := Option.some.inj h
        refine .inl ?_
        rw [LockCall.Declines, hdata]
        exact List.any_eq_true.mp ‹_›
      · contradiction

theorem obeys_acquireFrom (jobType id : String) (blockers : List String) (left : Nat) :
    ∀ {n round lost}, n + left = rounds.toNat → Lost (.tryAcquire jobType id blockers) me n lost →
      Silent me lost →
      (acquireFrom noRival jobType id blockers round left).Obeys ds₀ me
        (LockCall.Writes (.tryAcquire jobType id blockers))
        (fun past o => Account (.tryAcquire jobType id blockers) me rounds past (o.map .lock))
        lost := by
  induction left with
  | zero =>
    intro n round lost hn hlost hsilent
    have hlost : Lost (.tryAcquire jobType id blockers) me rounds.toNat lost := hn ▸ hlost
    exact .exhausted hlost hsilent
  | succ left ih =>
    intro n round lost hn hlost hsilent
    refine .load fun seg r running hseg hr hsame hrunning => ?_
    rw [List.append_assoc lost seg [r]]
    refine .load fun seg' r' disabled hseg' hr' hsame' hdisabled => ?_
    have hfound : Found me (seg ++ [r] ++ seg' ++ [r']) .running running := by
      rw [List.append_assoc (seg ++ [r])]
      exact .append (.last hr hsame hrunning) (hseg'.snoc (.inl hsame'))
    have hall : Silent me (seg ++ [r] ++ seg' ++ [r']) :=
      ((hseg.snoc (.inl hsame)).append hseg').snoc (.inl hsame')
    rw [List.append_assoc lost, List.append_assoc lost]
    rw [noRival_bind]
    cases hrefusal : refusal? running disabled jobType blockers with
    | some reason =>
      rcases declines_of_refusal? hrunning hdisabled hrefusal with hreason | hreason
      · exact .declined (by simp) hr hreason (hsilent.append hall)
      · exact .declined (by simp) hr' hreason (hsilent.append hall)
    | none =>
      show (Routine.update (LockCall.attempt (.tryAcquire jobType id blockers)
        (LockCall.reads running disabled)) >>= fun written => if written then pure .acquired
          else acquireFrom noRival jobType id blockers (round + 1) left).Obeys _ _ _ _ _
      refine obeys_attempt hall (fun topic htopic => ?_) (fun ds hds => ?_)
        (fun others u hothers hu hwrites => ?_) fun seg' hbeaten hseg' => ?_
      · simp only [LockCall.compared, List.mem_cons, List.not_mem_nil, or_false] at htopic
        rcases htopic with rfl | rfl
        · exact hfound
        · exact .last hr' hsame' hdisabled
      · have hds₁ := content_of_get (hds .running (by simp [LockCall.compared]))
        have hds₂ := content_of_get (hds .disabled (by simp [LockCall.compared]))
        rw [LockCall.Allowed, hds₁, hds₂]
        exact free_of_refusal? hrefusal
      · exact .wrote_last hu hwrites ((hsilent.append hall).append (.of_others hothers))
      · exact ih (by omega) (hlost.succ hbeaten) (hsilent.append hseg')

theorem obeys_perform (call : LockCall) :
    (call.perform rounds noRival).Obeys ds₀ me call.Writes (Account call me rounds) [] := by
  have hstart : ∀ call, Lost call me 0 [] := fun call => ⟨[], [], rfl, rfl, nofun⟩
  have hsilent : Silent me [] := nofun
  have hzero : 0 + rounds.toNat = rounds.toNat := Nat.zero_add _
  cases call with
  | tryAcquire jobType id blockers =>
    exact .map (obeys_acquireFrom jobType id blockers _ hzero (hstart _) hsilent)
  | release jobType id => exact .map (obeys_releaseFrom jobType id _ hzero (hstart _) hsilent)
  | disable jobType comment =>
    have hallowed : ∀ ds, LockCall.Allowed (.disable jobType comment) ds := fun _ => trivial
    exact .map (obeys_amendFrom (fun _ => rfl) rfl hallowed rfl rfl _ hzero (hstart _) hsilent)
  | enable jobType =>
    have hallowed : ∀ ds, LockCall.Allowed (.enable jobType) ds := fun _ => trivial
    exact .map (obeys_amendFrom (fun _ => rfl) rfl hallowed rfl rfl _ hzero (hstart _) hsilent)

end RunLock

/-! ## Contests -/

/-- Calls that are being carried out on shared documents. -/
structure Contest where
  documents : Documents
  rests : List (RunLock.Statements Reply)

namespace Contest

def begin (calls : List (LockCall × Int)) (ds : Documents) : Contest :=
  ⟨ds, calls.map fun c => c.1.perform c.2 RunLock.noRival⟩

def step? (c : Contest) (i : Nat) : Option (Statement × Contest) :=
  match c.rests[i]? with
  | some (.step act next) =>
    some (⟨i, act, c.documents⟩, ⟨act c.documents, c.rests.set i (next c.documents)⟩)
  | _ => none

/-- The statements in `past`, of whichever calls, led from `c₀` to the last contest. -/
inductive Run (c₀ : Contest) : List Statement → Contest → Prop
  | start : Run c₀ [] c₀
  | step {past : List Statement} {c c' : Contest} {e : Statement} {i : Nat} (h : Run c₀ past c)
    (hstep : c.step? i = some (e, c')) : Run c₀ (past ++ [e]) c'

theorem step?_eq_some {c c' : Contest} {i : Nat} {e : Statement} (h : c.step? i = some (e, c')) :
    ∃ act next, c.rests[i]? = some (.step act next) ∧ e = ⟨i, act, c.documents⟩ ∧
      c' = ⟨act c.documents, c.rests.set i (next c.documents)⟩ := by
  unfold step? at h
  split at h
  · rename_i act next hrest
    obtain ⟨rfl, rfl⟩ := Prod.mk.inj (Option.some.inj h)
    exact ⟨act, next, hrest, rfl, rfl⟩
  · contradiction

structure Sound (calls : List (LockCall × Int)) (ds₀ : Documents) (past : List Statement)
    (c : Contest) : Prop where
  path : Path ds₀ past c.documents
  obeys : ∀ i call rounds rest, calls[i]? = some (call, rounds) → c.rests[i]? = some rest →
    Obeys ds₀ i call.Writes (Account call i rounds) rest past
  own : ∀ e ∈ past, ∃ call rounds, calls[e.caller]? = some (call, rounds) ∧
    (e.Idle ∨ call.Writes e)
  length : c.rests.length = calls.length

variable {calls : List (LockCall × Int)} {past : List Statement} {c : Contest}

theorem Run.sound (h : (begin calls ds₀).Run past c) : Sound calls ds₀ past c := by
  induction h with
  | start =>
    refine ⟨.nil, fun i call rounds rest hcall hrest => ?_, nofun, List.length_map _⟩
    have : rest = call.perform rounds RunLock.noRival := by
      simpa [begin, hcall, eq_comm] using hrest
    exact this ▸ RunLock.obeys_perform call
  | @step past c c' e i h hstep ih =>
    obtain ⟨act, next, hrest, rfl, rfl⟩ := step?_eq_some hstep
    have hi : i < calls.length := by
      rw [← ih.length]
      exact (List.getElem?_eq_some_iff.mp hrest).1
    obtain ⟨⟨call, rounds⟩, hcall⟩ : ∃ p, calls[i]? = some p := ⟨_, List.getElem?_eq_getElem hi⟩
    have hobeys : Obeys ds₀ i call.Writes (Account call i rounds) (.step act next) past :=
      ih.obeys i call rounds _ hcall hrest
    have hpath : Path ds₀ (past ++ []) c.documents := (List.append_nil past).symm ▸ ih.path
    obtain ⟨hown, hnext⟩ := hobeys [] c.documents nofun hpath
    rw [List.append_nil] at hnext
    have hgrows : c.documents.Grows (act c.documents) := hown.elim (·.grows) (·.grows)
    refine ⟨ih.path.snoc hgrows, fun j call' rounds' rest hcall' hrest' => ?_, fun e he => ?_, ?_⟩
    · -- The call whose statement it was goes on; for every other call somebody else did something.
      by_cases hj : j = i
      · subst hj
        rw [List.getElem?_set_self (ih.length ▸ hi)] at hrest'
        obtain rfl := Option.some.inj hrest'
        obtain ⟨rfl, rfl⟩ := Prod.mk.inj (Option.some.inj (hcall.symm.trans hcall'))
        exact hnext
      · rw [List.getElem?_set_ne (Ne.symm hj)] at hrest'
        have hothers : ∀ e ∈ [(⟨i, act, c.documents⟩ : Statement)], e.caller ≠ j :=
          fun e he => List.mem_singleton.mp he ▸ Ne.symm hj
        exact (ih.obeys j call' rounds' rest hcall' hrest').others
          (fun _ _ _ hothers => .others hothers) hothers
    · rcases List.mem_append.mp he with he | he
      · exact ih.own e he
      · obtain rfl := List.mem_singleton.mp he
        exact ⟨call, rounds, hcall, hown⟩
    · rw [List.length_set]
      exact ih.length

theorem not_declines_success (call : LockCall) (ds : Documents) :
    ¬call.Declines call.success ds := by
  cases call <;> exact id

theorem Run.account (h : (begin calls ds₀).Run past c) {i : Nat} {call : LockCall} {rounds : Int}
    {outcome : Except Failure Reply} (hcall : calls[i]? = some (call, rounds))
    (hrest : c.rests[i]? = some (.done outcome)) : Account call i rounds past outcome :=
  h.sound.obeys i call rounds _ hcall hrest

/-- Whatever the calls and the order of their statements: a statement reads, creates a missing
document, fails to write, or changes the entry of its own call in the documents of that instant and
nothing else, under the next version, and only where its call may. A call that succeeds has done so
exactly once; one that declines has not, and its reason was true at one of its statements; one that
fails has not either, and was overtaken by another call in each of its rounds. -/
theorem linearizable (h : (begin calls ds₀).Run past c) :
    (∀ e ∈ past, e.Idle ∨ ∃ call rounds, calls[e.caller]? = some (call, rounds) ∧ call.Writes e ∧
      ∀ topic, e.after.get topic =
        if topic = call.topic then
          some ⟨call.change (e.before.content topic), (e.before.current topic).version + 1⟩
        else e.before.get topic) ∧
    ∀ i call rounds, calls[i]? = some (call, rounds) →
      (c.rests[i]? = some (.done (.ok call.success)) →
        ∃ front e back, past = front ++ e :: back ∧ e.caller = i ∧ call.Writes e ∧
          Silent i front ∧ Silent i back) ∧
      (∀ reply, reply ≠ call.success → c.rests[i]? = some (.done (.ok reply)) →
        Silent i past ∧ ∃ r ∈ past, r.caller = i ∧ call.Declines reply r.before) ∧
      (∀ failure, c.rests[i]? = some (.done (.error failure)) →
        failure = call.exhausted ∧ Silent i past ∧ Lost call i rounds.toNat past) := by
  refine ⟨fun e he => ?_, fun i call rounds hcall => ⟨fun hrest => ?_, fun reply hreply hrest => ?_,
    fun failure hrest => ?_⟩⟩
  · obtain ⟨call, rounds, hcall, hidle | hwrites⟩ := h.sound.own e he
    · exact .inl hidle
    · refine .inr ⟨call, rounds, hcall, hwrites, fun topic => ?_⟩
      rw [hwrites.after, call.get_write]
  · generalize hsuccess : call.success = reply at hrest
    cases h.account hcall hrest with
    | wrote hpast hcaller hwrites hfront hback =>
      exact ⟨_, _, _, hpast, hcaller, hwrites, hfront, hback⟩
    | declined _ _ hreason => exact absurd (hsuccess ▸ hreason) (not_declines_success call _)
  · cases h.account hcall hrest with
    | wrote => contradiction
    | declined hr hcaller hreason hsilent => exact ⟨hsilent, _, hr, hcaller, hreason⟩
  · cases h.account hcall hrest with
    | exhausted hlost hsilent => exact ⟨rfl, hsilent, hlost⟩

def replay? : List Nat → Contest → Option (List Statement × Contest)
  | [], c => some ([], c)
  | i :: rest, c => do
    let (e, next) ← c.step? i
    let (past, last) ← replay? rest next
    return (e :: past, last)

theorem Run.of_replay? {c₀ : Contest} {order : List Nat} {later : List Statement} {c' : Contest}
    (h : c₀.Run past c) (horder : c.replay? order = some (later, c')) :
    c₀.Run (past ++ later) c' := by
  induction order generalizing c past later with
  | nil =>
    obtain ⟨rfl, rfl⟩ := Prod.mk.inj (Option.some.inj horder)
    rwa [List.append_nil]
  | cons i rest ih =>
    obtain ⟨⟨e, next⟩, hstep, horder⟩ := Option.bind_eq_some_iff.mp horder
    obtain ⟨⟨later', last⟩, hrest, hlast⟩ := Option.bind_eq_some_iff.mp horder
    obtain ⟨rfl, rfl⟩ := Prod.mk.inj (Option.some.inj hlast)
    rw [List.append_cons]
    exact ih (h.step hstep) hrest

/-- Of two calls the first one has failed and the second one has done its write. -/
def overtaken (c : Contest) : Bool :=
  match c.rests with
  | [.done (.error _), .done (.ok .nothing)] => true
  | _ => false

/-- A start with one round, whose type is disabled after it has read both documents. -/
theorem linearizable_overtaken :
    ∃ past c failure, (begin [(.tryAcquire "nightly" "job-1" [], 1), (.disable "nightly" "", 1)]
        {}).Run past c ∧
      c.rests[0]? = some (.done (.error failure)) ∧ c.rests[1]? = some (.done (.ok .nothing)) ∧
      failure = .contention (.acquiring "nightly") ∧
      Lost (.tryAcquire "nightly" "job-1" []) 0 1 past ∧
      ∃ e ∈ past, e.caller = 1 ∧ LockCall.Writes (.disable "nightly" "") e := by
  obtain ⟨⟨past, c⟩, hreplay, hp⟩ := (Option.any_eq_true _ _).mp (by decide +kernel :
    ((begin [(.tryAcquire "nightly" "job-1" [], 1), (.disable "nightly" "", 1)] {}).replay?
      [0, 0, 0, 0, 0, 0, 1, 1, 0]).any (·.2.overtaken))
  have hrun : Run _ past c := Run.of_replay? .start hreplay
  obtain ⟨-, haccounts⟩ := linearizable hrun
  unfold overtaken at hp
  split at hp
  · rename_i failure hrests
    have hrest₀ : c.rests[0]? = some (.done (.error failure)) := by rw [hrests]; rfl
    have hrest₁ : c.rests[1]? = some (.done (.ok .nothing)) := by rw [hrests]; rfl
    obtain ⟨hfailure, -, hlost⟩ := (haccounts 0 _ _ rfl).2.2 failure hrest₀
    obtain ⟨front, e, back, hpast, hcaller, hwrites, -⟩ := (haccounts 1 _ _ rfl).1 hrest₁
    have he : e ∈ past := hpast ▸ List.mem_append_right _ List.mem_cons_self
    exact ⟨past, c, failure, hrun, hrest₀, hrest₁, hfailure, hlost, e, he, hcaller, hwrites⟩
  · contradiction

end Contest

end JobControl
