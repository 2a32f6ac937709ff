import JobControl.Proofs.AccountedWork
import JobControl.Proofs.LockedRuns

/-! # Runs keep their books

In every turn of a run at most one transaction is made, and at its end the counters, the events and
the jobs agree again. The threads are kept together with their credits: whose death each of them may
still announce. -/

namespace JobControl
open Store (arrivals departures)
open Routine (Tidy)

/-! ## What a turn may do -/

/-- A call from outside carries out a command of the service that forges nothing, unless that is
allowed. -/
def Turn.isFit (forged : Bool) : Turn → Bool
  | call _ _ command => command.isFit forged
  | _ => true

def Turn.definition? : Turn → Option Definition
  | call _ _ command => command.definition?
  | _ => none

theorem Turn.isFit_of_isService {turn : Turn} (h : turn.isService) : turn.isFit true := by
  cases turn with
  | call number site command => exact (Bool.and_true _).trans h
  | _ => rfl

theorem Action.isFit_of_isService {a : Action} (h : a.isService) : a.isFit true :=
  (Bool.and_true _).trans h

theorem Handler.IsService.isFit {handler : Handler Script} (h : handler.IsService) :
    handler.IsFit true :=
  fun actions hactions a ha => Action.isFit_of_isService (h actions hactions a ha)

/-- The turn changes the store as the transaction does. -/
def Moment.Performs (m : Moment) (tx : Transaction) : Prop :=
  tx.Makes m.before.deployment.cluster.toWorkspace m.after.store

/-! ## Credits -/

/-- A thread with its credit. -/
abbrev Creditor := Thread × Option String

/-- How many threads may announce the death of the job. -/
def granted (ts : List Creditor) (id : String) : Nat := ts.countP fun t => t.2 = some id

section
variable {ts : List Creditor} {i : Nat} {t : Creditor}

theorem granted_cons (t : Creditor) (ts : List Creditor) (id : String) :
    granted (t :: ts) id = granted ts id + owed t.2 id := by
  unfold granted owed
  rw [List.countP_cons]
  simp only [decide_eq_true_eq]

theorem granted_erase (h : ts[i]? = some t) (id : String) :
    granted (ts.eraseIdx i) id + owed t.2 id = granted ts id := by
  obtain ⟨hi, rfl⟩ := List.getElem?_eq_some_iff.mp h
  rw [← granted_cons]
  exact (List.getElem_cons_eraseIdx_perm hi).countP_eq _

theorem granted_set (h : ts[i]? = some t) (t' : Creditor) (id : String) :
    granted (ts.set i t') id + owed t.2 id = granted ts id + owed t'.2 id := by
  obtain ⟨hi, -⟩ := List.getElem?_eq_some_iff.mp h
  have hset : granted (ts.set i t') id = granted (ts.eraseIdx i) id + owed t'.2 id := by
    rw [← granted_cons]
    exact (List.set_perm_cons_eraseIdx hi t').countP_eq _
  have herase := granted_erase h id
  omega

theorem granted_push (ts : List Creditor) (t : Thread) (id : String) :
    granted (ts ++ [(t, none)]) id = granted ts id := by
  unfold granted
  rw [List.countP_append, List.countP_singleton]
  rfl

end

/-! ## The accounts of a turn -/

/-- From `c` to `c'` the counters, the events and the jobs have changed alike, `k` and `k'` being
how many threads may announce the death of a job. -/
structure Cluster.Agrees (forged : Bool) (c : Cluster) (k k' : String → Nat) (c' : Cluster) :
    Prop where
  started : ∀ t, c'.metrics.started.count t =
    c.metrics.started.count t + (arrivals c.store c'.store).countP (·.2.jobType = t)
  stopped : ∀ t status, c'.metrics.stopped.count (t, status.label) =
    c.metrics.stopped.count (t, status.label) +
      (departures c.store c'.store).countP fun e => e.2.jobType = t && e.2.status = status
  killed : ∀ t, c'.metrics.killed.count t + c.deaths.countP (·.jobType = t) =
    c.metrics.killed.count t + c'.deaths.countP (·.jobType = t)
  dead : ∀ id, c'.deaths.countP (·.jobId = id) + k' id ≤ c.deaths.countP (·.jobId = id) + k id +
    (departures c.store c'.store).countP fun e => e.1 = id && e.2.status = .dead
  obituaries : forged = false → ∀ id, c'.store.obituaries id + c.deaths.countP (·.jobId = id) ≤
    c.store.obituaries id + c'.deaths.countP (·.jobId = id)

namespace Cluster
variable {forged : Bool} {hidden : Prop} {c c' : Cluster} {k k' : String → Nat}

theorem Agrees.of_eq (hstore : c'.store = c.store) (hmetrics : c'.metrics = c.metrics)
    (hbus : c'.bus = c.bus) : c.Agrees forged k k c' := by
  have hdeaths : c'.deaths = c.deaths := by
    unfold deaths
    rw [hbus]
  have harrivals : arrivals c.store c'.store = [] :=
    Store.arrivals_of_records_eq (congrArg Store.records hstore)
  have hdepartures : departures c.store c'.store = [] :=
    Store.departures_of_records_eq (congrArg Store.records hstore)
  refine ⟨fun t => ?_, fun t status => ?_, fun t => ?_, fun id => ?_, fun _ id => ?_⟩
  · rw [hmetrics, harrivals]
    rfl
  · rw [hmetrics, hdepartures]
    rfl
  · rw [hmetrics, hdeaths]
  · rw [hdeaths, hdepartures]
    exact Nat.le_refl _
  · exact Nat.le_of_eq (by rw [hstore, hdeaths])

/-- Settled books agree, whoever holds the credits. -/
theorem Balance.agrees {credit : Option String} {g : Book}
    (h : c.Balance forged (.opened credit) g c') (hg : g.Settled)
    (hk : ∀ id, k' id + owed credit id ≤ k id + owed g.credit id) : c.Agrees forged k k' c' := by
  obtain ⟨hstart, hstop, hobituary, hdeath⟩ := hg
  refine ⟨fun t => ?_, fun t status => ?_, fun t => ?_, fun id => ?_, fun hforged id => ?_⟩
  · have ht := h.started t
    rwa [hstart, owed_none, Nat.add_zero] at ht
  · have ht := h.stopped t status
    rwa [hstop, owed_none, Nat.add_zero] at ht
  · have ht := h.killed t
    rwa [hdeath, owed_none, Nat.add_zero] at ht
  · have hid := h.dead id
    have hkid := hk id
    rw [hobituary, owed_none] at hid
    simp only [Book.opened] at hid
    omega
  · have hid := h.obituaries hforged id
    rwa [hobituary, owed_none, Nat.add_zero] at hid

end Cluster

namespace Deployment

variable {forged : Bool} {hidden : Prop} {P : Definition → Prop} {d : Deployment}

theorem Supplied.ended (owner : Owner) (h : d.Supplied forged hidden P) :
    (owner.ended d).Supplied forged hidden P := by
  cases owner with
  | worker site ticket =>
    have hpool : (d.modifyPool site (·.finish ticket)).Supplied forged hidden P :=
      h.modifyPool fun p t ht => Pool.mem_queue_of_finish ht
    exact hpool.of_eq rfl rfl rfl
  | watch i =>
    have hloop : (d.modifyLoop i (·.runEnded d.now)).Supplied forged hidden P := h.modifyLoop
    exact hloop
  | caller number => exact h

end Deployment

namespace Schedule
open Deployment (ledger)
variable {forged : Bool} {hidden : Prop} {P : Definition → Prop} {s s' s₀ : Schedule} {turn : Turn}
  {past : List Moment} {ts : List Creditor}

/-- Every thread waits with settled books and the credit it is listed with. -/
structure Kept (forged : Bool) (hidden : Prop) (P : Definition → Prop) (ts : List Creditor)
    (s : Schedule) : Prop where
  supplied : s.deployment.Supplied forged hidden P
  threads : ts.map (·.1) = s.threads
  waits : ∀ t ∈ ts, t.1.routine.Waits (ledger forged hidden P) (.opened t.2)

/-- A turn makes one transaction, and leaves everything in agreement. -/
structure Accounts (forged : Bool) (hidden : Prop) (P : Definition → Prop) (ts : List Creditor)
    (s : Schedule) (ts' : List Creditor) (s' : Schedule) : Prop where
  kept : s'.Kept forged hidden P ts'
  performs : ∃ tx : Transaction,
    tx.Makes s.deployment.cluster.toWorkspace s'.store ∧ tx.StartsFrom P
  agrees : hidden ∨ s'.clock.now? = none ∨
    s.deployment.cluster.Agrees forged (granted ts) (granted ts') s'.deployment.cluster

/-- A turn that changes neither the jobs nor the counters nor the events. -/
theorem Accounts.still {ts' : List Creditor} (hkept : s'.Kept forged hidden P ts')
    (hgranted : granted ts' = granted ts) (hstore : s'.store = s.store)
    (hmetrics : s'.deployment.cluster.metrics = s.deployment.cluster.metrics)
    (hbus : s'.deployment.cluster.bus = s.deployment.cluster.bus) :
    Accounts forged hidden P ts s ts' s' := by
  refine ⟨hkept, ⟨.aside, ?_, nofun⟩, .inr (.inr ?_)⟩
  · show s.store.Change _ s'.store
    rw [hstore]
    exact .refl _
  · rw [hgranted]
    exact .of_eq hstore hmetrics hbus

theorem Kept.push (hs : s.Kept forged hidden P ts) {d : Deployment}
    (hd : d.Supplied forged hidden P) {owner : Owner} {r : Deployment.Work Unit}
    (hr : Tidy (ledger forged hidden P) (fun _ => True) r) :
    Kept forged hidden P (ts ++ [(Thread.new owner r, none)]) ⟨d, s.threads ++ [.new owner r]⟩ := by
  refine ⟨hd, ?_, fun t ht => ?_⟩
  · rw [List.map_append, hs.threads]
    rfl
  · rcases List.mem_append.mp ht with ht | ht
    · exact hs.waits t ht
    · obtain rfl := List.mem_singleton.mp ht
      exact hr.waits (Book.settled_opened none)

/-- To begin a thread changes nothing by itself. -/
theorem Accounts.push (hs : s.Kept forged hidden P ts) {d : Deployment}
    (hd : d.Supplied forged hidden P) (hcluster : d.cluster = s.deployment.cluster) {owner : Owner}
    {r : Deployment.Work Unit} (hr : Tidy (ledger forged hidden P) (fun _ => True) r) :
    Accounts forged hidden P ts s (ts ++ [(Thread.new owner r, none)])
      ⟨d, s.threads ++ [.new owner r]⟩ := by
  refine .still (hs.push hd hr) (funext fun id => granted_push ts _ id) ?_ ?_ ?_
  · exact congrArg (·.store) hcluster
  · exact congrArg (·.metrics) hcluster
  · exact congrArg (·.bus) hcluster

/-- Settled books account for a turn, if the credits have changed as they say. -/
theorem Accounts.of_booked {ts' : List Creditor} {credit : Option String} {g : Book}
    (hkept : s'.Kept forged hidden P ts')
    (hbooked : s.deployment.cluster.Booked forged hidden P (.opened credit) g
      s'.deployment.cluster)
    (hg : g.Settled)
    (hcredits : ∀ id, granted ts' id + owed credit id ≤ granted ts id + owed g.credit id) :
    Accounts forged hidden P ts s ts' s' := by
  refine ⟨hkept, hbooked.tx, ?_⟩
  rcases hbooked.balance with hhidden | hnone | hbalance
  · exact .inl hhidden
  · exact .inr (.inl hnone)
  · exact .inr (.inr (hbalance.agrees hg hcredits))

/-- A stretch of a thread changes its own credit only. -/
theorem accounts_play (hs : s.Kept forged hidden P ts) {i : Nat} {owner : Owner} {t : Creditor}
    (ht : ts[i]? = some t) {r : Deployment.Work Unit}
    (hr : r.Follows (ledger forged hidden P) (fun _ => Book.Settled) (.opened t.2)) :
    ∃ ts', Accounts forged hidden P ts s ts' (s.play i owner r) := by
  have hopened : (ledger forged hidden P).holds s.deployment (.opened t.2) (.opened t.2)
      s.deployment := ⟨hs.supplied, .opened forged hidden P _ t.2⟩
  obtain ⟨g, hg, ⟨hsupplied, hbooked⟩, hwaits⟩ := hr.advance hopened
  have hbooked : s.deployment.cluster.Booked forged hidden P (.opened t.2) g
      (s.play i owner r).deployment.cluster := by
    rw [cluster_play]
    exact hbooked
  rcases play_cases s i owner r with
    ⟨outcome, d, hadvance, hplay⟩ | ⟨wake, next, abort, d, hadvance, hplay⟩
  · -- The thread is over, and its credit lapses.
    rw [hadvance] at hsupplied
    have hkept : (s.play i owner r).Kept forged hidden P (ts.eraseIdx i) := by
      rw [hplay]
      refine ⟨hsupplied.ended owner, ?_, fun t ht => hs.waits t (List.mem_of_mem_eraseIdx ht)⟩
      rw [← List.eraseIdx_map, hs.threads]
    refine ⟨_, .of_booked hkept hbooked hg fun id => ?_⟩
    have herase := granted_erase ht id
    omega
  · rw [hadvance] at hsupplied hwaits
    let t' : Creditor := (⟨owner, .wait wake next abort, d.dueOf (.wait wake next abort)⟩, g.credit)
    have hkept : (s.play i owner r).Kept forged hidden P (ts.set i t') := by
      rw [hplay]
      refine ⟨hsupplied, ?_, fun t ht => ?_⟩
      · rw [List.map_set, hs.threads]
      · rcases List.mem_or_eq_of_mem_set ht with ht | rfl
        · exact hs.waits t ht
        · exact hwaits
    exact ⟨_, .of_booked hkept hbooked hg fun id => Nat.le_of_eq (granted_set ht t' id)⟩

theorem accounts_beat (hs : s.Kept forged hidden P ts) (i : Nat) (b : Heartbeat) :
    Accounts forged hidden P ts s ts { s with deployment := s.deployment.afterBeat i b } := by
  let c := s.deployment.cluster
  let u : UnitOfWork Unit := do let _ ← Jobs.touch b.job (← UnitOfWork.now)
  have hopened : c.Booked forged hidden P (.opened none) (.opened none) c := .opened _ _ _ _ _
  have hmakes : Transaction.Makes c.toWorkspace (u.commit c.toWorkspace).2.store (.touch b.job) :=
    rfl
  have hcovers := @Cluster.Covers.of_plain forged _ _ _ none rfl hmakes.outcome
  have hbooked := hopened.unit (.touch b.job) hmakes nofun hcovers
  have hkept : Kept forged hidden P ts { s with deployment := s.deployment.afterBeat i b } :=
    ⟨hs.supplied.of_eq rfl rfl rfl, hs.threads, hs.waits⟩
  exact .of_booked hkept hbooked (Book.settled_opened none).used fun _ => Nat.le_refl _

/-- In every turn one transaction is made, and everything agrees after it. -/
theorem Took.accounts (h : s.Took turn s') (hturn : turn.isFit forged)
    (hfrom : ∀ d, turn.definition? = some d → P d) (hs : s.Kept forged hidden P ts) :
    ∃ ts', Accounts forged hidden P ts s ts' s' := by
  have creditor {i : Nat} {t : Thread} (hthread : s.threads[i]? = some t) :
      ∃ k, ts[i]? = some (t, k) := by
    rw [← hs.threads, List.getElem?_map] at hthread
    obtain ⟨⟨t', k⟩, ht', rfl⟩ := Option.map_eq_some_iff.mp hthread
    exact ⟨k, ht'⟩
  let L := Deployment.accounting forged hidden P
  cases h with
  | @cancel i site ticket r due hthread =>
    obtain ⟨k, hk⟩ := creditor hthread
    have hspare : Kept forged hidden P ts { s with deployment := s.deployment.spare site ticket } :=
      ⟨hs.supplied.of_eq rfl rfl rfl, hs.threads, hs.waits⟩
    have hcancel := (hs.waits _ (List.mem_of_getElem? hk)).2
    obtain ⟨ts', hkept, hperforms, hagrees⟩ :=
      @accounts_play forged hidden P _ ts hspare i (.worker site ticket) _ hk _ hcancel
    exact ⟨ts', hkept, hperforms, hagrees⟩
  | resume hthread =>
    obtain ⟨k, hk⟩ := creditor hthread
    exact accounts_play hs hk (hs.waits _ (List.mem_of_getElem? hk)).1
  | @grant site p pool t hpool hgrant =>
    obtain ⟨s', hs', rfl⟩ := Option.map_eq_some_iff.mp hpool
    have hqueued := hs.supplied.stocks.queued s' (List.mem_of_getElem? hs')
    rw [Pool.grant?_eq_some hgrant] at hqueued
    have hstocks : (s.deployment.modifyPool site fun _ => pool).Stocks
        fun h => h.IsFit forged ∧ h.From P :=
      hs.supplied.stocks.modifyPool fun _ _ t' ht' => hqueued t' (List.mem_cons_of_mem _ ht')
    have hrun := L.run site t.number t.work t.job (fun _ => trivial)
      (hqueued t List.mem_cons_self) trivial trivial
    exact ⟨_, .push hs ⟨hstocks, hs.supplied.watches⟩ rfl hrun⟩
  | beat hbeat hdue => exact ⟨ts, accounts_beat hs _ _⟩
  | @wake i =>
    have hsupplied : (s.deployment.modifyLoop i (·.wake s.now)).Supplied forged hidden P :=
      hs.supplied.modifyLoop
    exact ⟨ts, .still ⟨hsupplied, hs.threads, hs.waits⟩ rfl rfl rfl rfl⟩
  | begin hwatch =>
    have hrun := L.watch _ (hs.supplied.watches _ (List.mem_of_getElem? hwatch))
    exact ⟨_, .push hs hs.supplied.modifyLoop rfl hrun⟩
  | call number site command =>
    have hperform := L.map (f := fun _ => ()) (L.perform site ⟨"", ""⟩ command ⟨hturn, hfrom⟩)
    exact ⟨_, .push hs hs.supplied rfl hperform⟩
  | @elapse span =>
    have hsupplied : (s.atTime (s.now + span)).deployment.Supplied forged hidden P :=
      hs.supplied.of_eq rfl rfl rfl
    exact ⟨ts, .still ⟨hsupplied, hs.threads, hs.waits⟩ rfl rfl rfl rfl⟩
  | shift d =>
    have hsupplied : (s.shift d).deployment.Supplied forged hidden P :=
      hs.supplied.of_eq rfl rfl rfl
    exact ⟨ts, .still ⟨hsupplied, hs.threads, hs.waits⟩ rfl rfl rfl rfl⟩

/-! ## The transactions of a run -/

theorem Sound.fit (h : s.Sound) : s.deployment.Fit true True where
  handlers name handler hget := (h.proper.handlers name handler hget).isFit
  queued site hsite t ht := (h.proper.queued site hsite t ht).isFit
  watches _ _ _ := trivial

theorem Run.isService (h : s₀.Run past s) : ∀ m ∈ past, m.turn.isService := by
  induction h with
  | start => exact fun m hm => absurd hm List.not_mem_nil
  | turn hrun hservice hturn ih =>
    intro m hm
    rcases List.mem_append.mp hm with hm | hm
    · exact ih m hm
    · obtain rfl := List.mem_singleton.mp hm
      exact hservice

theorem Run.kept (h : s₀.Run past s) (hsupplied : s₀.deployment.Supplied forged hidden P)
    (hthreads : s₀.threads = []) (hturns : ∀ m ∈ past, m.turn.isFit forged)
    (hfrom : ∀ m ∈ past, ∀ d, m.turn.definition? = some d → P d) :
    ∃ ts, s.Kept forged hidden P ts := by
  induction h with
  | start => exact ⟨[], hsupplied, hthreads.symm, nofun⟩
  | turn hrun hservice hturn ih =>
    obtain ⟨ts, hkept⟩ := ih (fun m hm => hturns m (List.mem_append_left _ hm))
      fun m hm => hfrom m (List.mem_append_left _ hm)
    have hlast := hturns _ List.mem_concat_self
    obtain ⟨ts', haccounts⟩ :=
      (took_of_turn? hturn).accounts hlast (hfrom _ List.mem_concat_self) hkept
    exact ⟨ts', haccounts.kept⟩

/-- In a run of the service every turn makes a transaction. If the definitions at hand, and those in
calls, are in `P`, it starts no job from another one. -/
theorem Run.performs_from (h : s₀.Run past s) (h₀ : s₀.Initial)
    (hstocks : s₀.deployment.Stocks (·.From P))
    (hfrom : ∀ m ∈ past, ∀ d, m.turn.definition? = some d → P d) :
    ∀ m ∈ past, ∃ tx, m.Performs tx ∧ tx.StartsFrom P := by
  induction h with
  | start => exact fun m hm => absurd hm List.not_mem_nil
  | @turn past s s' turn hrun hservice hturn ih =>
    have hfits : ∀ m ∈ past, m.turn.isFit true := by
      intro m hm
      exact Turn.isFit_of_isService (hrun.isService m hm)
    have hbefore : ∀ m ∈ past, ∀ d, m.turn.definition? = some d → P d :=
      fun m hm => hfrom m (List.mem_append_left _ hm)
    obtain ⟨ts, hkept⟩ := hrun.kept (h₀.sound.fit.supplied hstocks) h₀.threads hfits hbefore
    obtain ⟨ts', haccounts⟩ := (took_of_turn? hturn).accounts
      (Turn.isFit_of_isService hservice) (hfrom _ List.mem_concat_self) hkept
    intro m hm
    rcases List.mem_append.mp hm with hm | hm
    · exact ih hbefore m hm
    · obtain rfl := List.mem_singleton.mp hm
      exact haccounts.performs

theorem Run.performs (h : s₀.Run past s) (h₀ : s₀.Initial) :
    ∀ m ∈ past, ∃ tx, m.Performs tx := by
  intro m hm
  obtain ⟨tx, hperforms, -⟩ :=
    h.performs_from h₀ (.from_true _) (fun _ _ _ _ => trivial) m hm
  exact ⟨tx, hperforms⟩

end Schedule
end JobControl
