import JobControl.Proofs.Census
import JobControl.Proofs.Ledger
import JobControl.Proofs.Operations

/-! # The accounts of a cluster

A start or a stop is counted after its unit of work, and a death is counted and announced after it
was noted. `Book` says what is not accounted for yet, `Balance` that with it the counters, the
events and the jobs agree. To stop a job as dead gives the thread that does it, and no other, the
right to say so. -/

namespace JobControl
open Routine (Tidy Follows Keeps)
open Store (arrivals departures)

/-- The books of a stretch. -/
structure Book where
  /-- Nothing has been done yet. -/
  fresh : Bool
  /-- The job whose death the thread may announce. -/
  credit : Option String
  /-- The type of a job that has come in and is to be counted. -/
  start : Option String
  /-- The type and the status of a job that was stopped and is to be counted. -/
  stop : Option (String × Status)
  /-- The job that was said to be dead, and is to be announced. -/
  obituary : Option String
  /-- The type of a job that was counted as killed, and is to be announced. -/
  death : Option String

namespace Book

def opened (credit : Option String) : Book := ⟨true, credit, none, none, none, none⟩

structure Settled (g : Book) : Prop where
  start : g.start = none
  stop : g.stop = none
  obituary : g.obituary = none
  death : g.death = none

theorem settled_opened (credit : Option String) : (opened credit).Settled := ⟨rfl, rfl, rfl, rfl⟩

/-- The death of the job was noted, and is to be announced. -/
def announcing (id : String) : Book := ⟨false, none, none, none, some id, none⟩

/-- Something was done that needs no entry. -/
def used (g : Book) : Book := { g with fresh := false }

theorem Settled.used {g : Book} (h : g.Settled) : g.used.Settled :=
  ⟨h.start, h.stop, h.obituary, h.death⟩

end Book

theorem Status.label_injective {a b : Status} (h : a.label = b.label) : a = b := by
  cases a <;> cases b <;> first | rfl | exact absurd h (by decide)

def Event.isDeath (e : Event) : Bool := e.occasion == .dead

namespace Bus

/-- Work on the bus that announces nothing. -/
def silence : Conduct Bus where
  inv _ := True
  turn b b' := b'.announced = b.announced
  quiet b b' := b'.announced = b.announced
  quiet_refl _ := rfl
  turn_of_quiet _ h := h
  turn_quiet h h' := h'.trans h
  inv_turn _ _ := trivial

theorem silence_allows {fresh : Bool} {b b' : Bus} :
    silence.allows fresh b b' ↔ b'.announced = b.announced := by
  cases fresh <;> rfl

theorem announced_call (name : String) (l : Listener) (e : Event) (b : Bus) :
    (call name l e b).2.announced = b.announced := by
  have hfold : ∀ (subs : List Subscription) (b : Bus),
      (b.changeAll subs).announced = b.announced := by
    intro subs
    induction subs with
    | nil => exact fun _ => rfl
    | cons s subs ih => exact fun b => (ih _).trans (by cases s <;> rfl)
  exact hfold _ _

def silent : Logic :=
  keeping silence fun _ name l e b => silence_allows.mpr (announced_call name l e b)

end Bus

namespace Cluster

def deaths (c : Cluster) : List Event := c.bus.announced.filter (·.isDeath)

/-- What was counted and announced since `c₀`, with what is still to be, is what has happened to the
jobs. Deaths are said only by those who stopped the job; unless somebody else forges it, so are
obituaries. -/
structure Balance (forged : Bool) (c₀ : Cluster) (g₀ g : Book) (c : Cluster) : Prop where
  started : ∀ t, c.metrics.started.count t + owed g.start t =
    c₀.metrics.started.count t + (arrivals c₀.store c.store).countP (·.2.jobType = t)
  stopped : ∀ t status, c.metrics.stopped.count (t, status.label) + owed g.stop (t, status) =
    c₀.metrics.stopped.count (t, status.label) +
      (departures c₀.store c.store).countP fun e => e.2.jobType = t && e.2.status = status
  killed : ∀ t, c.metrics.killed.count t + c₀.deaths.countP (·.jobType = t) =
    c₀.metrics.killed.count t + c.deaths.countP (·.jobType = t) + owed g.death t
  dead : ∀ id, c.deaths.countP (·.jobId = id) + owed g.obituary id + owed g.credit id ≤
    c₀.deaths.countP (·.jobId = id) + owed g₀.credit id +
      (departures c₀.store c.store).countP fun e => e.1 = id && e.2.status = .dead
  obituaries : forged = false → ∀ id, c.store.obituaries id + c₀.deaths.countP (·.jobId = id) ≤
    c₀.store.obituaries id + c.deaths.countP (·.jobId = id) + owed g.obituary id

theorem Balance.opened (forged : Bool) (c : Cluster) (credit : Option String) :
    c.Balance forged (.opened credit) (.opened credit) c where
  started t := by rw [Store.arrivals_of_records_eq rfl]; rfl
  stopped t status := by rw [Store.departures_of_records_eq rfl]; rfl
  killed t := rfl
  dead id := by rw [Store.departures_of_records_eq rfl]; exact Nat.le_refl _
  obituaries _ id := Nat.le_refl _

/-- A stretch that has led from `c₀` to `c` with the books `g` was one transaction, which starts
jobs from definitions in `P` only, and its books balance. They need not if there are processes with
events of their own, or once the clock has failed. -/
structure Booked (forged : Bool) (hidden : Prop) (P : Definition → Prop) (c₀ : Cluster)
    (g₀ g : Book) (c : Cluster) : Prop where
  tx : ∃ tx : Transaction, tx.Makes c₀.toWorkspace c.store ∧ tx.StartsFrom P
  fresh : g.fresh → g.credit = g₀.credit ∧ c.toWorkspace = c₀.toWorkspace ∧
    (hidden ∨ c₀.Balance forged g₀ g c)
  balance : hidden ∨ c.clock.now? = none ∨ c₀.Balance forged g₀ g c

theorem Booked.opened (forged : Bool) (hidden : Prop) (P : Definition → Prop) (c : Cluster)
    (credit : Option String) : c.Booked forged hidden P (.opened credit) (.opened credit) c :=
  ⟨⟨.aside, .refl _, nofun⟩, fun _ => ⟨rfl, rfl, .inr (.opened forged c credit)⟩,
    .inr (.inr (.opened forged c credit))⟩

/-- Where there are processes with events of their own, the books say nothing of the event bus. -/
theorem Booked.hide {forged : Bool} {hidden : Prop} {P : Definition → Prop} {c₀ c : Cluster}
    {g₀ g : Book} (h : c₀.Booked forged hidden P g₀ g c) (hhidden : hidden) (b₀ b : Bus) :
    Cluster.Booked forged hidden P { c₀ with bus := b₀ } g₀ g { c with bus := b } :=
  ⟨h.tx, fun hfresh => ⟨(h.fresh hfresh).1, (h.fresh hfresh).2.1, .inl hhidden⟩, .inl hhidden⟩

def ledger (forged : Bool) (hidden : Prop) (P : Definition → Prop) : Ledger Cluster Book where
  inv _ := True
  holds := Booked forged hidden P
  settled := Book.Settled
  reopen g := .opened g.credit
  holds_reopen _ := .opened _ _ _ _ _
  settled_reopen _ := Book.settled_opened _

variable {forged : Bool} {hidden : Prop} {P : Definition → Prop} {c₀ c c' : Cluster}
  {g₀ g g' : Book} {α : Type}

/-! ## Steps that need no entry -/

/-- Nothing has happened that is counted or announced. -/
structure Hushed (c c' : Cluster) : Prop where
  store : c'.store = c.store
  clock : c.clock.now? = none → c'.clock.now? = none
  started : c'.metrics.started = c.metrics.started
  stopped : c'.metrics.stopped = c.metrics.stopped
  killed : c'.metrics.killed = c.metrics.killed
  deaths : c'.deaths = c.deaths

theorem Balance.hushed (h : c₀.Balance forged g₀ g c) (hc : c.Hushed c') :
    c₀.Balance forged g₀ g.used c' where
  started t := by rw [hc.store, hc.started]; exact h.started t
  stopped t status := by rw [hc.store, hc.stopped]; exact h.stopped t status
  killed t := by rw [hc.killed, hc.deaths]; exact h.killed t
  dead id := by rw [hc.store, hc.deaths]; exact h.dead id
  obituaries hforged id := by rw [hc.store, hc.deaths]; exact h.obituaries hforged id

theorem Booked.hushed (h : c₀.Booked forged hidden P g₀ g c) (hc : c.Hushed c') :
    c₀.Booked forged hidden P g₀ g.used c' := by
  refine ⟨hc.store ▸ h.tx, nofun, ?_⟩
  rcases h.balance with hhidden | hclock | hbalance
  · exact .inl hhidden
  · exact .inr (.inl (hc.clock hclock))
  · exact .inr (.inr (hbalance.hushed hc))

theorem quiet_of_hushed {f : Cluster → Cluster} (hf : ∀ c, Hushed c (f c)) :
    (ledger forged hidden P).Quiet f :=
  fun hg h => ⟨_, hg.used, h.hushed (hf _)⟩

theorem hushed_read (c : Cluster) : c.Hushed { c with clock := c.clock.read.2 } := by
  refine ⟨rfl, fun hnone => ?_, rfl, rfl, rfl, rfl⟩
  unfold Clock.read
  rw [hnone]
  exact hnone

/-! ## Units of work -/

/-- The books say what the unit of work leaves to be counted. -/
structure Covers (forged : Bool) (s : Store) (grant : Option String) (g : Book) (s' : Store) :
    Prop where
  used : g.fresh = false
  start : ∀ t, owed g.start t = (arrivals s s').countP (·.2.jobType = t)
  stop : ∀ t status, owed g.stop (t, status) =
    (departures s s').countP fun e => e.2.jobType = t && e.2.status = status
  death : g.death = none
  dead : ∀ id, owed g.obituary id + owed g.credit id ≤
    owed grant id + (departures s s').countP fun e => e.1 = id && e.2.status = .dead
  obituaries : forged = false → ∀ id, s'.obituaries id ≤ s.obituaries id + owed g.obituary id

theorem Booked.unit {w : Workspace} {grant : Option String}
    (h : c₀.Booked forged hidden P g₀ (.opened grant) c) (tx : Transaction)
    (hmakes : tx.Makes c.toWorkspace w.store) (hfrom : tx.StartsFrom P)
    (hcovers : Covers forged c.store grant g w.store) :
    c₀.Booked forged hidden P g₀ g { c with toWorkspace := w } := by
  obtain ⟨hgrant, hworkspace, hbalance⟩ := h.fresh rfl
  have hstore : c.store = c₀.store := congrArg Workspace.store hworkspace
  refine ⟨⟨tx, hworkspace ▸ hmakes, hfrom⟩, fun hfresh => ?_,
    hbalance.imp_right fun hbalance => .inr ?_⟩
  · rw [hcovers.used] at hfresh
    contradiction
  have hgrant : g₀.credit = grant := hgrant.symm
  have harrivals : arrivals c₀.store c₀.store = [] := Store.arrivals_of_records_eq rfl
  have hdepartures : departures c₀.store c₀.store = [] := Store.departures_of_records_eq rfl
  have hstarted := hbalance.started
  have hstopped := hbalance.stopped
  have hdead := hbalance.dead
  have hobituaries := hbalance.obituaries
  simp only [Book.opened, owed_none, Nat.add_zero, harrivals, hdepartures, List.countP_nil, hgrant,
    hstore] at hstarted hstopped hdead hobituaries
  rw [hstore] at hcovers
  refine ⟨fun t => ?_, fun t status => ?_, fun t => ?_, fun id => ?_, fun hforged id => ?_⟩
  · rw [hcovers.start]
    exact congrArg (· + _) (hstarted t)
  · rw [hcovers.stop]
    exact congrArg (· + _) (hstopped t status)
  · rw [hcovers.death]
    exact hbalance.killed t
  · have hcover := hcovers.dead id
    have hid := hdead id
    rw [hgrant]
    show c.deaths.countP _ + _ + _ ≤ _ + _ + (departures c₀.store w.store).countP _
    omega
  · have hcover := hcovers.obituaries hforged id
    have hid := hobituaries hforged id
    show w.store.obituaries id + _ ≤ _ + c.deaths.countP _ + _
    omega

/-- No job has come or gone. -/
theorem Covers.of_nil {s s' : Store} (grant : Option String) (harrivals : arrivals s s' = [])
    (hdepartures : departures s s' = [])
    (hobituaries : forged = false → ∀ id, s'.obituaries id ≤ s.obituaries id) :
    Covers forged s grant (Book.opened grant).used s' := by
  refine ⟨rfl, fun t => ?_, fun t status => ?_, rfl, fun id => ?_, hobituaries⟩
  · rw [harrivals]
    rfl
  · rw [hdepartures]
    rfl
  · rw [hdepartures]
    exact Nat.le_of_eq (Nat.zero_add _)

theorem Covers.of_records_eq {s s' : Store} (grant : Option String)
    (hrecords : s'.records = s.records) (hobituaries : ∀ id, s'.obituaries id ≤ s.obituaries id) :
    Covers forged s grant (Book.opened grant).used s' :=
  .of_nil grant (Store.arrivals_of_records_eq hrecords) (Store.departures_of_records_eq hrecords)
    fun _ => hobituaries

theorem Covers.of_eq {s s' : Store} (grant : Option String) (h : s' = s) :
    Covers forged s grant (Book.opened grant).used s' := by
  rw [h]
  exact .of_records_eq grant rfl fun _ => Nat.le_refl _

theorem Covers.of_plain {tx : Transaction} {s s' : Store} (grant : Option String)
    (htx : tx.isPlain forged) (h : tx.Outcome s s') :
    Covers forged s grant (Book.opened grant).used s' := by
  refine .of_nil grant (h.arrivals_eq_nil fun _ _ _ _ hstart => ?_)
    (h.departures_eq_nil fun _ _ _ hstop => ?_) fun hforged id => ?_
  · simp [hstart, Transaction.isPlain] at htx
  · simp [hstop, Transaction.isPlain] at htx
  · have hle := h.obituaries_le id
    rwa [Transaction.obituary?_of_isPlain (hforged ▸ htx)] at hle

theorem Covers.of_start {s s' : Store} {engine : Engine} {d : Definition} {id : String}
    {now : Timestamp} {r : Record} (grant : Option String)
    (h : Transaction.Outcome s (.start engine d id now) s') (harrivals : arrivals s s' = [(id, r)])
    (htype : r.jobType = d.jobType) :
    Covers forged s grant { (Book.opened grant).used with start := some d.jobType } s' := by
  have hdepartures : departures s s' = [] := h.departures_eq_nil nofun
  refine ⟨rfl, fun t => ?_, fun t status => ?_, rfl, fun id => ?_, fun _ id => h.obituaries_le id⟩
  · rw [harrivals, List.countP_singleton, htype]
    simp [owed]
  · rw [hdepartures]
    rfl
  · rw [hdepartures]
    exact Nat.le_of_eq (Nat.zero_add _)

/-- Who stops a job as dead may say so. -/
theorem Covers.of_stop {s s' : Store} {engine : Engine} {id : String} {status : Option Status}
    {r : Record} (grant : Option String) (h : Transaction.Outcome s (.stop engine id status) s')
    (hdepartures : departures s s' = [(id, r)]) :
    Covers forged s grant { (Book.opened grant).used with
      stop := some (r.jobType, r.status), credit := if r.status = .dead then some id else none }
      s' := by
  have harrivals : arrivals s s' = [] := h.arrivals_eq_nil nofun
  refine ⟨rfl, fun t => ?_, fun t status => ?_, rfl, fun k => ?_, fun _ id => h.obituaries_le id⟩
  · rw [harrivals]
    rfl
  · rw [hdepartures, List.countP_singleton]
    simp [owed, Bool.and_eq_true]
  · rw [hdepartures, List.countP_singleton]
    refine Nat.le_trans ?_ (Nat.le_add_left _ _)
    by_cases hdead : r.status = .dead
    · simp [hdead, owed, Book.used, Book.opened]
    · simp [hdead, owed, Book.used, Book.opened]

/-- The death of a job is noted by the one who may say so. -/
theorem Covers.of_note {s s' : Store} {id : String} {m : Message Timestamp}
    (h : Transaction.Outcome s (.note id m) s') :
    Covers forged s (some id)
      { (Book.opened (some id)).used with credit := none, obituary := some id } s' := by
  have harrivals : arrivals s s' = [] := h.arrivals_eq_nil nofun
  have hdepartures : departures s s' = [] := h.departures_eq_nil nofun
  refine ⟨rfl, fun t => ?_, fun t status => ?_, rfl, fun k => ?_, fun _ k => ?_⟩
  · rw [harrivals]
    rfl
  · rw [hdepartures]
    rfl
  · rw [hdepartures]
    exact Nat.le_refl _
  · refine Nat.le_trans (h.obituaries_le k) (Nat.add_le_add_left ?_ _)
    cases hm : m.isObituary <;> simp [Transaction.obituary?, hm, owed]

theorem tidy_transaction {u : UnitOfWork α}
    (h : ∀ w, ∃ tx : Transaction, tx.isPlain forged ∧ tx.Makes w (u.commit w).2.store) :
    Tidy (ledger forged hidden P) (fun _ => True) (atomically u) := by
  intro g hg
  refine .yielding hg (.act fun c₀ g₀ c hc => ?_)
  obtain ⟨tx, hplain, hmakes⟩ := h c.toWorkspace
  have hsettled := (Book.settled_opened g.credit).used
  have hcovers := Covers.of_plain g.credit hplain hmakes.outcome
  exact ⟨_, hc.unit tx hmakes (Transaction.startsFrom_of_isPlain hplain) hcovers,
    fun _ _ => ⟨hsettled, trivial⟩, fun _ _ => hsettled⟩

theorem tidy_aside {u : UnitOfWork α} (h : u.Makes fun _ => False) :
    Tidy (ledger forged hidden P) (fun _ => True) (atomically u) := by
  refine tidy_transaction fun w => ⟨.aside, rfl, ?_⟩
  have hw := (h w).1
  show w.store.Change _ (u.commit w).2.store
  rw [UnitOfWork.store_commit]
  split
  · rename_i hrun
    rwa [hrun] at hw
  · exact .refl _

theorem tidy_query (f : Store → α) :
    Tidy (ledger forged hidden P) (fun _ => True) (atomically (UnitOfWork.query f)) :=
  tidy_aside (.query f)

/-! ## Counting and announcing -/

theorem Booked.countStart {t : String} (h : c₀.Booked forged hidden P g₀ g c)
    (hg : g.start = some t) :
    c₀.Booked forged hidden P g₀ { g.used with start := none }
      { c with metrics := c.metrics.jobStarted t } := by
  refine ⟨h.tx, nofun, h.balance.imp_right (.imp_right fun hb => ?_)⟩
  refine ⟨fun t' => ?_, hb.stopped, hb.killed, hb.dead, hb.obituaries⟩
  have ht' := hb.started t'
  rw [hg, owed_some] at ht'
  show (c.metrics.started.bump t).count t' + 0 = _
  rw [Tally.count_bump]
  split at ht'
  · subst t'
    rwa [if_pos rfl]
  · rwa [if_neg ‹_›]

theorem Booked.countStop {t : String} {status : Status} (h : c₀.Booked forged hidden P g₀ g c)
    (hg : g.stop = some (t, status)) :
    c₀.Booked forged hidden P g₀ { g.used with stop := none }
      { c with metrics := c.metrics.jobStopped t status.label } := by
  refine ⟨h.tx, nofun, h.balance.imp_right (.imp_right fun hb => ?_)⟩
  refine ⟨hb.started, fun t' status' => ?_, hb.killed, hb.dead, hb.obituaries⟩
  have ht' := hb.stopped t' status'
  rw [hg, owed_some] at ht'
  show (c.metrics.stopped.bump (t, status.label)).count (t', status'.label) + 0 = _
  rw [Tally.count_bump]
  by_cases heq : (t', status') = (t, status)
  · obtain ⟨rfl, rfl⟩ := Prod.mk.inj heq
    rwa [if_pos rfl] at ht' ⊢
  · have hlabel : (t', status'.label) ≠ (t, status.label) := by
      intro hlabels
      obtain ⟨rfl, hlabel⟩ := Prod.mk.inj hlabels
      exact heq (Prod.ext rfl (Status.label_injective hlabel))
    rw [if_neg heq] at ht'
    rw [if_neg hlabel]
    exact ht'

theorem Booked.countKill {t : String} (h : c₀.Booked forged hidden P g₀ g c) (hg : g.death = none) :
    c₀.Booked forged hidden P g₀ { g.used with death := some t }
      { c with metrics := c.metrics.jobKilled t } := by
  refine ⟨h.tx, nofun, h.balance.imp_right (.imp_right fun hb => ?_)⟩
  refine ⟨hb.started, hb.stopped, fun t' => ?_, hb.dead, hb.obituaries⟩
  have ht' := hb.killed t'
  rw [hg, owed_none] at ht'
  show (c.metrics.killed.bump t).count t' + _ = _ + owed (some t) t'
  rw [Tally.count_bump, owed_some]
  split
  · subst t'
    show _ = _ + c.deaths.countP _ + 1
    omega
  · exact ht'

theorem Booked.announceDeath {id t : String} {time : Timestamp}
    (h : c₀.Booked forged hidden P g₀ g c) (hobituary : g.obituary = some id)
    (hdeath : g.death = some t) :
    c₀.Booked forged hidden P g₀ { g.used with obituary := none, death := none }
      { c with bus := { c.bus with announced := c.bus.announced ++ [⟨id, t, time, .dead⟩] } } := by
  refine ⟨h.tx, nofun, h.balance.imp_right (.imp_right fun hb => ?_)⟩
  have hdeaths : deaths { c with bus :=
      { c.bus with announced := c.bus.announced ++ [⟨id, t, time, .dead⟩] } } =
        c.deaths ++ [⟨id, t, time, .dead⟩] := by
    unfold deaths
    rw [List.filter_append]
    rfl
  refine ⟨hb.started, hb.stopped, fun t' => ?_, fun k => ?_, fun hforged k => ?_⟩
  · have ht' := hb.killed t'
    rw [hdeath, owed_some] at ht'
    rw [hdeaths, List.countP_append, List.countP_singleton]
    simp only [decide_eq_true_eq, @eq_comm _ t t', owed_none]
    omega
  · have hk := hb.dead k
    rw [hobituary, owed_some] at hk
    rw [hdeaths, List.countP_append, List.countP_singleton]
    simp only [decide_eq_true_eq, @eq_comm _ id k, owed_none]
    show _ + _ + 0 + owed g.credit k ≤ _
    omega
  · have hk := hb.obituaries hforged k
    rw [hobituary, owed_some] at hk
    rw [hdeaths, List.countP_append, List.countP_singleton]
    simp only [decide_eq_true_eq, @eq_comm _ id k, owed_none]
    omega

variable {Q : α → Prop}

theorem tidy_now : Tidy (ledger forged hidden P) (fun _ => True) Cluster.now :=
  .act (quiet_of_hushed fun c => hushed_read c)

theorem tidy_nextId : Tidy (ledger forged hidden P) (fun _ => True) nextId := by
  have hushed (c : Cluster) : c.Hushed { c with ids := c.ids.next.2 } :=
    ⟨rfl, id, rfl, rfl, rfl, rfl⟩
  exact .update (quiet_of_hushed hushed)

/-- Other counters need no entry. -/
theorem tidy_record {f : Metrics Micros → Metrics Micros}
    (hstarted : ∀ m, (f m).started = m.started) (hstopped : ∀ m, (f m).stopped = m.stopped)
    (hkilled : ∀ m, (f m).killed = m.killed) :
    Tidy (ledger forged hidden P) (fun _ => True) (record f) := by
  have hushed (c : Cluster) : c.Hushed { c with metrics := f c.metrics } :=
    ⟨rfl, id, hstarted _, hstopped _, hkilled _, rfl⟩
  exact .modify (quiet_of_hushed hushed)

theorem tidy_deliverAll (e : Event) (names : List String) :
    Tidy (ledger forged hidden P) (fun _ => True)
      ((Bus.deliverAll e names).zoom (·.bus) fun b c => { c with bus := b } : Work Unit) := by
  refine .zoom_keeps (C := Bus.silence) (fun _ => trivial) (fun {_ _ g c b fresh} hg hc hb => ?_)
    (Bus.silent.deliverAll e names)
  have hb : b.announced = c.bus.announced := Bus.silence_allows.mp hb
  have hdeaths : deaths { c with bus := b } = c.deaths := by
    unfold deaths
    rw [← hb]
  exact ⟨_, Book.Settled.used hg, Booked.hushed hc ⟨rfl, id, rfl, rfl, rfl, hdeaths⟩⟩

theorem follows_announce {e : Event}
    (h : ∀ c₀ g₀ c, Booked forged hidden P c₀ g₀ g c → ∃ g', g'.Settled ∧
      c₀.Booked forged hidden P g₀ g'
        { c with bus := { c.bus with announced := c.bus.announced ++ [e] } }) :
    Follows (ledger forged hidden P) (fun _ g => g.Settled ∧ True) (announce e) g := by
  unfold announce Bus.publish
  rw [Routine.zoom_bind]
  refine .bind ?_
  intro c₀ g₀ c hc
  obtain ⟨g', hg', hc'⟩ := h c₀ g₀ c hc
  exact ⟨g', hc', tidy_deliverAll e _ hg'⟩

/-- Other events need no entry. -/
theorem tidy_announce {e : Event} (he : e.isDeath = false) :
    Tidy (ledger forged hidden P) (fun _ => True) (announce e) := by
  intro g hg
  refine follows_announce fun c₀ g₀ c hc => ⟨_, hg.used, hc.hushed ⟨rfl, id, rfl, rfl, rfl, ?_⟩⟩
  unfold deaths
  rw [List.filter_append, List.filter_singleton, he]
  exact List.append_nil _

end Cluster

open Cluster

/-! ## The life of a job -/

namespace Lifecycle
variable {forged : Bool} {hidden : Prop} {P : Definition → Prop} {g : Book} {id : String}

theorem tidy_start (engine : Engine) {d : Definition} (hd : P d) :
    Tidy (ledger forged hidden P) (fun _ => True) (start engine d) := by
  refine .seq tidy_nextId fun id => .seq tidy_now fun now => ?_
  intro g hg
  have hfrom : Transaction.StartsFrom P (.start engine d id now) := by
    rintro _ _ _ _ ⟨⟩
    exact hd
  refine .bind (.attempt (.yielding hg (.act fun c₀ g₀ c hc => ?_)) fun e g hg => ?_)
  · have hout := arrivals_enter engine d id now
      (rfl : (enter engine d (Job.new id d.jobType now engine.hostname)).commit c.toWorkspace = _)
    rcases hout with ⟨hok, r, harrivals, htype⟩ | ⟨⟨e, he⟩, hstore⟩
    · have hcovers : Covers forged c.store g.credit _ _ :=
        .of_start g.credit (outcome_enter engine d id now) harrivals htype
      refine ⟨_, hc.unit (.start engine d id now) rfl hfrom hcovers, fun _ _ => ?_, fun e he => ?_⟩
      · -- The job has come in, and is counted next.
        refine .bind (.modify fun c₀ g₀ c hc => ⟨_, hc.countStart rfl, ?_⟩)
        exact ⟨⟨rfl, rfl, rfl, rfl⟩, trivial⟩
      · exact absurd (hok.symm.trans he) nofun
    · have hsettled := (Book.settled_opened g.credit).used
      have hcovers : Covers forged c.store g.credit _ _ := .of_eq g.credit hstore
      refine ⟨_, hc.unit (.start engine d id now) rfl hfrom hcovers, fun _ hok => ?_,
        fun _ _ => hsettled⟩
      exact absurd (he.symm.trans hok) nofun
  · split
    · contradiction
    · rename_i jobType reason _
      have hrecord := @tidy_record forged hidden P (·.jobBlocked jobType reason.label)
        (fun _ => rfl) (fun _ => rfl) fun _ => rfl
      exact .bind ((hrecord hg).mono fun _ g hg => hg)
    · exact hg

/-- Who stops a job as dead may announce its death. -/
theorem follows_finish (engine : Engine) (id : String) (status : Option Status) (hg : g.Settled) :
    Follows (ledger forged hidden P) (fun out g => g.Settled ∧
      ∀ job, out = (some job, true) → status = some .dead → g.credit = some id)
      (finish engine id status) g := by
  refine .bind (.yielding hg (.act fun c₀ g₀ c hc => ?_))
  have hout := departures_leave engine id status
    (rfl : (leave engine id status).commit c.toWorkspace = _)
  rcases hout with ⟨job, r, hok, hdepartures, htype, hstatus, hgiven⟩ | ⟨hother, hrecords⟩
  · have hcovers : Covers forged c.store g.credit _ _ :=
      .of_stop g.credit (outcome_leave engine id status) hdepartures
    refine ⟨_, hc.unit (.stop engine id status) rfl nofun hcovers, fun out hout => ?_,
      fun e he => ?_⟩
    · obtain rfl := Except.ok.inj (hok.symm.trans hout)
      rw [htype, hstatus]
      refine .bind (.modify fun c₀ g₀ c hc => ⟨_, hc.countStop rfl, ?_⟩)
      refine ⟨⟨rfl, rfl, rfl, rfl⟩, fun _ _ hdead => ?_⟩
      exact if_pos (hgiven _ hdead)
    · exact absurd (hok.symm.trans he) nofun
  · have hsettled := (Book.settled_opened g.credit).used
    have hout := outcome_leave (w := c.toWorkspace) engine id status
    have hcovers : Covers forged c.store g.credit _ _ :=
      .of_records_eq g.credit hrecords fun id => hout.obituaries_le id
    refine ⟨_, hc.unit (.stop engine id status) rfl nofun hcovers, fun out hout => ?_,
      fun _ _ => hsettled⟩
    split
    · rename_i job
      exact absurd hout (hother job)
    · rename_i out' hother'
      refine ⟨hsettled, fun job hjob => ?_⟩
      exact absurd hjob (hother' job)

/-- The one who stopped a job as dead says so, and owes its announcement. -/
theorem follows_obituary (now : Timestamp) (hcredit : g.credit = some id) (hg : g.Settled) :
    Follows (ledger forged hidden P) (fun _ g => g = .announcing id)
      (append id ⟨.warning, now, Note.dead⟩) g := by
  refine .yielding hg (.act fun c₀ g₀ c hc => ?_)
  have hc : c₀.Booked forged hidden P g₀ (.opened (some id)) c := hcredit ▸ hc
  have hout := outcome_noting (w := c.toWorkspace) id ⟨.warning, now, Note.dead⟩
  cases hok : ((noting id ⟨.warning, now, Note.dead⟩).commit c.toWorkspace).1 with
  | error e =>
    have hstore := UnitOfWork.commit_of_error hok
    have hcovers : Covers forged c.store (some id) _ _ := .of_eq (some id) hstore
    exact ⟨_, hc.unit (.note id _) rfl nofun hcovers, nofun,
      fun _ _ => (Book.settled_opened _).used⟩
  | ok => exact ⟨_, hc.unit (.note id _) rfl nofun (.of_note hout), fun _ _ => rfl, nofun⟩

/-- The death is counted and announced. If the clock fails in between, it is never announced. -/
theorem follows_death (t : String) :
    Follows (ledger forged hidden P) (fun _ g => g.Settled ∧ True)
      (do record (·.jobKilled t)
          announce ⟨id, t, ← Cluster.now, .dead⟩) (.announcing id) := by
  refine .bind (.modify fun c₀ g₀ c hc => ⟨_, hc.countKill rfl, ?_⟩)
  refine .bind (.act fun c₀ g₀ c hc => ?_)
  cases hnow : c.clock.now? with
  | none =>
    have hread : c.clock.read = (.error (.outOfRange .time), c.clock) := by
      unfold Clock.read
      rw [hnow]
    have hbooked : c₀.Booked forged hidden P g₀ (Book.opened none).used
        { c with clock := c.clock.read.2 } :=
      ⟨hc.tx, nofun, .inr (.inl ((hushed_read c).clock hnow))⟩
    refine ⟨_, hbooked, fun time hok => ?_, fun _ _ => (Book.settled_opened none).used⟩
    rw [hread] at hok
    contradiction
  | some time =>
    have hread : c.clock.read.1 = .ok time := by
      unfold Clock.read
      rw [hnow]
    refine ⟨_, hc.hushed (hushed_read c), fun time' _ => ?_,
      fun _ he => absurd (hread.symm.trans he) nofun⟩
    refine follows_announce fun c₀ g₀ c hc => ⟨_, ?_, hc.announceDeath rfl rfl⟩
    exact ⟨rfl, rfl, rfl, rfl⟩

theorem tidy_kill (engine : Engine) (id : String) :
    Tidy (ledger forged hidden P) (fun _ => True) (kill engine id) := by
  intro g hg
  refine .bind ((follows_finish engine id (some .dead) hg).mono fun out g hout => ?_)
  obtain ⟨hg, hcredit⟩ := hout
  split
  · rename_i job
    have hcredit : g.credit = some id := hcredit job rfl rfl
    -- Only a reading of the clock stands between the stop and the message.
    refine .bind (.act fun c₀ g₀ c hc =>
      ⟨_, hc.hushed (hushed_read c), fun now _ => ?_, fun _ _ => hg.used⟩)
    refine .bind ((follows_obituary (g := g.used) now hcredit hg.used).mono
      fun _ g hannouncing => ?_)
    subst hannouncing
    have hdeath := @follows_death forged hidden P id job.jobType
    have hreturn : Follows (ledger forged hidden P) (fun _ g => g.Settled ∧ True)
        ((do record (·.jobKilled job.jobType)
             announce ⟨id, job.jobType, ← Cluster.now, .dead⟩) >>= fun _ => pure (some job))
        (.announcing id) := .bind (hdeath.mono fun _ g hg => hg)
    simp only [Routine.bind_assoc] at hreturn
    exact hreturn
  · exact ⟨hg, trivial⟩

end Lifecycle

/-! ## The operations -/

namespace Service
variable {forged : Bool} {hidden : Prop} {P : Definition → Prop}

theorem tidy_findJobs (jobType : Option String) (count : Int) :
    Tidy (ledger forged hidden P) (fun _ => True) (findJobs jobType count) := by
  refine tidy_aside ?_
  split
  · exact Jobs.makes_findLatestBy _ count
  · exact Jobs.makes_findLatest count

/-- A removal of jobs that are asked for in the same unit of work. -/
theorem makes_remove {u : UnitOfWork (List (Job Instant))} {f : List (Job Instant) → List String}
    (hu : ∀ w, ∃ jobs, u.run w = (.ok jobs, w)) (w : Workspace) :
    ∃ tx : Transaction, tx.isPlain forged ∧
      tx.Makes w ((u >>= fun jobs => dropStopped (f jobs) : UnitOfWork Nat).commit w).2.store := by
  obtain ⟨jobs, hjobs⟩ := hu w
  refine ⟨.remove (f jobs), rfl, ?_⟩
  show _ = ((dropStopped (f jobs)).commit w).2.store
  rw [UnitOfWork.store_commit, UnitOfWork.store_commit, Routine.run_bind, hjobs]

theorem tidy_deleteJobs (jobType : Option String) :
    Tidy (ledger forged hidden P) (fun _ => True) (deleteJobs jobType) := by
  refine tidy_transaction ?_
  cases jobType with
  | none => exact makes_remove fun w => ⟨_, rfl⟩
  | some t => exact makes_remove fun w => ⟨_, rfl⟩

end Service

/-- All operations leave their books settled. They start jobs from definitions in `P`, and unless it
may be forged, nobody but who killed a job says that it is dead. -/
def Cluster.accounting (forged : Bool) (hidden : Prop) (P : Definition → Prop) : Logic where
  toLogic := (ledger forged hidden P).logic Wake
  concerns _ := True
  admits := P
  notes m := m.isObituary → forged
  now := tidy_now
  announce _ he := tidy_announce (beq_false_of_ne he)
  recordRun _ _ := tidy_record (fun _ => rfl) (fun _ => rfl) fun _ => rfl
  recordClearing _ := tidy_record (fun _ => rfl) (fun _ => rfl) fun _ => rfl
  start engine _ hd := Lifecycle.tidy_start engine hd
  finish engine id status _ _ hg :=
    (Lifecycle.follows_finish engine id status hg).mono fun _ _ h => ⟨h.1, trivial⟩
  kill engine id _ := Lifecycle.tidy_kill engine id
  append id m _ hm := tidy_transaction fun _ => ⟨.note id m, Transaction.isPlain_note id hm, rfl⟩
  keepAlive id _ := tidy_transaction fun _ => ⟨.touch id, rfl, rfl⟩
  skip id time _ := tidy_transaction fun _ => ⟨.skip id time, rfl, rfl⟩
  restart id time _ := tidy_transaction fun _ => ⟨.restart id time, rfl, rfl⟩
  findStale since := tidy_aside (Jobs.makes_findStale since)
  releaseLeaked engine entry := tidy_aside (Lifecycle.makes_releaseLeaked engine entry)
  runningJobs := tidy_aside Lifecycle.makes_runningJobs
  disabledTypes := tidy_aside Service.makes_disabledTypes
  query := tidy_query
  findJobs := Service.tidy_findJobs
  deleteJobs := Service.tidy_deleteJobs
  dropStopped _ := tidy_transaction fun _ => ⟨.remove _, rfl, rfl⟩
  disable _ _ _ := tidy_aside (Service.makes_amend _ _)
  enable _ _ := tidy_aside (Service.makes_amend _ _)

end JobControl
