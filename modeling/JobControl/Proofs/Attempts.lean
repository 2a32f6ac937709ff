import JobControl.Proofs.Standing

/-! # What the attempts at a job leave behind

A handler is executed until it does not fail, or no restarts are left. `Attempt` is what is seen of
one execution; `Standing.after` what a job has come to after some of them. Each function of the
runner is specified by the number of executions and the standing it leads to. -/

namespace JobControl
open Routine (Attains Returning Leaving)

/-! ## What a handler does in an execution -/

/-- How an execution ends: the handler did its work, found none to do, or raised an exception. -/
inductive Ending where
  | worked
  | skipped
  | raised (kind text : String)
deriving DecidableEq, Repr

/-- What an execution of a handler shows of itself. -/
structure Attempt where
  notes : List (Level × String)
  ending : Ending
deriving DecidableEq, Repr

/-- Only a command concerns other jobs than the own one. -/
def Action.isOwn : Action → Bool
  | call _ _ => false
  | _ => true

namespace Attempt

/-- What comes after the action that ends the execution does not matter. -/
def ofActions : List Action → Attempt
  | [] => ⟨[], .worked⟩
  | .note level text :: rest => ⟨(level, text) :: (ofActions rest).notes, (ofActions rest).ending⟩
  | .raise kind text :: _ => ⟨[], .raised kind text⟩
  | .finish result :: _ => ⟨[], if result.isTruthy then .worked else .skipped⟩
  | _ :: rest => ofActions rest

def fails (x : Attempt) : Bool :=
  match x.ending with
  | .raised _ _ => true
  | _ => false

/-- The messages of an attempt, which may be followed by another. -/
def report (who : Identity) (again : Bool) (x : Attempt) : List (Level × String) :=
  x.notes ++ match x.ending with
    | .worked => []
    | .skipped => [(.info, Note.skipped)]
    | .raised kind text =>
      (.error, "Fatal error in job " ++ who.jobType ++ " (" ++ who.id ++ "): " ++ kind ++ ": " ++
        text) :: if again then [(.warning, Note.restarted)] else []

theorem report_again {who : Identity} {x : Attempt} (h : x.fails) :
    x.report who true = x.report who false ++ [(.warning, Note.restarted)] := by
  obtain ⟨notes, ending⟩ := x
  cases ending with
  | worked | skipped => contradiction
  | raised kind text => simp [report]

/-- The status that the last attempt leaves. -/
def status (x : Attempt) : Status :=
  match x.ending with
  | .worked => if x.notes.any (·.1 = .error) then .error else .ok
  | .skipped => .skipped
  | .raised _ _ => .error

/-- How many of the attempts take place: after one that fails another follows, as long as restarts
are left. -/
def count (attempts : Nat → Attempt) : Nat → Nat
  | 0 => 1
  | restarts + 1 =>
    if (attempts 0).fails then count (fun i => attempts (i + 1)) restarts + 1 else 1

variable {attempts : Nat → Attempt}

theorem count_pos (restarts : Nat) : 0 < count attempts restarts := by
  cases restarts with
  | zero => exact Nat.zero_lt_one
  | succ restarts =>
    unfold count
    split <;> omega

theorem count_of_first {k : Nat} (hfails : ∀ i < k, (attempts i).fails)
    (hlast : ¬(attempts k).fails) (restarts : Nat) :
    count attempts restarts = min (k + 1) (restarts + 1) := by
  induction restarts generalizing attempts k with
  | zero =>
    unfold count
    omega
  | succ restarts ih =>
    unfold count
    cases k with
    | zero =>
      rw [if_neg hlast]
      omega
    | succ k =>
      have hrest : ∀ i < k, (attempts (i + 1)).fails := fun i hi => hfails (i + 1) (by omega)
      rw [if_pos (hfails 0 (Nat.zero_lt_succ k)), ih hrest hlast]
      omega

theorem count_of_forall (hfails : ∀ i, (attempts i).fails) (restarts : Nat) :
    count attempts restarts = restarts + 1 := by
  induction restarts generalizing attempts with
  | zero => rfl
  | succ restarts ih =>
    unfold count
    rw [if_pos (hfails 0), ih fun i => hfails (i + 1)]

end Attempt

/-- The attempts at a job the handler of which was executed so often before. -/
def Handler.attempts (handler : Handler Script) (executed : Nat) (i : Nat) : Attempt :=
  .ofActions (handler.body.execution (executed + i))

theorem Handler.attempts_succ (handler : Handler Script) (executed : Nat) :
    handler.attempts (executed + 1) = fun i => handler.attempts executed (i + 1) := by
  funext i
  unfold attempts
  rw [Nat.add_assoc, Nat.add_comm 1 i]

/-- What the runner is told by the execution. -/
def Ending.outcome : Ending → Except Failure Bool
  | worked => .ok true
  | skipped => .ok false
  | raised kind text => .error (.raised kind text)

/-! ## The standing after some attempts -/

namespace Standing

/-- After the first `n` of the attempts, the last of which is not followed by another. -/
def after (a : Standing) (who : Identity) (attempts : Nat → Attempt) (n : Nat) : Standing :=
  { a with
    messages := a.messages ++
      (List.range n).flatMap fun i => (attempts i).report who (decide (i + 1 < n))
    status := (attempts (n - 1)).status }

/-- The first of several attempts, which resets the status. -/
theorem after_succ (a : Standing) (who : Identity) {attempts : Nat → Attempt} {n : Nat}
    (hn : 0 < n) :
    after { a with
      messages := a.messages ++ (attempts 0).report who true
      status := .ok } who (fun i => attempts (i + 1)) n = a.after who attempts (n + 1) := by
  have hlast : n - 1 + 1 = n + 1 - 1 := by omega
  have hmore : ∀ i, decide (i + 1 < n) = decide (i + 1 + 1 < n + 1) := fun i => by
    rw [decide_eq_decide]
    omega
  have hfirst : decide (0 + 1 < n + 1) = true := by
    rw [decide_eq_true_eq]
    omega
  have hmessages : (List.range (n + 1)).flatMap
        (fun i => (attempts i).report who (decide (i + 1 < n + 1))) =
      (attempts 0).report who true ++ (List.range n).flatMap
        fun i => (attempts (i + 1)).report who (decide (i + 1 < n)) := by
    rw [List.range_succ_eq_map, List.flatMap_cons, List.flatMap_map, hfirst]
    simp only [hmore]
  unfold after
  simp only [hmessages, hlast, List.append_assoc]

theorem after_one (a : Standing) (who : Identity) (attempts : Nat → Attempt) :
    a.after who attempts 1 = { a with
      messages := a.messages ++ (attempts 0).report who false
      status := (attempts 0).status } := by
  simp [after]

end Standing

/-! ## What the functions of the runner attain -/

namespace Deployment
variable {site : Nat} {id : String} {offset : Option Micros} {endless : Prop}
  {e n : Nat} {a a' : Standing} {α : Type}

/-- Keeps track of a job by the number of its executions and its standing. The engine at the site
is able to write. -/
def tracking (site : Nat) (id : String) (offset : Option Micros) (endless : Prop) :
    Tracking Wake Deployment (Nat × Standing) where
  shows g d := d.executed id = g.1 ∧ (Cluster.tracking id offset endless).shows g.2 d.cluster ∧
    0 < (d.engine site).rounds
  fair d := d.cluster.clock.Storable
  patient w := w = .never → endless

theorem attains_onCluster {r : Cluster.Work α}
    (h : r.Attains (Cluster.tracking id offset endless) (Leaving a') a n) :
    (onCluster r).Attains (tracking site id offset endless) (Leaving (e, a'))
      (e, a) n := by
  refine Attains.zoom (f := fun a => (e, a)) (fun _ _ hd => hd.2.1) (fun _ hd => hd)
    (fun _ _ _ _ hd hc => ⟨hd.1, hc, hd.2.2⟩) (fun _ hw => hw) (h.mono (Nat.le_refl n) ?_)
  rintro outcome _ ⟨x, rfl, rfl⟩
  exact ⟨x, rfl, rfl⟩

theorem attains_await {wake : Wake} (hwake : wake = .never → endless) :
    (Routine.await wake : Work Unit).Attains (tracking site id offset endless)
      (Leaving (e, a)) (e, a) 1 :=
  .await hwake ⟨(), rfl, rfl⟩

/-- A change of what is not tracked. -/
theorem attains_modify {f : Deployment → Deployment} (hcluster : ∀ d, (f d).cluster = d.cluster)
    (hexecutions : ∀ d, (f d).executions = d.executions) (hsites : ∀ d, (f d).sites = d.sites) :
    (Routine.modify f : Work Unit).Attains (tracking site id offset endless)
      (Leaving (e, a)) (e, a) 0 := by
  refine .modify fun d ⟨hexecuted, hshows, hrounds⟩ _ => ⟨(e, a), ⟨?_, ?_, ?_⟩, (), rfl, rfl⟩
  · unfold executed
    rw [hexecutions]
    exact hexecuted
  · rw [hcluster]
    exact hshows
  · unfold engine
    rw [hsites]
    exact hrounds

end Deployment

namespace Action
open Deployment
variable {who : Identity} {site : Nat} {offset : Option Micros} {endless : Prop} {e : Nat}
  {a : Standing}

theorem attains_performNote (hrunning : a.stopped = false) (level : Level) (text : String) :
    (performNote who level text).Attains (tracking site who.id offset endless)
      (Leaving (e, a.note level text)) (e, a) 1 := by
  refine attains_onCluster (Cluster.attains_now.bind (m := 1) ?_)
  rintro now _ ⟨rfl, hoffset, htime⟩
  exact Lifecycle.attains_append hrunning hoffset htime level text

theorem attains_play {actions : List Action} (hown : ∀ x ∈ actions, x.isOwn)
    (hrunning : a.stopped = false) :
    (play who actions).Attains (tracking site who.id offset endless)
      (fun outcome g => outcome = (Attempt.ofActions actions).ending.outcome ∧
        g = (e, a.noteAll (Attempt.ofActions actions).notes)) (e, a) actions.length := by
  induction actions generalizing a with
  | nil => exact ⟨rfl, congrArg (Prod.mk e) a.noteAll_nil.symm⟩
  | cons action rest ih =>
    have hrest : ∀ x ∈ rest, x.isOwn := fun x hx => hown x (List.mem_cons_of_mem _ hx)
    rw [List.length_cons, Nat.add_comm]
    cases action with
    | note level text =>
      refine (attains_performNote hrunning level text).seq fun _ => ?_
      rw [Attempt.ofActions, ← Standing.noteAll_note]
      exact ih hrest hrunning
    | keepAlive =>
      refine (attains_onCluster Lifecycle.attains_keepAlive).seq fun _ => ?_
      exact ih hrest hrunning
    | sleep d =>
      refine (attains_await nofun).seq fun _ => ?_
      exact ih hrest hrunning
    | await gate =>
      refine (attains_await nofun).seq fun _ => ?_
      exact ih hrest hrunning
    | raise kind text => exact ⟨rfl, congrArg (Prod.mk e) a.noteAll_nil.symm⟩
    | finish result =>
      refine ⟨?_, congrArg (Prod.mk e) a.noteAll_nil.symm⟩
      rw [Attempt.ofActions]
      cases result.isTruthy <;> rfl
    | call site command => exact absurd (hown _ List.mem_cons_self) (by simp [isOwn])

end Action

namespace Runner
open Deployment
variable {who : Identity} {handler : Handler Script} {site ticket : Nat} {offset : Option Micros}
  {endless : Prop} {e m : Nat} {a : Standing} {began : Micros}

theorem attains_execute (hown : ∀ x ∈ handler.body.execution e, x.isOwn)
    (hrunning : a.stopped = false) :
    (execute who handler).Attains (tracking site who.id offset endless)
      (fun outcome g => outcome = (handler.attempts e 0).ending.outcome ∧
        g = (e + 1, a.noteAll (handler.attempts e 0).notes)) (e, a)
      (handler.body.execution e).length := by
  -- The execution is counted, and what was counted before says which one it is.
  have hbody : (do
      let n ← Routine.update (countExecution who.id)
      Action.play who (handler.body.execution n) : Work Bool).Attains
      (tracking site who.id offset endless)
      (fun outcome g => outcome = (handler.attempts e 0).ending.outcome ∧
        g = (e + 1, a.noteAll (handler.attempts e 0).notes)) (e, a)
      (handler.body.execution e).length := by
    intro d ⟨hexecuted, hshows, hrounds⟩ _
    refine ⟨(e + 1, a), ⟨?_, hshows, hrounds⟩, ?_⟩
    · show (countExecution who.id d).2.executed who.id = e + 1
      rw [executed_countExecution, if_pos rfl, hexecuted]
    · have hnumber : (countExecution who.id d).1 = e := hexecuted
      show Attains _ _ (Action.play who (handler.body.execution (countExecution who.id d).1)) _ _
      rw [hnumber]
      exact Action.attains_play hown hrunning
  intro d hd _
  refine ⟨(e, a), hd, ?_⟩
  refine hbody.ensure (m := 0) ?_
  rintro outcome g hg d' hd' _
  refine ⟨g, hd', ?_⟩
  refine (attains_onCluster (Cluster.attains_record _)).mono (Nat.le_refl 0) ?_
  rintro _ _ ⟨x, rfl, rfl⟩
  exact ⟨x, rfl, hg⟩

/-- What follows an attempt depends on whether it failed. -/
theorem attains_attemptOnce {again : Work Unit} {Q : Except Failure Unit → Nat × Standing → Prop}
    (hown : ∀ x ∈ handler.body.execution e, x.isOwn) (hrunning : a.stopped = false)
    (hok : a.status = .ok)
    (hagain : (handler.attempts e 0).fails → again.Attains (tracking site who.id offset endless) Q
      (e + 1, a.after who (handler.attempts e) 1) m)
    (hdone : ¬(handler.attempts e 0).fails →
      Q (.ok ()) (e + 1, a.after who (handler.attempts e) 1)) :
    (attemptOnce who handler again).Attains (tracking site who.id offset endless) Q (e, a)
      ((handler.body.execution e).length + (1 + m)) := by
  have hexecute := @attains_execute who handler site offset endless e a hown hrunning
  have hcancelled : ∀ g : Nat × Standing,
      ¬(.error .cancelled = (handler.attempts e 0).ending.outcome ∧
        g = (e + 1, a.noteAll (handler.attempts e 0).notes)) := by
    rintro g ⟨houtcome, -⟩
    cases hending : (handler.attempts e 0).ending <;> simp [hending, Ending.outcome] at houtcome
  refine (hexecute.attempt hcancelled).bind (m := 1 + m) ?_
  rintro _ _ ⟨rfl, rfl⟩
  rw [Standing.after_one] at hagain hdone
  generalize handler.attempts e 0 = x at hagain hdone
  obtain ⟨notes, ending⟩ := x
  cases ending with
  | worked =>
    have hdone := hdone nofun
    simp only [Attempt.report, Attempt.status, List.append_nil, ← hok] at hdone
    exact hdone
  | skipped =>
    have hmark : (onCluster (Lifecycle.markSkipped who.id)).Attains
        (tracking site who.id offset endless)
        (Leaving (e + 1, (a.noteAll notes).mark .info Note.skipped .skipped))
        (e + 1, a.noteAll notes) 1 :=
      attains_onCluster (Lifecycle.attains_mark (a := a.noteAll notes) hrunning .info Note.skipped
        .skipped)
    refine hmark.mono (Nat.le_add_right 1 m) ?_
    rintro _ _ ⟨x, rfl, rfl⟩
    have hdone := hdone nofun
    simp only [Attempt.report, Attempt.status, ← List.append_assoc] at hdone
    exact hdone
  | raised kind text =>
    have hnote : (Action.performNote who .error (fatalText who (.raised kind text))).Attains
        (tracking site who.id offset endless)
        (Leaving (e + 1, (a.noteAll notes).note .error (fatalText who (.raised kind text))))
        (e + 1, a.noteAll notes) 1 :=
      Action.attains_performNote (a := a.noteAll notes) hrunning .error _
    refine hnote.seq fun _ => ?_
    have hagain := hagain rfl
    simp only [Attempt.report, Attempt.status, Bool.false_eq_true, if_false,
      ← List.append_assoc] at hagain
    exact hagain

theorem attains_pause {seconds : Double}
    (hendless : (∃ failure, seconds.toMicros = .error failure) → endless) :
    (pause seconds).Attains (tracking site who.id offset endless) (Leaving (e, a)) (e, a) 1 := by
  unfold pause
  cases hspan : seconds.toMicros with
  | ok d =>
    by_cases hd : d = 0
    · simp only [hd, ne_eq, not_true, if_false]
      exact ⟨(), rfl, rfl⟩
    · simp only [ne_eq, hd, not_false_eq_true, if_true]
      exact attains_await nofun
  | error failure => exact attains_await fun _ => hendless ⟨failure, hspan⟩

/-- By induction on the restarts that are left. -/
theorem attains_attemptAll (hown : ∀ n, ∀ x ∈ handler.body.execution n, x.isOwn)
    (hendless : (∃ failure, handler.definition.retryDelay.toMicros = .error failure) → endless)
    (hrunning : a.stopped = false) (hok : a.status = .ok) (restarts : Nat) :
    ∃ n, (attemptAll who handler restarts).Attains (tracking site who.id offset endless)
      (Leaving (e + Attempt.count (handler.attempts e) restarts,
        a.after who (handler.attempts e) (Attempt.count (handler.attempts e) restarts)))
      (e, a) n := by
  induction restarts generalizing e a with
  | zero =>
    exact ⟨_, attains_attemptOnce (m := 0) (hown e) hrunning hok (fun _ => ⟨(), rfl, rfl⟩)
      fun _ => ⟨(), rfl, rfl⟩⟩
  | succ restarts ih =>
    let a₁ : Standing := { a with
      messages := a.messages ++ (handler.attempts e 0).report who true
      status := .ok }
    obtain ⟨n, hrest⟩ := @ih (e + 1) a₁ hrunning rfl
    refine ⟨_, attains_attemptOnce (m := 1 + (1 + n)) (hown e) hrunning hok (fun hfails => ?_)
      fun hdone => ?_⟩
    · have hpositive := @Attempt.count_pos (handler.attempts (e + 1)) restarts
      have hcount : Attempt.count (handler.attempts e) (restarts + 1) =
          Attempt.count (handler.attempts (e + 1)) restarts + 1 := by
        rw [Attempt.count, if_pos hfails, Handler.attempts_succ]
      have hmark : (onCluster (Lifecycle.markRestarted who.id)).Attains
          (tracking site who.id offset endless)
          (Leaving (e + 1, a₁)) (e + 1, a.after who (handler.attempts e) 1) 1 := by
        have hreset :
            (a.after who (handler.attempts e) 1).mark .warning Note.restarted .ok = a₁ := by
          rw [Standing.after_one, Standing.mark, List.append_assoc, ← Attempt.report_again hfails]
        rw [← hreset]
        exact attains_onCluster (Lifecycle.attains_mark (a := a.after who (handler.attempts e) 1)
          hrunning .warning Note.restarted .ok)
      refine hmark.seq fun _ => ?_
      refine (attains_pause hendless).seq fun _ => ?_
      rw [hcount, ← Standing.after_succ a who hpositive, ← Handler.attempts_succ,
        Nat.add_comm _ 1, ← Nat.add_assoc]
      exact hrest
    · have hcount : Attempt.count (handler.attempts e) (restarts + 1) = 1 := by
        rw [Attempt.count, if_neg hdone]
      rw [hcount]
      exact ⟨(), rfl, rfl⟩

theorem attains_announceNow (f : Timestamp → Event) :
    (onCluster (Cluster.now >>= fun time => Cluster.announce (f time))).Attains
      (tracking site who.id offset endless) (Leaving (e, a)) (e, a) 0 := by
  refine attains_onCluster (Cluster.attains_now.bind (m := 0) ?_)
  rintro time _ ⟨rfl, -⟩
  exact Cluster.attains_announce _

theorem attains_close (hrunning : a.stopped = false) :
    (close site ticket who began).Attains (tracking site who.id offset endless)
      (Leaving (e, a.close)) (e, a) 2 := by
  refine (attains_modify (fun _ => rfl) (fun _ => rfl) (fun _ => rfl)).seq (m := 2) fun _ => ?_
  refine (Attains.pass ⟨(), rfl, rfl⟩).seq (u := (e, a)) (m := 1) fun _ => ?_
  refine (Attains.read fun d hd _ => ⟨_, rfl, rfl, hd.2.2⟩).bind
    (P := fun engine g => g = (e, a) ∧ 0 < engine.rounds) (n := 0) (m := 1) ?_
  rintro engine _ ⟨rfl, hrounds⟩
  refine (attains_onCluster (Lifecycle.attains_stop hrunning hrounds)).seq (m := 0) fun job => ?_
  refine (Attains.read fun d hd _ => ⟨_, rfl, rfl⟩).seq (u := (e, a.close)) (n := 0) (m := 0)
    fun now => ?_
  exact attains_announceNow _

/-- From the announcement of the start to that of the end. -/
theorem attains_attend (hown : ∀ n, ∀ x ∈ handler.body.execution n, x.isOwn)
    (hendless : (∃ failure, handler.definition.retryDelay.toMicros = .error failure) → endless)
    (hrunning : a.stopped = false) (hok : a.status = .ok) :
    ∃ n, (attend site ticket who handler began).Attains (tracking site who.id offset endless)
      (Leaving (e + Attempt.count (handler.attempts e) handler.definition.restarts,
          (a.after who (handler.attempts e)
            (Attempt.count (handler.attempts e) handler.definition.restarts)).close))
      (e, a) n := by
  obtain ⟨n, hattempts⟩ := @attains_attemptAll who handler site offset endless e a hown hendless
    hrunning hok handler.definition.restarts
  refine ⟨0 + (0 + (n + 2)), ?_⟩
  intro d hd _
  refine ⟨(e, a), hd, ?_⟩
  refine (attains_announceNow _).seq fun _ => ?_
  have hbegin : ∀ d : Deployment, (d.beginHeartbeat site ticket who.id).cluster = d.cluster ∧
      (d.beginHeartbeat site ticket who.id).executions = d.executions ∧
      (d.beginHeartbeat site ticket who.id).sites = d.sites := by
    intro d
    unfold beginHeartbeat
    split
    · exact ⟨rfl, rfl, rfl⟩
    · exact ⟨rfl, rfl, rfl⟩
  refine (attains_modify (fun d => (hbegin d).1) (fun d => (hbegin d).2.1)
    fun d => (hbegin d).2.2).seq fun _ => ?_
  refine hattempts.ensure ?_
  rintro _ _ ⟨x, rfl, rfl⟩
  refine (attains_close (a := a.after who (handler.attempts e) _) hrunning).mono
    (Nat.le_refl 2) ?_
  rintro _ _ ⟨y, rfl, hclosed⟩
  exact ⟨y, rfl, x, rfl, hclosed⟩

end Runner
end JobControl
