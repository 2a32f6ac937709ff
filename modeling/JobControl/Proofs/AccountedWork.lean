import JobControl.Proofs.Accounts
import JobControl.Proofs.Deployments

/-! # Commands, handlers and runners keep their books

Every command of the service, every handler made of them and the runner that executes handlers leave
the books of their stretches settled. Handlers and callers could write in a job's messages what only
the engine should write there; `IsFit false` says that they do not. The jobs that come in are
started from the definitions at hand: those of the registered handlers, and those in commands. -/

namespace JobControl
open Routine (Tidy)

/-! ## Who writes obituaries -/

/-- The command says of a job that it is dead, without killing it. -/
def Command.forges : Command → Bool
  | append _ m => m.isObituary
  | _ => false

def Action.forges : Action → Bool
  | note level text => level == .warning && text == Note.dead
  | call _ command => command.forges
  | _ => false

/-- The command is of the service, and forges nothing unless that is allowed. -/
def Command.isFit (forged : Bool) (command : Command) : Bool :=
  command.isService && (forged || !command.forges)

def Action.isFit (forged : Bool) (a : Action) : Bool := a.isService && (forged || !a.forges)

def Handler.IsFit (forged : Bool) (h : Handler Script) : Prop :=
  ∀ actions ∈ h.body, ∀ a ∈ actions, a.isFit forged

/-! ## Definitions at hand -/

/-- The definition that a job is to be started from without a handler. -/
def Command.definition? : Command → Option Definition
  | startDefined d => some d
  | _ => none

def Action.definition? : Action → Option Definition
  | call _ command => command.definition?
  | _ => none

/-- The definition of the handler is in `P`, and so are those in its commands. -/
structure Handler.From (P : Definition → Prop) (h : Handler Script) : Prop where
  definition : P h.definition
  body : ∀ actions ∈ h.body, ∀ a ∈ actions, ∀ d, a.definition? = some d → P d

theorem Command.isFit_iff {forged : Bool} {command : Command} :
    command.isFit forged ↔ command.isService ∧ (command.forges → forged) := by
  unfold isFit
  cases command.forges <;> simp

theorem Action.within_of_isFit {forged : Bool} {P : Definition → Prop} {a : Action}
    (hfit : a.isFit forged) (hfrom : ∀ d, a.definition? = some d → P d) :
    a.Within (fun command => command.isFit forged ∧ ∀ d, command.definition? = some d → P d)
      fun m => m.isObituary → forged := by
  cases a with
  | call site command => exact ⟨hfit, hfrom⟩
  | note level text =>
    intro time hforges
    have hfit := (Bool.and_eq_true _ _).mp hfit
    have hforges : (note level text).forges = true := hforges
    simpa [hforges] using hfit.2
  | _ => trivial

namespace Deployment
variable {forged : Bool} {hidden : Prop} {P : Definition → Prop} {d d' : Deployment} {α : Type}
  {Q : α → Prop}

/-- Handlers and submitted work are fit, and a reaper is a process of its own only if there are
processes with events of their own. -/
structure Fit (forged : Bool) (hidden : Prop) (d : Deployment) : Prop where
  handlers : ∀ name h, d.handlers.get? name = some h → h.IsFit forged
  queued : ∀ s ∈ d.sites, ∀ t ∈ s.pool.queue, t.work.IsFit forged
  watches : ∀ w ∈ d.watches, w.name = none → hidden

theorem Stocks.from_true (d : Deployment) : d.Stocks (·.From fun _ => True) :=
  ⟨fun _ _ _ => ⟨trivial, fun _ _ _ _ _ _ => trivial⟩,
    fun _ _ _ _ => ⟨trivial, fun _ _ _ _ _ _ => trivial⟩⟩

/-- The handlers at hand are fit and start jobs from definitions in `P`, and a reaper is a process
of its own only if there are processes with events of their own. -/
structure Supplied (forged : Bool) (hidden : Prop) (P : Definition → Prop) (d : Deployment) :
    Prop where
  stocks : d.Stocks fun h => h.IsFit forged ∧ h.From P
  watches : ∀ w ∈ d.watches, w.name = none → hidden

theorem Fit.supplied (h : d.Fit forged hidden) (hfrom : d.Stocks (·.From P)) :
    d.Supplied forged hidden P :=
  ⟨⟨fun name handler hget => ⟨h.handlers name handler hget, hfrom.handlers name handler hget⟩,
    fun s hs t ht => ⟨h.queued s hs t ht, hfrom.queued s hs t ht⟩⟩, h.watches⟩

namespace Supplied

theorem modifyPool {site : Nat} {f : Pool (Handler Script) → Pool (Handler Script)}
    (hf : ∀ p, ∀ t ∈ (f p).queue, t ∈ p.queue) (h : d.Supplied forged hidden P) :
    (d.modifyPool site f).Supplied forged hidden P :=
  ⟨h.stocks.modifyPool fun p hp t ht => hp t (hf p t ht), h.watches⟩

theorem modifyLoop {i : Nat} {f : Loop → Loop} (h : d.Supplied forged hidden P) :
    (d.modifyLoop i f).Supplied forged hidden P := by
  refine ⟨h.stocks.of_eq rfl rfl, fun w hw => ?_⟩
  rw [Deployment.modifyLoop, List.mem_iff_getElem?] at hw
  obtain ⟨j, hj⟩ := hw
  rw [List.getElem?_modify] at hj
  obtain ⟨w', hw', rfl⟩ := Option.map_eq_some_iff.mp hj
  have hwatch := h.watches w' (List.mem_of_getElem? hw')
  split <;> exact hwatch

theorem of_eq (h : d.Supplied forged hidden P) (hhandlers : d'.handlers = d.handlers)
    (hsites : d'.sites = d.sites) (hwatches : d'.watches = d.watches) :
    d'.Supplied forged hidden P :=
  ⟨h.stocks.of_eq hhandlers hsites, hwatches ▸ h.watches⟩

theorem submit {handler : Handler Script} (h : d.Supplied forged hidden P)
    (hhandler : handler.IsFit forged ∧ handler.From P) (site : Nat) (job : String) :
    (d.modifyPool site (·.submit job handler)).Supplied forged hidden P :=
  ⟨h.stocks.modifyPool fun p hp =>
    p.queued_submit (H := fun h => h.IsFit forged ∧ h.From P) hp hhandler job, h.watches⟩

theorem cancelTracked (h : d.Supplied forged hidden P) (site : Nat) :
    (d.cancelTracked site).Supplied forged hidden P := by
  unfold Deployment.cancelTracked
  split
  · have hdropped : (d.modifyPool site Pool.dropQueued).Supplied forged hidden P :=
      h.modifyPool fun p t ht => Pool.mem_queue_of_dropQueued ht
    exact hdropped.of_eq rfl rfl rfl
  · exact h

theorem startWatch (h : d.Supplied forged hidden P) (site : Nat) (name : String)
    (reaper : Reaper) : (Command.startWatch site name reaper d).Supplied forged hidden P := by
  refine ⟨h.stocks.of_eq rfl rfl, fun w hw hname => ?_⟩
  rcases List.mem_append.mp hw with hw | hw
  · exact h.watches w hw hname
  · obtain rfl := List.mem_singleton.mp hw
    contradiction

theorem stopLatest (h : d.Supplied forged hidden P) (name : String) :
    Supplied forged hidden P { d with watches := Command.stopLatest name d.watches } := by
  have hmem : ∀ ws : List Watch, ∀ w ∈ Command.stopLatest name ws, ∃ w' ∈ ws, w.name = w'.name := by
    intro ws
    induction ws with
    | nil => exact fun w hw => absurd hw List.not_mem_nil
    | cons w₁ rest ih =>
      intro w hw
      unfold Command.stopLatest at hw
      split at hw
      · rcases List.mem_cons.mp hw with rfl | hw
        · exact ⟨w₁, List.mem_cons_self, rfl⟩
        · exact ⟨w, List.mem_cons_of_mem _ hw, rfl⟩
      · rcases List.mem_cons.mp hw with rfl | hw
        · exact ⟨w, List.mem_cons_self, rfl⟩
        · obtain ⟨w', hw', hname⟩ := ih w hw
          exact ⟨w', List.mem_cons_of_mem _ hw', hname⟩
  refine ⟨h.stocks.of_eq rfl rfl, fun w hw hname => ?_⟩
  obtain ⟨w', hw', heq⟩ := hmem d.watches w hw
  exact h.watches w' hw' (heq ▸ hname)

theorem beginHeartbeat (h : d.Supplied forged hidden P) (site ticket : Nat) (job : String) :
    (d.beginHeartbeat site ticket job).Supplied forged hidden P := by
  unfold Deployment.beginHeartbeat
  split
  · exact h.of_eq rfl rfl rfl
  · exact h

end Supplied

/-! ## The books of a deployment -/

def ledger (forged : Bool) (hidden : Prop) (P : Definition → Prop) : Ledger Deployment Book :=
  (Cluster.ledger forged hidden P).lift (Supplied forged hidden P) (·.cluster) fun _ _ => trivial

theorem tidy_onCluster {r : Cluster.Work α} (h : Tidy (Cluster.ledger forged hidden P) Q r) :
    Tidy (ledger forged hidden P) Q (onCluster r) :=
  .zoom (fun _ _ hd => hd.of_eq rfl rfl rfl) (fun h => h) (fun h => h) h

/-- A process with events of its own leaves them out of the account. -/
theorem tidy_onOwnBus (hhidden : hidden) {r : Cluster.Work α}
    (h : Tidy (Cluster.ledger forged hidden P) Q r) :
    Tidy (ledger forged hidden P) Q (onOwnBus r) :=
  .zoom (fun _ _ hd => hd.of_eq rfl rfl rfl) (fun hc => hc.hide hhidden _ _)
    (fun hc => hc.hide hhidden _ _) h

theorem quiet_of_supplied {f : Deployment → Deployment} (hcluster : ∀ d, (f d).cluster = d.cluster)
    (hsupplied : ∀ d, d.Supplied forged hidden P → (f d).Supplied forged hidden P) :
    (ledger forged hidden P).Quiet f := by
  intro d₀ g₀ g d hg hd
  refine ⟨g.used, Book.Settled.used hg, hsupplied d hd.1, ?_⟩
  have hsame : d.cluster.Hushed (f d).cluster := by
    rw [hcluster]
    exact ⟨rfl, id, rfl, rfl, rfl, rfl⟩
  exact Cluster.Booked.hushed hd.2 hsame

theorem tidy_modify {f : Deployment → Deployment} (hcluster : ∀ d, (f d).cluster = d.cluster)
    (hsupplied : ∀ d, d.Supplied forged hidden P → (f d).Supplied forged hidden P) :
    Tidy (ledger forged hidden P) (fun _ => True) (Routine.modify f : Work Unit) :=
  .modify (quiet_of_supplied hcluster hsupplied)

/-- Fit commands, handlers and runners leave their books settled. -/
def accounting (forged : Bool) (hidden : Prop) (P : Definition → Prop) : Logic where
  toLogic := (ledger forged hidden P).logic Wake
  cluster := Cluster.accounting forged hidden P
  onCluster := tidy_onCluster
  apart := hidden
  onOwnBus hhidden h := tidy_onOwnBus hhidden h
  concerns _ := trivial
  allows command := command.isFit forged ∧ ∀ d, command.definition? = some d → P d
  startDefined h := h.2 _ rfl
  append h := (Command.isFit_iff.mp h.1).2
  outside _ _ _ h hservice := absurd (Command.isFit_iff.mp h.1).1 hservice
  able h := h.IsFit forged ∧ h.From P
  body h actions hactions a ha :=
    Action.within_of_isFit (h.1 actions hactions a ha) (h.2.body actions hactions a ha)
  admits := fun ⟨_, _, _, hd⟩ hget => (hd.1.stocks.handlers _ _ hget).2.definition
  submit site job := fun ⟨_, _, _, hd⟩ hget =>
    tidy_modify (fun _ => rfl) fun _ h => h.submit (hd.1.stocks.handlers _ _ hget) site job
  error _ _ := nofun
  waits _ := True
  await _ := .await
  pass := .pass
  cancelTracked site := tidy_modify (cluster_cancelTracked · site) fun _ h => h.cancelTracked site
  startWatch site name reaper :=
    tidy_modify (fun _ => rfl) fun _ h => h.startWatch site name reaper
  stopLatest name := tidy_modify (fun _ => rfl) fun _ h => h.stopLatest name
  openGate _ := tidy_modify (fun _ => rfl) fun _ h => h.of_eq rfl rfl rfl
  counts _ := True
  countExecution {id} _ :=
    .update (quiet_of_supplied (f := fun d => (countExecution id d).2) (fun _ => rfl)
      fun _ h => h.of_eq rfl rfl rfl)
  beats _ _ := True
  beginHeartbeat {site ticket} id _ :=
    tidy_modify (cluster_beginHeartbeat site ticket id) fun _ h => h.beginHeartbeat site ticket id
  endHeartbeat _ := tidy_modify (fun _ => rfl) fun _ h => h.of_eq rfl rfl rfl

end Deployment
end JobControl
