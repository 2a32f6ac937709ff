import JobControl.Proofs.Operations
import JobControl.Schedule

/-! # What goes on in a deployment

Commands, handlers and runners as routines among others. `Deployment.conduct K own` adds to what
they do on the cluster what they do around it: they count executions of the job `own` only, and
begin heartbeats that are first due after one interval. `Deployment.keeping own`: every command of
the service, every handler made of them and the runner that executes handlers keep this conduct. -/

namespace JobControl
open Routine (Keeps)
variable {K : String → Prop}

/-! ## Handlers that keep to the service -/

def Action.isService : Action → Bool
  | call _ command => command.isService
  | _ => true

theorem Action.within_of_isService {a : Action} (h : a.isService) :
    a.Within (·.isService) fun _ => True := by
  cases a with
  | call site command => exact h
  | note level text => exact fun _ => trivial
  | _ => trivial

/-- All commands in the handler are of the service. -/
def Handler.IsService (h : Handler Script) : Prop := ∀ actions ∈ h.body, ∀ a ∈ actions, a.isService

theorem Handler.IsService.within {h : Handler Script} (hservice : h.IsService) :
    ∀ actions ∈ h.body, ∀ a ∈ actions, a.Within (·.isService) fun _ => True :=
  fun actions hactions a ha => Action.within_of_isService (hservice actions hactions a ha)

/-! ## Deployments and their pools -/

namespace Pool
variable {ρ : Type} {p : Pool ρ} {t : Ticket ρ}

theorem mem_queue_of_finish {number : Nat} (h : t ∈ (p.finish number).queue) : t ∈ p.queue :=
  (List.mem_filter.mp h).1

theorem mem_queue_of_dropQueued (h : t ∈ p.dropQueued.queue) : t ∈ p.queue := by
  unfold dropQueued at h
  generalize p.trackedQueued = tickets at h
  induction tickets generalizing p with
  | nil => exact h
  | cons _ _ ih => exact mem_queue_of_finish (ih h)

theorem queued_submit {H : ρ → Prop} (p : Pool ρ) (hp : ∀ t ∈ p.queue, H t.work) {work : ρ}
    (hwork : H work) (job : String) : ∀ t ∈ (p.submit job work).queue, H t.work := by
  intro t ht
  rcases List.mem_append.mp ht with ht | ht
  · exact hp t ht
  · obtain rfl := List.mem_singleton.mp ht
    exact hwork

end Pool

namespace Deployment

/-- Registered handlers and submitted work keep to the service. -/
structure Proper (d : Deployment) : Prop where
  handlers : ∀ name h, d.handlers.get? name = some h → h.IsService
  queued : ∀ s ∈ d.sites, ∀ t ∈ s.pool.queue, t.work.IsService

def interval? (d : Deployment) (site : Nat) : Option Micros := d.sites[site]?.map (·.keepAlive)

theorem mem_sites_modifyPool {d : Deployment} {site : Nat}
    {f : Pool (Handler Script) → Pool (Handler Script)} {s : Site}
    (h : s ∈ (d.modifyPool site f).sites) :
    ∃ s' ∈ d.sites, s.pool = s'.pool ∨ s.pool = f s'.pool := by
  rw [modifyPool, modifySite, List.mem_iff_getElem?] at h
  obtain ⟨i, hi⟩ := h
  rw [List.getElem?_modify] at hi
  obtain ⟨s', hs', rfl⟩ := Option.map_eq_some_iff.mp hi
  refine ⟨s', List.mem_of_getElem? hs', ?_⟩
  split
  · exact .inr rfl
  · exact .inl rfl

/-- The handlers at hand, registered or submitted, are in `H`. -/
structure Stocks (H : Handler Script → Prop) (d : Deployment) : Prop where
  handlers : ∀ name h, d.handlers.get? name = some h → H h
  queued : ∀ s ∈ d.sites, ∀ t ∈ s.pool.queue, H t.work

namespace Stocks
variable {H : Handler Script → Prop} {d d' : Deployment}

theorem modifyPool {site : Nat} {f : Pool (Handler Script) → Pool (Handler Script)}
    (hf : ∀ p, (∀ t ∈ p.queue, H t.work) → ∀ t ∈ (f p).queue, H t.work) (h : d.Stocks H) :
    (d.modifyPool site f).Stocks H := by
  refine ⟨h.handlers, fun s hs t ht => ?_⟩
  obtain ⟨s', hs', heq | heq⟩ := mem_sites_modifyPool hs
  · exact h.queued s' hs' t (heq ▸ ht)
  · exact hf s'.pool (h.queued s' hs') t (heq ▸ ht)

theorem of_eq (h : d.Stocks H) (hhandlers : d'.handlers = d.handlers)
    (hsites : d'.sites = d.sites) : d'.Stocks H :=
  ⟨hhandlers ▸ h.handlers, hsites ▸ h.queued⟩

end Stocks

def executed (d : Deployment) (job : String) : Nat := (d.executions.get? job).getD 0

end Deployment

/-- The heartbeat has just begun. -/
def Heartbeat.Begins (h : Heartbeat) (d : Deployment) : Prop :=
  d.interval? h.site = some h.every ∧ h.due = d.now + h.every

namespace Deployment

theorem executed_countExecution (d : Deployment) (job k : String) :
    (d.countExecution job).2.executed k = if k = job then d.executed job + 1 else d.executed k := by
  unfold executed countExecution
  rw [Mapping.get?_insert]
  split <;> rfl

/-- What a thread leaves around the cluster, if it counts executions of the job `own` only. -/
structure Around (own : Option String) (d d' : Deployment) : Prop where
  proper : d.Proper → d'.Proper
  now : d'.now = d.now
  intervals : ∀ site, d'.interval? site = d.interval? site
  executed : ∀ job, some job ≠ own → d'.executed job = d.executed job
  executed_le : ∀ job, d.executed job ≤ d'.executed job
  heartbeats : ∀ h ∈ d'.heartbeats, h ∈ d.heartbeats ∨ h.Begins d

variable {own : Option String} {d d' d'' : Deployment}

namespace Around

theorem refl (d : Deployment) : Around own d d :=
  ⟨id, rfl, fun _ => rfl, fun _ _ => rfl, fun _ => Nat.le_refl _, fun _ => .inl⟩

theorem trans (h : Around own d d') (h' : Around own d' d'') : Around own d d'' where
  proper hd := h'.proper (h.proper hd)
  now := h'.now.trans h.now
  intervals site := (h'.intervals site).trans (h.intervals site)
  executed job hjob := (h'.executed job hjob).trans (h.executed job hjob)
  executed_le job := Nat.le_trans (h.executed_le job) (h'.executed_le job)
  heartbeats b hb := by
    rcases h'.heartbeats b hb with hb | ⟨hsite, hdue⟩
    · exact h.heartbeats b hb
    · exact .inr ⟨h.intervals _ ▸ hsite, h.now ▸ hdue⟩

theorem cluster {c : Cluster} (h : c.clock.elapsed = d.now) :
    Around own d { d with cluster := c } :=
  ⟨fun hd => ⟨hd.handlers, hd.queued⟩, h, fun _ => rfl, fun _ _ => rfl, fun _ => Nat.le_refl _,
    fun _ => .inl⟩

theorem modifyPool {site : Nat} {f : Pool (Handler Script) → Pool (Handler Script)}
    (hf : ∀ p, (∀ t ∈ p.queue, t.work.IsService) → ∀ t ∈ (f p).queue, t.work.IsService) :
    Around own d (d.modifyPool site f) where
  proper hd := by
    have hstocks : (d.modifyPool site f).Stocks Handler.IsService :=
      .modifyPool hf ⟨hd.handlers, hd.queued⟩
    exact ⟨hstocks.handlers, hstocks.queued⟩
  now := rfl
  intervals i := by
    unfold interval? Deployment.modifyPool modifySite
    rw [List.getElem?_modify]
    split
    · cases d.sites[i]? <;> rfl
    · simp
  executed _ _ := rfl
  executed_le _ := Nat.le_refl _
  heartbeats _ := .inl

theorem of_eq (hhandlers : d'.handlers = d.handlers) (hsites : d'.sites = d.sites)
    (hnow : d'.now = d.now) (hexecutions : d'.executions = d.executions)
    (hheartbeats : d'.heartbeats = d.heartbeats) : Around own d d' where
  proper hd := ⟨hhandlers ▸ hd.handlers, hsites ▸ hd.queued⟩
  now := hnow
  intervals _ := by unfold interval?; rw [hsites]
  executed _ _ := by unfold Deployment.executed; rw [hexecutions]
  executed_le _ := by simp only [Deployment.executed, hexecutions, Nat.le_refl]
  heartbeats _ hb := .inl (hheartbeats ▸ hb)

theorem beginHeartbeat (site ticket : Nat) (job : String) :
    Around own d (d.beginHeartbeat site ticket job) := by
  unfold Deployment.beginHeartbeat
  split
  · rename_i s hs
    refine ⟨fun hd => ⟨hd.handlers, hd.queued⟩, rfl, fun _ => rfl, fun _ _ => rfl,
      fun _ => Nat.le_refl _, fun h hh => ?_⟩
    rcases List.mem_append.mp hh with hh | hh
    · exact .inl hh
    · obtain rfl := List.mem_singleton.mp hh
      exact .inr ⟨by simp [interval?, hs], rfl⟩
  · exact refl d

theorem endHeartbeat (site ticket : Nat) : Around own d (d.endHeartbeat site ticket) :=
  ⟨fun hd => ⟨hd.handlers, hd.queued⟩, rfl, fun _ => rfl, fun _ _ => rfl, fun _ => Nat.le_refl _,
    fun _ hh => .inl (List.mem_filter.mp hh).1⟩

theorem countExecution (job : String) : Around (some job) d (d.countExecution job).2 := by
  refine ⟨fun hd => ⟨hd.handlers, hd.queued⟩, rfl, fun _ => rfl, fun k hk => ?_, fun k => ?_,
    fun _ => .inl⟩
  · have hk : k ≠ job := fun e => hk (congrArg some e)
    simp [executed_countExecution, hk]
  · rw [executed_countExecution]
    split
    · subst k; exact Nat.le_succ _
    · exact Nat.le_refl _

theorem submit {handler : Handler Script} (hservice : handler.IsService)
    (site : Nat) (job : String) : Around own d (d.modifyPool site (·.submit job handler)) :=
  modifyPool fun p hp => p.queued_submit hp hservice job

theorem cancelTracked (d : Deployment) (site : Nat) :
    Around own d (d.cancelTracked site) := by
  unfold Deployment.cancelTracked
  split
  · exact trans (modifyPool fun p hp t ht => hp t (Pool.mem_queue_of_dropQueued ht))
      (of_eq rfl rfl rfl rfl rfl)
  · exact refl d

end Around

def conduct (K : String → Prop) (own : Option String) : Conduct Deployment where
  inv := Proper
  turn d d' := d.cluster.Moved K d'.cluster ∧ Around own d d'
  quiet d d' := d.cluster.Calm d'.cluster ∧ Around own d d'
  quiet_refl d := ⟨.refl _, .refl d⟩
  turn_of_quiet _ h := ⟨h.1.moved, h.2⟩
  turn_quiet h h' := ⟨h.1.calm h'.1, h.2.trans h'.2⟩
  inv_turn hd h := h.2.proper hd

theorem allows_of_around {fresh : Bool} (hd : d.Proper) (hcluster : d'.cluster = d.cluster)
    (h : Around own d d') : (conduct K own).allows fresh d d' :=
  (conduct K own).allows_of_quiet hd ⟨hcluster ▸ .refl _, h⟩

/-- Up to its next wait, a thread that has begun its turn leaves the store as it is. -/
theorem store_advance {α : Type} {Q : α → Prop} {r : Work α}
    (h : Keeps (conduct K own) Q r false) (hd : d.Proper) :
    (r.advance d).2.cluster.store = d.cluster.store := by
  have hquiet : ∀ {d d' d'' : Deployment}, (conduct K own).quiet d d' →
      d''.cluster.store = d'.cluster.store → d''.cluster.store = d.cluster.store :=
    fun h h' => h'.trans h.1.store
  exact h.advance_rel (R := fun d d' => d'.cluster.store = d.cluster.store) (fun _ => rfl) hquiet hd

/-! ## Commands, handlers and runners -/

section
variable {α : Type} {Q : α → Prop} {fresh : Bool}

theorem allows_cluster {d : Deployment} {c : Cluster}
    (h : (Cluster.conduct K).allows fresh d.cluster c) :
    (conduct K own).allows fresh d { d with cluster := c } := by
  cases fresh with
  | false => exact ⟨h, .cluster (Cluster.Calm.clock h).elapsed_eq⟩
  | true => exact ⟨h, .cluster (Cluster.Moved.clock h).elapsed_eq⟩

theorem keeps_onCluster {r : Cluster.Work α} (h : Keeps (Cluster.conduct K) Q r fresh) :
    Keeps (conduct K own) Q (onCluster r) fresh :=
  .zoom (fun _ _ => trivial) (fun _ _ _ _ hc => allows_cluster hc) h

theorem keeps_onOwnBus {r : Cluster.Work α} (h : Keeps (Cluster.conduct K) Q r fresh) :
    Keeps (conduct K own) Q (onOwnBus r) fresh := by
  refine .zoom (fun _ _ => trivial) (fun d c fresh _ hc => allows_cluster ?_) h
  cases fresh with
  | false =>
    obtain ⟨hstore, hclock, -⟩ := hc
    exact ⟨hstore, hclock, rfl⟩
  | true =>
    obtain ⟨hstore, hclock, -⟩ := hc
    exact ⟨hstore, hclock, rfl⟩

theorem keeps_modify {f : Deployment → Deployment} (hcluster : ∀ d, (f d).cluster = d.cluster)
    (h : ∀ d, Around own d (f d)) :
    Keeps (conduct K own) (fun _ => True) (Routine.modify f : Work Unit) fresh :=
  .modify (fun d hd => allows_of_around hd (hcluster d) (h d)) trivial

end

theorem cluster_cancelTracked (d : Deployment) (site : Nat) :
    (d.cancelTracked site).cluster = d.cluster := by
  unfold cancelTracked
  split <;> rfl

theorem cluster_beginHeartbeat (site ticket : Nat) (job : String) (d : Deployment) :
    (beginHeartbeat site ticket job d).cluster = d.cluster := by
  unfold beginHeartbeat
  split <;> rfl

/-- Commands, handlers and runners that keep to the service change the store by units of work, one
after a wait, and count executions of the job `own` only. -/
def keeping (own : Option String) : Logic where
  toLogic := (conduct (fun _ => True) own).logic Wake
  cluster := Cluster.keeping fun _ => True
  onCluster := keeps_onCluster
  apart := True
  onOwnBus _ := keeps_onOwnBus
  concerns _ := trivial
  allows command := command.isService
  startDefined _ _ := trivial
  append _ := trivial
  outside _ _ _ h hservice := absurd h hservice
  able := Handler.IsService
  admits _ _ _ := trivial
  submit site job hd hget :=
    keeps_modify (fun _ => rfl) fun _ => .submit (hd.handlers _ _ hget) site job
  body := Handler.IsService.within
  error _ _ := trivial
  waits _ := True
  await _ := ⟨.pure trivial, .fail _⟩
  pass := ⟨.pure trivial, .pure trivial⟩
  cancelTracked site :=
    keeps_modify (cluster_cancelTracked · site) (Around.cancelTracked · site)
  startWatch _ _ _ := keeps_modify (fun _ => rfl) fun _ => .of_eq rfl rfl rfl rfl rfl
  stopLatest _ := keeps_modify (fun _ => rfl) fun _ => .of_eq rfl rfl rfl rfl rfl
  openGate _ := keeps_modify (fun _ => rfl) fun _ => .of_eq rfl rfl rfl rfl rfl
  counts id := own = some id
  countExecution {id} hown :=
    .update (fun _ hd => allows_of_around hd rfl (hown ▸ .countExecution id)) fun _ _ => trivial
  beats _ _ := True
  beginHeartbeat {site ticket} id _ :=
    keeps_modify (cluster_beginHeartbeat site ticket id) fun _ => .beginHeartbeat site ticket id
  endHeartbeat {site ticket} _ :=
    keeps_modify (fun _ => rfl) fun _ => .endHeartbeat site ticket

end Deployment

open Deployment

theorem Command.keeps_perform (own : Option String) (site : Nat) (who : Identity)
    {command : Command} (hservice : command.isService) :
    Keeps (conduct (fun _ => True) own) (fun _ => True) (command.perform site who) false :=
  (keeping own).perform site who command hservice

theorem Runner.keeps_attend (who : Identity) {handler : Handler Script}
    (hservice : handler.IsService) (site ticket : Nat) (began : Micros) :
    Keeps (conduct (fun _ => True) (some who.id)) (fun _ => True)
      (attend site ticket who handler began) false :=
  (keeping (some who.id)).attend site ticket who handler began (fun _ => trivial) hservice rfl
    trivial

theorem Watch.keeps_run (own : Option String) (w : Watch) :
    Keeps (conduct (fun _ => True) own) (fun _ => True) w.run false :=
  (keeping own).watch w fun _ => trivial

end JobControl
