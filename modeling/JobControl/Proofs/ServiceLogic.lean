import JobControl.Proofs.Logic
import JobControl.Schedule

/-! # The service, construct by construct

What the operations on jobs, the commands, the handlers and the runners are put together from, gone
through once for every logic: a `Cluster.Logic` has rules for the steps that operations are made of,
a `Deployment.Logic` for what commands, handlers and runners add to them. -/

namespace JobControl

/-! ## Operations on jobs -/

/-- A logic for work on a cluster: what holds of single steps, and of the operations that start a
job, stop it and say that it is dead. -/
structure Cluster.Logic extends Routine.Logic Wake Cluster where
  /-- The jobs that are acted on. -/
  concerns : String → Prop
  /-- What jobs are started from. -/
  admits : Definition → Prop
  /-- The messages that are noted for others. -/
  notes : Message Timestamp → Prop
  now : holds Cluster.now
  announce : ∀ e : Event, e.occasion ≠ .dead → holds (Cluster.announce e)
  recordRun : ∀ jobType span, holds (Cluster.record (·.jobRan jobType span))
  recordClearing : ∀ jobType, holds (Cluster.record (·.lockCleared jobType))
  start : ∀ engine d, admits d → holds (Lifecycle.start engine d)
  finish : ∀ engine id status, concerns id → holds (Lifecycle.finish engine id status)
  kill : ∀ engine id, concerns id → holds (Lifecycle.kill engine id)
  append : ∀ id m, concerns id → notes m → holds (Lifecycle.append id m)
  keepAlive : ∀ id, concerns id → holds (Lifecycle.keepAlive id)
  skip : ∀ id time, concerns id → holds (Cluster.atomically
    (Lifecycle.marking id ⟨.info, time, Note.skipped⟩ .skipped))
  restart : ∀ id time, concerns id → holds (Cluster.atomically
    (Lifecycle.marking id ⟨.warning, time, Note.restarted⟩ .ok))
  findStale : ∀ since, holds (Cluster.atomically (Jobs.findStale since))
  releaseLeaked : ∀ engine entry,
    holds (Cluster.atomically (Lifecycle.releaseLeaked engine entry))
  runningJobs : holds Service.runningJobs
  disabledTypes : holds Service.disabledTypes
  query : ∀ {α : Type} (f : Store → α), holds (Cluster.atomically (UnitOfWork.query f))
  findJobs : ∀ jobType count, holds (Service.findJobs jobType count)
  deleteJobs : ∀ jobType, holds (Service.deleteJobs jobType)
  dropStopped : ∀ ids, holds (Cluster.atomically (Service.dropStopped ids))
  disable : ∀ engine jobType comment, holds (Service.disable engine jobType comment)
  enable : ∀ engine jobType, holds (Service.enable engine jobType)

namespace Cluster.Logic
variable (L : Logic) {id : String}

theorem stop (engine : Engine) (status : Option Status) (hid : L.concerns id) :
    L.holds (Lifecycle.stop engine id status) :=
  L.bind (L.finish engine id status hid) fun out => L.pure out.1

theorem markSkipped (hid : L.concerns id) : L.holds (Lifecycle.markSkipped id) :=
  L.bind L.now fun time => L.skip id time hid

theorem markRestarted (hid : L.concerns id) : L.holds (Lifecycle.markRestarted id) :=
  L.bind L.now fun time => L.restart id time hid

theorem killSilent {job : Job Instant} (hid : L.concerns job.id) (engine : Engine) :
    L.holds (Lifecycle.killSilent engine job) := by
  refine L.bind (L.kill engine job.id hid) fun out => ?_
  split <;> exact L.pure _

theorem sweepEntry (engine : Engine) (entry : RunningJob) :
    L.holds (Lifecycle.sweepEntry engine entry) := by
  refine L.bind (L.releaseLeaked engine entry) fun released => ?_
  split
  · exact L.bind (L.recordClearing entry.jobType) fun _ => L.pure _
  · exact L.pure _

theorem sweepLocks (engine : Engine) : L.holds (Lifecycle.sweepLocks engine) :=
  L.bind L.runningJobs fun _ => L.collect fun entry _ => L.sweepEntry engine entry

theorem cutoff (seconds : Seconds) : L.holds (Lifecycle.cutoff seconds) := by
  refine L.bind L.now fun now => L.bind (L.ofExcept _) fun span => ?_
  split
  · exact L.pure _
  · exact L.fail _

/-- What comes after the question for silent jobs concerns only the jobs that were found. -/
theorem killAll (engine : Engine) {silent : List (Job Instant)}
    (hsilent : ∀ j ∈ silent, L.concerns j.id) : L.holds (Lifecycle.killAll engine silent) := by
  refine L.bind (L.collect fun j hj => L.killSilent (hsilent j hj) engine) fun _ => ?_
  exact L.bind (L.sweepLocks engine) fun _ => L.pure _

theorem killSilentSince (hall : ∀ id, L.concerns id) (engine : Engine) (seconds : Seconds) :
    L.holds (Lifecycle.killSilentSince engine seconds) :=
  L.bind (L.cutoff seconds) fun since => L.bind (L.findStale since) fun _ =>
    L.killAll engine fun j _ => hall j.id

theorem keepLast (count : Int) : L.holds (Service.keepLast count) :=
  L.bind (L.query _) fun _ => L.dropStopped _

theorem runOnce (hall : ∀ id, L.concerns id) (reaper : Reaper) (engine : Engine) :
    L.holds (reaper.runOnce engine) := by
  refine L.bind (L.killSilentSince hall engine _) fun killed => ?_
  split
  · exact L.bind (L.keepLast _) fun _ => L.pure _
  · exact L.pure _

end Cluster.Logic

/-! ## Starting, stopping and killing

Logics that need not tell apart what is counted and announced have these rules in common. -/

namespace Lifecycle
variable (L : Routine.Logic Wake Cluster)

theorem holds_start {engine : Engine} {d : Definition} (hnextId : L.holds Cluster.nextId)
    (hnow : L.holds Cluster.now)
    (henter : ∀ id now, L.holds (Cluster.atomically
      (enter engine d (Job.new id d.jobType now engine.hostname))))
    (hrecord : ∀ f, L.holds (Cluster.record f)) : L.holds (start engine d) := by
  refine L.bind hnextId fun id => L.bind hnow fun now => ?_
  refine L.bind (L.attempt (henter id now)) fun outcome => ?_
  split
  · exact L.bind (hrecord _) fun _ => L.pure _
  · exact L.bind (hrecord _) fun _ => L.pure _
  · exact L.fail _

theorem holds_finish {engine : Engine} {id : String} {status : Option Status}
    (hleave : L.holds (Cluster.atomically (leave engine id status)))
    (hrecord : ∀ f, L.holds (Cluster.record f)) : L.holds (finish engine id status) := by
  refine L.bind hleave fun out => ?_
  split
  · exact L.bind (hrecord _) fun _ => L.pure _
  · exact L.pure _

theorem holds_kill {engine : Engine} {id : String}
    (hfinish : L.holds (finish engine id (some .dead))) (hnow : L.holds Cluster.now)
    (happend : ∀ m, L.holds (append id m)) (hrecord : ∀ f, L.holds (Cluster.record f))
    (hannounce : ∀ e, L.holds (Cluster.announce e)) : L.holds (kill engine id) := by
  refine L.bind hfinish fun out => ?_
  split
  · refine L.bind hnow fun _ => L.bind (happend _) fun _ => ?_
    refine L.bind (hrecord _) fun _ => L.bind hnow fun _ => ?_
    exact L.bind (hannounce _) fun _ => L.pure _
  · exact L.pure _

end Lifecycle

theorem Handlers.get?_of_find {η : Type} {handlers : Handlers η} {name : String} {h : Handler η}
    (hfind : handlers.find name = .ok h) : handlers.get? name = some h := by
  unfold find at hfind
  split at hfind
  · rename_i hget
    exact hget.trans (congrArg some (Except.ok.inj hfind))
  · contradiction

/-! ## Commands, handlers and runners -/

/-- The other commands write to the store past the service, or set the clock. -/
def Command.isService : Command → Bool
  | transaction _ => false
  | vanish _ => false
  | shiftClock _ => false
  | _ => true

/-- What an action does may be done, where these commands and these messages are. -/
def Action.Within (allows : Command → Prop) (notes : Message Timestamp → Prop) : Action → Prop
  | call _ command => allows command
  | note level text => ∀ time, notes ⟨level, time, text⟩
  | _ => True

/-- What holds of all actions of a script holds of those of each execution. -/
theorem Script.forall_execution {P : Action → Prop} {script : Script}
    (h : ∀ actions ∈ script, ∀ a ∈ actions, P a) (n : Nat) : ∀ a ∈ script.execution n, P a := by
  intro a ha
  unfold Script.execution at ha
  cases hget : script[min n (script.length - 1)]? with
  | none => simp [hget] at ha
  | some actions =>
    rw [hget, Option.getD_some] at ha
    exact h actions (List.mem_of_getElem? hget) a ha

/-- A logic for what goes on in a deployment. -/
structure Deployment.Logic extends Routine.Logic Wake Deployment where
  cluster : Cluster.Logic
  onCluster : ∀ {α : Type} {r : Cluster.Work α}, cluster.holds r →
    holds (Deployment.onCluster r)
  /-- A reaper may be a process of its own. -/
  apart : Prop
  onOwnBus : ∀ {α : Type} {r : Cluster.Work α}, apart → cluster.holds r →
    holds (Deployment.onOwnBus r)
  concerns : ∀ id, cluster.concerns id
  /-- The commands that may be carried out. -/
  allows : Command → Prop
  startDefined : ∀ {d}, allows (.startDefined d) → cluster.admits d
  append : ∀ {job m}, allows (.append job m) → cluster.notes m
  outside : ∀ site who {command}, allows command → ¬command.isService →
    holds (Command.perform site who command)
  /-- The handlers that may be executed. -/
  able : Handler Script → Prop
  body : ∀ {h}, able h → ∀ actions ∈ h.body, ∀ a ∈ actions, a.Within allows cluster.notes
  admits : ∀ {d : Deployment} {name h}, given d → d.handlers.get? name = some h →
    cluster.admits h.definition
  submit : ∀ {d : Deployment} {name h} site job, given d → d.handlers.get? name = some h →
    holds (Routine.modify (·.modifyPool site (·.submit job h)))
  error : ∀ time text, cluster.notes ⟨.error, time, text⟩
  /-- What handlers may wait for. -/
  waits : Wake → Prop
  await : ∀ {wake}, waits wake → holds (Routine.await wake)
  pass : holds Routine.pass
  cancelTracked : ∀ site, holds (Routine.modify (·.cancelTracked site))
  startWatch : ∀ site name reaper, holds (Routine.modify (Command.startWatch site name reaper))
  stopLatest : ∀ name, holds (Routine.modify fun d : Deployment =>
    { d with watches := Command.stopLatest name d.watches })
  openGate : ∀ name, holds (Routine.modify fun d : Deployment =>
    { d with gates := name :: d.gates })
  /-- The jobs whose executions may be counted. -/
  counts : String → Prop
  countExecution : ∀ {id}, counts id → holds (Routine.update (Deployment.countExecution id))
  /-- The sites and tickets whose heartbeats may begin and end. -/
  beats : Nat → Nat → Prop
  beginHeartbeat : ∀ {site ticket} id, beats site ticket →
    holds (Routine.modify (Deployment.beginHeartbeat site ticket id))
  endHeartbeat : ∀ {site ticket}, beats site ticket →
    holds (Routine.modify (Deployment.endHeartbeat site ticket))

namespace Deployment.Logic
variable (L : Logic)

/-! ### Commands -/

theorem reply {α : Type} {r : Cluster.Work α} (f : α → Reply) (h : L.cluster.holds r) :
    L.holds (Command.reply f r) :=
  L.map (L.onCluster h)

theorem performStart (site : Nat) (name : String) :
    L.holds (Command.performStart site name) := by
  refine L.read fun d hd => ?_
  dsimp only
  unfold Service.start
  cases hfind : d.handlers.find name with
  | error e => exact L.fail e
  | ok h =>
    have hget := Handlers.get?_of_find hfind
    have hstart := L.cluster.start (d.engine site) h.definition (L.admits hd hget)
    show L.holds (Deployment.onCluster (Lifecycle.start (d.engine site) h.definition >>= _) >>= _)
    unfold Deployment.onCluster
    rw [Routine.zoom_bind, Routine.bind_assoc]
    refine L.bind (L.onCluster hstart) fun job => ?_
    cases job with
    | none => exact L.pure (Reply.id none)
    | some job =>
      have hsubmit : L.holds (Routine.modify (·.modifyPool site (·.submit job.id h)) >>= fun _ =>
          Pure.pure (Reply.id (some job.id))) :=
        L.bind (L.submit site job.id hd hget) fun _ => L.pure _
      exact hsubmit

theorem perform (site : Nat) (who : Identity) (command : Command) (h : L.allows command) :
    L.holds (command.perform site who) := by
  by_cases hservice : command.isService
  · refine L.read fun d _ => ?_
    have hall := L.concerns
    cases command with
    | start jobType => exact L.performStart site _
    | startDefined d => exact L.reply _ (L.cluster.start _ d (L.startDefined h))
    | stop job status => exact L.reply _ (L.cluster.stop _ status (hall _))
    | kill job => exact L.reply _ (L.cluster.kill _ _ (hall _))
    | keepAlive job => exact L.reply _ (L.cluster.keepAlive _ (hall _))
    | markSkipped job => exact L.reply _ (L.cluster.markSkipped (hall _))
    | markRestarted job => exact L.reply _ (L.cluster.markRestarted (hall _))
    | append job m => exact L.reply _ (L.cluster.append _ m (hall _) (L.append h))
    | killSilent seconds => exact L.reply _ (L.cluster.killSilentSince hall _ seconds)
    | sweepLocks => exact L.reply _ (L.cluster.sweepLocks _)
    | findJob job => exact L.reply _ (L.cluster.query _)
    | findStatus job => exact L.reply _ (L.cluster.query _)
    | findJobs jobType count => exact L.reply _ (L.cluster.findJobs _ count)
    | findLatestDistinct => exact L.reply _ (L.cluster.query _)
    | findAllWithoutMessages => exact L.reply _ (L.cluster.query _)
    | deleteJobs jobType => exact L.reply _ (L.cluster.deleteJobs _)
    | keepLast count => exact L.reply _ (L.cluster.keepLast count)
    | disable jobType comment => exact L.reply _ (L.cluster.disable _ _ comment)
    | enable jobType => exact L.reply _ (L.cluster.enable _ _)
    | disabledTypes => exact L.reply _ L.cluster.disabledTypes
    | runningJobs => exact L.reply _ L.cluster.runningJobs
    | activeJobs => exact L.reading _
    | shutdown wait =>
      cases wait with
      | true => exact L.pure _
      | false => exact L.bind (L.cancelTracked site) fun _ => L.pure _
    | transaction calls => contradiction
    | reap deadAfter keepLast => exact L.reply _ (L.cluster.runOnce hall _ _)
    | startReaper name interval deadAfter keepLast =>
      exact L.bind (L.startWatch site name _) fun _ => L.pure _
    | stopReaper name => exact L.bind (L.stopLatest name) fun _ => L.pure _
    | shiftClock d => contradiction
    | openGate name => exact L.bind (L.openGate name) fun _ => L.pure _
    | vanish job => contradiction
    | dump => exact L.reading _
    | malformed e => exact L.fail e
  · exact L.outside site who h hservice

/-! ### Handlers -/

section
variable (who : Identity)

theorem performCall (site : Nat) {command : Command} (h : L.allows command) :
    L.holds (Action.performCall site who command) := by
  have hperform := L.perform site who command h
  unfold Action.performCall
  split
  · refine L.bind (L.reading _) fun handed => ?_
    split
    · exact L.bind hperform fun _ => L.pure _
    · exact L.pure _
  · exact L.bind hperform fun _ => L.pure _

theorem performNote {level : Level} {text : String}
    (h : ∀ time, L.cluster.notes ⟨level, time, text⟩) :
    L.holds (Action.performNote who level text) :=
  L.onCluster (L.cluster.bind L.cluster.now fun time =>
    L.cluster.append who.id _ (L.concerns _) (h time))

theorem play (hwaits : ∀ wake, L.waits wake) {actions : List Action}
    (hactions : ∀ a ∈ actions, a.Within L.allows L.cluster.notes) :
    L.holds (Action.play who actions) := by
  induction actions with
  | nil => exact L.pure true
  | cons action rest ih =>
    have ih := ih fun a ha => hactions a (List.mem_cons_of_mem _ ha)
    have haction := hactions action List.mem_cons_self
    cases action with
    | note level text => exact L.bind (L.performNote who haction) fun _ => ih
    | keepAlive =>
      exact L.bind (L.onCluster (L.cluster.keepAlive _ (L.concerns _))) fun _ => ih
    | sleep d => exact L.bind (L.await (hwaits _)) fun _ => ih
    | await gate => exact L.bind (L.await (hwaits _)) fun _ => ih
    | raise kind text => exact L.fail _
    | finish result => exact L.pure _
    | call site command => exact L.bind (L.performCall who site haction) fun _ => ih

end

/-! ### The runner -/

section
variable (site ticket : Nat) (who : Identity) (handler : Handler Script)

theorem execute (hwaits : ∀ wake, L.waits wake) (hable : L.able handler)
    (hcounts : L.counts who.id) : L.holds (Runner.execute who handler) := by
  refine L.bind (L.reading _) fun began => L.ensure ?_ ?_
  · refine L.bind (L.countExecution hcounts) fun n => ?_
    exact L.play who hwaits (Script.forall_execution (L.body hable) n)
  · refine L.bind (L.reading _) fun now => L.onCluster ?_
    exact L.cluster.recordRun _ _

theorem attemptOnce {again : Work Unit} (hwaits : ∀ wake, L.waits wake) (hable : L.able handler)
    (hcounts : L.counts who.id) (hagain : L.holds again) :
    L.holds (Runner.attemptOnce who handler again) := by
  refine L.bind (L.attempt (L.execute who handler hwaits hable hcounts)) fun outcome => ?_
  split
  · exact L.pure ()
  · exact L.onCluster (L.cluster.markSkipped (L.concerns _))
  · exact L.bind (L.performNote who fun time => L.error time _) fun _ => hagain

theorem pause (seconds : Double) (hwaits : ∀ wake, L.waits wake) :
    L.holds (Runner.pause seconds) := by
  unfold Runner.pause
  split
  · split
    · exact L.await (hwaits _)
    · exact L.pure ()
  · exact L.await (hwaits _)

theorem attemptAll (restarts : Nat) (hwaits : ∀ wake, L.waits wake) (hable : L.able handler)
    (hcounts : L.counts who.id) : L.holds (Runner.attemptAll who handler restarts) := by
  induction restarts with
  | zero => exact L.attemptOnce who handler hwaits hable hcounts (L.pure ())
  | succ restarts ih =>
    refine L.attemptOnce who handler hwaits hable hcounts ?_
    refine L.bind (L.onCluster (L.cluster.markRestarted (L.concerns _))) fun _ => ?_
    exact L.bind (L.pause _ hwaits) fun _ => ih

theorem close (began : Micros) (hbeats : L.beats site ticket) :
    L.holds (Runner.close site ticket who began) := by
  refine L.bind (L.endHeartbeat hbeats) fun _ => L.bind L.pass fun _ => ?_
  refine L.bind (L.reading _) fun engine => ?_
  refine L.bind (L.onCluster (L.cluster.stop engine none (L.concerns _))) fun job => ?_
  refine L.bind (L.reading _) fun now => L.onCluster ?_
  exact L.cluster.bind L.cluster.now fun time => L.cluster.announce _ nofun

theorem attend (began : Micros) (hwaits : ∀ wake, L.waits wake) (hable : L.able handler)
    (hcounts : L.counts who.id) (hbeats : L.beats site ticket) :
    L.holds (Runner.attend site ticket who handler began) := by
  refine L.bind (L.reading _) fun engine => L.bind (L.onCluster ?_) fun _ => ?_
  · exact L.cluster.bind L.cluster.now fun time => L.cluster.announce _ nofun
  refine L.bind (L.beginHeartbeat who.id hbeats) fun _ => ?_
  exact L.ensure (L.attemptAll who handler _ hwaits hable hcounts)
    (L.close site ticket who began hbeats)

theorem unlessStopped {found : Option (Job Instant)} {work : Work Unit} (h : L.holds work) :
    L.holds (Runner.unlessStopped found work) := by
  unfold Runner.unlessStopped
  split
  · exact L.pure ()
  · split
    · exact L.pure ()
    · exact h

theorem inspect (id : String) (began : Micros) (hwaits : ∀ wake, L.waits wake)
    (hable : L.able handler) (hcounts : L.counts id) (hbeats : L.beats site ticket) :
    L.holds (Runner.inspect site ticket id handler began) :=
  L.bind (L.onCluster (L.cluster.query _)) fun _ =>
    L.unlessStopped (L.attend site ticket ⟨id, _⟩ handler began hwaits hable hcounts hbeats)

theorem run (id : String) (hwaits : ∀ wake, L.waits wake) (hable : L.able handler)
    (hcounts : L.counts id) (hbeats : L.beats site ticket) :
    L.holds (Runner.run site ticket id handler) :=
  L.bind (L.reading _) fun began =>
    L.inspect site ticket handler id began hwaits hable hcounts hbeats

end

/-! ### Reapers -/

theorem watch (w : Watch) (hapart : w.name = none → L.apart) : L.holds w.run := by
  have hrun := L.cluster.runOnce L.concerns w.reaper w.engine
  refine L.map ?_
  cases hname : w.name with
  | some name => exact L.onCluster hrun
  | none => exact L.onOwnBus (hapart hname) hrun

end Deployment.Logic
end JobControl
