import JobControl.Proofs.Runs
import JobControl.Proofs.View

/-! # Jobs do not interfere

An operation on a job looks at nothing but the clock and the job's own `Store.View`, and changes
nothing else (`Store.Spares`): `Confined` says both, unit of work by unit of work. Hence operations
on different jobs may be exchanged (`Confined.exchange`, `Command.isolated`). -/

namespace JobControl
open UnitOfWork

/-! ## Computations that are confined to one job -/

section
variable {σ ω α β : Type} {id : String}

/-- Two workspaces that cannot be told apart by looking at one job and at the clock. -/
def Workspace.Like (id : String) (w w' : Workspace) : Prop :=
  w.store.view id = w'.store.view id ∧ w.clock = w'.clock

/-- A computation looks at one job only, and does nothing to the others. -/
structure Confined (id : String) (part : σ → Workspace) (f : σ → Except Failure α × σ) : Prop where
  spares : ∀ s, (part s).store.Spares id (part (f s).2).store
  agrees : ∀ s s', (part s).Like id (part s') →
    (f s).1 = (f s').1 ∧ (part (f s).2).Like id (part (f s').2)

namespace Confined
variable {part : σ → Workspace}

theorem of_fixed {f : σ → Except Failure α × σ} (outcome : Except Failure α)
    (h : ∀ s, (f s).1 = outcome ∧ part (f s).2 = part s) : Confined id part f where
  spares s := by
    rw [(h s).2]
    exact .refl _
  agrees s s' hlike := by
    rw [(h s).1, (h s').1, (h s).2, (h s').2]
    exact ⟨rfl, hlike⟩

theorem pure (a : α) : Confined id part (Pure.pure a : Routine ω σ α).run :=
  .of_fixed (.ok a) fun _ => ⟨rfl, rfl⟩

theorem fail (e : Failure) : Confined id part (Routine.fail e : Routine ω σ α).run :=
  .of_fixed (.error e) fun _ => ⟨rfl, rfl⟩

theorem bind {r : Routine ω σ α} {k : α → Routine ω σ β} (hr : Confined id part r.run)
    (hk : ∀ a, Confined id part (k a).run) : Confined id part (r >>= k).run where
  spares s := by
    have hspares := hr.spares s
    rw [Routine.run_bind]
    split
    · rename_i a s₁ heq
      rw [heq] at hspares
      exact hspares.trans ((hk a).spares s₁)
    · rename_i e s₁ heq
      rw [heq] at hspares
      exact hspares
  agrees s s' hlike := by
    have hagrees := hr.agrees s s' hlike
    rw [Routine.run_bind, Routine.run_bind]
    rcases hs : r.run s with ⟨outcome, s₁⟩
    rcases hs' : r.run s' with ⟨outcome', s₁'⟩
    rw [hs, hs'] at hagrees
    obtain ⟨rfl, hrest⟩ := hagrees
    cases outcome with
    | error e => exact ⟨rfl, hrest⟩
    | ok a => exact (hk a).agrees s₁ s₁' hrest

theorem map {r : Routine ω σ α} (hr : Confined id part r.run) (f : α → β) :
    Confined id part (f <$> r).run :=
  .bind hr fun a => .pure (f a)

end Confined

/-! ## Units of work -/

namespace UnitOfWork

theorem confined_now : Confined id (fun w => w) now.run where
  spares _ := .refl _
  agrees w w' hlike := by
    refine ⟨?_, hlike.1, ?_⟩
    · simp only [run_now, hlike.2]
    · simp only [run_now, hlike.2]

theorem confined_commit {u : UnitOfWork α} (h : Confined id (fun w => w) u.run) :
    Confined id (fun w => w) u.commit where
  spares w := by
    have hspares := h.spares w
    unfold commit
    split
    · rename_i heq
      rw [heq] at hspares
      exact hspares
    · exact .refl _
  agrees w w' hlike := by
    have hagrees := h.agrees w w' hlike
    unfold commit
    rcases hw : u.run w with ⟨outcome, w₁⟩
    rcases hw' : u.run w' with ⟨outcome', w₁'⟩
    rw [hw, hw'] at hagrees
    obtain ⟨rfl, hrest⟩ := hagrees
    cases outcome with
    | error e => exact ⟨rfl, hlike.1, hrest.2⟩
    | ok a => exact ⟨rfl, hrest⟩

end UnitOfWork

namespace Jobs

theorem confined_updateIf (p : Record → Bool) {f : Record → Record}
    (htype : ∀ r, (f r).jobType = r.jobType) :
    Confined id (fun w => w) (change (·.updateIf id p f)).run where
  spares _ := Store.spares_updateIf htype
  agrees w w' hlike := by
    refine ⟨?_, ?_, hlike.2⟩
    · simp only [run_change, Store.fst_updateIf, hlike.1]
    · simp only [run_change, Store.view_updateIf htype, hlike.1]

theorem confined_stored (t : Timestamp) : Confined id (fun w => w) (stored t).run := by
  unfold stored
  split
  · exact .pure _
  · exact .fail _

theorem confined_setStatus (status : Status) : Confined id (fun w => w) (setStatus id status).run :=
  confined_updateIf _ fun _ => rfl

theorem confined_touch (time : Timestamp) : Confined id (fun w => w) (touch id time).run :=
  .bind (confined_stored time) fun _ => confined_updateIf _ fun _ => rfl

theorem confined_append (m : Message Timestamp) : Confined id (fun w => w) (append id m).run where
  spares w := by
    rw [run_append]
    cases hr : w.store.records.contains id with
    | false => exact .refl _
    | true =>
      have hknown : w.store.records.get? id ≠ none := by
        simpa [Mapping.contains, Option.isSome_iff_ne_none] using hr
      cases m.time.toInstant? with
      | none => exact .refl _
      | some time => exact Store.spares_appendMessage _ hknown
  agrees w w' hlike := by
    have hknown : w.store.records.contains id = w'.store.records.contains id :=
      congrArg (fun v : Store.View => v.record.isSome) hlike.1
    rw [run_append, run_append, hknown]
    cases w'.store.records.contains id with
    | false => exact ⟨rfl, hlike⟩
    | true =>
      cases m.time.toInstant? with
      | none => exact ⟨rfl, hlike⟩
      | some time =>
        refine ⟨rfl, ?_, hlike.2⟩
        simp only [if_true, Store.view_appendMessage, hlike.1]

end Jobs

namespace Lifecycle

theorem confined_noting (m : Message Timestamp) : Confined id (fun w => w) (noting id m).run := by
  unfold noting
  refine .bind (Jobs.confined_append m) fun appended => ?_
  split
  · refine .bind (Jobs.confined_setStatus _) fun _ => .bind confined_now fun now => ?_
    split
    · exact .bind (Jobs.confined_touch _) fun _ => .pure _
    · exact .fail _
  · exact .pure _

theorem confined_marking (m : Message Timestamp) (status : Status) :
    Confined id (fun w => w) (marking id m status).run := by
  unfold marking
  refine .bind (Jobs.confined_append m) fun appended => ?_
  split
  · refine .bind (Jobs.confined_touch _) fun _ => ?_
    exact .bind (Jobs.confined_setStatus _) fun _ => .pure _
  · exact .pure _

theorem confined_keeping : Confined id (fun w => w)
    (do let _ ← Jobs.touch id (← UnitOfWork.now) : UnitOfWork Unit).commit :=
  confined_commit <|
    .bind confined_now fun _ => .bind (Jobs.confined_touch _) fun _ => .pure _

/-- The lock is given back under the type in the job's own record. -/
theorem commit_leave_eq (engine : Engine) (status : Option Status) (w : Workspace) :
    (leave engine id status).commit w =
      match w.store.records.get? id with
      | none => (.ok (none, false), w)
      | some r =>
        if engine.rounds ≤ 0 then (.error (.contention (.releasing r.jobType)), w) else
        match w.clock.read with
        | (.error e, c) => (.error e, { w with clock := c })
        | (.ok time, c) =>
          match time.toInstant? with
          | none => (.error .store, { w with clock := c })
          | some i =>
            let out := w.store.letOut id r i status
            (.ok (out.2.find? id, out.1), ⟨out.2, c⟩) :=
  commit_leave engine id status

theorem confined_leave (engine : Engine) (status : Option Status) :
    Confined id (fun w => w) (leave engine id status).commit where
  spares w := by
    rw [commit_leave_eq]
    cases hr : w.store.records.get? id with
    | none => exact .refl _
    | some r =>
      dsimp only
      split
      · exact .refl _
      split
      · exact .refl _
      split
      · exact .refl _
      · exact Store.spares_letOut hr _ status
  agrees w w' hlike := by
    have hrecord : w.store.records.get? id = w'.store.records.get? id :=
      congrArg Store.View.record hlike.1
    rw [commit_leave_eq, commit_leave_eq, hrecord, hlike.2]
    cases hr : w'.store.records.get? id with
    | none => exact ⟨rfl, hlike⟩
    | some r =>
      have hr' := hrecord.trans hr
      dsimp only
      split
      · exact ⟨rfl, hlike⟩
      split
      · exact ⟨rfl, hlike.1, rfl⟩
      split
      · exact ⟨rfl, hlike.1, rfl⟩
      · -- What is left of the job, and what is told of it, follows from its view.
        refine ⟨?_, ?_, rfl⟩
        · simp only [Store.find?_eq, Store.view_letOut hr, Store.view_letOut hr',
            Store.fst_letOut hr, Store.fst_letOut hr', hlike.1]
        · simp only [Store.view_letOut hr, Store.view_letOut hr', hlike.1]

end Lifecycle

/-! ## Operations -/

namespace Bus

/-- However the listeners behave, an announcement does not fail. -/
theorem fst_run_publish (e : Event) (b : Bus) : ((publish e).run b).1 = .ok () := by
  have hcall : ∀ name l (b : Bus), (((Routine.act (call name l e)).rescue fun _ => pure () :
      Routine Wake Bus Unit).run b).1 = .ok () := by
    intro name l b
    rw [rescue_call]
    rfl
  have hdeliver : ∀ name (b : Bus), ((deliver e name).run b).1 = .ok () := by
    intro name b
    unfold deliver
    rw [Routine.run_bind, Routine.run_read]
    cases b.known.get? name with
    | none => rfl
    | some l =>
      dsimp only
      split
      · exact hcall name l b
      · exact hcall name l b
  have hall : ∀ names (b : Bus), ((deliverAll e names).run b).1 = .ok () := by
    intro names
    induction names with
    | nil => exact fun _ => rfl
    | cons name names ih =>
      intro b
      have hfirst := hdeliver name b
      unfold deliverAll
      rw [Routine.run_bind]
      split
      · exact ih _
      · rename_i heq
        rw [heq] at hfirst
        contradiction
  unfold publish
  rw [Routine.run_bind]
  exact hall _ _

end Bus

namespace Cluster

theorem confined_atomically {u : UnitOfWork α} (h : Confined id (fun w => w) u.commit) :
    Confined id Cluster.toWorkspace (atomically u).run where
  spares c := h.spares c.toWorkspace
  agrees c c' hlike := h.agrees c.toWorkspace c'.toWorkspace hlike

theorem confined_now : Confined id Cluster.toWorkspace Cluster.now.run where
  spares _ := .refl _
  agrees c c' hlike := by
    have hclock : c.clock = c'.clock := hlike.2
    refine ⟨?_, hlike.1, ?_⟩
    · simp only [Cluster.now, Routine.run_act, hclock]
    · simp only [Cluster.now, Routine.run_act, hclock]

theorem confined_record (f : Metrics Micros → Metrics Micros) :
    Confined id Cluster.toWorkspace (record f).run :=
  .of_fixed (.ok ()) fun _ => ⟨rfl, rfl⟩

theorem confined_announce (e : Event) : Confined id Cluster.toWorkspace (announce e).run := by
  refine .of_fixed (.ok ()) fun c => ?_
  unfold announce
  rw [Routine.run_zoom (fun c : Cluster => c.bus) (fun b c => { c with bus := b })
    (fun _ _ => rfl) (fun _ _ _ => rfl) fun _ => rfl]
  exact ⟨Bus.fst_run_publish e c.bus, rfl⟩

end Cluster

namespace Lifecycle
open Cluster

theorem confined_finish (engine : Engine) (status : Option Status) :
    Confined id Cluster.toWorkspace (finish engine id status).run := by
  unfold finish
  refine .bind (confined_atomically (confined_leave engine status)) fun r => ?_
  split
  · exact .bind (confined_record _) fun _ => .pure _
  · exact .pure _

theorem confined_stop (engine : Engine) (status : Option Status) :
    Confined id Cluster.toWorkspace (stop engine id status).run :=
  .bind (confined_finish engine status) fun _ => .pure _

theorem confined_noted (m : Message Timestamp) :
    Confined id Cluster.toWorkspace (append id m).run :=
  confined_atomically (confined_commit (confined_noting m))

theorem confined_keepAlive : Confined id Cluster.toWorkspace (keepAlive id).run :=
  confined_atomically confined_keeping

theorem confined_mark (level : Level) (text : String) (status : Status) :
    Confined id Cluster.toWorkspace (mark id level text status).run :=
  .bind Cluster.confined_now fun _ =>
    confined_atomically (confined_commit (confined_marking _ status))

theorem confined_kill (engine : Engine) :
    Confined id Cluster.toWorkspace (kill engine id).run := by
  unfold kill
  refine .bind (confined_finish engine _) fun r => ?_
  split
  · refine .bind Cluster.confined_now fun _ => .bind (confined_noted _) fun _ => ?_
    refine .bind (confined_record _) fun _ => .bind Cluster.confined_now fun _ => ?_
    exact .bind (confined_announce _) fun _ => .pure _
  · exact .pure _

end Lifecycle

/-! ## Operations on an unknown job -/

def Cluster.withClock (c : Cluster) (clock : Clock) : Cluster := { c with clock }

/-- Where there is no such job, the clock may be read and nothing else happens. -/
def Cluster.Idles (id : String) (f : Cluster → Except Failure α × Cluster) : Prop :=
  ∀ c, c.store.records.get? id = none → ∃ clock, (f c).2 = c.withClock clock

namespace Cluster

theorem idles_atomically {u : UnitOfWork α} (h : Confined id (fun w => w) u.commit) :
    Idles id (atomically u).run := by
  intro c hnone
  have hstore := (h.spares c.toWorkspace).unknown hnone
  refine ⟨(u.commit c.toWorkspace).2.clock, ?_⟩
  unfold withClock
  rw [← hstore]
  rfl

theorem Idles.map {r : Work α} (h : Idles id r.run) (f : α → β) : Idles id (f <$> r).run := by
  intro c hnone
  obtain ⟨clock, hclock⟩ := h c hnone
  refine ⟨clock, ?_⟩
  show ((r >>= fun a => Pure.pure (f a)).run c).2 = _
  rw [Routine.run_bind, ← hclock]
  rcases r.run c with ⟨_ | _, _⟩ <;> rfl

end Cluster

namespace Lifecycle
open Cluster

theorem run_finish_of_unknown {c : Cluster} (hnone : c.store.records.get? id = none)
    (engine : Engine) (status : Option Status) :
    (finish engine id status).run c = (.ok (none, false), c) := by
  have hleave : (leave engine id status).commit c.toWorkspace =
      (.ok (none, false), c.toWorkspace) := by
    rw [commit_leave, hnone]
  have hatom : (atomically (leave engine id status)).run c = (.ok (none, false), c) := by
    show (((leave engine id status).commit c.toWorkspace).1, { c with
      toWorkspace := ((leave engine id status).commit c.toWorkspace).2 }) = _
    rw [hleave]
  unfold finish
  rw [Routine.run_bind, hatom]
  rfl

theorem idles_stop (engine : Engine) (status : Option Status) :
    Idles id (stop engine id status).run := by
  intro c hnone
  refine ⟨c.clock, ?_⟩
  unfold stop
  rw [Routine.run_bind, run_finish_of_unknown hnone]
  rfl

theorem idles_kill (engine : Engine) : Idles id (kill engine id).run := by
  intro c hnone
  refine ⟨c.clock, ?_⟩
  unfold kill
  rw [Routine.run_bind, run_finish_of_unknown hnone]
  rfl

theorem idles_mark (level : Level) (text : String) (status : Status) :
    Idles id (mark id level text status).run := by
  intro c hnone
  have hmark : ∀ m, Idles id (atomically (marking id m status)).run := fun m =>
    idles_atomically (confined_commit (confined_marking m status))
  have hnow : (Cluster.now.run c).2 = c.withClock c.clock.read.2 := rfl
  unfold mark
  rw [Routine.run_bind]
  split
  · rename_i now c' heq
    rw [heq] at hnow
    replace hnow : c' = c.withClock c.clock.read.2 := hnow
    obtain ⟨clock, hclock⟩ := hmark ⟨level, now, text⟩ c' (by rw [hnow]; exact hnone)
    refine ⟨clock, ?_⟩
    rw [hclock, hnow]
    rfl
  · rename_i heq
    rw [heq] at hnow
    exact ⟨_, hnow⟩

end Lifecycle

/-! ## Operations on different jobs -/

/-- Operations on different jobs, each carried out at its own time, may be exchanged. -/
theorem Confined.exchange {X Y : String} (hne : X ≠ Y)
    {f : Cluster → Except Failure α × Cluster} {g : Cluster → Except Failure β × Cluster}
    (hf : Confined X Cluster.toWorkspace f) (hg : Confined Y Cluster.toWorkspace g)
    (c : Cluster) (clock clock' : Clock) :
    let a := f (c.withClock clock)
    let b := g (c.withClock clock')
    let ab := g (a.2.withClock clock')
    let ba := f (b.2.withClock clock)
    ab.1 = b.1 ∧ ba.1 = a.1 ∧ ab.2.store.Alike ba.2.store := by
  intro a b ab ba
  have ha : c.store.Spares X a.2.store := hf.spares (c.withClock clock)
  have hb : c.store.Spares Y b.2.store := hg.spares (c.withClock clock')
  have hab : a.2.store.Spares Y ab.2.store := hg.spares (a.2.withClock clock')
  have hba : b.2.store.Spares X ba.2.store := hf.spares (b.2.withClock clock)
  -- Neither operation sees whether the other went first.
  have hY : ab.1 = b.1 ∧ ab.2.toWorkspace.Like Y b.2.toWorkspace :=
    hg.agrees _ _ ⟨ha.view_eq hne.symm, rfl⟩
  have hX : ba.1 = a.1 ∧ ba.2.toWorkspace.Like X a.2.toWorkspace :=
    hf.agrees _ _ ⟨hb.view_eq hne, rfl⟩
  have hviews : ∀ id, ba.2.store.records.get? id = ab.2.store.records.get? id ∧
      ba.2.store.messagesOf id = ab.2.store.messagesOf id := by
    intro id
    by_cases hidX : id = X
    · subst id
      have hview : ba.2.store.view X = ab.2.store.view X :=
        hX.2.1.trans (hab.view_eq hne).symm
      exact ⟨congrArg Store.View.record hview, congrArg Store.View.messages hview⟩
    · by_cases hidY : id = Y
      · subst id
        have hview : ba.2.store.view Y = ab.2.store.view Y :=
          (hba.view_eq hne.symm).trans hY.2.1.symm
        exact ⟨congrArg Store.View.record hview, congrArg Store.View.messages hview⟩
      · rw [hba.records id hidX, hb.records id hidY, hab.records id hidY, ha.records id hidX,
          hba.messages id hidX, hb.messages id hidY, hab.messages id hidY, ha.messages id hidX]
        exact ⟨rfl, rfl⟩
  refine ⟨hY.1, hX.1, fun id => (hviews id).1, fun id => (hviews id).2, fun t => ?_, ?_⟩
  · by_cases hheld : c.store.holder t = some X
    · have hnotY : c.store.holder t ≠ some Y := by simp [hheld, hne]
      rw [hab.holder_eq (ha.holder_ne hnotY)]
      exact ha.holder_of_view hba (hb.holder_eq hnotY) hX.2.1
    · rw [hba.holder_eq (hb.holder_ne hheld)]
      exact (hb.holder_of_view hab (ha.holder_eq hheld) hY.2.1).symm
  · rw [hba.disabled, hb.disabled, hab.disabled, ha.disabled]

end

/-! ## Commands -/

/-- The job that a command acts on, for the commands that act on a single job of the service. -/
def Command.addressee? (self : Identity) : Command → Option String
  | stop job _ | kill job | keepAlive job | markSkipped job | markRestarted job | append job _ =>
    some (job.get self.id)
  | _ => none

namespace Deployment

def withClock (d : Deployment) (clock : Clock) : Deployment :=
  { d with cluster := d.cluster.withClock clock }

theorem run_onCluster {α : Type} (r : Cluster.Work α) (d : Deployment) :
    (onCluster r).run d = ((r.run d.cluster).1, { d with cluster := (r.run d.cluster).2 }) :=
  Routine.run_zoom (fun d : Deployment => d.cluster) (fun c d => { d with cluster := c })
    (fun _ _ => rfl) (fun _ _ _ => rfl) (fun _ => rfl) r d

end Deployment

namespace Command
open Deployment

theorem run_reply {α : Type} (f : α → Reply) (r : Cluster.Work α) (d : Deployment) :
    (reply f r).run d =
      (((f <$> r).run d.cluster).1, { d with cluster := ((f <$> r).run d.cluster).2 }) := by
  have hmap : reply f r = onCluster (f <$> r) :=
    (Routine.zoom_bind _ _ r fun a => pure (f a)).symm
  rw [hmap, run_onCluster]

/-- What a command at a site comes to when the clock is the given one. -/
def carriedOut (command : Command) (site : Nat) (self : Identity) (clock : Clock)
    (d : Deployment) : Except Failure Reply × Deployment :=
  (command.perform site self).run (d.withClock clock)

/-- The command is a computation on the cluster that is confined to one job. -/
structure ConfinedTo (id : String) (who : Identity) (command : Command)
    (f : Engine → Cluster → Except Failure Reply × Cluster) : Prop where
  confined : ∀ engine, Confined id Cluster.toWorkspace (f engine)
  idles : ∀ engine, Cluster.Idles id (f engine)
  carriedOut : ∀ site clock d, command.carriedOut site who clock d =
    ((f (d.engine site) (d.cluster.withClock clock)).1,
      { d with cluster := (f (d.engine site) (d.cluster.withClock clock)).2 })

section
variable {self : Identity} {command : Command} {id : String}

theorem ConfinedTo.of_reply {α : Type} {answer : α → Reply} {op : Engine → Cluster.Work α}
    (hconfined : ∀ engine, Confined id Cluster.toWorkspace (op engine).run)
    (hidles : ∀ engine, Cluster.Idles id (op engine).run)
    (hrun : ∀ site d,
      (command.perform site self).run d = (reply answer (op (d.engine site))).run d) :
    ConfinedTo id self command fun engine => (answer <$> op engine).run where
  confined engine := (hconfined engine).map answer
  idles engine := (hidles engine).map answer
  carriedOut site clock d := by
    unfold Command.carriedOut
    rw [hrun, run_reply]
    rfl

theorem exists_confinedTo (h : command.addressee? self = some id) :
    ∃ f, ConfinedTo id self command f := by
  cases command with
  | stop job status =>
    obtain rfl := Option.some.inj h
    exact ⟨_, .of_reply (Lifecycle.confined_stop · status) (Lifecycle.idles_stop · status)
      fun _ _ => rfl⟩
  | kill job =>
    obtain rfl := Option.some.inj h
    exact ⟨_, .of_reply Lifecycle.confined_kill Lifecycle.idles_kill fun _ _ => rfl⟩
  | keepAlive job =>
    obtain rfl := Option.some.inj h
    exact ⟨_, .of_reply (fun _ => Lifecycle.confined_keepAlive)
      (fun _ => Cluster.idles_atomically Lifecycle.confined_keeping) fun _ _ => rfl⟩
  | markSkipped job | markRestarted job =>
    obtain rfl := Option.some.inj h
    exact ⟨_, .of_reply (fun _ => Lifecycle.confined_mark ..) (fun _ => Lifecycle.idles_mark _ _ _)
      fun _ _ => rfl⟩
  | append job m =>
    obtain rfl := Option.some.inj h
    exact ⟨_, .of_reply (fun _ => Lifecycle.confined_noted m)
      (fun _ => Cluster.idles_atomically (confined_commit (Lifecycle.confined_noting m)))
      fun _ _ => rfl⟩
  | _ => cases h

end

/-- Commands that act on different jobs do not interfere: a command touches its own job alone, and
no run lock but the one which that job holds of its own type; if there is no such job it changes
nothing. Two such commands, each at its own time, answer the same and leave the same in either
order. -/
theorem isolated {f g : Command} {self self' : Identity} {X Y : String}
    (hf : f.addressee? self = some X) (hg : g.addressee? self' = some Y) (hne : X ≠ Y)
    (site site' : Nat) (d : Deployment) (clock clock' : Clock) :
    let first := f.carriedOut site self clock d
    let second := g.carriedOut site' self' clock' d
    let firstThenSecond := g.carriedOut site' self' clock' first.2
    let secondThenFirst := f.carriedOut site self clock second.2
    d.cluster.store.Spares X first.2.cluster.store ∧
      (d.cluster.store.records.get? X = none → ∃ c, first.2 = d.withClock c) ∧
      firstThenSecond.1 = second.1 ∧ secondThenFirst.1 = first.1 ∧
      firstThenSecond.2.cluster.store.Alike secondThenFirst.2.cluster.store := by
  obtain ⟨F, hF⟩ := exists_confinedTo hf
  obtain ⟨G, hG⟩ := exists_confinedTo hg
  have hconfined := hF.confined (d.engine site)
  intro first second firstThenSecond secondThenFirst
  let a := F (d.engine site) (d.cluster.withClock clock)
  let b := G (d.engine site') (d.cluster.withClock clock')
  let ab := G (d.engine site') (a.2.withClock clock')
  let ba := F (d.engine site) (b.2.withClock clock)
  -- A command is carried out on the cluster, and leaves the sites with their engines alone.
  have hfirst : first = (a.1, { d with cluster := a.2 }) := hF.carriedOut site clock d
  have hsecond : second = (b.1, { d with cluster := b.2 }) := hG.carriedOut site' clock' d
  have hboth : firstThenSecond = (ab.1, { d with cluster := ab.2 }) := by
    show g.carriedOut site' self' clock' first.2 = _
    rw [hfirst]
    exact hG.carriedOut site' clock' { d with cluster := a.2 }
  have hboth' : secondThenFirst = (ba.1, { d with cluster := ba.2 }) := by
    show f.carriedOut site self clock second.2 = _
    rw [hsecond]
    exact hF.carriedOut site clock { d with cluster := b.2 }
  obtain ⟨hab, hba, halike⟩ : ab.1 = b.1 ∧ ba.1 = a.1 ∧ ab.2.store.Alike ba.2.store :=
    hconfined.exchange hne (hG.confined (d.engine site')) d.cluster clock clock'
  rw [hboth, hboth', hfirst, hsecond]
  refine ⟨hconfined.spares (d.cluster.withClock clock), fun hnone => ?_, hab, hba, halike⟩
  obtain ⟨c, hc⟩ := hF.idles (d.engine site) (d.cluster.withClock clock) hnone
  have hidle : a.2 = d.cluster.withClock c := hc
  exact ⟨c, by rw [hidle]; rfl⟩

/-- A job is stopped when the run lock of its type belongs to the next one already. -/
def handedOver : Deployment :=
  let d := (Schedule.ofEngine 1 Micros.perMinute ⟨∅⟩).deployment
  let s := Store.enroll (Store.insertJob ∅ (Job.new "job-1" "nightly" ⟨0⟩ "host"))
    (Job.new "job-2" "nightly" ⟨0⟩ "host")
  { d with cluster := { d.cluster with store := s } }

theorem isolated_handedOver :
    let f := Command.stop (.named "job-1") none
    let g := Command.kill (.named "job-2")
    let clock := handedOver.cluster.clock
    let first := f.carriedOut 0 ⟨"", ""⟩ clock handedOver
    let second := g.carriedOut 0 ⟨"", ""⟩ clock handedOver
    f.addressee? ⟨"", ""⟩ = some "job-1" ∧ g.addressee? ⟨"", ""⟩ = some "job-2" ∧
      "job-1" ≠ "job-2" ∧
      (first.2.cluster.store.running? "job-1" = none ∧
        first.2.cluster.store.holder "nightly" = some "job-2") ∧
      handedOver.cluster.store.Spares "job-1" first.2.cluster.store ∧
      (g.carriedOut 0 ⟨"", ""⟩ clock first.2).2.cluster.store.Alike
        (f.carriedOut 0 ⟨"", ""⟩ clock second.2).2.cluster.store := by
  have hf : addressee? ⟨"", ""⟩ (.stop (.named "job-1") none) = some "job-1" := rfl
  have hg : addressee? ⟨"", ""⟩ (.kill (.named "job-2")) = some "job-2" := rfl
  have hne : "job-1" ≠ "job-2" := by decide
  obtain ⟨hspares, -, -, -, halike⟩ :=
    isolated hf hg hne 0 0 handedOver handedOver.cluster.clock handedOver.cluster.clock
  refine ⟨hf, hg, hne, ?_, hspares, halike⟩
  decide +kernel

end Command
end JobControl
