import JobControl.Proofs.Conduct
import JobControl.Proofs.ServiceLogic
import JobControl.Proofs.LifecycleUnits
import JobControl.Reaper

/-! # What the operations do among others

Each operation of the service is a sequence of units of work, and between two of them anything may
happen. `Cluster.conduct K`: the first step after a wait is one unit of work and makes effects on
jobs in `K`; the steps after it, up to the next wait, leave the store alone. `Cluster.keeping K`: so
do all operations. -/

namespace JobControl
open Routine (Keeps)
variable {K : String → Prop}

/-! ## The event bus -/

/-- Work on the bus leaves the listeners as they behave. -/
def Bus.conduct : Conduct Bus where
  inv _ := True
  turn b b' := b'.known = b.known
  quiet b b' := b'.known = b.known
  quiet_refl _ := rfl
  turn_of_quiet _ h := h
  turn_quiet h h' := h'.trans h
  inv_turn _ _ := trivial

namespace Bus

theorem known_change (b : Bus) (s : Subscription) : (b.change s).known = b.known := by
  cases s <;> rfl

theorem known_call (name : String) (l : Listener) (e : Event) (b : Bus) :
    (call name l e b).2.known = b.known := by
  have hfold : ∀ (subs : List Subscription) (b : Bus), (b.changeAll subs).known = b.known := by
    intro subs
    induction subs with
    | nil => exact fun _ => rfl
    | cons s subs ih => exact fun b => (ih _).trans (known_change b s)
  exact hfold _ _

theorem allows_iff {fresh : Bool} {b b' : Bus} :
    conduct.allows fresh b b' ↔ b'.known = b.known := by
  cases fresh <;> rfl

/-- Work on the bus keeps what every call keeps. -/
def keeping (C : Conduct Bus) (hcall : ∀ fresh name l e b, C.allows fresh b (call name l e b).2) :
    Logic where
  toLogic := C.logic Wake
  call name l e := .act (fun b _ => hcall _ name l e b) fun _ _ _ _ => trivial
  await _ _ _ := ⟨.pure trivial, .fail _⟩

theorem keeps_publish (e : Event) : Keeps conduct (fun _ => True) (publish e) false := by
  have hcall : ∀ fresh name l e b, conduct.allows fresh b (call name l e b).2 :=
    fun _ name l e b => allows_iff.mpr (known_call name l e b)
  refine (keeping conduct hcall).publish e ?_
  exact Keeps.update (fun b _ => allows_iff.mpr rfl) fun _ _ => trivial

end Bus

/-! ## Clusters -/

namespace Cluster

structure Calm (c c' : Cluster) : Prop where
  store : c'.store = c.store
  clock : c.clock.Ran c'.clock
  known : c'.bus.known = c.bus.known

/-- A unit of work has acted on the store. -/
structure Moved (K : String → Prop) (c c' : Cluster) : Prop where
  store : c.store.Deed K c'.store
  clock : c.clock.Ran c'.clock
  known : c'.bus.known = c.bus.known

theorem Calm.refl (c : Cluster) : Calm c c := ⟨rfl, .refl _, rfl⟩

theorem Calm.moved {c c' : Cluster} (h : Calm c c') : Moved K c c' :=
  ⟨h.store ▸ .refl _, h.clock, h.known⟩

theorem Moved.calm {c c' c'' : Cluster} (h : Moved K c c') (h' : Calm c' c'') : Moved K c c'' :=
  ⟨h'.store ▸ h.store, h.clock.trans h'.clock, h'.known.trans h.known⟩

def conduct (K : String → Prop) : Conduct Cluster where
  inv _ := True
  turn := Moved K
  quiet := Calm
  quiet_refl := .refl
  turn_of_quiet _ h := h.moved
  turn_quiet h h' := h.calm h'
  inv_turn _ _ := trivial

variable {α : Type} {Q : α → Prop}

theorem allows_of_calm {fresh : Bool} {c c' : Cluster} (h : Calm c c') :
    (conduct K).allows fresh c c' := (conduct K).allows_of_quiet trivial h

theorem keeps_atomically {u : UnitOfWork α} (h : u.Commits K) :
    Keeps (conduct K) (fun _ => True) (atomically u) false :=
  .yielding <| .act (fun c _ => ⟨(h c.toWorkspace).1, (h c.toWorkspace).2, rfl⟩)
    fun _ _ _ _ => trivial

theorem keeps_query (f : Store → α) :
    Keeps (conduct K) (fun _ => True) (atomically (UnitOfWork.query f)) false :=
  keeps_atomically (UnitOfWork.Makes.query f).commits

theorem keeps_now : Keeps (conduct K) (fun _ => True) Cluster.now false :=
  .act (fun _ _ => allows_of_calm ⟨rfl, .read _, rfl⟩) fun _ _ _ _ => trivial

theorem keeps_nextId : Keeps (conduct K) (fun _ => True) nextId false :=
  .update (fun _ _ => allows_of_calm ⟨rfl, .refl _, rfl⟩) fun _ _ => trivial

theorem keeps_record (f : Metrics Micros → Metrics Micros) :
    Keeps (conduct K) (fun _ => True) (record f) false :=
  .modify (fun _ _ => allows_of_calm ⟨rfl, .refl _, rfl⟩) trivial

theorem keeps_announce (e : Event) : Keeps (conduct K) (fun _ => True) (announce e) false := by
  refine .zoom (fun _ _ => trivial) (fun c b fresh _ hb => ?_) (Bus.keeps_publish e)
  exact allows_of_calm ⟨rfl, .refl _, Bus.allows_iff.mp hb⟩

end Cluster

open Cluster

/-! ## The operations -/

theorem Lifecycle.makes_keepAlive {id : String} (hid : K id) :
    UnitOfWork.Makes K (do let _ ← Jobs.touch id (← UnitOfWork.now)) :=
  .bind .now fun _ => .bind (Jobs.makes_touch hid _) fun _ => .pure _

theorem Service.keeps_findJobs (jobType : Option String) (count : Int) :
    Keeps (conduct K) (fun _ => True) (findJobs jobType count) false := by
  refine keeps_atomically (UnitOfWork.Makes.commits ?_)
  split
  · exact Jobs.makes_findLatestBy _ count
  · exact Jobs.makes_findLatest count

theorem Service.keeps_deleteJobs (jobType : Option String) :
    Keeps (conduct K) (fun _ => True) (deleteJobs jobType) false := by
  refine keeps_atomically (UnitOfWork.Purges.commits ?_)
  cases jobType with
  | none => exact purges_dropStopped_of fun _ => rfl
  | some t => exact purges_dropStopped_of fun _ => rfl

/-- The operations change the store by units of work, one after a wait. Who starts jobs concerns all
of them, the new one being any. -/
def Cluster.keeping (K : String → Prop) : Logic where
  toLogic := (conduct K).logic Wake
  concerns := K
  admits _ := ∀ id, K id
  notes _ := True
  now := keeps_now
  announce e _ := keeps_announce e
  recordRun jobType span := keeps_record (·.jobRan jobType span)
  recordClearing jobType := keeps_record (·.lockCleared jobType)
  start engine d hK :=
    Lifecycle.holds_start _ keeps_nextId keeps_now
      (fun id now => keeps_atomically (Lifecycle.commits_enter (hK id) engine d now _)) keeps_record
  finish engine _ status hid :=
    Lifecycle.holds_finish _ (keeps_atomically (Lifecycle.commits_leave hid engine status))
      keeps_record
  kill engine _ hid :=
    Lifecycle.holds_kill _
      (Lifecycle.holds_finish _ (keeps_atomically (Lifecycle.commits_leave hid engine _))
        keeps_record)
      keeps_now (fun m => keeps_atomically (Lifecycle.makes_noting hid m).commits) keeps_record
      keeps_announce
  append _ m hid _ := keeps_atomically (Lifecycle.makes_noting hid m).commits
  keepAlive _ hid := keeps_atomically (Lifecycle.makes_keepAlive hid).commits
  skip _ _ hid := keeps_atomically (Lifecycle.makes_marking hid _ _).commits
  restart _ _ hid := keeps_atomically (Lifecycle.makes_marking hid _ _).commits
  findStale since := keeps_atomically (Jobs.makes_findStale since).commits
  releaseLeaked engine entry :=
    keeps_atomically (Lifecycle.makes_releaseLeaked engine entry).commits
  runningJobs := keeps_atomically Lifecycle.makes_runningJobs.commits
  disabledTypes := keeps_atomically Service.makes_disabledTypes.commits
  query := keeps_query
  findJobs := Service.keeps_findJobs
  deleteJobs := Service.keeps_deleteJobs
  dropStopped _ := keeps_atomically (Service.purges_dropStopped _).commits
  disable _ _ _ := keeps_atomically (Service.makes_amend _ _).commits
  enable _ _ := keeps_atomically (Service.makes_amend _ _).commits

end JobControl
