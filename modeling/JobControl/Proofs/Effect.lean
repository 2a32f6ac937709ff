import Mathlib.Logic.Relation
import JobControl.Proofs.RunLockSpec
import JobControl.Store.Basic

/-! # What may happen to a store

`Store.Effect` lists the things that the service does to a store beside the removal of old jobs,
`Store.Change` is any number of them, and `Store.Deed` is what one unit of work amounts to. That a
run lock is taken with its job and given back with it is part of the list, so whatever every effect
keeps is kept by the whole service. -/

namespace JobControl.Store
variable {s s' s'' : Store}

/-! ## Running jobs -/

/-- The record of a job that has not been stopped. -/
def running? (s : Store) (id : String) : Option Record :=
  (s.records.get? id).filter (!·.isStopped)

theorem running?_eq_some {id : String} {r : Record} :
    s.running? id = some r ↔ s.records.get? id = some r ∧ r.stopped = none := by
  unfold running? Record.isStopped
  rw [Option.filter_eq_some_iff]
  simp

theorem running?_eq_none {id : String} :
    s.running? id = none ↔ ∀ r, s.records.get? id = some r → r.isStopped := by
  unfold running?
  cases s.records.get? id <;> simp

theorem get?_of_running? {id : String} {r : Record} (h : s.running? id = some r) :
    s.records.get? id = some r := (running?_eq_some.mp h).1

/-- The job that holds the run lock of a type. -/
def holder (s : Store) (jobType : String) : Option String :=
  (s.documents.content .running).get? jobType

/-! ## Single changes -/

@[simp] theorem documents_updateIf (id : String) (p : Record → Bool) (f : Record → Record) :
    (s.updateIf id p f).2.documents = s.documents := by
  unfold updateIf; split <;> rfl

theorem get?_updateIf (id k : String) (p : Record → Bool) (f : Record → Record) :
    (s.updateIf id p f).2.records.get? k =
      if k = id then (s.records.get? id).map fun r => if p r then f r else r
      else s.records.get? k := by
  unfold updateIf
  cases h : s.records.get? id with
  | none =>
    simp only [Option.any_none, Bool.false_eq_true, if_false, Option.map_none]
    split
    · subst k; exact h
    · rfl
  | some r =>
    cases hp : p r <;> simp only [Option.any_some, hp, if_true, Bool.false_eq_true, if_false,
      Option.map_some, Mapping.get?_modify]
    · split
      · subst k; exact h
      · rfl
    · split
      · subst k; simp [h]
      · rfl

theorem running?_updateIf (id k : String) (p : Record → Bool) (f : Record → Record) :
    (s.updateIf id p f).2.running? k =
      if k = id then
        ((s.records.get? id).map fun r => if p r then f r else r).filter (!·.isStopped)
      else s.running? k := by
  unfold running?
  rw [get?_updateIf]
  split <;> rfl

theorem running?_setStatus (id k : String) (status : Status) :
    (s.setStatus id status).2.running? k =
      if k = id then (s.running? id).map fun r => { r with status } else s.running? k := by
  unfold setStatus
  rw [running?_updateIf]
  split
  · unfold running?
    cases s.records.get? id with
    | none => rfl
    | some r =>
      obtain ⟨_, _, _, stopped, _, _⟩ := r
      cases stopped <;> simp [Record.isStopped, Option.filter_some]
  · rfl

theorem running?_touch (id k : String) (time : Instant) :
    (s.touch id time).2.running? k =
      if k = id then (s.running? id).map fun r =>
        if r.lastUpdated ≤ time then { r with lastUpdated := time } else r
      else s.running? k := by
  unfold touch
  rw [running?_updateIf]
  split
  · unfold running?
    cases s.records.get? id with
    | none => rfl
    | some r =>
      obtain ⟨_, _, lastUpdated, stopped, _, _⟩ := r
      by_cases h : lastUpdated ≤ time <;> cases stopped <;>
        simp [Record.isStopped, Option.filter_some, h]
  · rfl

theorem running?_stop (id k : String) (time : Instant) (status : Option Status) :
    (s.stop id time status).2.running? k = if k = id then none else s.running? k := by
  unfold stop
  rw [running?_updateIf]
  split
  · cases s.records.get? id with
    | none => rfl
    | some r =>
      obtain ⟨_, _, _, stopped, _, _⟩ := r
      cases stopped <;> simp [Record.isStopped, Option.filter_some]
  · rfl

@[simp] theorem running?_dropIfStopped (id k : String) :
    (s.dropIfStopped id).2.running? k = s.running? k := by
  unfold dropIfStopped
  split
  · rename_i h
    unfold running? drop
    rw [Mapping.get?_erase]
    split
    · subst k
      cases hr : s.records.get? id <;> simp_all [Option.filter_some]
    · rfl
  · rfl

@[simp] theorem documents_dropIfStopped (id : String) :
    (s.dropIfStopped id).2.documents = s.documents := by
  unfold dropIfStopped; split <;> rfl

theorem get?_insertJob (j : Job Instant) (k : String) :
    (s.insertJob j).records.get? k =
      if k = j.id then some ⟨j.jobType, j.started, j.lastUpdated, j.stopped, j.status, j.hostname⟩
      else s.records.get? k :=
  Mapping.get?_insert ..

theorem messagesOf_insertJob (j : Job Instant) (k : String) :
    (s.insertJob j).messagesOf k =
      if k = j.id then s.messagesOf k ++ j.messages else s.messagesOf k := by
  unfold insertJob messagesOf
  by_cases hk : k = j.id <;>
    simp [hk, Ne.symm, List.filter_map, Function.comp_def]

theorem find?_insertJob (j : Job Instant) (k : String) (h : s.messagesOf j.id = []) :
    (s.insertJob j).find? k = if k = j.id then some j else s.find? k := by
  unfold find?
  rw [get?_insertJob, messagesOf_insertJob]
  split
  · subst k; simp [h, assemble]
  · rfl

/-! ## Run locks and their jobs -/

@[simp] theorem holder_updateIf (id : String) (p : Record → Bool) (f : Record → Record)
    (t : String) : (s.updateIf id p f).2.holder t = s.holder t := by
  unfold holder
  rw [documents_updateIf]

@[simp] theorem holder_stop (id : String) (time : Instant) (status : Option Status) (t : String) :
    (s.stop id time status).2.holder t = s.holder t := holder_updateIf ..

def enroll (s : Store) (j : Job Instant) : Store :=
  let data := (s.documents.content .running).insert j.jobType j.id
  insertJob { s with documents := s.documents.amend .running data } j

/-- Take the run lock of a type from a job, if the job holds it. -/
def unlock (s : Store) (jobType id : String) : Store :=
  { s with documents := s.documents.release jobType id }

theorem holder_enroll (j : Job Instant) (t : String) :
    (s.enroll j).holder t = if t = j.jobType then some j.id else s.holder t := by
  simp [holder, enroll, insertJob]

theorem get?_enroll (j : Job Instant) (k : String) :
    (s.enroll j).records.get? k =
      if k = j.id then some ⟨j.jobType, j.started, j.lastUpdated, j.stopped, j.status, j.hostname⟩
      else s.records.get? k :=
  get?_insertJob ..

theorem running?_enroll {j : Job Instant} (h : j.stopped = none) (k : String) :
    (s.enroll j).running? k =
      if k = j.id then some ⟨j.jobType, j.started, j.lastUpdated, none, j.status, j.hostname⟩
      else s.running? k := by
  unfold running?
  rw [get?_enroll]
  split
  · simp [h, Record.isStopped, Option.filter_some]
  · rfl

theorem holder_unlock (jobType id t : String) :
    (s.unlock jobType id).holder t =
      if t = jobType ∧ s.holder jobType = some id then none else s.holder t :=
  Documents.get?_release ..

@[simp] theorem running?_unlock (jobType id k : String) :
    (s.unlock jobType id).running? k = s.running? k := rfl

/-! ## Effects -/

variable {K K' : String → Prop}

/-- One thing that the service does to a store. Only the jobs in `K` come in, are stopped, or get
other records or messages. -/
inductive Effect (K : String → Prop) (s : Store) : Store → Prop
  | create (topic : Topic) : Effect K s { s with documents := s.documents.create topic }
  | amend (data : Mapping String String) :
    Effect K s { s with documents := s.documents.amend .disabled data }
  /-- A new job comes in with its run lock. -/
  | start (j : Job Instant) (hid : K j.id) (fresh : s.records.get? j.id = none)
    (free : s.holder j.jobType = none) (running : j.stopped = none)
    (updated : j.lastUpdated = j.started) (silent : j.messages = []) : Effect K s (s.enroll j)
  /-- A job that is not running loses the run lock of a type, if it has it. -/
  | unlock (jobType id : String) (idle : s.running? id = none) : Effect K s (s.unlock jobType id)
  /-- A running job is stopped and loses its run lock. -/
  | stop (id : String) (hid : K id) {r : Record} (time : Instant) (status : Option Status)
    (running : s.running? id = some r) :
    Effect K s ((s.unlock r.jobType id).stop id time status).2
  | note (id : String) (hid : K id) (m : Message Instant)
    (known : (s.records.get? id).isSome) : Effect K s (s.appendMessage id m)
  | setStatus (id : String) (hid : K id) (status : Status) : Effect K s (s.setStatus id status).2
  | touch (id : String) (hid : K id) (time : Instant) : Effect K s (s.touch id time).2

theorem Effect.mono (h : Effect K s s') (hK : ∀ id, K id → K' id) : Effect K' s s' := by
  cases h with
  | create topic => exact .create topic
  | amend data => exact .amend data
  | start j hid fresh free running updated silent =>
    exact .start j (hK _ hid) fresh free running updated silent
  | unlock jobType id idle => exact .unlock jobType id idle
  | stop id hid time status running => exact .stop id (hK _ hid) time status running
  | note id hid m known => exact .note id (hK _ hid) m known
  | setStatus id hid status => exact .setStatus id (hK _ hid) status
  | touch id hid time => exact .touch id (hK _ hid) time

/-- Whether another job is running, and its record while it is, stays. -/
theorem Effect.running?_eq (h : Effect K s s') {id : String} (hid : ¬K id) :
    s'.running? id = s.running? id := by
  have ne : ∀ {k}, K k → id ≠ k := fun hk e => hid (e ▸ hk)
  cases h with
  | create | amend | unlock | note => rfl
  | start j hk fresh free running => rw [running?_enroll running, if_neg (ne hk)]
  | stop k hk => rw [running?_stop, if_neg (ne hk), running?_unlock]
  | setStatus k hk => rw [running?_setStatus, if_neg (ne hk)]
  | touch k hk => rw [running?_touch, if_neg (ne hk)]

def Change (K : String → Prop) : Store → Store → Prop := Relation.ReflTransGen (Effect K)

namespace Change

theorem refl (s : Store) : Change K s s := Relation.ReflTransGen.refl

theorem trans (h : Change K s s') (h' : Change K s' s'') : Change K s s'' :=
  Relation.ReflTransGen.trans h h'

theorem tail (h : Change K s s') (h' : Effect K s' s'') : Change K s s'' :=
  Relation.ReflTransGen.tail h h'

theorem of_effect (h : Effect K s s') : Change K s s' := Relation.ReflTransGen.single h

theorem keeps {P : Store → Prop} (hP : ∀ s s', Effect K s s' → P s → P s') (h : Change K s s')
    (hs : P s) : P s' := by
  induction h with
  | refl => exact hs
  | tail _ heffect ih => exact hP _ _ heffect ih

theorem mono (h : Change K s s') (hK : ∀ id, K id → K' id) : Change K' s s' := by
  induction h with
  | refl => exact refl s
  | tail _ heffect ih => exact ih.tail (heffect.mono hK)

theorem running?_eq (h : Change K s s') {id : String} (hid : ¬K id) :
    s'.running? id = s.running? id := by
  induction h with
  | refl => rfl
  | tail _ heffect ih => rw [heffect.running?_eq hid, ih]

end Change

/-- The removal of stopped jobs. -/
def Purge : Store → Store → Prop :=
  Relation.ReflTransGen fun s s' => ∃ id, s' = (s.dropIfStopped id).2

theorem Purge.running?_eq (h : Purge s s') (id : String) : s'.running? id = s.running? id := by
  induction h with
  | refl => rfl
  | tail _ hdrop ih =>
    obtain ⟨k, rfl⟩ := hdrop
    rw [running?_dropIfStopped, ih]

/-- What one unit of work of the service does: effects, or the removal of stopped jobs. -/
inductive Deed (K : String → Prop) (s s' : Store) : Prop
  | change (h : Change K s s')
  | purge (h : Purge s s')

namespace Deed

theorem refl (s : Store) : Deed K s s := .change (.refl s)

theorem mono (h : Deed K s s') (hK : ∀ id, K id → K' id) : Deed K' s s' := by
  cases h with
  | change h => exact .change (h.mono hK)
  | purge h => exact .purge h

/-- What every effect and every removal keeps is kept. -/
theorem keeps {P : Store → Prop} (hP : ∀ s s', Effect K s s' → P s → P s')
    (hdrop : ∀ s id, P s → P (s.dropIfStopped id).2) (h : Deed K s s') (hs : P s) : P s' := by
  cases h with
  | change h => exact h.keeps hP hs
  | purge h =>
    induction h with
    | refl => exact hs
    | tail _ h ih =>
      obtain ⟨id, rfl⟩ := h
      exact hdrop _ id ih

theorem running?_eq (h : Deed K s s') {id : String} (hid : ¬K id) :
    s'.running? id = s.running? id := by
  cases h with
  | change h => exact h.running?_eq hid
  | purge h => exact h.running?_eq id

end Deed

end JobControl.Store
