import JobControl.Proofs.Contracts
import JobControl.Proofs.Isolation
import JobControl.Proofs.Phases

/-! # The standing of a job

`Standing` is what a job shows of itself: its messages without their times, its status, and whether
it is stopped. Each operation of a runner on its own job is specified by what it makes of the
standing, as long as the store does not fail and nobody else has a hand in the job. -/

namespace JobControl
open Routine (Attains Returning Leaving)

structure Standing where
  messages : List (Level × String)
  status : Status
  stopped : Bool

namespace Standing

/-- After a message; an error makes itself the status. -/
def note (a : Standing) (level : Level) (text : String) : Standing :=
  { a with
    messages := a.messages ++ [(level, text)]
    status := if level = .error then .error else a.status }

def mark (a : Standing) (level : Level) (text : String) (status : Status) : Standing :=
  { a with messages := a.messages ++ [(level, text)], status }

def noteAll (a : Standing) (notes : List (Level × String)) : Standing :=
  { a with
    messages := a.messages ++ notes
    status := if notes.any (·.1 = .error) then .error else a.status }

def close (a : Standing) : Standing := { a with stopped := true }

theorem noteAll_nil (a : Standing) : a.noteAll [] = a := by
  simp [noteAll]

theorem noteAll_note (a : Standing) (level : Level) (text : String)
    (notes : List (Level × String)) :
    (a.note level text).noteAll notes = a.noteAll ((level, text) :: notes) := by
  unfold noteAll note
  rw [List.append_assoc, List.any_cons]
  by_cases hlevel : level = .error
  · cases notes.any (·.1 = .error) <;> simp [hlevel]
  · simp only [hlevel, if_false, decide_false, Bool.false_or, List.singleton_append]

end Standing

/-! ## The standing in the store -/

namespace Store
variable {s : Store} {id : String} {a : Standing}

/-- The job is known and has this standing. -/
structure Tells (id : String) (a : Standing) (s : Store) : Prop where
  messages : (s.messagesOf id).map (fun m => (m.level, m.text)) = a.messages
  record : ∃ r, s.records.get? id = some r ∧ r.status = a.status ∧ r.isStopped = a.stopped

namespace Tells

theorem map_appendMessage (h : s.Tells id a) (m : Message Instant) :
    ((s.appendMessage id m).messagesOf id).map (fun m => (m.level, m.text)) =
      a.messages ++ [(m.level, m.text)] := by
  rw [messagesOf_appendMessage, if_pos rfl, List.map_append, h.messages]
  rfl

theorem note (h : s.Tells id a) {m : Message Instant} (hlevel : m.level ≠ .error) :
    (s.appendMessage id m).Tells id (a.note m.level m.text) := by
  obtain ⟨r, hr, hstatus, hstopped⟩ := h.record
  refine ⟨h.map_appendMessage m, r, hr, ?_, hstopped⟩
  rw [hstatus]
  exact (if_neg hlevel).symm

/-- A message together with a sign of life and a status. -/
theorem mark (h : s.Tells id a) (hrunning : a.stopped = false) (m : Message Instant)
    (time : Instant) (status : Status) {t : Store}
    (hrecord : t.records.get? id = (s.records.get? id).map (·.sign time status))
    (hmessages : t.messages = (s.appendMessage id m).messages) :
    t.Tells id (a.mark m.level m.text status) := by
  obtain ⟨r, hr, -, hstopped⟩ := h.record
  have hmessages' : t.messagesOf id = (s.appendMessage id m).messagesOf id := by
    unfold messagesOf
    rw [hmessages]
  refine ⟨?_, r.sign time status, ?_, ?_, hstopped⟩
  · rw [hmessages']
    exact h.map_appendMessage m
  · rw [hrecord, hr]
    rfl
  · show (if r.isStopped then r.status else status) = status
    rw [hstopped, hrunning]
    rfl

theorem touch (h : s.Tells id a) (time : Instant) : (s.touch id time).2.Tells id a := by
  obtain ⟨r, hr, hstatus, hstopped⟩ := h.record
  refine ⟨?_, if r.lastUpdated ≤ time then { r with lastUpdated := time } else r, ?_, ?_, ?_⟩
  · rw [← h.messages]
    unfold Store.touch
    simp only [messagesOf, messages_updateIf]
  · rw [get?_touch, if_pos rfl, hr]
    rfl
  · split
    · exact hstatus
    · exact hstatus
  · split
    · exact hstopped
    · exact hstopped

theorem close (h : s.Tells id a) (hrunning : a.stopped = false) {r : Record}
    (hr : s.records.get? id = some r) (time : Instant) :
    (s.letOut id r time none).2.Tells id a.close := by
  have hview := view_letOut hr time none
  obtain ⟨r', hr', hstatus, hstopped⟩ := h.record
  obtain rfl : r = r' := Option.some.inj (hr.symm.trans hr')
  rw [hstopped, hrunning] at hview
  have hmessages : (s.letOut id r time none).2.messagesOf id = s.messagesOf id :=
    congrArg View.messages hview
  refine ⟨?_, r.ended time none, congrArg View.record hview, hstatus, rfl⟩
  rw [hmessages]
  exact h.messages

end Tells
end Store

/-! ## What the units of work make of it -/

namespace Clock

theorem Ran.start_eq {c c' : Clock} (h : c.Ran c') : c'.start = c.start := by
  obtain ⟨n, rfl⟩ := h
  rfl

/-- A clock that shows a time which can be stored. -/
theorem Storable.read {c : Clock} (h : c.Storable) :
    ∃ t i, c.read.1 = .ok t ∧ t.toInstant? = some i ∧ t.offset = c.start.offset := by
  obtain ⟨t, i, hnow, htime⟩ := h
  have hoffset : t.offset = c.start.offset := by
    unfold now? Timestamp.add? at hnow
    split at hnow
    · obtain rfl := Option.some.inj hnow
      rfl
    · contradiction
  refine ⟨t, i, ?_, htime, hoffset⟩
  unfold Clock.read
  rw [hnow]

theorem storable_iff {c : Clock} : c.Storable ↔
    (0 ≤ c.start.wall + (c.elapsed + c.drift) ∧
      c.start.wall + (c.elapsed + c.drift) < timeLimit) ∧
    0 ≤ c.start.wall + (c.elapsed + c.drift) - c.start.offset.getD 0 ∧
      c.start.wall + (c.elapsed + c.drift) - c.start.offset.getD 0 < timeLimit := by
  unfold Storable now? Timestamp.add?
  constructor
  · rintro ⟨t, i, hnow, htime⟩
    split at hnow
    · rename_i hwall
      obtain rfl := Option.some.inj hnow
      unfold Timestamp.toInstant? at htime
      split at htime
      · exact ⟨hwall, by assumption⟩
      · contradiction
    · contradiction
  · rintro ⟨hwall, hutc⟩
    exact ⟨_, _, if_pos hwall, if_pos hutc⟩

/-- A clock that was read between two times that can be stored showed one. -/
theorem Storable.between {c c' c'' : Clock} (h : c.Storable) (h'' : c''.Storable) (hran : c.Ran c')
    (hran' : c'.Ran c'') : c'.Storable := by
  obtain ⟨n, rfl⟩ := hran
  obtain ⟨m, rfl⟩ := hran'
  rw [storable_iff] at h h'' ⊢
  have hinside : ∀ wall elapsed drift offset limit x y : Int, (0 ≤ x ∧ 0 ≤ y) ∨ (x ≤ 0 ∧ y ≤ 0) →
      0 ≤ wall + (elapsed + drift) - offset ∧ wall + (elapsed + drift) - offset < limit →
      0 ≤ wall + (elapsed + (drift + x + y)) - offset ∧
        wall + (elapsed + (drift + x + y)) - offset < limit →
      0 ≤ wall + (elapsed + (drift + x)) - offset ∧
        wall + (elapsed + (drift + x)) - offset < limit := by
    omega
  -- Both stretches of readings moved the clock in the same direction.
  have hway : (0 ≤ (n : Int) * c.tick ∧ 0 ≤ (m : Int) * c.tick) ∨
      ((n : Int) * c.tick ≤ 0 ∧ (m : Int) * c.tick ≤ 0) := by
    rcases Int.le_total 0 c.tick with htick | htick
    · exact .inl ⟨Int.mul_nonneg (Int.natCast_nonneg n) htick,
        Int.mul_nonneg (Int.natCast_nonneg m) htick⟩
    · exact .inr ⟨Int.mul_nonpos_of_nonneg_of_nonpos (Int.natCast_nonneg n) htick,
        Int.mul_nonpos_of_nonneg_of_nonpos (Int.natCast_nonneg m) htick⟩
  have hwall := hinside c.start.wall c.elapsed c.drift 0 timeLimit _ _ hway
  simp only [Int.sub_zero] at hwall
  exact ⟨hwall h.1 h''.1, hinside _ _ _ _ _ _ _ hway h.2 h''.2⟩

end Clock

namespace Lifecycle
open UnitOfWork
variable {id : String} {a : Standing} {w : Workspace}

/-- A unit of work that succeeds and leaves the job with a standing. -/
def Succeeds (id : String) (a : Standing) (w : Workspace) {α : Type} (u : UnitOfWork α) : Prop :=
  ∃ x w', u.commit w = (.ok x, w') ∧ w'.store.Tells id a ∧ w'.clock.start = w.clock.start

theorem Succeeds.of_run {α : Type} {u : UnitOfWork α} {x : α} {w' : Workspace}
    (h : u.run w = (.ok x, w')) (htells : w'.store.Tells id a)
    (hclock : w'.clock.start = w.clock.start) : Succeeds id a w u := by
  refine ⟨x, w', ?_, htells, hclock⟩
  unfold commit
  rw [h]

section
variable (h : w.store.Tells id a) {time : Timestamp} {i : Instant}
  (htime : time.toInstant? = some i)
include h htime

theorem run_append_of_tells (level : Level) (text : String) :
    (Jobs.append id ⟨level, time, text⟩).run w =
      (.ok true, { w with store := w.store.appendMessage id ⟨level, i, text⟩ }) := by
  obtain ⟨r, hr, -⟩ := h.record
  have hknown : w.store.records.contains id := by
    unfold Mapping.contains
    rw [hr]
    rfl
  rw [Jobs.run_append, if_pos hknown]
  dsimp only
  rw [htime]

theorem succeeds_noting (hrunning : a.stopped = false) (hclock : w.clock.Storable)
    (hoffset : time.offset = w.clock.start.offset) (level : Level) (text : String) :
    Succeeds id (a.note level text) w (noting id ⟨level, time, text⟩) := by
  by_cases hlevel : level = .error
  · subst hlevel
    obtain ⟨now, j, hnow, hj, hoffset'⟩ := hclock.read
    have hcomparable : now.comparable time := by
      unfold Timestamp.comparable
      rw [hoffset, hoffset']
      exact beq_self_eq_true _
    obtain ⟨k, hk⟩ : ∃ k, (if now.utcMicros < time.utcMicros then time else now).toInstant? =
        some k := by
      split
      · exact ⟨i, htime⟩
      · exact ⟨j, hj⟩
    have hrun : (noting id ⟨.error, time, text⟩).run w = (.ok (),
        ⟨(((w.store.appendMessage id ⟨.error, i, text⟩).setStatus id .error).2.touch id k).2,
          w.clock.read.2⟩) := by
      unfold noting
      rw [Routine.run_bind, run_append_of_tells h htime]
      simp only [beq_self_eq_true, Bool.and_self, if_true, Jobs.setStatus, Routine.run_bind,
        run_change, run_now, hnow, Timestamp.latest?, hcomparable, Jobs.run_touch, hk,
        Routine.run_pure]
    refine .of_run hrun ?_ (Clock.Ran.read w.clock).start_eq
    have hmark := h.mark hrunning ⟨.error, i, text⟩ k .error
      (t := (((w.store.appendMessage id ⟨.error, i, text⟩).setStatus id .error).2.touch id k).2)
      (by rw [Store.get?_setStatus_touch, if_pos rfl]; rfl)
      (by unfold Store.touch Store.setStatus; simp only [Store.messages_updateIf])
    exact hmark
  · have hrun : (noting id ⟨level, time, text⟩).run w =
        (.ok (), { w with store := w.store.appendMessage id ⟨level, i, text⟩ }) := by
      have hlevel' : (level == Level.error) = false := by simpa using hlevel
      unfold noting
      rw [Routine.run_bind, run_append_of_tells h htime]
      simp only [hlevel', Bool.and_false, Bool.false_eq_true, if_false, Routine.run_pure]
    exact .of_run hrun (h.note (m := ⟨level, i, text⟩) hlevel) rfl

theorem succeeds_marking (hrunning : a.stopped = false) (level : Level) (text : String)
    (status : Status) :
    Succeeds id (a.mark level text status) w (marking id ⟨level, time, text⟩ status) := by
  have hrun : (marking id ⟨level, time, text⟩ status).run w = (.ok (), { w with
      store := (((w.store.appendMessage id ⟨level, i, text⟩).touch id i).2.setStatus id
        status).2 }) := by
    unfold marking
    rw [Routine.run_bind, run_append_of_tells h htime]
    simp only [if_true, Routine.run_bind, Jobs.run_touch, htime, Jobs.setStatus, run_change,
      Routine.run_pure]
  refine .of_run hrun ?_ rfl
  exact h.mark hrunning ⟨level, i, text⟩ i status
    (by rw [Store.get?_touch_setStatus, if_pos rfl]; rfl)
    (by unfold Store.touch Store.setStatus; simp only [Store.messages_updateIf])

end

theorem succeeds_keeping (h : w.store.Tells id a) (hclock : w.clock.Storable) :
    Succeeds id a w (do let _ ← Jobs.touch id (← UnitOfWork.now)) := by
  obtain ⟨now, i, hnow, hi, -⟩ := hclock.read
  have hrun : (do let _ ← Jobs.touch id (← UnitOfWork.now) : UnitOfWork Unit).run w =
      (.ok (), ⟨(w.store.touch id i).2, w.clock.read.2⟩) := by
    simp only [Routine.run_bind, run_now, hnow, Jobs.run_touch, hi, Routine.run_pure]
  exact .of_run hrun (h.touch i) (Clock.Ran.read w.clock).start_eq

theorem succeeds_leave {engine : Engine} (hrounds : 0 < engine.rounds) (h : w.store.Tells id a)
    (hrunning : a.stopped = false) (hclock : w.clock.Storable) :
    Succeeds id a.close w (leave engine id none) := by
  obtain ⟨r, hr, -⟩ := h.record
  obtain ⟨now, i, hnow, hi, -⟩ := hclock.read
  have hread : w.clock.read = (.ok now, w.clock.read.2) := Prod.ext hnow rfl
  have hcommit : (leave engine id none).commit w =
      (.ok ((w.store.letOut id r i none).2.find? id, (w.store.letOut id r i none).1),
        ⟨(w.store.letOut id r i none).2, w.clock.read.2⟩) := by
    rw [commit_leave_eq, hr]
    dsimp only
    rw [if_neg (Int.not_le.mpr hrounds), hread]
    dsimp only
    rw [hi]
  exact ⟨_, _, hcommit, h.close hrunning hr i, (Clock.Ran.read w.clock).start_eq⟩

end Lifecycle

/-! ## What the operations on the cluster make of it -/

namespace Bus

def promptness (endless : Prop) : Tracking Wake Bus Unit where
  shows _ b := b.Prompt
  fair _ := True
  patient w := w = .never → endless

theorem attains_deliver {endless : Prop} (e : Event) (name : String) :
    (deliver e name).Attains (promptness endless) (Returning fun _ _ => True) () 0 := by
  refine Attains.bind (P := fun found _ => ∀ l, found = some l → l.delay ≤ 0) (n := 0) (m := 0)
    (.read fun b hb _ => ⟨_, rfl, hb name⟩) fun found _ hfound => ?_
  cases found with
  | none => exact ⟨(), rfl, trivial⟩
  | some l =>
    have hdelay : ¬0 < l.delay := Int.not_lt.mpr (hfound l rfl)
    simp only [if_neg hdelay, rescue_call]
    refine .modify fun b' hb' _ => ⟨(), ?_, (), rfl, trivial⟩
    show (call name l e b').2.Prompt
    unfold Prompt
    rw [known_call]
    exact hb'

theorem attains_publish {endless : Prop} (e : Event) :
    (publish e).Attains (promptness endless) (Returning fun _ _ => True) () 0 := by
  have hall : ∀ names : List String,
      (deliverAll e names).Attains (promptness endless) (Returning fun _ _ => True) () 0 := by
    intro names
    induction names with
    | nil => exact ⟨(), rfl, trivial⟩
    | cons name rest ih => exact (attains_deliver e name).bind fun _ _ _ => ih
  intro b hb _
  exact ⟨(), hb, hall b.subscribed⟩

end Bus

namespace Cluster
variable {id : String} {offset : Option Micros} {endless : Prop} {a : Standing} {α : Type}

/-- Keeps track of the standing of a job, as long as the clock shows times that can be stored. No
listener takes time. -/
def tracking (id : String) (offset : Option Micros) (endless : Prop) :
    Tracking Wake Cluster Standing where
  shows a c := c.store.Tells id a ∧ c.clock.start.offset = offset ∧ c.bus.Prompt
  fair c := c.clock.Storable
  patient w := w = .never → endless

theorem attains_now : Cluster.now.Attains (tracking id offset endless)
    (Returning fun t a' => a' = a ∧ t.offset = offset ∧ ∃ i, t.toInstant? = some i) a 0 := by
  refine .act fun c ⟨htells, hoffset, hprompt⟩ hclock => ?_
  obtain ⟨t, i, hnow, htime, hoffset'⟩ := Clock.Storable.read hclock
  have hstart := (Clock.Ran.read c.clock).start_eq
  refine ⟨a, ⟨htells, ?_, hprompt⟩, t, hnow, rfl, hoffset'.trans hoffset, i, htime⟩
  show c.clock.read.2.start.offset = offset
  rw [hstart]
  exact hoffset

theorem attains_atomically {u : UnitOfWork α} {a' : Standing}
    (h : ∀ w : Workspace, w.store.Tells id a → w.clock.start.offset = offset → w.clock.Storable →
      Lifecycle.Succeeds id a' w u) :
    (atomically u).Attains (tracking id offset endless) (Leaving a') a 1 := by
  refine .yielding (.act fun c ⟨htells, hoffset, hprompt⟩ hclock => ?_)
  obtain ⟨x, w', hcommit, htells', hstart⟩ := h c.toWorkspace htells hoffset hclock
  dsimp only
  rw [hcommit]
  exact ⟨a', ⟨htells', hstart ▸ hoffset, hprompt⟩, x, rfl, rfl⟩

theorem attains_record (f : Metrics Micros → Metrics Micros) :
    (record f).Attains (tracking id offset endless) (Leaving a) a 0 :=
  .modify fun _ hc _ => ⟨a, hc, (), rfl, rfl⟩

theorem attains_announce (e : Event) :
    (announce e).Attains (tracking id offset endless) (Leaving a) a 0 := by
  refine Attains.zoom (T := Bus.promptness endless) (g := ()) (f := fun _ => a)
    (fun _ c hc => hc.2.2) (fun _ _ => trivial) (fun _ _ c b hc hb => ⟨hc.1, hc.2.1, hb⟩)
    (fun _ hw => hw) ((Bus.attains_publish e).mono (Nat.le_refl 0) ?_)
  rintro outcome _ ⟨x, rfl, -⟩
  exact ⟨x, rfl, rfl⟩

end Cluster

namespace Lifecycle
open Cluster
variable {id : String} {offset : Option Micros} {endless : Prop} {a : Standing}
  (hrunning : a.stopped = false)

theorem attains_keepAlive :
    (keepAlive id).Attains (tracking id offset endless) (Leaving a) a 1 :=
  attains_atomically fun _ h _ hclock => succeeds_keeping h hclock

include hrunning

theorem attains_append {time : Timestamp} (hoffset : time.offset = offset)
    (htime : ∃ i, time.toInstant? = some i) (level : Level) (text : String) :
    (append id ⟨level, time, text⟩).Attains (tracking id offset endless)
      (Leaving (a.note level text)) a 1 := by
  obtain ⟨i, htime⟩ := htime
  refine attains_atomically fun w h hstart hclock => ?_
  exact succeeds_noting h htime hrunning hclock (hoffset.trans hstart.symm) level text

theorem attains_mark (level : Level) (text : String) (status : Status) :
    (mark id level text status).Attains (tracking id offset endless)
      (Leaving (a.mark level text status)) a 1 := by
  refine attains_now.bind (m := 1) ?_
  rintro now _ ⟨rfl, -, i, htime⟩
  exact attains_atomically fun w h _ _ => succeeds_marking h htime hrunning level text status

theorem attains_stop {engine : Engine} (hrounds : 0 < engine.rounds) :
    (stop engine id none).Attains (tracking id offset endless) (Leaving a.close) a 1 := by
  have hleave : (atomically (leave engine id none)).Attains (tracking id offset endless)
      (Leaving a.close) a 1 :=
    attains_atomically fun w h _ hclock => succeeds_leave hrounds h hrunning hclock
  have hfinish :
      (finish engine id none).Attains (tracking id offset endless) (Leaving a.close) a 1 := by
    refine hleave.bind (m := 0) ?_
    rintro ⟨_ | job, _ | _⟩ _ rfl
    case some.true => exact (attains_record _).bind (m := 0) fun _ _ h => ⟨_, rfl, h⟩
    all_goals exact ⟨_, rfl, rfl⟩
  exact hfinish.map fun _ _ h => h

end Lifecycle
end JobControl
