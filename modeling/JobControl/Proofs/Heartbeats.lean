import JobControl.Proofs.LockedRuns

/-! # Heartbeats in time

While time passes only up to the next beat, every beat covers the record of its job up to the one
after it. Before its first beat a heartbeat covers nothing: by then its job has waited for a slot,
for however long, without an update. -/

namespace JobControl
open Routine (Keeps)

/-! ## Updates of running jobs -/

namespace Store
variable {K : String → Prop} {s s' : Store} {id : String} {time : Instant}

/-- The job is known, and if it is running it was updated at the given time or later. -/
def UpdatedSince (s : Store) (id : String) (time : Instant) : Prop :=
  ∃ r, s.records.get? id = some r ∧ (r.stopped = none → time ≤ r.lastUpdated)

theorem UpdatedSince.updateIf (h : s.UpdatedSince id time) {s₁ : Store}
    (hs : s₁.records = s.records) (k : String) {p : Record → Bool} {f : Record → Record}
    (hf : ∀ r, p r → (r.stopped = none → time ≤ r.lastUpdated) → (f r).stopped = none →
      time ≤ (f r).lastUpdated) : (s₁.updateIf k p f).2.UpdatedSince id time := by
  obtain ⟨r, hr, hupdated⟩ := h
  unfold UpdatedSince
  rw [get?_updateIf, hs]
  split
  · subst k
    rw [hr]
    refine ⟨_, rfl, ?_⟩
    dsimp only
    split
    · exact hf r ‹_› hupdated
    · exact hupdated
  · exact ⟨r, hr, hupdated⟩

/-- No effect sets the last update of a running job back. -/
theorem Effect.updatedSince (heffect : Effect K s s') (h : s.UpdatedSince id time) :
    s'.UpdatedSince id time := by
  cases heffect with
  | create | amend | unlock | note => exact h
  | start j _ fresh =>
    obtain ⟨r, hr, hupdated⟩ := h
    have hid : id ≠ j.id := by rintro rfl; rw [fresh] at hr; contradiction
    exact ⟨r, by rw [get?_enroll, if_neg hid]; exact hr, hupdated⟩
  | stop k _ =>
    exact h.updateIf (rfl : (s.unlock _ k).records = s.records) k fun _ _ _ hstopped =>
      absurd hstopped (Option.some_ne_none _)
  | setStatus => exact h.updateIf rfl _ fun _ _ hupdated => hupdated
  | touch k _ now =>
    refine h.updateIf rfl _ fun r hle hupdated hrunning => ?_
    exact Int.le_trans (hupdated hrunning) (Instant.le_def.mp (of_decide_eq_true hle))

theorem Deed.updated_le (h : Deed K s s') {r r' : Record} (hr : s.running? id = some r)
    (hr' : s'.running? id = some r') : r.lastUpdated ≤ r'.lastUpdated := by
  cases h with
  | change h =>
    have hs : s.UpdatedSince id r.lastUpdated :=
      ⟨r, get?_of_running? hr, fun _ => Int.le_refl _⟩
    obtain ⟨_, hknown, hupdated⟩ := h.keeps (fun _ _ heffect => heffect.updatedSince) hs
    rw [running?_eq_some] at hr'
    obtain rfl := Option.some.inj (hknown.symm.trans hr'.1)
    exact hupdated hr'.2
  | purge h =>
    rw [h.running?_eq, hr] at hr'
    exact Option.some.inj hr' ▸ Int.le_refl _

end Store

/-! ## Clocks that are not set -/

/-- What the clock shows, or will show, when so much time has elapsed, in microseconds of UTC. -/
def Clock.reading (c : Clock) (elapsed : Micros) : Micros := c.start.utcMicros + elapsed + c.drift

theorem Clock.reading_le {c : Clock} {t t' : Micros} (h : t ≤ t') : c.reading t ≤ c.reading t' :=
  Int.add_le_add_right (Int.add_le_add_left h _) _

theorem Clock.utcMicros_of_now? {c : Clock} {t : Timestamp} (h : c.now? = some t) :
    t.utcMicros = c.reading c.elapsed := by
  unfold now? Timestamp.add? at h
  split at h
  · obtain rfl := Option.some.inj h
    generalize hoffset : c.start.offset.getD 0 = offset
    simp only [reading, Timestamp.utcMicros, hoffset]
    show (_ : Int) = _
    omega
  · contradiction

namespace Schedule

/-- What the clock shows now, in microseconds of UTC. -/
def shown (s : Schedule) : Micros := s.clock.reading s.now

end Schedule

namespace Moment

/-- The clock shows a time that can be stored and is not set, and time does not pass a heartbeat
that is due. -/
def isTimely (m : Moment) : Bool :=
  (m.before.clock.now?.bind (·.toInstant?)).isSome &&
    match m.turn with
    | .elapse span => m.before.deployment.heartbeats.all (m.before.now + span ≤ ·.due)
    | .shift _ => false
    | _ => true

end Moment

namespace Schedule
variable {s s' s₀ : Schedule} {turn : Turn} {past : List Moment}

namespace Run

theorem now_le (h : s₀.Run past s) (h₀ : s₀.Sound) : ∀ m ∈ past, m.before.now ≤ s.now := by
  induction h with
  | start => exact fun m hm => absurd hm List.not_mem_nil
  | @turn past s s' turn hrun hservice hturn ih =>
    have hnow : s.now ≤ s'.now := by
      rcases (took_of_turn? hturn).cases_around (hrun.sound h₀) hservice with
        ⟨span, -, hspan, rfl⟩ | ⟨d, -, rfl⟩ | ⟨i, b, -, -, -, rfl⟩ | ⟨own, haround, -⟩
      · exact Int.le_add_of_nonneg_right hspan
      · exact Int.le_refl _
      · exact Int.le_of_eq (now_afterBeat s.deployment i b).symm
      · exact Int.le_of_eq haround.now.symm
    intro m hm
    rcases List.mem_append.mp hm with hm | hm
    · exact Int.le_trans (ih m hm) hnow
    · obtain rfl := List.mem_singleton.mp hm
      exact hnow

theorem intervals (h : s₀.Run past s) (h₀ : s₀.Sound) (site : Nat) :
    s.deployment.interval? site = s₀.deployment.interval? site := by
  induction h with
  | start => rfl
  | turn hrun hservice hturn ih =>
    rw [← ih]
    rcases (took_of_turn? hturn).cases_around (hrun.sound h₀) hservice with
      ⟨span, -, -, rfl⟩ | ⟨d, -, rfl⟩ | ⟨i, b, -, -, -, rfl⟩ | ⟨own, haround, -⟩
    · rfl
    · rfl
    · rfl
    · exact haround.intervals site

/-- A clock that is not set and does not run ahead shows the same at the same time. -/
theorem clock_unset (h : s₀.Run past s) (h₀ : s₀.Sound) (htick : s₀.clock.tick = 0)
    (hunset : ∀ m ∈ past, ∀ d, m.turn ≠ .shift d) :
    s.clock.tick = 0 ∧ s.clock.reading = s₀.clock.reading := by
  induction h with
  | start => exact ⟨htick, rfl⟩
  | @turn past s s' turn hrun hservice hturn ih =>
    obtain ⟨htick, heq⟩ := ih fun m hm => hunset m (List.mem_append_left _ hm)
    have hlast := hunset ⟨s, turn, s'⟩ List.mem_concat_self
    have ran : s.clock.Ran s'.clock → s'.clock.tick = 0 ∧ s'.clock.reading = s₀.clock.reading :=
      fun hran => by rw [hran.eq_of_tick htick]; exact ⟨htick, heq⟩
    rcases (took_of_turn? hturn).cases_around (hrun.sound h₀) hservice with
      ⟨span, -, -, rfl⟩ | ⟨d, hshift, -⟩ | ⟨i, b, -, -, -, rfl⟩ | ⟨own, -, hran⟩
    · exact ⟨htick, heq⟩
    · exact absurd hshift (hlast d)
    · exact ran (s.deployment.moved_afterBeat i b).clock
    · exact ran hran

theorem clock_timely (h : s₀.Run past s) (h₀ : s₀.Sound) (htick : s₀.clock.tick = 0)
    (htimely : ∀ m ∈ past, m.isTimely) :
    s.clock.tick = 0 ∧ s.clock.reading = s₀.clock.reading := by
  refine h.clock_unset h₀ htick fun m hm d hd => ?_
  have htimely := htimely m hm
  simp [Moment.isTimely, hd] at htimely

end Run

end Schedule

/-! ## What a beat does -/

theorem Lifecycle.commit_keepAlive {w : Workspace} {t : Timestamp} {time : Instant} (id : String)
    (hnow : w.clock.now? = some t) (htime : t.toInstant? = some time) :
    ((do let _ ← Jobs.touch id (← UnitOfWork.now) : UnitOfWork Unit).commit w).2.store =
      (w.store.touch id time).2 := by
  unfold UnitOfWork.commit
  simp [Routine.run_bind, Clock.read, hnow, Jobs.touch, UnitOfWork.run_stored, htime]

/-- After a beat the job was updated just now, or later still. -/
theorem Deployment.updated_afterBeat (d : Deployment) (i : Nat) {h : Heartbeat} {t : Timestamp}
    {time : Instant} (hnow : d.cluster.clock.now? = some t) (htime : t.toInstant? = some time)
    {r : Record} (hr : (d.afterBeat i h).cluster.store.running? h.job = some r) :
    time ≤ r.lastUpdated := by
  have hstore : (d.afterBeat i h).cluster.store = (d.cluster.store.touch h.job time).2 :=
    Lifecycle.commit_keepAlive h.job hnow htime
  rw [hstore, Store.running?_touch, if_pos rfl] at hr
  obtain ⟨r', -, rfl⟩ := Option.map_eq_some_iff.mp hr
  by_cases hle : r'.lastUpdated ≤ time
  · rw [if_pos hle]
    exact Int.le_refl _
  · rw [if_neg hle]
    exact Int.le_of_lt (Int.not_le.mp hle)

/-! ## What a heartbeat covers -/

/-- When the heartbeat beats next: when it is due, or now if that is over. -/
def Schedule.nextBeat (s : Schedule) (h : Heartbeat) : Micros := max s.now h.due

/-- While its job is running, the next beat comes within `span` of the last update. -/
def Schedule.Covers (s : Schedule) (span : Micros) (h : Heartbeat) : Prop :=
  ∀ r, s.store.running? h.job = some r →
    s.clock.reading (s.nextBeat h) ≤ r.lastUpdated.micros + span

namespace Moment

/-- The heartbeat began when its first beat no longer came within `span` of the last update of its
job. -/
def BeginsLate (m : Moment) (span : Micros) (h : Heartbeat) : Prop :=
  h.Begins m.before.deployment ∧ h ∈ m.after.deployment.heartbeats ∧
    ∃ r, m.after.store.running? h.job = some r ∧
      r.lastUpdated.micros + span < m.after.clock.reading (m.after.nextBeat h)

/-- A job of the same id as that of the heartbeat was started after its last beat. -/
def Restarts (m : Moment) (h : Heartbeat) : Prop :=
  m.Starts h.job ∧ h ∈ m.before.deployment.heartbeats

end Moment

/-- The heartbeat covers its job, unless it has not beaten since it began, too late, or since a job
of the same id was started. -/
structure Heartbeat.InTime (h : Heartbeat) (span : Micros) (past : List Moment) (s : Schedule) :
    Prop where
  every_le : h.every ≤ span
  covers : s.Covers span h ∨ ∃ e ∈ past, e.BeginsLate span h ∨ e.Restarts h

namespace Schedule
variable {s s' s₀ : Schedule} {turn : Turn} {past : List Moment} {span : Micros} {h : Heartbeat}

/-- A turn that goes on in the same way with the store and the clock leaves a heartbeat in time that
it leaves alone. -/
theorem inTime_kept (hin : h.InTime span past s) (hmem : h ∈ s.deployment.heartbeats)
    (hstore : s.store.Deed (fun _ => True) s'.store) (hreading : s'.clock.reading = s.clock.reading)
    (hnow : s'.now ≤ s.nextBeat h) : h.InTime span (past ++ [⟨s, turn, s'⟩]) s' := by
  refine ⟨hin.every_le, ?_⟩
  rcases hin.covers with hcovers | ⟨e, he, hlate⟩
  · by_cases hstarts : Moment.Starts ⟨s, turn, s'⟩ h.job
    · exact .inr ⟨_, List.mem_concat_self, .inr ⟨hstarts, hmem⟩⟩
    · refine .inl fun r' hr' => ?_
      cases hr : s.store.running? h.job with
      | none => exact absurd ⟨hr, by simp [hr']⟩ hstarts
      | some r =>
        have hnext : s'.nextBeat h ≤ s.nextBeat h := Int.max_le.mpr ⟨hnow, Int.le_max_right _ _⟩
        have hle := Int.le_trans (Clock.reading_le hnext) (hcovers r hr)
        rw [hreading]
        exact Int.le_trans hle (Int.add_le_add_right (hstore.updated_le hr hr') span)
  · exact .inr ⟨e, List.mem_append_left _ he, hlate⟩

theorem inTime_begun (hbegins : h.Begins s.deployment) (hmem : h ∈ s'.deployment.heartbeats)
    (hevery : h.every ≤ span) : h.InTime span (past ++ [⟨s, turn, s'⟩]) s' := by
  refine ⟨hevery, ?_⟩
  by_cases hcovers : s'.Covers span h
  · exact .inl hcovers
  · unfold Covers at hcovers
    obtain ⟨r, hcovers⟩ := Classical.not_forall.mp hcovers
    obtain ⟨hr, hlt⟩ := Classical.not_imp.mp hcovers
    exact .inr ⟨_, List.mem_concat_self, .inl ⟨hbegins, hmem, r, hr, Int.not_le.mp hlt⟩⟩

/-- A beat covers the job up to the next one. -/
theorem inTime_beaten {past' : List Moment} {i : Nat} (hin : h.InTime span past s)
    (hpos : 0 ≤ span) (hdue : h.due ≤ s.now) (htick : s.clock.tick = 0) {t : Timestamp}
    {time : Instant} (hnow : s.clock.now? = some t) (htime : t.toInstant? = some time)
    (hs' : s' = { s with deployment := s.deployment.afterBeat i h }) :
    Heartbeat.InTime { h with due := h.due + h.every } span past' s' := by
  have hclock : s'.clock = s.clock := by
    rw [hs']
    exact (s.deployment.moved_afterBeat i h).clock.eq_of_tick htick
  refine ⟨hin.every_le, .inl fun r hr => ?_⟩
  have hupdated : time.micros ≤ r.lastUpdated.micros := by
    rw [hs'] at hr
    exact s.deployment.updated_afterBeat i hnow htime hr
  have hshown : s.clock.reading s.now = time.micros :=
    (Clock.utcMicros_of_now? hnow).symm.trans (Timestamp.toInstant?_eq_some.mp htime).1
  have hnext : s'.nextBeat { h with due := h.due + h.every } ≤ s.now + span := by
    refine Int.max_le.mpr ⟨?_, Int.add_le_add hdue hin.every_le⟩
    show s'.clock.elapsed ≤ s.now + span
    rw [hclock]
    exact Int.le_add_of_nonneg_right hpos
  have hsum : s.clock.reading (s.now + span) = time.micros + span := by
    rw [← hshown]
    unfold Clock.reading
    show (_ : Int) = _
    omega
  rw [hclock]
  exact Int.le_trans (hsum ▸ Clock.reading_le hnext) (Int.add_le_add_right hupdated span)

/-- In a timely run every heartbeat is in time. -/
theorem Run.inTime (h : s₀.Run past s) (h₀ : s₀.Initial) (htick : s₀.clock.tick = 0)
    (hpos : 0 ≤ span)
    (hintervals : ∀ site every, s₀.deployment.interval? site = some every → every ≤ span)
    (htimely : ∀ m ∈ past, m.isTimely) :
    ∀ b ∈ s.deployment.heartbeats, b.InTime span past s := by
  induction h with
  | start => rw [h₀.heartbeats]; nofun
  | @turn past s s' turn hrun hservice hturn ih =>
    have htimely' : ∀ m ∈ past, m.isTimely := fun m hm => htimely m (List.mem_append_left _ hm)
    have ih := ih htimely'
    have hsound := hrun.sound h₀.sound
    have htook := took_of_turn? hturn
    have hserved := htook.served hsound hservice
    have hreading : s'.clock.reading = s.clock.reading :=
      ((hrun.turn hservice hturn).clock_timely h₀.sound htick htimely).2.trans
        (hrun.clock_timely h₀.sound htick htimely').2.symm
    have hlast := htimely ⟨s, turn, s'⟩ List.mem_concat_self
    intro b hb
    rcases htook.cases_around hsound hservice with
      ⟨d, rfl, -, rfl⟩ | ⟨d, rfl, -⟩ | ⟨i, b', rfl, hb', hdue, hs'⟩ | ⟨own, haround, -⟩
    · -- Time passes, but not beyond the beat that is due.
      refine inTime_kept (ih b hb) hb hserved.store hreading ?_
      simp only [Moment.isTimely, Bool.and_eq_true, List.all_eq_true] at hlast
      exact Int.le_trans (of_decide_eq_true (hlast.2 b hb)) (Int.le_max_right _ _)
    · exact absurd hlast (by simp [Moment.isTimely])
    · -- A heartbeat beats: another one or this one.
      have hnow : s'.now = s.now := hs' ▸ now_afterBeat s.deployment i b'
      have hset : s'.deployment.heartbeats =
          s.deployment.heartbeats.set i { b' with due := b'.due + b'.every } := by
        rw [hs']
        rfl
      rw [hset] at hb
      rcases List.mem_or_eq_of_mem_set hb with hb | rfl
      · exact inTime_kept (ih b hb) hb hserved.store hreading (hnow ▸ Int.le_max_left _ _)
      · have htick := (hrun.clock_timely h₀.sound htick htimely').1
        rw [Moment.isTimely, Bool.and_eq_true] at hlast
        obtain ⟨time, hshown⟩ := Option.isSome_iff_exists.mp hlast.1
        obtain ⟨t, hnow, htime⟩ := Option.bind_eq_some_iff.mp hshown
        exact inTime_beaten (ih b' (List.mem_of_getElem? hb')) hpos hdue htick hnow htime hs'
    · rcases haround.heartbeats b hb with hold | hbegins
      · have hnow : s'.now = s.now := haround.now
        exact inTime_kept (ih b hold) hold hserved.store hreading (hnow ▸ Int.le_max_left _ _)
      · refine inTime_begun hbegins hb (hintervals b.site b.every ?_)
        rw [← hrun.intervals h₀.sound]
        exact hbegins.1

end Schedule
end JobControl
