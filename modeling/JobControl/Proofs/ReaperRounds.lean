import JobControl.Proofs.ReaperTurns

/-! # The rounds of a reaper

A reaper has its first run as soon as it is there, and each further run one interval after the end
of the run before, however that ended, until it is told to stop. If it is told so while it waits its
loop ends at once, and otherwise with the run that goes on. All this goes by the time that has
elapsed, and takes for granted that none elapses while a run is to begin. -/

namespace JobControl

/-- Nothing would have been missed by this time: no run is to begin, and a wait is not over. -/
def Loop.Allows (l : Loop) (now : Micros) : Prop := ¬l.isDue ∧ ∀ due ∈ l.due?, now ≤ due

instance (l : Loop) (now : Micros) : Decidable (l.Allows now) :=
  inferInstanceAs (Decidable (¬l.isDue ∧ ∀ due ∈ l.due?, now ≤ due))

/-- Time passes only so far as reaper `i` misses nothing. -/
def Moment.OnTime (i : Nat) (m : Moment) : Prop :=
  match m.turn with
  | .elapse span => ∀ w ∈ m.before.deployment.watches[i]?, w.loop.Allows (m.before.now + span)
  | _ => True

instance (i : Nat) (m : Moment) : Decidable (m.OnTime i) :=
  match m with
  | ⟨s, .elapse span, _⟩ =>
    inferInstanceAs (Decidable (∀ w ∈ s.deployment.watches[i]?, w.loop.Allows (s.now + span)))
  | ⟨_, .move _, _⟩ | ⟨_, .call .., _⟩ | ⟨_, .shift _, _⟩ => isTrue trivial

theorem Schedule.nextDue?_le {s : Schedule} {i : Nat} {w : Watch} {due : Micros}
    (hw : s.deployment.watches[i]? = some w) (hdue : w.loop.due? = some due) :
    ∃ next, s.nextDue? = some next ∧ next ≤ due := by
  have hmem : due ∈ s.deployment.watches.filterMap (·.loop.due?) :=
    List.mem_filterMap.mpr ⟨w, List.mem_of_getElem? hw, hdue⟩
  have hall := List.mem_append_right
    (s.threads.filterMap (·.due?) ++ s.deployment.heartbeats.map (·.due)) hmem
  obtain ⟨next, hnext⟩ := Option.isSome_iff_exists.mp (List.isSome_min?_of_mem hall)
  exact ⟨next, hnext, (List.min?_eq_some_iff.mp hnext).2 due hall⟩

/-- A schedule that advances only when it has settled, and not beyond what is due next, is on time
for every reaper. -/
theorem Moment.onTime_of_settled {s s' : Schedule} {span : Micros} (hsettled : s.Settled)
    (hnext : ∀ next ∈ s.nextDue?, s.now + span ≤ next) (i : Nat) :
    Moment.OnTime i ⟨s, .elapse span, s'⟩ := by
  intro w hw
  refine ⟨hsettled.not_isDue hw, fun due hdue => ?_⟩
  obtain ⟨next, hsome, hle⟩ := Schedule.nextDue?_le hw hdue
  exact Int.le_trans (hnext next hsome) hle

/-- Reaper `i` has been told to stop. -/
def Schedule.isStopping (s : Schedule) (i : Nat) : Bool :=
  s.deployment.watches[i]?.any (·.loop.stopping)

/-- Reaper `i` is told to stop. -/
def Moment.Stops (m : Moment) (i : Nat) : Prop :=
  m.before.isStopping i = false ∧ m.after.isStopping i = true

instance (m : Moment) (i : Nat) : Decidable (m.Stops i) :=
  inferInstanceAs (Decidable (m.before.isStopping i = false ∧ m.after.isStopping i = true))

/-! ## Since the last run -/

/-- The last run of reaper `i` ended at this time. -/
def Rested (i : Nat) (past : List Moment) (time : Micros) : Prop :=
  ∃ earlier e later, past = earlier ++ e :: later ∧ e.Finishes i ∧ e.before.now = time ∧
    ∀ m ∈ later, ¬m.Begins i ∧ ¬m.Finishes i

namespace Rested
variable {i : Nat} {past : List Moment} {m : Moment} {time : Micros}

theorem of_finishes (hm : m.Finishes i) : Rested i (past ++ [m]) m.before.now :=
  ⟨past, m, [], rfl, hm, rfl, fun _ hm => absurd hm List.not_mem_nil⟩

theorem snoc (h : Rested i past time) (hbegins : ¬m.Begins i) (hfinishes : ¬m.Finishes i) :
    Rested i (past ++ [m]) time := by
  obtain ⟨earlier, e, later, rfl, he, htime, hlater⟩ := h
  refine ⟨earlier, e, later ++ [m], by simp, he, htime, fun m' hm' => ?_⟩
  rcases List.mem_append.mp hm' with hm' | hm'
  · exact hlater m' hm'
  · exact List.mem_singleton.mp hm' ▸ ⟨hbegins, hfinishes⟩

end Rested

/-! ## Where the loop stands -/

/-- How the loop of reaper `i` goes with what has happened up to the present time. -/
inductive Watch.Stands (i : Nat) (past : List Moment) (now : Micros) : Option Watch → Prop
  | absent (hpast : ∀ m ∈ past, ¬m.Begins i ∧ m.before.deployment.watches[i]? = none) :
    Stands i past now none
  | scheduled {w : Watch} (hloop : w.loop = .start w.reaper.pause)
    (hpast : ∀ m ∈ past, ¬m.Begins i ∧
      (m.before.deployment.watches[i]? = none ∨ m.before.now = now)) :
    Stands i past now (some w)
  | running {w : Watch} (hinterval : w.loop.interval = w.reaper.pause)
    (hphase : w.loop.phase = .running) : Stands i past now (some w)
  | waiting {w : Watch} {due : Micros} (hloop : w.loop = ⟨w.reaper.pause, false, .waiting due⟩)
    (hdue : now ≤ due) (hrested : Rested i past (due - w.reaper.pause)) :
    Stands i past now (some w)
  | woken {w : Watch} (hloop : w.loop = ⟨w.reaper.pause, false, .woken⟩)
    (hrested : Rested i past (now - w.reaper.pause)) : Stands i past now (some w)
  | ended {w : Watch} (hloop : w.loop = ⟨w.reaper.pause, true, .ended⟩) :
    Stands i past now (some w)

namespace Watch.Continues
variable {w w' : Watch}

theorem loop_of_stop (h : w.Continues w') (hstop : w.loop.stop = w.loop) : w'.loop = w.loop := by
  rcases h.loop with hloop | hloop
  · exact hloop
  · exact hloop.trans hstop

theorem interval (h : w.Continues w') : w'.loop.interval = w.loop.interval := by
  rcases h.loop with hloop | hloop <;> rw [hloop]
  unfold Loop.stop
  split <;> rfl

end Watch.Continues

namespace Watch.Stands
variable {i : Nat} {past : List Moment} {m : Moment} {w w' : Option Watch}

/-- The reaper goes on, and perhaps time passes. -/
theorem goes (h : Stands i past m.before.now w) (hwatch : m.before.deployment.watches[i]? = w)
    (hbegins : ¬m.Begins i) (hfinishes : ¬m.Finishes i)
    (htime : m.after.now = m.before.now ∨ ∀ v ∈ w, v.loop.Allows m.after.now)
    (hgoes : Goes w w') : Stands i (past ++ [m]) m.after.now w' := by
  have snoc {p : Moment → Prop} (hpast : ∀ m' ∈ past, p m') (hm : p m) :
      ∀ m' ∈ past ++ [m], p m' :=
    List.forall_mem_append.mpr ⟨hpast, List.forall_mem_singleton.mpr hm⟩
  cases hgoes with
  | absent =>
    cases h with
    | absent hpast => exact .absent (snoc hpast ⟨hbegins, hwatch⟩)
  | @begins w w' hstart hcontinues =>
    cases h with
    | absent hpast =>
      have hloop : w'.loop = .start w'.reaper.pause := by
        rw [hcontinues.reaper, ← hstart]
        exact hcontinues.loop_of_stop (by rw [hstart]; rfl)
      exact .scheduled hloop (snoc (fun m' hm' => ⟨(hpast m' hm').1, .inl (hpast m' hm').2⟩)
        ⟨hbegins, .inl hwatch⟩)
  | @goesOn w w' hcontinues =>
    have still (hdue : w.loop.isDue) : m.after.now = m.before.now :=
      htime.resolve_right fun hallows => (hallows w rfl).1 hdue
    cases h with
    | scheduled hloop hpast =>
      rw [still (by rw [hloop]; rfl)]
      refine .scheduled ?_ (snoc hpast ⟨hbegins, .inr rfl⟩)
      rw [hcontinues.reaper, ← hloop]
      exact hcontinues.loop_of_stop (by rw [hloop]; rfl)
    | running hinterval hphase =>
      refine .running ?_ (hcontinues.running.mpr hphase)
      rw [hcontinues.interval, hcontinues.reaper, hinterval]
    | @waiting _ due hloop hdue hrested =>
      rcases hcontinues.loop with hsame | hsame
      · have hdue : m.after.now ≤ due := by
          rcases htime with htime | hallows
          · rwa [htime]
          · exact (hallows w rfl).2 due (by rw [hloop]; rfl)
        refine .waiting (by rw [hsame, hloop, hcontinues.reaper]) hdue ?_
        rw [hcontinues.reaper]
        exact hrested.snoc hbegins hfinishes
      · exact .ended (by rw [hsame, hloop, hcontinues.reaper]; rfl)
    | woken hloop hrested =>
      rcases hcontinues.loop with hsame | hsame
      · refine .woken (by rw [hsame, hloop, hcontinues.reaper]) ?_
        rw [still (by rw [hloop]; rfl), hcontinues.reaper]
        exact hrested.snoc hbegins hfinishes
      · exact .ended (by rw [hsame, hloop, hcontinues.reaper]; rfl)
    | ended hloop =>
      refine .ended ?_
      rw [hcontinues.reaper, ← hloop]
      exact hcontinues.loop_of_stop (by rw [hloop]; rfl)

/-- A run ends, well or badly. -/
theorem runEnded {v : Watch} (hpause : 0 ≤ v.reaper.pause)
    (hinterval : v.loop.interval = v.reaper.pause) (hrunning : v.loop.phase = .running)
    (hfinishes : m.Finishes i) : Stands i (past ++ [m]) m.before.now
      (some { v with loop := v.loop.runEnded m.before.now }) := by
  have hloop : v.loop.runEnded m.before.now = _ := Loop.runEnded_of_running hrunning
  rw [hinterval] at hloop
  cases hstopping : v.loop.stopping with
  | true =>
    rw [hstopping] at hloop
    exact .ended hloop
  | false =>
    rw [hstopping] at hloop
    refine .waiting hloop (Int.le_add_of_nonneg_right hpause) ?_
    have htime : m.before.now + v.reaper.pause - v.reaper.pause = m.before.now :=
      Int.add_sub_cancel _ _
    rw [htime]
    exact .of_finishes hfinishes

theorem step (h : Stands i past m.before.now w) (hwatch : m.before.deployment.watches[i]? = w)
    (hruns : m.before.runsOf i = runs w) (hstep : Step i m w w')
    (hpause : ∀ v ∈ w, 0 ≤ v.reaper.pause)
    (hmove : ∀ move, m.turn = .move move → m.after.now = m.before.now)
    (htime : m.after.now = m.before.now ∨ ∀ v ∈ w, v.loop.Allows m.after.now) :
    Stands i (past ++ [m]) m.after.now w' := by
  cases hstep with
  | goes hbegins hfinishes _ hgoes => exact h.goes hwatch hbegins hfinishes htime hgoes
  | @wakes w due hturn _ hphase hdue =>
    have hbegins : ¬m.Begins i := fun hbegins => absurd (hturn.symm.trans hbegins) nofun
    have hfinishes : ¬m.Finishes i :=
      Moment.not_finishes_of_turn fun j hresume => absurd (hturn.symm.trans hresume) nofun
    cases h with
    | @waiting _ due' hloop hnow hrested =>
      obtain rfl : due' = due := by
        rw [hloop] at hphase
        exact Phase.waiting.inj hphase
      -- Time has not passed beyond the end of the wait.
      obtain rfl : m.before.now = due' := Int.le_antisymm hnow hdue
      refine .woken (by simp [Loop.wake, hloop]) ?_
      rw [hmove _ hturn]
      exact hrested.snoc hbegins hfinishes
    | scheduled hloop | woken hloop | ended hloop =>
      rw [hloop] at hphase
      contradiction
    | running _ hrunning =>
      rw [hrunning] at hphase
      contradiction
  | @begins w hbegins _ hdue =>
    refine .running ?_ rfl
    cases h with
    | scheduled hloop | woken hloop => exact congrArg Loop.interval hloop
    | waiting hloop | ended hloop =>
      rw [hloop] at hdue
      contradiction
    | running hinterval => exact hinterval
  | @finishes w w' w'' hfinishes hless hgoes hended =>
    obtain ⟨v, rfl, hrunning⟩ := exists_running (w := w) (by omega)
    obtain ⟨j, -, -, hresume, -⟩ := Moment.finishes_iff.mp hfinishes
    rw [hmove _ hresume]
    cases hgoes with
    | @goesOn _ v' hcontinues =>
      subst hended
      cases h with
      | running hinterval =>
        have hinterval' : v'.loop.interval = v'.reaper.pause := by
          rw [hcontinues.interval, hcontinues.reaper, hinterval]
        exact runEnded (hcontinues.reaper ▸ hpause v rfl) hinterval'
          (hcontinues.running.mpr hrunning) hfinishes
      | scheduled hloop | waiting hloop | woken hloop | ended hloop =>
        rw [hloop] at hrunning
        contradiction

/-! ### What can be told from it -/

variable {now : Micros} {v : Watch}

/-- A run begins at once, or an interval after the end of the one before. -/
theorem of_isDue (h : Stands i past now (some v)) (hdue : v.loop.isDue) :
    v.loop.stopping = false ∧ runs (some v) = 0 ∧
      ((∀ m ∈ past, ¬m.Begins i ∧
          (m.before.deployment.watches[i]? = none ∨ m.before.now = now)) ∨
        ∃ time, Rested i past time ∧ now = time + v.reaper.pause) := by
  cases h with
  | scheduled hloop hpast => exact ⟨by rw [hloop]; rfl, runs_start hloop, .inl hpast⟩
  | woken hloop hrested =>
    have hnow : now = now - v.reaper.pause + v.reaper.pause := (Int.sub_add_cancel _ _).symm
    exact ⟨by rw [hloop], by simp [runs, hloop], .inr ⟨_, hrested, hnow⟩⟩
  | running _ hphase =>
    rcases Loop.isDue_iff.mp hdue with hphase' | hphase'
    all_goals
      rw [hphase] at hphase'
      contradiction
  | waiting hloop | ended hloop =>
    rw [hloop] at hdue
    contradiction

theorem of_waiting (h : Stands i past now (some v)) {due : Micros}
    (hphase : v.loop.phase = .waiting due) : Rested i past (due - v.reaper.pause) := by
  cases h with
  | waiting hloop _ hrested =>
    rw [hloop] at hphase
    exact Phase.waiting.inj hphase ▸ hrested
  | scheduled hloop | woken hloop | ended hloop =>
    rw [hloop] at hphase
    contradiction
  | running _ hrunning =>
    rw [hrunning] at hphase
    contradiction

/-- The loop has ended when it has been told so and no run goes on. -/
theorem ended_iff (h : Stands i past now (some v)) :
    v.loop.phase = .ended ↔ v.loop.stopping ∧ runs (some v) = 0 := by
  cases h with
  | scheduled hloop | waiting hloop | woken hloop => simp [hloop, Loop.start]
  | running _ hphase => simp [runs, hphase]
  | ended hloop => simp [runs, hloop]

end Watch.Stands

/-! ## To be told to stop -/

namespace Loop

theorem stopping_wake (l : Loop) (now : Micros) : (l.wake now).stopping = l.stopping := by
  unfold wake
  split
  · split <;> rfl
  · rfl

theorem stopping_runEnded (l : Loop) (now : Micros) : (l.runEnded now).stopping = l.stopping := by
  unfold runEnded
  split <;> rfl

end Loop

namespace Watch
variable {i : Nat} {m : Moment} {w w' : Option Watch}

theorem Continues.stopping {w w' : Watch} (h : w.Continues w') (hw : w.loop.stopping) :
    w'.loop.stopping := by
  rcases h.loop with hloop | hloop <;> rw [hloop]
  · exact hw
  · unfold Loop.stop
    split
    · exact hw
    all_goals rfl

theorem Goes.stopping (h : Goes w w') (hw : w.any (·.loop.stopping)) :
    w'.any (·.loop.stopping) := by
  cases h with
  | absent | begins => contradiction
  | goesOn h => exact h.stopping hw

/-- A reaper that has been told to stop is not told otherwise. -/
theorem Step.stopping (h : Step i m w w') (hw : w.any (·.loop.stopping)) :
    w'.any (·.loop.stopping) := by
  cases h with
  | goes _ _ _ h => exact h.stopping hw
  | @wakes w => exact (w.loop.stopping_wake _).trans hw
  | begins => exact hw
  | @finishes w v w' _ _ h hended =>
    have hv := h.stopping hw
    subst hended
    cases v with
    | none => contradiction
    | some v => exact (v.loop.stopping_runEnded _).trans hv

end Watch

namespace Schedule
variable {s s₀ : Schedule} {past : List Moment} {i : Nat}

theorem Run.isStopping_iff (h : s₀.Run past s) (h₀ : s₀.Sound) (hnone : s₀.threads = [])
    (hstart : ∀ w, s₀.deployment.watches[i]? = some w → w.loop = .start w.reaper.pause) :
    s.isStopping i ↔ ∃ m ∈ past, m.Stops i := by
  induction h with
  | start =>
    refine iff_of_false (fun hstopping => ?_) (by simp)
    obtain ⟨w, hw, hstopping⟩ := (Option.any_eq_true _ _).mp hstopping
    rw [hstart w hw] at hstopping
    contradiction
  | @turn past s s' turn hrun _ hturn ih =>
    have hstep := (hrun.serving_any h₀ hnone).step hturn i
    cases hbefore : s.isStopping i with
    | true =>
      obtain ⟨m, hm, hstops⟩ := ih.mp hbefore
      exact iff_of_true (hstep.stopping hbefore) ⟨m, List.mem_append_left _ hm, hstops⟩
    | false =>
      constructor
      · exact fun hafter => ⟨_, List.mem_concat_self, hbefore, hafter⟩
      · rintro ⟨m, hm, hstops⟩
        rcases List.mem_append.mp hm with hm | hm
        · have hcontra := ih.mpr ⟨m, hm, hstops⟩
          rw [hbefore] at hcontra
          contradiction
        · obtain rfl := List.mem_singleton.mp hm
          exact hstops.2

/-! ## All rounds -/

/-- Moves take no time, and whatever else happens takes no more than the loop allows. -/
theorem now_of_onTime {s' : Schedule} {turn : Turn} (hturn : s.turn? turn = some s')
    (hs : s.Sound) (hontime : Moment.OnTime i ⟨s, turn, s'⟩) :
    (∀ move, turn = .move move → s'.now = s.now) ∧
      (s'.now = s.now ∨ ∀ w ∈ s.deployment.watches[i]?, w.loop.Allows s'.now) := by
  cases turn with
  | move move =>
    have hnow := now_of_step? hturn hs
    exact ⟨fun _ _ => hnow, .inl hnow⟩
  | call | shift =>
    obtain rfl := Option.some.inj hturn
    exact ⟨nofun, .inl rfl⟩
  | elapse span =>
    cases took_of_turn? hturn with
    | elapse => exact ⟨nofun, .inr hontime⟩

theorem Run.stands (h : s₀.Run past s) (h₀ : s₀.Sound) (hnone : s₀.threads = [])
    (hstart : ∀ w, s₀.deployment.watches[i]? = some w → w.loop = .start w.reaper.pause)
    (hontime : ∀ m ∈ past, m.OnTime i)
    (hpause : ∀ w ∈ s.deployment.watches[i]?, 0 ≤ w.reaper.pause) :
    Watch.Stands i past s.now s.deployment.watches[i]? := by
  induction h with
  | start =>
    cases hw : s₀.deployment.watches[i]? with
    | none => exact .absent fun m hm => absurd hm List.not_mem_nil
    | some w => exact .scheduled (hstart w hw) fun m hm => absurd hm List.not_mem_nil
  | @turn past s s' turn hrun hservice hturn ih =>
    have hstep := (hrun.serving_any h₀ hnone).step hturn i
    have hpause : ∀ w ∈ s.deployment.watches[i]?, 0 ≤ w.reaper.pause := by
      intro w hw
      rw [Option.mem_def.mp hw] at hstep
      obtain ⟨v, hv, hsame⟩ := hstep.reaper
      exact hsame ▸ hpause v hv
    have ih := ih (fun m hm => hontime m (List.mem_append_left _ hm)) hpause
    obtain ⟨hmove, htime⟩ :=
      now_of_onTime hturn (hrun.sound h₀) (hontime _ List.mem_concat_self)
    have hruns := hrun.runsOf_eq h₀ hnone hstart
    exact Watch.Stands.step (m := ⟨s, turn, s'⟩) ih rfl hruns hstep hpause hmove htime

theorem isStopping_eq {w : Watch} (hw : s.deployment.watches[i]? = some w) :
    s.isStopping i = w.loop.stopping := by
  simp [isStopping, hw]

/-- Where a run begins, none goes on, and it is due. -/
theorem Run.of_begins {earlier later : List Moment} {b : Moment}
    (h : s₀.Run (earlier ++ b :: later) s) (h₀ : s₀.Sound) (hnone : s₀.threads = [])
    (hstart : ∀ w, s₀.deployment.watches[i]? = some w → w.loop = .start w.reaper.pause)
    (hontime : ∀ m ∈ earlier ++ b :: later, m.OnTime i) {w : Watch}
    (hw : s.deployment.watches[i]? = some w) (hpause : 0 ≤ w.reaper.pause) (hb : b.Begins i) :
    b.before.runsOf i = 0 ∧ (∀ m ∈ earlier, ¬m.Stops i) ∧
      ((∀ m ∈ earlier, ¬m.Begins i ∧
          (m.before.deployment.watches[i]? = none ∨ m.before.now = b.before.now)) ∨
        ∃ time, Rested i earlier time ∧ b.before.now = time + w.reaper.pause) := by
  rw [List.append_cons] at h
  obtain ⟨s₁, hto, hlater⟩ := h.of_append
  obtain ⟨hbefore, -, hturn, hafter⟩ := hto.last
  rw [hb, ← hafter] at hturn
  obtain ⟨v, hv, hdue, hbegan⟩ : ∃ v, b.before.deployment.watches[i]? = some v ∧ v.loop.isDue ∧
      s₁.deployment.watches[i]? = some { v with loop := v.loop.runBegan } := by
    clear hafter
    cases took_of_turn? hturn with
    | @begin _ v hwatch hdue =>
      refine ⟨v, hwatch, hdue, ?_⟩
      rw [Deployment.watches_modifyLoop_self, hwatch]
      rfl
  -- The reaper is the same as at the end.
  have hreaper : w.reaper = v.reaper := by
    obtain ⟨w', hw', hsame⟩ := hlater.reaper (hto.sound h₀) (hto.serving_any h₀ hnone)
      (fun m _ => m.paced_any) hbegan
    obtain rfl := Option.some.inj (hw.symm.trans hw')
    exact hsame
  have hstands := hbefore.stands h₀ hnone hstart
    (fun m hm => hontime m (List.mem_append_left _ hm)) fun v' hv' => by
      obtain rfl := Option.some.inj (hv.symm.trans hv')
      exact hreaper ▸ hpause
  rw [hv] at hstands
  obtain ⟨hgoes, hruns, hround⟩ := hstands.of_isDue hdue
  refine ⟨?_, fun m hm hstops => ?_, hreaper ▸ hround⟩
  · rw [hbefore.runsOf_eq h₀ hnone hstart, hv, hruns]
  · have hstopping := (hbefore.isStopping_iff h₀ hnone hstart).mpr ⟨m, hm, hstops⟩
    rw [isStopping_eq hv, hgoes] at hstopping
    contradiction

/-- One engine, and a listener that takes five seconds after every event. -/
def listening : Schedule :=
  let s := single 1 (500 * Micros.perSecond) (sleeper "lengthy" (400 * Micros.perSecond))
  let slow : Listener := ⟨5 * Micros.perSecond, fun _ => [], fun _ => false⟩
  let known := (∅ : Mapping String Listener).insert "slow" slow
  let cluster := { s.deployment.cluster with bus := ⟨known, ["slow"], [], []⟩ }
  { s with deployment := { s.deployment with cluster } }

theorem initial_listening : listening.Initial := by
  have h : (single 1 (500 * Micros.perSecond)
      (sleeper "lengthy" (400 * Micros.perSecond))).Initial :=
    initial_single (isService_sleeper _ _)
  exact ⟨h.store, ⟨h.proper.handlers, h.proper.queued⟩, h.threads, h.heartbeats⟩

end Schedule
end JobControl
