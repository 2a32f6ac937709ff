import JobControl.Proofs.ReaperTurns

/-! # How soon silence is detected

In a punctual run a reaper that does not fail kills every job that was silent for longer than it
tolerates with its next run. So when a run has ended, no running job has been silent for longer, and
until the next one has ended none has been silent for longer than that and one interval. -/

namespace JobControl

/-- For how long a job may be silent. -/
def Reaper.tolerance (reaper : Reaper) : Micros := reaper.deadAfter * Micros.perSecond

theorem Reaper.tolerance_eq {reaper : Reaper} {span : Micros}
    (h : (Seconds.whole reaper.deadAfter).toSpan = .ok span) : reaper.tolerance = span := by
  unfold Seconds.toSpan at h
  dsimp only at h
  split at h
  · exact Except.ok.inj h
  · contradiction

/-! ## Jobs that were heard of -/

/-- If the job is running, its last update is of the given time or later. -/
def Store.Heard (s : Store) (job : String) (time : Micros) : Prop :=
  ∀ r, s.running? job = some r → time ≤ r.lastUpdated.micros

/-- A job that comes in comes in with the present time, and no last update is set back. -/
theorem Moment.Serves.heard {m : Moment} (h : m.Serves .still)
    (hdeed : m.before.store.Deed (fun _ => True) m.after.store) {job : String} {time : Micros}
    (htime : time ≤ m.before.shown) (hheard : m.before.store.Heard job time) :
    m.after.store.Heard job time := by
  intro r' hr'
  cases hr : m.before.store.running? job with
  | none =>
    have hdated : r'.lastUpdated.micros = m.before.shown := h.dated job r' hr hr'
    exact hdated ▸ htime
  | some r => exact Int.le_trans (hheard r hr) (hdeed.updated_le hr hr')

namespace Schedule
variable {s s' s₀ : Schedule} {turn : Turn} {past : List Moment} {i : Nat}

theorem PunctualRun.heard (h : PunctualRun s₀ past s) {job : String} {time : Micros}
    (htime : ∀ m ∈ past, time ≤ m.before.shown) (h₀ : s₀.store.Heard job time) :
    s.store.Heard job time := by
  induction h using PunctualRun.induct with
  | start => exact h₀
  | turn h hservice hturn hall ih =>
    have hdeed := ((took_of_turn? hturn).served h.again.sound hservice).store
    have hheard := ih fun m hm => htime m (List.mem_append_left _ hm)
    exact (hall.serves _ List.mem_concat_self).heard hdeed (htime _ List.mem_concat_self) hheard

end Schedule

namespace Schedule
variable {s s' s₀ : Schedule} {turn : Turn} {past : List Moment} {i : Nat}

/-! ## What a run of a reaper leaves -/

namespace PunctualRun

/-- A reaper stays the same. -/
theorem reaper (h : PunctualRun s₀ past s) {w : Watch} (hw : s₀.deployment.watches[i]? = some w) :
    ∃ v, s.deployment.watches[i]? = some v ∧ v.reaper = w.reaper :=
  h.run.reaper h.sound h.serving (h.run.paced_still h.sound h.serving h.punctual) hw

/-- So all its runs are passes for jobs that are silent for the same span of time. -/
theorem passes (h : PunctualRun s₀ past s) {w : Watch} (hw : s.deployment.watches[i]? = some w) :
    (Owner.watch i).Passes (.whole w.reaper.deadAfter) past := by
  intro m hm work hbegun
  obtain ⟨earlier, later, rfl⟩ := List.append_of_mem hm
  obtain ⟨-, -, hfrom, -⟩ := h.cut
  unfold Moment.begun? at hbegun
  split at hbegun
  · exact absurd (Prod.mk.inj (Option.some.inj hbegun)).1 nofun
  · obtain ⟨v, hv, heq⟩ := Option.map_eq_some_iff.mp hbegun
    obtain ⟨howner, hwork⟩ := Prod.mk.inj heq
    obtain rfl := Owner.watch.inj howner
    obtain ⟨v', hv', hsame⟩ := hfrom.reaper hv
    obtain rfl := Option.some.inj (hw.symm.trans hv')
    rw [hsame, hwork]
  · obtain ⟨g, -, heq⟩ := Option.map_eq_some_iff.mp hbegun
    exact absurd (Prod.mk.inj heq).1 nofun
  · contradiction

/-- A reaper that has a run is there. -/
theorem watch_of_thread (h : PunctualRun s₀ past s) (hnone : s₀.threads = []) {t : Thread}
    (ht : t ∈ s.threads) (howner : t.owner = .watch i) :
    ∃ w, s.deployment.watches[i]? = some w := by
  obtain ⟨front, b, back, rfl, hb, -, -⟩ := h.begun hnone ht howner
  obtain ⟨-, hto, hback, -⟩ := h.cut
  obtain ⟨-, -, hturn, -⟩ := hto.run.last
  rw [hb] at hturn
  generalize b.after = after at hturn
  cases took_of_turn? hturn with
  | begin hwatch =>
    obtain ⟨w, hw, -⟩ := hback.reaper hwatch
    exact ⟨w, hw⟩

/-- A run of a reaper that has ended well has asked, while the clock showed what it shows now, for
the jobs that were silent for too long, and all that it found have ended since. -/
theorem asked {m : Moment} (h : PunctualRun s₀ (past ++ [m]) s) (hnone : s₀.threads = [])
    (hreturns : m.Returns (.watch i)) {w : Watch}
    (hw : m.before.deployment.watches[i]? = some w) :
    ∃ (q : Moment) (later : List Moment) (ids : List String), PunctualRun q.before (q :: later) s ∧
      (∀ e ∈ q :: later, e.before.shown = m.before.shown) ∧
      (∀ job, job ∈ ids ↔ ∃ r, q.before.store.running? job = some r ∧
        r.lastUpdated.micros + w.reaper.tolerance < m.before.shown) ∧
      ∀ job ∈ ids, ∃ e ∈ later, e.Ends job := by
  obtain ⟨hbefore, -, -⟩ := h.cut
  obtain ⟨-, -, hturn, rfl⟩ := h.run.last
  obtain ⟨j, ⟨o, r, due⟩, hresume, hthread, howner, hdone⟩ := hreturns
  obtain rfl : o = .watch i := howner
  obtain ⟨front, b, back, rfl, -, hfirst, hclock⟩ :=
    hbefore.begun hnone (List.mem_of_getElem? hthread) rfl
  -- What happened since the run began is a run of its own, in which the clock stood still.
  obtain ⟨-, -, hback, -⟩ := hbefore.cut
  have hall : PunctualRun b.before ((b :: back) ++ [m]) m.after := by
    have h' : PunctualRun s₀ (front ++ b :: (back ++ [m])) m.after := by
      rwa [List.append_assoc] at h
    exact h'.cut.2.2.1
  have hshown : ∀ e ∈ (b :: back) ++ [m], e.before.shown = m.before.shown := by
    intro e he
    rcases List.mem_append.mp he with he | he
    · show e.before.clock.reading e.before.clock.elapsed = _
      rw [hclock e he]
      rfl
    · rw [List.mem_singleton.mp he]
  have hpasses := hback.passes hw
  have hstages := hback.run.threads_from
    (passing_rule hback.sound (.watch i) (.whole w.reaper.deadAfter)) hback.sound
    fun t ht ho _ => absurd ho (hfirst t ht)
  obtain ⟨-, hstage⟩ := hstages _ (List.mem_of_getElem? hthread) rfl hpasses
  have hm : m = ⟨m.before, .move (.resume j), m.before.play j (.watch i) r.resume⟩ := by
    rw [← eq_play_of_resume (hresume ▸ hturn) hthread, ← hresume]
  obtain ⟨span, time, ids, earlier, q, later, hspan, hpast, hasks, -, hended⟩ :=
    asks_of_turn hback.run hback.sound hthread hstage hm (.inr hdone)
  obtain rfl : w.reaper.tolerance = span := Reaper.tolerance_eq hspan
  obtain ⟨c, hc, -, rfl⟩ := hasks.read
  rw [hpast] at hall hshown
  refine ⟨q, later, ids, hall.cut.2.2.1, fun e he => hshown e (List.mem_append_right _ he),
    fun job => ?_, hended hdone⟩
  rw [← hshown c (List.mem_append_left _ hc)]
  exact hasks.found job

/-- When a run of a reaper has ended well, no running job has been silent for longer than the reaper
tolerates: those that had been were found and have ended, and those that were started since are
new. -/
theorem heard_of_returns {m : Moment} (h : PunctualRun s₀ (past ++ [m]) s)
    (hnone : s₀.threads = []) (hreturns : m.Returns (.watch i)) {w : Watch}
    (hw : m.before.deployment.watches[i]? = some w) (hdead : 0 ≤ w.reaper.deadAfter)
    (job : String) : s.store.Heard job (s.shown - w.reaper.tolerance) := by
  obtain ⟨q, later, ids, hrun, hshown, hfound, hended⟩ := h.asked hnone hreturns hw
  obtain ⟨j, -, hresume, -⟩ := hreturns
  rw [(h.now_of_move hresume).2]
  have htolerance : 0 ≤ w.reaper.tolerance := Int.mul_nonneg hdead (by decide)
  have hearlier : ∀ e ∈ q :: later, m.before.shown - w.reaper.tolerance ≤ e.before.shown := by
    intro e he
    rw [hshown e he]
    exact Int.sub_le_self _ htolerance
  by_cases hjob : job ∈ ids
  · obtain ⟨e, he, hends⟩ := hended job hjob
    obtain ⟨front, back, rfl⟩ := List.append_of_mem he
    rw [← List.cons_append] at hrun
    obtain ⟨-, -, -, hback⟩ := hrun.cut
    refine hback.heard (fun e' he' => hearlier e' ?_) fun r hr => ?_
    · simp [he']
    · exact absurd (hends.2.symm.trans hr) nofun
  · refine hrun.heard hearlier fun r hr => ?_
    have hrecent := fun hsilent => hjob ((hfound job).mpr ⟨r, hr, hsilent⟩)
    exact Int.sub_right_le_of_le_add (Int.not_lt.mp hrecent)

end PunctualRun
end Schedule

/-! ## The loop of a reaper -/

/-- The reaper waits for an interval after the end of a run, and no running job had been silent for
too long by then. -/
structure Watch.Detects (s : Schedule) (w : Watch) : Prop where
  interval : w.loop.interval = w.reaper.pause
  ended : w.loop.phase = .ended → w.loop.stopping = true
  goesOn : ∀ due, w.loop.phase = .waiting due → w.loop.stopping = false
  since : ∀ due, w.loop.phase = .waiting due → due - w.reaper.pause ≤ s.now
  heard : ∀ due, w.loop.phase = .waiting due → ∀ job,
    s.store.Heard job (s.clock.reading (due - w.reaper.pause) - w.reaper.tolerance)

namespace Watch.Detects
variable {s s' : Schedule} {w w' : Watch}

/-- Nothing is asked of a loop that neither waits nor has ended. -/
theorem of_phase (hinterval : w.loop.interval = w.reaper.pause)
    (hwaits : ∀ due, w.loop.phase ≠ .waiting due) (hends : w.loop.phase ≠ .ended) :
    w.Detects s where
  interval := hinterval
  ended h := absurd h hends
  goesOn due h := absurd h (hwaits due)
  since due h := absurd h (hwaits due)
  heard due h := absurd h (hwaits due)

theorem stop (h : w.Detects s) : Detects s { w with loop := w.loop.stop } := by
  obtain ⟨name, engine, reaper, ⟨interval, stopping, phase⟩⟩ := w
  cases phase with
  | scheduled => exact h
  | running => exact .of_phase h.interval nofun nofun
  | waiting | woken | ended => exact ⟨h.interval, fun _ => rfl, nofun, nofun, nofun⟩

theorem continues (h : w.Detects s) (hw : w.Continues w') : w'.Detects s := by
  obtain ⟨name, engine, reaper, loop⟩ := w
  obtain ⟨name', engine', reaper', loop'⟩ := w'
  obtain ⟨-, hreaper, hloop⟩ := hw
  dsimp only at hreaper hloop
  subst hreaper
  rcases hloop with rfl | rfl
  · exact ⟨h.interval, h.ended, h.goesOn, h.since, h.heard⟩
  · exact ⟨h.stop.interval, h.stop.ended, h.stop.goesOn, h.stop.since, h.stop.heard⟩

theorem start (hstart : w.loop = .start w.reaper.pause) : w.Detects s :=
  .of_phase (by rw [hstart]; rfl) (by rw [hstart]; nofun) (by rw [hstart]; nofun)

theorem runBegan (h : w.Detects s) : Detects s { w with loop := w.loop.runBegan } :=
  .of_phase h.interval nofun nofun

theorem later (h : w.Detects s) (hdead : 0 ≤ w.reaper.deadAfter) (hnow : s.now ≤ s'.now)
    (hreading : s'.clock.reading = s.clock.reading)
    (hheard : ∀ job time, time ≤ s.shown → s.store.Heard job time → s'.store.Heard job time) :
    w.Detects s' := by
  have htolerance : 0 ≤ w.reaper.tolerance := Int.mul_nonneg hdead (by decide)
  refine ⟨h.interval, h.ended, h.goesOn, fun due hdue => Int.le_trans (h.since due hdue) hnow,
    fun due hdue job => ?_⟩
  rw [hreading]
  exact hheard job _ (Int.le_trans (Int.sub_le_self _ htolerance)
    (Clock.reading_le (h.since due hdue))) (h.heard due hdue job)

theorem wake (h : w.Detects s) (now : Micros) :
    Detects s { w with loop := w.loop.wake now } := by
  obtain ⟨name, engine, reaper, ⟨interval, stopping, phase⟩⟩ := w
  cases phase with
  | waiting due =>
    unfold Loop.wake
    dsimp only
    split
    · exact .of_phase h.interval nofun nofun
    · exact h
  | scheduled | running | woken | ended => exact h

/-- A run has ended and left no job that was silent for too long. -/
theorem runEnded (h : w.Detects s)
    (hheard : ∀ job, s.store.Heard job (s.shown - w.reaper.tolerance)) :
    Detects s { w with loop := w.loop.runEnded s.now } := by
  obtain ⟨name, engine, reaper, ⟨interval, stopping, phase⟩⟩ := w
  cases phase with
  | running =>
    cases stopping with
    | true => exact ⟨h.interval, fun _ => rfl, nofun, nofun, nofun⟩
    | false =>
      have hend : s.now + interval - reaper.pause = s.now := by
        have hinterval : interval = reaper.pause := h.interval
        rw [hinterval]
        exact Int.add_sub_cancel _ _
      refine ⟨h.interval, nofun, fun _ _ => rfl, ?_, ?_⟩
      · rintro due ⟨⟩
        exact Int.le_of_eq hend
      · rintro due ⟨⟩ job
        dsimp only
        rw [hend]
        exact hheard job
  | scheduled | waiting | woken | ended => exact h

/-- While the reaper waits, no running job has been silent for longer than the reaper tolerates and
the time since its last run. -/
theorem age_le (h : w.Detects s) {due : Micros} (hdue : w.loop.phase = .waiting due) {job : String}
    {r : Record} (hr : s.store.running? job = some r) : s.shown - r.lastUpdated.micros ≤
      w.reaper.tolerance + (s.now + w.reaper.pause - due) := by
  have hheard := h.heard due hdue job r hr
  have hshown : s.shown =
      s.clock.reading (due - w.reaper.pause) + (s.now + w.reaper.pause - due) := by
    unfold Schedule.shown Clock.reading
    show (_ : Int) = _
    omega
  rw [hshown]
  change (_ : Int) ≤ _ at hheard
  show (_ : Int) ≤ _
  omega

end Watch.Detects

namespace Schedule
variable {s s' s₀ : Schedule} {turn : Turn} {past : List Moment} {i : Nat}

namespace PunctualRun

/-- In every turn time goes on or stands still. -/
theorem now_le_last {m : Moment} (h : PunctualRun s₀ (past ++ [m]) s) : m.before.now ≤ s.now :=
  h.run.now_le h.sound m List.mem_concat_self

/-- A reaper that begins with a run and whose runs do not fail detects. -/
theorem detects (h : PunctualRun s₀ past s) (hnone : s₀.threads = [])
    (hstart : ∀ w, s₀.deployment.watches[i]? = some w → w.loop = .start w.reaper.pause)
    (hfails : ∀ m ∈ past, ¬m.Fails (.watch i)) {w : Watch}
    (hw : s.deployment.watches[i]? = some w) (hdead : 0 ≤ w.reaper.deadAfter) : w.Detects s := by
  induction h using PunctualRun.induct generalizing w with
  | start => exact .start (hstart w hw)
  | @turn past s s' turn h hservice hturn hall ih =>
    have hlast := hfails ⟨s, turn, s'⟩ List.mem_concat_self
    have ih {w : Watch} (hw : s.deployment.watches[i]? = some w)
        (hdead : 0 ≤ w.reaper.deadAfter) : w.Detects s :=
      ih (fun m hm => hfails m (List.mem_append_left _ hm)) hw hdead
    have hone : PunctualRun s [⟨s, turn, s'⟩] s' := hall.cut.2.2.1
    have later {w : Watch} (h : w.Detects s) (hdead : 0 ≤ w.reaper.deadAfter) : w.Detects s' := by
      refine h.later hdead hall.now_le_last hone.reading fun job time htime hheard => ?_
      exact hone.heard (fun e he => List.mem_singleton.mp he ▸ htime) hheard
    have hstep := h.again.serving.step hturn i
    rw [hw] at hstep
    generalize hbefore : s.deployment.watches[i]? = before at hstep
    cases hstep with
    | goes _ _ _ h =>
      cases h with
      | begins hstart h => exact (Watch.Detects.start hstart).continues h
      | goesOn h =>
        have hdead := h.reaper ▸ hdead
        exact (later (ih hbefore hdead) hdead).continues h
    | wakes => exact (later (ih hbefore hdead) hdead).wake s.now
    | begins => exact (later (ih hbefore hdead) hdead).runBegan
    | finishes hfinishes _ h hended =>
      have hreturns := hfinishes.resolve_right hlast
      obtain ⟨j, t, hresume, hthread, howner, -⟩ := id hreturns
      obtain ⟨v, hv⟩ := hall.cut.1.watch_of_thread hnone (List.mem_of_getElem? hthread) howner
      obtain rfl : before = some v := hbefore.symm.trans hv
      cases h with
      | goesOn h =>
        obtain rfl := Option.some.inj hended
        have hdead := h.reaper ▸ hdead
        have hnow : s'.now = s.now := (hall.now_of_move hresume).1
        rw [← hnow]
        refine ((later (ih hbefore hdead) hdead).continues h).runEnded fun job => ?_
        rw [h.reaper]
        exact hall.heard_of_returns hnone hreturns hbefore hdead job

/-- Immediately after a run of a reaper no running job has been silent for longer than it
tolerates. -/
theorem age_le_of_returns (h : PunctualRun s₀ past s) (hnone : s₀.threads = []) {w : Watch}
    (hw : s.deployment.watches[i]? = some w) (hdead : 0 ≤ w.reaper.deadAfter) {m : Moment}
    (hm : m ∈ past) (hreturns : m.Returns (.watch i)) {job : String} {r : Record}
    (hr : m.after.store.running? job = some r) :
    m.after.shown - r.lastUpdated.micros ≤ w.reaper.tolerance := by
  obtain ⟨earlier, later, rfl⟩ := List.append_of_mem hm
  obtain ⟨hbefore, hto, hfrom, -⟩ := h.cut
  obtain ⟨j, t, -, hthread, howner, -⟩ := id hreturns
  obtain ⟨v, hv⟩ := hbefore.watch_of_thread hnone (List.mem_of_getElem? hthread) howner
  obtain ⟨w', hw', hsame⟩ := hfrom.reaper hv
  obtain rfl := Option.some.inj (hw.symm.trans hw')
  rw [hsame] at hdead ⊢
  have hheard := hto.heard_of_returns hnone hreturns hv hdead job r hr
  exact Int.sub_left_le_of_le_add (Int.le_add_of_sub_right_le hheard)

end PunctualRun

/-- Between two runs of a reaper a settled schedule is one in which it waits for the next. -/
theorem Settled.waiting (h : s.Settled) (hs : s.Serving .still fun _ => False) {w : Watch}
    (hw : s.deployment.watches[i]? = some w) (hruns : s.runsOf i = Watch.runs (some w))
    (hdetects : w.Detects s) (hgoes : w.loop.stopping = false) :
    ∃ due, w.loop.phase = .waiting due ∧ s.now < due := by
  rcases h.phase hw with hphase | hwaits | hphase
  · -- Its run has begun and could go on.
    have hone : s.runsOf i = 1 := hruns.trans (if_pos hphase)
    obtain ⟨t, ht, howner⟩ := exists_thread (hone ▸ Nat.one_pos)
    exact absurd (hs.waitsFor ht howner) (h.waitsFor ht)
  · exact hwaits
  · rw [hdetects.ended hphase] at hgoes
    contradiction

/-- In a punctual run whose listeners take no time, reaper `i` begins with a run and its runs do not
fail. Immediately after each run no running job has been silent for longer than the reaper
tolerates. In a settled schedule in which it was not told to stop, it has run, and waits; a running
job has been silent for no longer than the reaper tolerates and the time since its last run, which
is less than the interval. So a job whose updates are all dated up to some time is not running any
more when that time lies back for as long as the reaper tolerates and one interval. -/
theorem silent_within (h₀ : s₀.Initial) (htick : s₀.clock.tick = 0)
    (hlisteners : ∀ name l, s₀.deployment.cluster.bus.known.get? name = some l → l.delay ≤ 0)
    (hstart : ∀ w, s₀.deployment.watches[i]? = some w → w.loop = .start w.reaper.pause)
    (h : s₀.Run past s) (hpunctual : ∀ m ∈ past, m.Punctual)
    (hfails : ∀ m ∈ past, ¬m.Fails (.watch i)) {w : Watch}
    (hw : s.deployment.watches[i]? = some w) (hdead : 0 ≤ w.reaper.deadAfter) :
    (∀ m ∈ past, m.Returns (.watch i) → ∀ job r, m.after.store.running? job = some r →
      m.after.shown - r.lastUpdated.micros ≤ w.reaper.tolerance) ∧
    (s.Settled → w.loop.stopping = false →
      ∃ due, w.loop.phase = .waiting due ∧ s.now < due ∧ due ≤ s.now + w.reaper.pause ∧
        ∀ job r, s.store.running? job = some r →
          s.shown - r.lastUpdated.micros ≤ w.reaper.tolerance + (s.now + w.reaper.pause - due) ∧
          s.shown - r.lastUpdated.micros < w.reaper.tolerance + w.reaper.pause ∧
          ∀ time, r.lastUpdated.micros ≤ time →
            s.shown < time + w.reaper.tolerance + w.reaper.pause) := by
  have hserving : s₀.Serving .still fun _ => False :=
    h₀.serving htick fun name l hl hpos => absurd hpos (Int.not_lt.mpr (hlisteners name l hl))
  have hrun : PunctualRun s₀ past s := ⟨h, h₀.sound, hserving, hpunctual⟩
  refine ⟨fun m hm hreturns job r hr => ?_, fun hsettled hgoes => ?_⟩
  · exact hrun.age_le_of_returns h₀.threads hw hdead hm hreturns hr
  · have hdetects := hrun.detects h₀.threads hstart hfails hw hdead
    have hruns := h.runsOf_eq h₀.sound h₀.threads hstart
    obtain ⟨due, hphase, hdue⟩ :=
      hsettled.waiting hrun.again.serving hw (hw ▸ hruns) hdetects hgoes
    have hsince := Int.le_add_of_sub_right_le (hdetects.since due hphase)
    refine ⟨due, hphase, hdue, hsince, fun job r hr => ?_⟩
    have hage := hdetects.age_le hphase hr
    have hsoon : s.shown - r.lastUpdated.micros < w.reaper.tolerance + w.reaper.pause := by
      change (_ : Int) < _ at hdue
      change (_ : Int) ≤ _ at hage
      show (_ : Int) < _
      omega
    refine ⟨hage, hsoon, fun time htime => ?_⟩
    change (_ : Int) ≤ _ at htime
    change (_ : Int) < _ at hsoon
    show (_ : Int) < _
    omega

/-- One engine with a slot for a job of 400 seconds, which nobody keeps alive meanwhile. -/
def lengthy : Schedule :=
  single 1 (500 * Micros.perSecond) (sleeper "lengthy" (400 * Micros.perSecond))

/-- A reaper looks every minute for jobs that are silent for three. The run that comes after exactly
three minutes spares a job that is not heard of again; it is running a second before the next. -/
theorem silent_within_lengthy :
    ∃ past s r due, lengthy.Initial ∧ lengthy.Run past s ∧ s.Settled ∧
      s.store.running? "job-1" = some r ∧
      s.shown - r.lastUpdated.micros = 239 * Micros.perSecond ∧
      (∀ m ∈ past, m.Returns (.watch 0) → ∀ job r, m.after.store.running? job = some r →
        m.after.shown - r.lastUpdated.micros ≤ 180 * Micros.perSecond) ∧
      s.now < due ∧ due ≤ s.now + 60 * Micros.perSecond ∧
      s.shown < r.lastUpdated.micros + 180 * Micros.perSecond + 60 * Micros.perSecond := by
  let reaper : List Turn := [.call 0 0 (.startReaper "reaper" (some 60) (some 180) (some 0)),
    .move (.resume 0), .move (.begin 0), .move (.resume 0), .move (.resume 0), .move (.resume 0)]
  let start : List Turn := [.call 1 0 (.start (.named "lengthy")), .move (.resume 0),
    .move (.resume 0), .move (.grant 0), .move (.resume 0), .move (.resume 0)]
  let minute : List Turn := [.elapse Micros.perMinute, .move (.wake 0), .move (.begin 0),
    .move (.resume 1), .move (.resume 1), .move (.resume 1), .move (.resume 1)]
  obtain ⟨past, s, hrun, hp⟩ := exists_run lengthy
    (reaper ++ start ++ minute ++ minute ++ minute ++ [.elapse (59 * Micros.perSecond)])
    (fun past s => (past.all fun m => m.Punctual && !m.hasFailed (.watch 0)) && s.Settled &&
      (s.deployment.watches[0]?.any fun w => w.reaper = ⟨60, 180, 0⟩ && !w.loop.stopping) &&
      (s.store.running? "job-1").any fun r =>
        s.shown - r.lastUpdated.micros = 239 * Micros.perSecond)
    (by decide +kernel) (by decide +kernel)
  simp only [Bool.and_eq_true, Option.any_eq_true, List.all_eq_true, decide_eq_true_eq,
    Bool.not_eq_true'] at hp
  obtain ⟨⟨⟨hpast, hsettled⟩, w, hw, hreaper, hgoes⟩, r, hr, hsilent⟩ := hp
  have h₀ : lengthy.Initial := initial_single (isService_sleeper _ _)
  have hfails : ∀ m ∈ past, ¬m.Fails (.watch 0) := by
    intro m hm hfails
    exact absurd hfails.hasFailed (by rw [(hpast m hm).2]; decide)
  obtain ⟨hruns, hwaits⟩ := silent_within h₀ rfl (fun _ _ hl => absurd hl nofun)
    (fun w hw => absurd hw nofun) hrun (fun m hm => (hpast m hm).1) hfails hw
    (by rw [hreaper]; decide)
  obtain ⟨due, -, hdue, hlimit, hrecent⟩ := hwaits hsettled hgoes
  have hlast := (hrecent "job-1" r hr).2.2 _ (Int.le_refl _)
  unfold Reaper.tolerance Reaper.pause at *
  rw [hreaper] at hruns hlimit hlast
  exact ⟨past, s, r, due, h₀, hrun, hsettled, hr, hsilent, hruns, hdue, hlimit, hlast⟩

end Schedule
end JobControl
