import JobControl.Proofs.Passes

/-! # What a pass kills

A pass kills the jobs that were silent when it asked. Whether such a job is still silent when its
turn comes is not looked at again: a sign of life that arrives in between does not save it. -/

namespace JobControl

namespace Moment

/-- A running job, silent for `span` at the `time`, was updated. -/
def Refreshes (m : Moment) (job : String) (span time : Micros) : Prop :=
  ∃ r r', m.before.store.running? job = some r ∧ m.after.store.running? job = some r' ∧
    r.lastUpdated.micros + span < time ∧ time ≤ r'.lastUpdated.micros + span

end Moment

namespace Schedule
variable {s s' s₀ : Schedule} {past : List Moment} {owner : Owner} {seconds : Seconds}
  {span time : Micros} {job : String} {r r' : Record}

/-- A job that was silent, and is the same running job still, is silent unless it was updated. -/
theorem Run.silent_iff (h : s.Run past s') (hs : s.Sound) (hr : s.store.running? job = some r)
    (hsilent : r.lastUpdated.micros + span < time) (hsame : ∀ e ∈ past, ¬e.Starts job)
    (hr' : s'.store.running? job = some r') :
    r'.lastUpdated.micros + span < time ↔ ∀ e ∈ past, ¬e.Refreshes job span time := by
  induction h generalizing r' with
  | start =>
    obtain rfl := Option.some.inj (hr.symm.trans hr')
    exact iff_of_true hsilent fun e he => absurd he List.not_mem_nil
  | @turn past s₁ s' turn hrun hservice hturn ih =>
    have hsame' : ∀ e ∈ past, ¬e.Starts job := fun e he => hsame e (List.mem_append_left _ he)
    -- The job was running before the last turn: it did not start in it.
    cases hr₁ : s₁.store.running? job with
    | none => exact absurd ⟨hr₁, by simp [hr']⟩ (hsame ⟨s₁, turn, s'⟩ List.mem_concat_self)
    | some r₁ =>
      have ih := ih hsame' hr₁
      have hserved := (took_of_turn? hturn).served (hrun.sound hs) hservice
      have hle : r₁.lastUpdated.micros ≤ r'.lastUpdated.micros := hserved.store.updated_le hr₁ hr'
      constructor
      · intro hlt e he
        have hlt₁ := Int.lt_of_le_of_lt (Int.add_le_add_right hle span) hlt
        rcases List.mem_append.mp he with he | he
        · exact ih.mp hlt₁ e he
        · obtain rfl := List.mem_singleton.mp he
          rintro ⟨_, r₂, -, hr₂, -, hupdated⟩
          obtain rfl := Option.some.inj (hr'.symm.trans hr₂)
          exact absurd hlt (Int.not_lt.mpr hupdated)
      · intro hnone
        have hlt₁ := ih.mpr fun e he => hnone e (List.mem_append_left _ he)
        refine Decidable.byContradiction fun hge => ?_
        exact hnone _ List.mem_concat_self ⟨r₁, r', hr₁, hr', hlt₁, Int.not_lt.mp hge⟩

/-- A job that a pass ends was found silent by it, and is running when it is ended. Unless a job of
the same id was started since the pass asked, it is still silent then exactly if nobody has updated
it in between. -/
theorem ends_silent_iff (h₀ : s₀.Initial) (hspan : seconds.toSpan = .ok span) {m : Moment}
    (hrun : s₀.Run (past ++ [m]) s) (hpasses : owner.Passes seconds past)
    (hresumes : m.Resumes owner) (hends : m.Ends job) :
    ∃ time ids earlier q later, past ++ [m] = earlier ++ q :: (later ++ [m]) ∧
      q.Asks owner span earlier time ids ∧ job ∈ ids ∧
      ∃ r, m.before.store.running? job = some r ∧
        ((∀ e ∈ later, ¬e.Starts job) →
          (r.lastUpdated.micros + span < time ↔ ∀ e ∈ later, ¬e.Refreshes job span time)) := by
  obtain ⟨hrun', -, hturn, -⟩ := hrun.last
  obtain ⟨i, ⟨o, work, due⟩, hresume, hthread, ho⟩ := hresumes
  obtain rfl : o = owner := ho
  have hpassing := hrun'.threads (passing_rule h₀.sound o seconds) h₀.sound h₀.threads
  obtain ⟨-, hstage⟩ := hpassing _ (List.mem_of_getElem? hthread) rfl hpasses
  have hm : m = ⟨m.before, .move (.resume i), m.before.play i o work.resume⟩ := by
    rw [← eq_play_of_resume (hresume ▸ hturn) hthread, ← hresume]
  obtain ⟨span', time, ids, earlier, q, later, hspan', hpast, hasks, hfound, -⟩ :=
    asks_of_turn hrun' h₀.sound hthread hstage hm (.inl ⟨job, hends⟩)
  obtain rfl : span = span' := Except.ok.inj (hspan.symm.trans hspan')
  have hjob := hfound job hends
  -- The turn that ends the job is not the one that asks, which leaves the store as it is.
  rcases List.eq_nil_or_concat later with rfl | ⟨later, m', rfl⟩
  · obtain rfl := List.singleton_inj.mp (List.append_inj' hpast rfl).2
    exact absurd (hasks.store ▸ hends.2) hends.1
  · rw [List.concat_eq_append] at hpast
    have hfront : past ++ [m] = (earlier ++ q :: later) ++ [m'] := by simpa using hpast
    obtain ⟨rfl, hlast⟩ := List.append_inj' hfront rfl
    obtain rfl := List.singleton_inj.mp hlast
    obtain ⟨r₀, hr₀, hsilent⟩ := (hasks.found job).mp hjob
    obtain ⟨r, hr⟩ := Option.ne_none_iff_exists'.mp hends.1
    refine ⟨time, ids, earlier, q, later, hpast, hasks, hjob, r, hr, fun hsame => ?_⟩
    obtain ⟨hbefore, hlater⟩ := hrun'.cut
    have hsound : q.after.Sound := by
      rw [List.append_cons] at hrun'
      obtain ⟨s₁, hs₁, -⟩ := hrun'.of_append
      obtain ⟨-, -, -, rfl⟩ := hs₁.last
      exact hs₁.sound h₀.sound
    exact hlater.silent_iff hsound (hasks.store ▸ hr₀) hsilent hsame hr

/-- A pass for jobs that are silent for three minutes has found a job of 200 seconds. The job is
kept alive before its turn comes, and killed all the same. -/
theorem run_refreshed :
    ∃ past m s r r', nightly.Run (past ++ [m]) s ∧ (Owner.caller 1).Passes (.whole 180) past ∧
      m.Resumes (.caller 1) ∧ m.Ends "job-1" ∧ m.before.store.running? "job-1" = some r ∧
      (∀ c ∈ past, c.before.shown ≤ r.lastUpdated.micros) ∧
      m.after.store.records.get? "job-1" = some r' ∧ r'.status = .dead := by
  obtain ⟨past, s, hrun, hp⟩ := exists_run nightly
    [.call 0 0 (.start (.named "nightly")), .move (.resume 0), .move (.resume 0),
      .elapse (200 * Micros.perSecond), .call 1 0 (.killSilent (.whole 180)), .move (.resume 0),
      .move (.resume 0), .call 2 0 (.keepAlive (.named "job-1")), .move (.resume 1),
      .move (.resume 1)]
    (fun past s =>
      (past.all fun m => m.begun?.all fun p => p.1 != .caller 1 || p.2 == some (.whole 180)) &&
      (s.threads[0]?.any fun t => t.owner = .caller 1) &&
      ((s.store.running? "job-1").any fun r =>
        past.all fun c => c.before.shown ≤ r.lastUpdated.micros) &&
      (s.turn? (.move (.resume 0))).any fun s' => (s'.store.running? "job-1").isNone &&
        (s'.store.records.get? "job-1").any (·.status = .dead))
    (by decide +kernel) (by decide +kernel)
  simp only [Bool.and_eq_true, Option.any_eq_true, List.all_eq_true, decide_eq_true_eq] at hp
  obtain ⟨⟨⟨hbegun, t, hthread, howner⟩, r, hr, hshown⟩, s', hturn, hafter, r', hr', hdead⟩ := hp
  refine ⟨past, ⟨s, .move (.resume 0), s'⟩, s', r, r', hrun.turn rfl hturn,
    fun m hm work hwork => ?_, ⟨0, t, rfl, hthread, howner⟩,
    ⟨?_, Option.isNone_iff_eq_none.mp hafter⟩, hr, hshown, hr', hdead⟩
  · simpa [hwork] using hbegun m hm
  · simp [hr]

theorem ends_silent_iff_nightly :
    ∃ past m s, nightly.Run (past ++ [m]) s ∧ m.Ends "job-1" ∧
      ∃ time ids earlier q later, past ++ [m] = earlier ++ q :: (later ++ [m]) ∧
        q.Asks (.caller 1) (180 * Micros.perSecond) earlier time ids ∧ "job-1" ∈ ids := by
  obtain ⟨past, m, s, r, r', hrun, hpasses, hresumes, hends, -⟩ := run_refreshed
  obtain ⟨time, ids, earlier, q, later, hpast, hasks, hjob, -⟩ :=
    ends_silent_iff initial_nightly
      (rfl : (Seconds.whole 180).toSpan = .ok (180 * Micros.perSecond)) hrun hpasses hresumes hends
  exact ⟨past, m, s, hrun, hends, time, ids, earlier, q, later, hpast, hasks, hjob⟩

/-- A pass for jobs that are silent for three minutes switches a job to dead that was updated after
every reading of the clock by the pass, and so less than three minutes ago. -/
theorem killed_after_refresh :
    ∃ past m s r r', nightly.Initial ∧ nightly.Run (past ++ [m]) s ∧
      (Owner.caller 1).Passes (.whole 180) past ∧ m.Resumes (.caller 1) ∧
      m.before.store.running? "job-1" = some r ∧
      (∀ c ∈ past, c.Resumes (.caller 1) → ¬r.lastUpdated.micros + 180 * Micros.perSecond <
        c.before.shown) ∧
      m.after.store.records.get? "job-1" = some r' ∧ r'.status = .dead := by
  obtain ⟨past, m, s, r, r', hrun, hpasses, hresumes, -, hr, hshown, hr', hdead⟩ := run_refreshed
  refine ⟨past, m, s, r, r', initial_nightly, hrun, hpasses, hresumes, hr, fun c hc _ => ?_, hr',
    hdead⟩
  have hspan : r.lastUpdated.micros ≤ r.lastUpdated.micros + 180 * Micros.perSecond :=
    Int.le_add_of_nonneg_right (by decide)
  exact Int.not_lt.mpr (Int.le_trans (hshown c hc) hspan)

end Schedule
end JobControl
