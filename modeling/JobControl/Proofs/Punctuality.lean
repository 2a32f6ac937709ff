import JobControl.Proofs.Heartbeats
import JobControl.Proofs.RecordLives
import JobControl.Proofs.ServingRuns

/-! # Punctual runs

In a punctual run the clock is not set, and time passes only when all work waits for something that
has not come true. So nothing grows old while it waits for its turn: a job comes in with the time at
which it does, and as long as the run of a reaper goes on, the clock stands still. -/

namespace JobControl

/-- The clock stands still as long as a routine waits for its turn. -/
def Pace.still : Pace where
  inv c := c.tick = 0
  rely wake c c' := wake = none → c' = c
  dated c t := t = c.reading c.elapsed
  rely_refl _ _ _ := rfl
  rely_trans h h' hnone := (h' hnone).trans (h hnone)
  inv_ran hc h := by rwa [h.eq_of_tick hc]
  rely_ran hc h _ := h.eq_of_tick hc
  dated_read {c t c'} hc hnow h := by
    rw [h rfl, (Clock.Ran.read c).eq_of_tick hc]
    exact Clock.utcMicros_of_now? hnow

namespace Schedule
variable {s s' s₀ : Schedule} {turn : Turn} {past : List Moment}

/-- All work waits for something that has not come true at the present time. -/
def Settled (s : Schedule) : Prop := ∀ m, s.step? m = none

/-- Every move that is possible is tried. -/
theorem mem_moves {m : Move} (h : s.step? m = some s') : m ∈ s.moves 0 := by
  have lt {α : Type} {l : List α} {i : Nat} {x : α} (hx : l[i]? = some x) : i < l.length :=
    (List.getElem?_eq_some_iff.mp hx).1
  cases took_of_step? h with
  | cancel hthread => simp [moves, lt hthread]
  | resume hthread => simp [moves, lt hthread]
  | grant hpool =>
    obtain ⟨site, hsite, -⟩ := Option.map_eq_some_iff.mp hpool
    simp [moves, lt hsite]
  | beat hbeat => simp [moves, lt hbeat]
  | @wake i =>
    have hi : i < s.deployment.watches.length := by
      refine Nat.not_le.mp fun hle => ?_
      rw [step?, wake?, List.getElem?_eq_none hle] at h
      contradiction
    simp [moves, hi]
  | begin hwatch => simp [moves, lt hwatch]

theorem settled_iff_next? : s.Settled ↔ s.next? 0 = none := by
  refine ⟨fun h => List.findSome?_eq_none_iff.mpr fun m _ => by rw [h m]; rfl, fun h m => ?_⟩
  refine Option.eq_none_iff_forall_not_mem.mpr fun s' hs' => ?_
  have hnone := List.findSome?_eq_none_iff.mp h m (mem_moves hs')
  rw [Option.mem_def.mp hs'] at hnone
  contradiction

instance (s : Schedule) : Decidable s.Settled := decidable_of_iff _ settled_iff_next?.symm

/-- No thread waits for its turn. -/
theorem Settled.waitsFor (h : s.Settled) {t : Thread} (ht : t ∈ s.threads) :
    t.routine.waitsFor ≠ none := by
  intro hnone
  obtain ⟨i, hi⟩ := List.mem_iff_getElem?.mp ht
  have hready : t.isReady s.deployment := by
    unfold Thread.isReady
    rw [hnone]
  have hresume := h (.resume i)
  rw [step?, resume?, hi] at hresume
  simp [hready] at hresume

end Schedule

/-- The clock is not set, and time passes only where all work waits. -/
def Moment.Punctual (m : Moment) : Prop :=
  match m.turn with
  | .elapse _ => m.before.Settled
  | .shift _ => False
  | _ => True

instance (m : Moment) : Decidable m.Punctual :=
  match m with
  | ⟨s, .elapse _, _⟩ => inferInstanceAs (Decidable s.Settled)
  | ⟨_, .shift _, _⟩ => inferInstanceAs (Decidable False)
  | ⟨_, .move _, _⟩ | ⟨_, .call .., _⟩ => inferInstanceAs (Decidable True)

namespace Schedule
variable {s s' s₀ : Schedule} {turn : Turn} {past : List Moment} {W : Wake → Prop}

theorem Serving.paced (hs : s.Serving .still W) (hturn : s.turn? turn = some s')
    (hpunctual : Moment.Punctual ⟨s, turn, s'⟩) : Moment.Paced .still ⟨s, turn, s'⟩ := by
  cases turn with
  | elapse span =>
    cases took_of_turn? hturn with
    | elapse hspan =>
      exact ⟨hs.inv, fun t ht hnone => absurd hnone (Settled.waitsFor hpunctual ht)⟩
  | shift d => exact hpunctual.elim
  | move | call => trivial

/-- A punctual run keeps the pace at which the clock stands still while routines wait. -/
theorem Run.paced_still (h : s₀.Run past s) (h₀ : s₀.Sound) (hserving : s₀.Serving .still W)
    (hpunctual : ∀ m ∈ past, m.Punctual) : ∀ m ∈ past, m.Paced .still := by
  induction h with
  | start => exact fun m hm => absurd hm List.not_mem_nil
  | @turn past s s' turn hrun hservice hturn ih =>
    have hpaced := ih fun m hm => hpunctual m (List.mem_append_left _ hm)
    intro m hm
    rcases List.mem_append.mp hm with hm | hm
    · exact hpaced m hm
    · obtain rfl := List.mem_singleton.mp hm
      exact (hrun.serving h₀ hserving hpaced).paced hturn (hpunctual _ List.mem_concat_self)

theorem Run.still (h : s₀.Run past s) (h₀ : s₀.Sound) (hserving : s₀.Serving .still W)
    (hpunctual : ∀ m ∈ past, m.Punctual) :
    s.Serving .still W ∧ ∀ m ∈ past, m.Serves .still :=
  have hpaced := h.paced_still h₀ hserving hpunctual
  ⟨h.serving h₀ hserving hpaced, h.serves h₀ hserving hpaced⟩

/-! ## While a reaper runs -/

/-- Where listeners take no time, the run of a reaper waits for its turn only. -/
theorem Serving.waitsFor {pace : Pace} (hs : s.Serving pace fun _ => False) {t : Thread} {i : Nat}
    (ht : t ∈ s.threads) (howner : t.owner = .watch i) : t.routine.waitsFor = none := by
  obtain ⟨⟨wake, next, abort, hwait⟩, hhonours⟩ := hs.threads t ht
  rw [hwait, howner] at hhonours
  rw [hwait]
  exact Option.eq_none_iff_forall_ne_some.mpr hhonours.1

theorem Took.clock_eq (h : s.Took turn s') (hs : s.Sound) (hservice : turn.isService)
    (htick : s.clock.tick = 0) (hpunctual : Moment.Punctual ⟨s, turn, s'⟩) {t : Thread}
    (ht : t ∈ s.threads) (hwaits : t.routine.waitsFor = none) : s'.clock = s.clock := by
  rcases h.cases_around hs hservice with
    ⟨span, rfl, -, -⟩ | ⟨d, rfl, -⟩ | ⟨i, b, -, -, -, rfl⟩ | ⟨own, -, hran⟩
  · exact absurd hwaits (Settled.waitsFor hpunctual ht)
  · exact hpunctual.elim
  · exact (s.deployment.moved_afterBeat i b).clock.eq_of_tick htick
  · exact hran.eq_of_tick htick

/-- The thread of a reaper is that of its run, and begins with it. -/
theorem Took.begins_of_thread (h : s.Took turn s') {i : Nat}
    (hnone : ∀ t ∈ s.threads, t.owner ≠ .watch i) {t : Thread} (ht : t ∈ s'.threads)
    (howner : t.owner = .watch i) : turn = .move (.begin i) := by
  have push {o : Owner} {work : Deployment.Work Unit}
      (ht : t ∈ s.threads ++ [Thread.new o work]) : o = .watch i := by
    rcases List.mem_append.mp ht with ht | ht
    · exact absurd howner (hnone t ht)
    · obtain rfl := List.mem_singleton.mp ht
      exact howner
  cases h with
  | cancel hthread =>
    rcases mem_threads_play ht with ht | ⟨hsame, -⟩
    · exact absurd howner (hnone t ht)
    · exact absurd (hsame.symm.trans howner) nofun
  | resume hthread =>
    rcases mem_threads_play ht with ht | ⟨hsame, -⟩
    · exact absurd howner (hnone t ht)
    · exact absurd (hsame.symm.trans howner) (hnone _ (List.mem_of_getElem? hthread))
  | grant => exact absurd (push ht) nofun
  | begin =>
    obtain rfl := Owner.watch.inj (push ht)
    rfl
  | call => exact absurd (push ht) nofun
  | beat | wake | elapse | shift => exact absurd howner (hnone t ht)

/-- A punctual run in which listeners take no time. -/
structure PunctualRun (s₀ : Schedule) (past : List Moment) (s : Schedule) : Prop where
  run : s₀.Run past s
  sound : s₀.Sound
  serving : s₀.Serving .still fun _ => False
  punctual : ∀ m ∈ past, m.Punctual

namespace PunctualRun

/-- Every beginning of a punctual run is one. -/
@[elab_as_elim]
theorem induct {motive : ∀ past s, PunctualRun s₀ past s → Prop}
    (start : ∀ h, motive [] s₀ h)
    (turn : ∀ {past s s' t} (h : PunctualRun s₀ past s), t.isService → s.turn? t = some s' →
      ∀ hall : PunctualRun s₀ (past ++ [⟨s, t, s'⟩]) s', motive past s h → motive _ s' hall)
    {past : List Moment} {s : Schedule} (h : PunctualRun s₀ past s) : motive past s h := by
  obtain ⟨hrun, hsound, hserving, hpunctual⟩ := h
  induction hrun with
  | start => exact start _
  | turn hrun hservice hturn ih =>
    have hpunctual' := fun m hm => hpunctual m (List.mem_append_left _ hm)
    exact turn ⟨hrun, hsound, hserving, hpunctual'⟩ hservice hturn _ (ih hpunctual')

theorem serves (h : PunctualRun s₀ past s) : ∀ m ∈ past, m.Serves .still :=
  (h.run.still h.sound h.serving h.punctual).2

/-- From the last schedule a punctual run may begin anew. -/
theorem again (h : PunctualRun s₀ past s) : PunctualRun s [] s :=
  ⟨.start, h.run.sound h.sound, (h.run.still h.sound h.serving h.punctual).1,
    fun _ hm => absurd hm List.not_mem_nil⟩

theorem of_append {earlier later : List Moment} (h : PunctualRun s₀ (earlier ++ later) s) :
    ∃ s₁, PunctualRun s₀ earlier s₁ ∧ PunctualRun s₁ later s := by
  obtain ⟨s₁, hearlier, hlater⟩ := h.run.of_append
  have hfront : PunctualRun s₀ earlier s₁ :=
    ⟨hearlier, h.sound, h.serving, fun m hm => h.punctual m (List.mem_append_left _ hm)⟩
  exact ⟨s₁, hfront, hlater, hfront.again.sound, hfront.again.serving,
    fun m hm => h.punctual m (List.mem_append_right _ hm)⟩

/-- The run before one of its moments, up to it, from it, and after it. -/
theorem cut {earlier later : List Moment} {m : Moment}
    (h : PunctualRun s₀ (earlier ++ m :: later) s) : PunctualRun s₀ earlier m.before ∧
      PunctualRun s₀ (earlier ++ [m]) m.after ∧ PunctualRun m.before (m :: later) s ∧
      PunctualRun m.after later s := by
  obtain ⟨s₁, hearlier, hlater⟩ := h.of_append
  have hsplit : PunctualRun s₀ ((earlier ++ [m]) ++ later) s := by rwa [← List.append_cons]
  obtain ⟨s₂, hfirst, hlast⟩ := hsplit.of_append
  obtain ⟨hbefore, hservice, hturn, rfl⟩ := hfirst.run.last
  have hfront : PunctualRun s₀ earlier m.before := ⟨hbefore, h.sound, h.serving, hearlier.punctual⟩
  have hfrom : m.before.Run (m :: later) s := (Run.start.turn hservice hturn).append hlast.run
  exact ⟨hfront, hfirst, ⟨hfrom, hfront.again.sound, hfront.again.serving, hlater.punctual⟩, hlast⟩

theorem reading (h : PunctualRun s₀ past s) : s.clock.reading = s₀.clock.reading := by
  refine (h.run.clock_unset h.sound h.serving.inv fun m hm d hd => ?_).2
  have hpunctual := h.punctual m hm
  unfold Moment.Punctual at hpunctual
  rw [hd] at hpunctual
  exact hpunctual

/-- A move takes no time. -/
theorem now_of_move {m : Moment} {move : Move} (h : PunctualRun s₀ (past ++ [m]) s)
    (hmove : m.turn = .move move) : s.now = m.before.now ∧ s.shown = m.before.shown := by
  obtain ⟨hbefore, -, hone, -⟩ := h.cut
  obtain ⟨-, -, hturn, rfl⟩ := h.run.last
  rw [hmove] at hturn
  have hstep : m.before.step? move = some m.after := hturn
  have hnow := now_of_step? hstep hone.sound
  refine ⟨hnow, ?_⟩
  unfold shown
  rw [hone.reading, hnow]

/-- A run of a reaper that goes on has begun when no other run of it went on, and the clock has
stood still since. -/
theorem begun (h : PunctualRun s₀ past s) (hnone : s₀.threads = []) {i : Nat} {t : Thread}
    (ht : t ∈ s.threads) (howner : t.owner = .watch i) :
    ∃ front b back, past = front ++ b :: back ∧ b.turn = .move (.begin i) ∧
      (∀ t ∈ b.before.threads, t.owner ≠ .watch i) ∧
      ∀ m ∈ b :: back, m.before.clock = s.clock := by
  induction h using PunctualRun.induct generalizing t with
  | start =>
    rw [hnone] at ht
    contradiction
  | @turn past s s' turn h hservice hturn hall ih =>
    have htook := took_of_turn? hturn
    have hs := h.again
    have hlast := hall.punctual ⟨s, turn, s'⟩ List.mem_concat_self
    have still {t : Thread} : t ∈ s.threads → t.routine.waitsFor = none → s'.clock = s.clock :=
      htook.clock_eq hs.sound hservice hs.serving.inv hlast
    by_cases hold : ∃ t ∈ s.threads, t.owner = .watch i
    · obtain ⟨t₀, ht₀, howner₀⟩ := hold
      obtain ⟨front, b, back, rfl, hb, hfirst, hclock⟩ := ih ht₀ howner₀
      have hsame := still ht₀ (hs.serving.waitsFor ht₀ howner₀)
      refine ⟨front, b, back ++ [⟨s, turn, s'⟩], by simp, hb, hfirst, fun m hm => ?_⟩
      rw [hsame]
      rcases List.mem_append.mp (List.cons_append ▸ hm) with hm | hm
      · exact hclock m hm
      · obtain rfl := List.mem_singleton.mp hm
        rfl
    · have hnone : ∀ t ∈ s.threads, t.owner ≠ .watch i :=
        fun t ht howner => hold ⟨t, ht, howner⟩
      have hbegin := htook.begins_of_thread hnone ht howner
      refine ⟨past, ⟨s, turn, s'⟩, [], rfl, hbegin, hnone, fun m hm => ?_⟩
      obtain rfl := List.mem_singleton.mp hm
      subst hbegin
      cases htook with
      | begin => rfl

end PunctualRun
end Schedule
end JobControl
