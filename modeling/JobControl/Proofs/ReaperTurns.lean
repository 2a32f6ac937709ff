import Mathlib.Data.List.Perm.Basic
import JobControl.Proofs.Passes
import JobControl.Proofs.Punctuality
import JobControl.Proofs.Seats

/-! # What becomes of a reaper in a turn

The runs of a reaper and its loop change together: when a run begins the loop is running, and when
it ends, well or badly, the loop waits or has ended. So a reaper never has more than one run. -/

namespace JobControl

/-! ## Runs that begin and end -/

namespace Moment
variable {m : Moment} {i : Nat}

/-- A thread of the owner went on, and failed. -/
def Fails (m : Moment) (owner : Owner) : Prop :=
  ∃ i t e, m.turn = .move (.resume i) ∧ m.before.threads[i]? = some t ∧ t.owner = owner ∧
    (t.routine.resume.advance m.before.deployment).1 = .done (.error e)

/-- Whether a thread of the owner went on, and failed. -/
def hasFailed (m : Moment) (owner : Owner) : Bool :=
  match m.turn with
  | .move (.resume i) => m.before.threads[i]?.any fun t => t.owner = owner &&
    match (t.routine.resume.advance m.before.deployment).1 with
    | .done (.error _) => true
    | _ => false
  | _ => false

theorem Fails.hasFailed {owner : Owner} (h : m.Fails owner) : m.hasFailed owner := by
  obtain ⟨i, t, e, hturn, hthread, howner, hfailed⟩ := h
  simp [Moment.hasFailed, hturn, hthread, howner, hfailed]

/-- A run of reaper `i` begins. -/
def Begins (m : Moment) (i : Nat) : Prop := m.turn = .move (.begin i)

instance (m : Moment) (i : Nat) : Decidable (m.Begins i) :=
  match m with
  | ⟨_, .move (.begin k), _⟩ =>
    decidable_of_iff (k = i) ⟨fun h => h ▸ rfl, fun h => Move.begin.inj (Turn.move.inj h)⟩
  | ⟨_, .move (.cancel _), _⟩ | ⟨_, .move (.resume _), _⟩ | ⟨_, .move (.grant _), _⟩
  | ⟨_, .move (.beat _), _⟩ | ⟨_, .move (.wake _), _⟩ => isFalse nofun
  | ⟨_, .call .., _⟩ | ⟨_, .elapse _, _⟩ | ⟨_, .shift _, _⟩ => isFalse nofun

/-- A run of reaper `i` ends, well or badly. -/
def Finishes (m : Moment) (i : Nat) : Prop := m.Returns (.watch i) ∨ m.Fails (.watch i)

/-- A run ends where its thread went on to the end. -/
theorem finishes_iff : m.Finishes i ↔ ∃ j t outcome, m.turn = .move (.resume j) ∧
    m.before.threads[j]? = some t ∧ t.owner = .watch i ∧
    (t.routine.resume.advance m.before.deployment).1 = .done outcome := by
  constructor
  · rintro (⟨j, t, hturn, hthread, howner, hdone⟩ | ⟨j, t, e, hturn, hthread, howner, hdone⟩)
    · exact ⟨j, t, _, hturn, hthread, howner, hdone⟩
    · exact ⟨j, t, _, hturn, hthread, howner, hdone⟩
  · rintro ⟨j, t, outcome, hturn, hthread, howner, hdone⟩
    cases outcome with
    | ok => exact .inl ⟨j, t, hturn, hthread, howner, hdone⟩
    | error e => exact .inr ⟨j, t, e, hturn, hthread, howner, hdone⟩

theorem not_finishes_of_turn (hturn : ∀ j, m.turn ≠ .move (.resume j)) : ¬m.Finishes i := by
  rw [finishes_iff]
  rintro ⟨j, t, outcome, hresume, -⟩
  exact hturn j hresume

theorem finishes_resume {s s' : Schedule} {j : Nat} {t : Thread}
    (hthread : s.threads[j]? = some t) :
    Finishes ⟨s, .move (.resume j), s'⟩ i ↔ t.owner = .watch i ∧
      ∃ outcome, (t.routine.resume.advance s.deployment).1 = .done outcome := by
  rw [finishes_iff]
  constructor
  · rintro ⟨k, t', outcome, hturn, hthread', howner, hdone⟩
    obtain rfl : j = k := Move.resume.inj (Turn.move.inj hturn)
    obtain rfl := Option.some.inj (hthread.symm.trans hthread')
    exact ⟨howner, outcome, hdone⟩
  · rintro ⟨howner, outcome, hdone⟩
    exact ⟨j, t, outcome, rfl, hthread, howner, hdone⟩

end Moment

/-! ## How many runs it has -/

namespace Schedule
variable {s : Schedule} {j : Nat} {t : Thread}

/-- How many runs of reaper `i` go on. -/
def runsOf (s : Schedule) (i : Nat) : Nat := s.owners.count (.watch i)

theorem runsOf_push (d : Deployment) (owner : Owner) (work : Deployment.Work Unit) (i : Nat) :
    (⟨d, s.threads ++ [.new owner work]⟩ : Schedule).runsOf i =
      s.runsOf i + if owner = .watch i then 1 else 0 := by
  unfold runsOf
  rw [owners_push, List.count_append, List.count_singleton]
  simp [Thread.new]

theorem runsOf_eraseIdx (hthread : s.threads[j]? = some t) (d : Deployment) (i : Nat) :
    ((⟨d, s.threads.eraseIdx j⟩ : Schedule).runsOf i + if t.owner = .watch i then 1 else 0) =
      s.runsOf i := by
  have howner : s.owners[j]? = some t.owner := by simp [owners, hthread]
  obtain ⟨hj, howner⟩ := List.getElem?_eq_some_iff.mp howner
  have hcount := (List.getElem_cons_eraseIdx_perm hj).count_eq (Owner.watch i)
  rw [howner, List.count_cons] at hcount
  unfold runsOf
  rw [owners_eraseIdx, ← hcount]
  simp

theorem runsOf_set (hthread : s.threads[j]? = some t) (d : Deployment) (r : Deployment.Work Unit)
    (due : Micros) (i : Nat) :
    (⟨d, s.threads.set j ⟨t.owner, r, due⟩⟩ : Schedule).runsOf i = s.runsOf i := by
  unfold runsOf
  rw [owners_set hthread]

end Schedule

/-! ## What becomes of its loop -/

namespace Loop
variable {l : Loop} {now : Micros}

theorem isDue_iff : l.isDue ↔ l.phase = .scheduled ∨ l.phase = .woken := by
  simp [isDue]

theorem running_stop : l.stop.phase = .running ↔ l.phase = .running := by
  unfold stop
  split <;> simp [*]

theorem runEnded_of_running (h : l.phase = .running) : l.runEnded now =
    ⟨l.interval, l.stopping, if l.stopping then .ended else .waiting (now + l.interval)⟩ := by
  unfold runEnded
  rw [h]

theorem not_running_runEnded : (l.runEnded now).phase ≠ .running := by
  unfold runEnded
  split
  · dsimp only
    split <;> nofun
  · assumption

end Loop

/-- A reaper goes on, or is added and has not begun. -/
inductive Watch.Goes : Option Watch → Option Watch → Prop
  | absent : Goes none none
  | begins {w w' : Watch} (hstart : w.loop = .start w.reaper.pause) (h : w.Continues w') :
    Goes none (some w')
  | goesOn {w w' : Watch} (h : w.Continues w') : Goes (some w) (some w')

/-- What becomes of reaper `i` in a turn. -/
inductive Watch.Step (i : Nat) (m : Moment) : Option Watch → Option Watch → Prop
  | goes {w w' : Option Watch} (hbegins : ¬m.Begins i) (hfinishes : ¬m.Finishes i)
    (hruns : m.after.runsOf i = m.before.runsOf i) (h : Goes w w') : Step i m w w'
  | wakes {w : Watch} {due : Micros} (hturn : m.turn = .move (.wake i))
    (hruns : m.after.runsOf i = m.before.runsOf i) (hphase : w.loop.phase = .waiting due)
    (hdue : due ≤ m.before.now) :
    Step i m (some w) (some { w with loop := w.loop.wake m.before.now })
  | begins {w : Watch} (hbegins : m.Begins i) (hruns : m.after.runsOf i = m.before.runsOf i + 1)
    (hdue : w.loop.isDue) : Step i m (some w) (some { w with loop := w.loop.runBegan })
  | finishes {w w' w'' : Option Watch} (hfinishes : m.Finishes i)
    (hruns : m.after.runsOf i + 1 = m.before.runsOf i) (h : Goes w w')
    (hended : w'' = w'.map fun w => { w with loop := w.loop.runEnded m.before.now }) :
    Step i m w w''

namespace Watch
variable {i : Nat} {m : Moment} {w : Watch} {w' : Option Watch}

theorem Goes.refl (w : Option Watch) : Goes w w := by
  cases w with
  | none => exact .absent
  | some w => exact .goesOn (.refl w)

theorem Goes.of_watches {ws ws' : List Watch} (h : Deployment.Watches ws ws') (i : Nat) :
    Goes ws[i]? ws'[i]? := by
  cases hw : ws[i]? with
  | none =>
    cases hw' : ws'[i]? with
    | none => exact .absent
    | some w' =>
      obtain ⟨w, hstart, hcontinues⟩ := h.begins i w' hw hw'
      exact .begins hstart hcontinues
  | some w =>
    obtain ⟨w', hw', hcontinues⟩ := h.goesOn i w hw
    rw [hw']
    exact .goesOn hcontinues

theorem Step.reaper (h : Step i m (some w) w') : ∃ v, w' = some v ∧ v.reaper = w.reaper := by
  cases h with
  | goes _ _ _ h =>
    cases h with
    | goesOn h => exact ⟨_, rfl, h.reaper⟩
  | wakes | begins => exact ⟨_, rfl, rfl⟩
  | finishes _ _ h hended =>
    cases h with
    | goesOn h => exact ⟨_, hended, h.reaper⟩

end Watch

namespace Deployment

theorem watches_modifyLoop (d : Deployment) (k i : Nat) (f : Loop → Loop) :
    (d.modifyLoop k f).watches[i]? =
      d.watches[i]?.map fun w => if k = i then { w with loop := f w.loop } else w := by
  show (d.watches.modify k _)[i]? = _
  rw [List.getElem?_modify]
  congr 1

theorem watches_modifyLoop_self (d : Deployment) (i : Nat) (f : Loop → Loop) :
    (d.modifyLoop i f).watches[i]? = d.watches[i]?.map fun w => { w with loop := f w.loop } := by
  rw [watches_modifyLoop]
  simp only [if_true]

theorem watches_modifyLoop_of_ne {k i : Nat} (h : k ≠ i) (d : Deployment) (f : Loop → Loop) :
    (d.modifyLoop k f).watches[i]? = d.watches[i]? := by
  rw [watches_modifyLoop]
  simp only [if_neg h, Option.map_id']

theorem watches_ended_of_ne {owner : Owner} {i : Nat} (h : owner ≠ .watch i) (d : Deployment) :
    (owner.ended d).watches[i]? = d.watches[i]? := by
  cases owner with
  | worker | caller => rfl
  | watch k => exact watches_modifyLoop_of_ne (fun heq => h (congrArg Owner.watch heq)) d _

end Deployment

namespace Schedule
variable {s s' s₀ : Schedule} {turn : Turn} {past : List Moment} {i : Nat} {pace : Pace}
  {W : Wake → Prop}

/-- A stretch that a thread plays changes a loop otherwise only if a run ends with it. -/
theorem Serving.step_resume (hs : s.Serving pace W) {j : Nat} {t : Thread}
    (hthread : s.threads[j]? = some t) (i : Nat) : Watch.Step i
      ⟨s, .move (.resume j), s.play j t.owner t.routine.resume⟩ s.deployment.watches[i]?
      (s.play j t.owner t.routine.resume).deployment.watches[i]? := by
  obtain ⟨hserves, hwatches, -⟩ := hs.play j (hs.resume hthread)
  have hgoes := Watch.Goes.of_watches hwatches i
  rcases play_cases s j t.owner t.routine.resume with
    ⟨outcome, d, hadvance, hplay⟩ | ⟨wake, next, abort, d, hadvance, hplay⟩
  · rw [cluster_play, hadvance] at hserves
    rw [hadvance] at hgoes
    have hnow : d.now = s.now := hserves.clock.elapsed_eq
    rw [hplay]
    have hruns := s.runsOf_eraseIdx hthread (t.owner.ended d) i
    by_cases howner : t.owner = .watch i
    · rw [if_pos howner] at hruns
      refine .finishes ((Moment.finishes_resume hthread).mpr ⟨howner, outcome, ?_⟩) hruns hgoes ?_
      · exact congrArg Prod.fst hadvance
      · rw [howner, ← hnow]
        exact d.watches_modifyLoop_self i _
    · rw [if_neg howner] at hruns
      refine .goes nofun (fun h => howner ((Moment.finishes_resume hthread).mp h).1) hruns ?_
      show Watch.Goes _ (t.owner.ended d).watches[i]?
      rwa [Deployment.watches_ended_of_ne howner]
  · rw [hadvance] at hgoes
    rw [hplay]
    refine .goes nofun (fun h => ?_) (runsOf_set hthread d _ _ i) hgoes
    obtain ⟨-, outcome, hdone⟩ := (Moment.finishes_resume hthread).mp h
    exact absurd ((congrArg Prod.fst hadvance).symm.trans hdone) nofun

theorem Serving.step (hs : s.Serving pace W) (hturn : s.turn? turn = some s') (i : Nat) :
    Watch.Step i ⟨s, turn, s'⟩ s.deployment.watches[i]? s'.deployment.watches[i]? := by
  cases took_of_turn? hturn with
  | @cancel j site ticket r due hthread =>
    have hspare : Serving pace W { s with deployment := s.deployment.spare site ticket } :=
      hs.deployment rfl rfl
    have hcancel := (hs.threads _ (List.mem_of_getElem? hthread)).honours.cancel
    obtain ⟨-, hwatches, -⟩ := hspare.play j hcancel
    rcases play_cases { s with deployment := s.deployment.spare site ticket } j
        (.worker site ticket) r.cancel with
      ⟨outcome, d, hadvance, hplay⟩ | ⟨wake, next, abort, d, hadvance, hplay⟩
    · rw [hadvance] at hwatches
      rw [hplay]
      have hruns := s.runsOf_eraseIdx hthread (Owner.ended d (.worker site ticket)) i
      exact .goes nofun (Moment.not_finishes_of_turn nofun) hruns (.of_watches hwatches i)
    · rw [hadvance] at hwatches
      rw [hplay]
      exact .goes nofun (Moment.not_finishes_of_turn nofun) (runsOf_set hthread d _ _ i)
        (.of_watches hwatches i)
  | resume hthread => exact hs.step_resume hthread i
  | grant | call =>
    exact .goes nofun (Moment.not_finishes_of_turn nofun) (runsOf_push _ _ _ i) (.refl _)
  | beat | elapse | shift =>
    exact .goes nofun (Moment.not_finishes_of_turn nofun) rfl (.refl _)
  | @wake k w due hwatch hphase hdue =>
    by_cases hk : k = i
    · subst hk
      rw [Deployment.watches_modifyLoop_self, hwatch]
      exact .wakes rfl rfl hphase hdue
    · rw [Deployment.watches_modifyLoop_of_ne hk]
      exact .goes nofun (Moment.not_finishes_of_turn nofun) rfl (.refl _)
  | @begin k w hwatch hdue =>
    have hruns := s.runsOf_push (s.deployment.modifyLoop k (·.runBegan)) (.watch k) w.run i
    by_cases hk : k = i
    · subst hk
      rw [Deployment.watches_modifyLoop_self, hwatch]
      rw [if_pos rfl] at hruns
      exact .begins rfl hruns hdue
    · rw [Deployment.watches_modifyLoop_of_ne hk]
      rw [if_neg fun h => hk (Owner.watch.inj h)] at hruns
      refine .goes (fun h => hk ?_) (Moment.not_finishes_of_turn nofun) hruns (.refl _)
      exact Move.begin.inj (Turn.move.inj h)

end Schedule

/-! ## A loop and its runs -/

namespace Watch
variable {i : Nat} {m : Moment} {w w' : Option Watch}

/-- How many runs go on, going by the loop. -/
def runs : Option Watch → Nat
  | some w => if w.loop.phase = .running then 1 else 0
  | none => 0

theorem runs_le_one (w : Option Watch) : runs w ≤ 1 := by
  unfold runs
  split
  · split <;> decide
  · decide

theorem exists_running (h : 0 < runs w) : ∃ v, w = some v ∧ v.loop.phase = .running := by
  cases w with
  | none => contradiction
  | some v =>
    refine ⟨v, rfl, Decidable.byContradiction fun hphase => ?_⟩
    have hnone : runs (some v) = 0 := if_neg hphase
    omega

theorem runs_start {w : Watch} (hstart : w.loop = .start w.reaper.pause) : runs (some w) = 0 := by
  show (if w.loop.phase = .running then 1 else 0) = 0
  rw [hstart]
  exact if_neg nofun

theorem Continues.running {w w' : Watch} (h : w.Continues w') :
    w'.loop.phase = .running ↔ w.loop.phase = .running := by
  rcases h.loop with hloop | hloop <;> rw [hloop]
  exact Loop.running_stop

theorem Continues.runs {w w' : Watch} (h : w.Continues w') :
    Watch.runs (some w') = Watch.runs (some w) := by
  simp only [Watch.runs, h.running]

theorem Goes.runs (h : Goes w w') : Watch.runs w' = Watch.runs w := by
  cases h with
  | absent => rfl
  | begins hstart h => exact h.runs.trans (runs_start hstart)
  | goesOn h => exact h.runs

theorem Step.runs (h : Step i m w w') (hruns : m.before.runsOf i = Watch.runs w) :
    m.after.runsOf i = Watch.runs w' := by
  cases h with
  | goes _ _ hsame h => rw [hsame, hruns, h.runs]
  | @wakes w due _ hsame hphase hdue =>
    rw [hsame, hruns]
    simp [Watch.runs, Loop.wake, hphase, hdue]
  | @begins w _ hmore hdue =>
    have hidle : w.loop.phase ≠ .running := by
      rcases Loop.isDue_iff.mp hdue with hphase | hphase <;> rw [hphase] <;> nofun
    rw [hmore, hruns]
    simp [Watch.runs, Loop.runBegan, hidle]
  | @finishes w v w' _ hless h hended =>
    rw [← h.runs] at hruns
    have hone := runs_le_one v
    have hnone : Watch.runs w' = 0 := by
      rw [hended]
      cases v with
      | none => rfl
      | some v => exact if_neg Loop.not_running_runEnded
    omega

end Watch

namespace Schedule
variable {s s₀ : Schedule} {past : List Moment} {i : Nat} {pace : Pace} {W : Wake → Prop}

/-- A reaper stays the same. -/
theorem Run.reaper (h : s₀.Run past s) (h₀ : s₀.Sound) (hserving : s₀.Serving pace W)
    (hpaced : ∀ m ∈ past, m.Paced pace) {w : Watch} (hw : s₀.deployment.watches[i]? = some w) :
    ∃ v, s.deployment.watches[i]? = some v ∧ v.reaper = w.reaper := by
  induction h with
  | start => exact ⟨w, hw, rfl⟩
  | turn hrun _ hturn ih =>
    have hfront := fun m hm => hpaced m (List.mem_append_left _ hm)
    obtain ⟨v, hv, hsame⟩ := ih hfront
    have hstep := (hrun.serving h₀ hserving hfront).step hturn i
    rw [hv] at hstep
    obtain ⟨v', hv', hsame'⟩ := hstep.reaper
    exact ⟨v', hv', hsame'.trans hsame⟩

/-- Whatever the clock does, threads may rely on it as much as reapers need. -/
theorem Run.serving_any (h : s₀.Run past s) (h₀ : s₀.Sound) (hnone : s₀.threads = []) :
    s.Serving .any fun _ => True := by
  refine h.serving h₀ ⟨trivial, fun _ _ _ _ => trivial, ?_⟩ fun m _ => m.paced_any
  rw [hnone]
  nofun

/-- A reaper has a run exactly while its loop is running, and never more than one. -/
theorem Run.runsOf_eq (h : s₀.Run past s) (h₀ : s₀.Sound) (hnone : s₀.threads = [])
    (hstart : ∀ w, s₀.deployment.watches[i]? = some w → w.loop = .start w.reaper.pause) :
    s.runsOf i = Watch.runs s.deployment.watches[i]? := by
  induction h with
  | start =>
    rw [runsOf, owners, hnone]
    cases hw : s₀.deployment.watches[i]? with
    | none => rfl
    | some w => exact (Watch.runs_start (hstart w hw)).symm
  | turn hrun _ hturn ih => exact ((hrun.serving_any h₀ hnone).step hturn i).runs ih

theorem exists_thread (h : 0 < s.runsOf i) : ∃ t ∈ s.threads, t.owner = .watch i :=
  List.mem_map.mp (List.count_pos_iff.mp h)

theorem Settled.not_isDue (h : s.Settled) {w : Watch} (hw : s.deployment.watches[i]? = some w) :
    ¬w.loop.isDue := by
  intro hdue
  have hbegin := h (.begin i)
  simp [step?, begin?, hw, hdue] at hbegin

/-- In a settled schedule there is nothing that a loop could do at the present time. -/
theorem Settled.phase (h : s.Settled) {w : Watch} (hw : s.deployment.watches[i]? = some w) :
    w.loop.phase = .running ∨ (∃ due, w.loop.phase = .waiting due ∧ s.now < due) ∨
      w.loop.phase = .ended := by
  have hbegin := h.not_isDue hw
  rw [Loop.isDue_iff, not_or] at hbegin
  cases hphase : w.loop.phase with
  | scheduled => exact absurd hphase hbegin.1
  | woken => exact absurd hphase hbegin.2
  | running => exact .inl rfl
  | ended => exact .inr (.inr rfl)
  | waiting due =>
    refine .inr (.inl ⟨due, rfl, Int.not_le.mp fun hdue => ?_⟩)
    have hwake := h (.wake i)
    simp only [step?, wake?, hw, Option.bind_some, Loop.due?, hphase, if_pos hdue] at hwake
    contradiction

end Schedule
end JobControl
