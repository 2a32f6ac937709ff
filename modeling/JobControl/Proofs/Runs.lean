import JobControl.Proofs.Turns

/-! # What holds throughout a run

In every schedule of a run the threads conduct themselves, so a turn changes the store by effects
only. To let time pass is to go on with the run. `Run.threads` lifts a fact about a thread and the
past from single stretches to runs. -/

namespace JobControl
open Routine (Keeps)

/-- What is left of the thread keeps the conduct of some job's work. -/
def Thread.Sound (t : Thread) : Prop :=
  ∃ own, Keeps (Deployment.conduct (fun _ => True) own) (fun _ => True) t.routine false

theorem Thread.sound_new {owner : Owner} {work : Deployment.Work Unit} {own : Option String}
    (h : Keeps (Deployment.conduct (fun _ => True) own) (fun _ => True) work false) :
    (Thread.new owner work).Sound := ⟨own, .yielding h.fresh_of_not⟩

namespace Schedule
variable {s s' s₀ : Schedule} {turn : Turn} {past : List Moment}

structure Sound (s : Schedule) : Prop where
  proper : s.deployment.Proper
  threads : ∀ t ∈ s.threads, t.Sound

theorem Initial.sound (h : s.Initial) : s.Sound :=
  ⟨h.proper, by rw [h.threads]; nofun⟩

/-- What a turn of the service leaves behind. -/
structure Served (s s' : Schedule) : Prop where
  store : s.store.Deed (fun _ => True) s'.store
  known : s'.deployment.cluster.bus.known = s.deployment.cluster.bus.known
  sound : s'.Sound

theorem served_play (hs : s.Sound) {i : Nat} {owner : Owner} {r : Deployment.Work Unit}
    {own : Option String}
    (h : Keeps (Deployment.conduct (fun _ => True) own) (fun _ => True) r true) :
    Served s (s.play i owner r) := by
  obtain ⟨hmoved, haround⟩ := moved_play i owner h hs.proper
  refine ⟨hmoved.store, hmoved.known, haround.proper hs.proper, fun t ht => ?_⟩
  rcases mem_threads_play ht with ht | ⟨-, hroutine, -⟩
  · exact hs.threads t ht
  · exact ⟨own, hroutine ▸ (h.advance hs.proper).2⟩

theorem sound_push (hs : s.Sound) {d : Deployment} (hd : d.Proper) {t : Thread} (ht : t.Sound) :
    (⟨d, s.threads ++ [t]⟩ : Schedule).Sound := by
  refine ⟨hd, fun t' ht' => ?_⟩
  rcases List.mem_append.mp ht' with ht' | ht'
  · exact hs.threads t' ht'
  · exact List.mem_singleton.mp ht' ▸ ht

end Schedule

theorem Pool.grant?_eq_some {ρ : Type} {p pool : Pool ρ} {t : Ticket ρ}
    (h : p.grant? = some (t, pool)) : p.queue = t :: pool.queue := by
  unfold grant? at h
  split at h
  · split at h
    · rename_i hqueue
      obtain ⟨rfl, rfl⟩ := Prod.mk.inj (Option.some.inj h)
      exact hqueue
    · contradiction
  · contradiction

namespace Deployment

theorem Proper.queue {d : Deployment} (hd : d.Proper) {site : Nat} {p : Pool (Handler Script)}
    (h : d.pool? site = some p) : ∀ t ∈ p.queue, t.work.IsService := by
  obtain ⟨s, hs, rfl⟩ := Option.map_eq_some_iff.mp h
  exact hd.queued s (List.mem_of_getElem? hs)

/-- What remains queued after a grant was queued before. -/
theorem Proper.grant {d : Deployment} (hd : d.Proper) {site : Nat} {p pool : Pool (Handler Script)}
    {t : Ticket (Handler Script)} (hp : d.pool? site = some p) (h : p.grant? = some (t, pool)) :
    t.work.IsService ∧ d.Around none (d.modifyPool site fun _ => pool) := by
  have hqueue := hd.queue hp
  rw [Pool.grant?_eq_some h] at hqueue
  exact ⟨hqueue t List.mem_cons_self,
    .modifyPool fun _ _ t' ht' => hqueue t' (List.mem_cons_of_mem _ ht')⟩

theorem moved_afterBeat (d : Deployment) (i : Nat) (h : Heartbeat) :
    d.cluster.Moved (· = h.job) (d.afterBeat i h).cluster := by
  obtain ⟨hstore, hclock⟩ :=
    (Lifecycle.makes_keepAlive (K := (· = h.job)) rfl).commits d.cluster.toWorkspace
  exact ⟨hstore, hclock, rfl⟩

end Deployment

namespace Schedule
variable {s s' s₀ : Schedule} {turn : Turn} {past : List Moment}

/-- A turn of the service changes the store by effects. -/
theorem Took.served (h : s.Took turn s') (hs : s.Sound) (hservice : turn.isService) :
    Served s s' := by
  cases h with
  | @cancel i site ticket r due hthread =>
    obtain ⟨own, hkeeps⟩ := hs.threads _ (List.mem_of_getElem? hthread)
    have hspare : Sound { s with deployment := s.deployment.spare site ticket } :=
      ⟨⟨hs.proper.handlers, hs.proper.queued⟩, hs.threads⟩
    obtain ⟨hstore, hknown, hsound⟩ := served_play (i := i) hspare hkeeps.cancel
    exact ⟨hstore, hknown, hsound⟩
  | resume hthread =>
    obtain ⟨own, hkeeps⟩ := hs.threads _ (List.mem_of_getElem? hthread)
    exact served_play hs hkeeps.resume
  | @grant site p pool t hpool hgrant =>
    obtain ⟨hwork, haround⟩ := hs.proper.grant hpool hgrant
    have hrun := (Deployment.keeping (some t.job)).run site t.number t.work t.job (fun _ => trivial)
      hwork rfl trivial
    exact ⟨.refl _, rfl, sound_push hs (haround.proper hs.proper) (Thread.sound_new hrun)⟩
  | @beat i b hbeat hdue =>
    have hmoved := s.deployment.moved_afterBeat i b
    exact ⟨hmoved.store.mono fun _ _ => trivial, hmoved.known,
      ⟨hs.proper.handlers, hs.proper.queued⟩, hs.threads⟩
  | wake => exact ⟨.refl _, rfl, ⟨hs.proper.handlers, hs.proper.queued⟩, hs.threads⟩
  | @begin i w hwatch =>
    have hbegan : (s.deployment.modifyLoop i (·.runBegan)).Proper :=
      ⟨hs.proper.handlers, hs.proper.queued⟩
    exact ⟨.refl _, rfl, sound_push hs hbegan (Thread.sound_new (w.keeps_run none))⟩
  | call number site command =>
    have hperform := Command.keeps_perform none site ⟨"", ""⟩ hservice
    exact ⟨.refl _, rfl, sound_push hs hs.proper
      (Thread.sound_new (hperform.map fun _ _ => trivial))⟩
  | elapse => exact ⟨.refl _, rfl, ⟨hs.proper.handlers, hs.proper.queued⟩, hs.threads⟩
  | shift => exact ⟨.refl _, rfl, ⟨hs.proper.handlers, hs.proper.queued⟩, hs.threads⟩

def clock (s : Schedule) : Clock := s.deployment.cluster.clock

theorem around_play (hs : s.Sound) {i : Nat} {owner : Owner} {r : Deployment.Work Unit}
    {own : Option String}
    (h : Keeps (Deployment.conduct (fun _ => True) own) (fun _ => True) r true) :
    s.deployment.Around own (s.play i owner r).deployment ∧
      s.clock.Ran (s.play i owner r).clock := by
  obtain ⟨hmoved, haround⟩ := moved_play i owner h hs.proper
  exact ⟨haround, hmoved.clock⟩

/-- What happens around the store in a turn: time passes, the clock is set, a heartbeat beats, or a
thread does what threads may do. -/
theorem Took.cases_around (h : s.Took turn s') (hs : s.Sound) (hservice : turn.isService) :
    (∃ span, turn = .elapse span ∧ 0 ≤ span ∧ s' = s.atTime (s.now + span)) ∨
    (∃ d, turn = .shift d ∧ s' = s.shift d) ∨
    (∃ i b, turn = .move (.beat i) ∧ s.deployment.heartbeats[i]? = some b ∧ b.due ≤ s.now ∧
      s' = { s with deployment := s.deployment.afterBeat i b }) ∨
    ∃ own, s.deployment.Around own s'.deployment ∧ s.clock.Ran s'.clock := by
  cases h with
  | elapse hspan => exact .inl ⟨_, rfl, hspan, rfl⟩
  | shift d => exact .inr (.inl ⟨d, rfl, rfl⟩)
  | beat hbeat hdue => exact .inr (.inr (.inl ⟨_, _, rfl, hbeat, hdue, rfl⟩))
  | @cancel i site ticket r due hthread =>
    obtain ⟨own, hkeeps⟩ := hs.threads _ (List.mem_of_getElem? hthread)
    have hspare : Sound { s with deployment := s.deployment.spare site ticket } :=
      ⟨⟨hs.proper.handlers, hs.proper.queued⟩, hs.threads⟩
    obtain ⟨haround, hran⟩ := @around_play _ hspare i (.worker site ticket) _ _ hkeeps.cancel
    have haround' : s.deployment.Around own (s.deployment.spare site ticket) :=
      .of_eq rfl rfl rfl rfl rfl
    exact .inr (.inr (.inr ⟨own, haround'.trans haround, hran⟩))
  | resume hthread =>
    obtain ⟨own, hkeeps⟩ := hs.threads _ (List.mem_of_getElem? hthread)
    exact .inr (.inr (.inr ⟨own, around_play hs hkeeps.resume⟩))
  | grant hpool hgrant =>
    exact .inr (.inr (.inr ⟨none, (hs.proper.grant hpool hgrant).2, .refl _⟩))
  | wake | begin => exact .inr (.inr (.inr ⟨none, .of_eq rfl rfl rfl rfl rfl, .refl _⟩))
  | call => exact .inr (.inr (.inr ⟨none, .refl _, .refl _⟩))

theorem now_afterBeat (d : Deployment) (i : Nat) (h : Heartbeat) : (d.afterBeat i h).now = d.now :=
  (d.moved_afterBeat i h).clock.elapsed_eq

namespace Run

theorem sound (h : s₀.Run past s) (h₀ : s₀.Sound) : s.Sound := by
  induction h with
  | start => exact h₀
  | turn _ hservice hturn ih => exact ((took_of_turn? hturn).served ih hservice).sound

/-- What every effect and every removal keeps holds throughout a run. -/
theorem store_keeps {P : Store → Prop} (hP : ∀ s s', s.Effect (fun _ => True) s' → P s → P s')
    (hdrop : ∀ s id, P s → P (s.dropIfStopped id).2) (h : s₀.Run past s) (h₀ : s₀.Sound)
    (hs : P s₀.store) : P s.store := by
  induction h with
  | start => exact hs
  | turn hrun hservice hturn ih =>
    exact ((took_of_turn? hturn).served (hrun.sound h₀) hservice).store.keeps hP hdrop ih

theorem known (h : s₀.Run past s) (h₀ : s₀.Sound) :
    s.deployment.cluster.bus.known = s₀.deployment.cluster.bus.known := by
  induction h with
  | start => rfl
  | turn hrun hservice hturn ih =>
    exact ((took_of_turn? hturn).served (hrun.sound h₀) hservice).known.trans ih

theorem of_append {earlier later : List Moment} (h : s₀.Run (earlier ++ later) s) :
    ∃ s₁, s₀.Run earlier s₁ ∧ s₁.Run later s := by
  generalize hpast : earlier ++ later = past at h
  induction h generalizing later with
  | start =>
    obtain ⟨rfl, rfl⟩ := List.append_eq_nil_iff.mp hpast
    exact ⟨s₀, .start, .start⟩
  | @turn past s s' turn hrun hservice hturn ih =>
    rcases List.eq_nil_or_concat later with rfl | ⟨later, m, rfl⟩
    · rw [List.append_nil] at hpast
      exact ⟨s', hpast ▸ hrun.turn hservice hturn, .start⟩
    · rw [List.concat_eq_append, ← List.append_assoc] at hpast
      have hfront := (List.append_inj' hpast rfl).1
      obtain rfl := List.singleton_inj.mp (List.append_inj' hpast rfl).2
      obtain ⟨s₁, hearlier, hlater⟩ := ih hfront
      exact ⟨s₁, hearlier, List.concat_eq_append ▸ hlater.turn hservice hturn⟩

/-- The last turn of a run was a turn of the service from what came before. -/
theorem last {m : Moment} (h : s₀.Run (past ++ [m]) s) :
    s₀.Run past m.before ∧ m.turn.isService ∧ m.before.turn? m.turn = some m.after ∧
      s = m.after := by
  generalize hpast : past ++ [m] = all at h
  cases h with
  | start => exact absurd hpast (by simp)
  | turn hrun hservice hturn =>
    obtain ⟨rfl, hlast⟩ := List.append_inj' hpast rfl
    obtain rfl := List.singleton_inj.mp hlast
    exact ⟨hrun, hservice, hturn, rfl⟩

/-- A run can be cut before and after one of its moments. -/
theorem cut {earlier later : List Moment} {m : Moment} (h : s₀.Run (earlier ++ m :: later) s) :
    s₀.Run earlier m.before ∧ m.after.Run later s := by
  rw [List.append_cons] at h
  obtain ⟨s₁, hearlier, hlater⟩ := h.of_append
  obtain ⟨hbefore, -, -, rfl⟩ := hearlier.last
  exact ⟨hbefore, hlater⟩

/-- A job that is no longer running has been ended. -/
theorem ends_of_running {job : String} (h : s₀.Run past s) (h₀ : s₀.store.running? job ≠ none)
    (hs : s.store.running? job = none) : ∃ m ∈ past, m.Ends job := by
  induction h with
  | start => exact absurd hs h₀
  | @turn past s s' turn hrun hservice hturn ih =>
    cases hbefore : s.store.running? job with
    | none =>
      obtain ⟨m, hm, hends⟩ := ih hbefore
      exact ⟨m, List.mem_append_left _ hm, hends⟩
    | some r =>
      have hends : Moment.Ends ⟨s, turn, s'⟩ job := ⟨by simp [hbefore], hs⟩
      exact ⟨_, List.mem_concat_self, hends⟩

end Run

/-! ## Letting time pass -/

theorem step?_of_next? {first : Nat} {m : Move} (h : s.next? first = some (m, s')) :
    s.step? m = some s' := by
  obtain ⟨m', -, hm⟩ := List.exists_of_findSome?_eq_some h
  obtain ⟨s'', hstep, heq⟩ := Option.map_eq_some_iff.mp hm
  obtain ⟨rfl, rfl⟩ := Prod.mk.inj heq
  exact hstep

theorem now_of_step? {m : Move} (h : s.step? m = some s') (hs : s.Sound) : s'.now = s.now := by
  rcases (took_of_step? h).cases_around hs rfl with
    ⟨span, hturn, -⟩ | ⟨d, hturn, -⟩ | ⟨i, b, -, -, -, rfl⟩ | ⟨own, haround, -⟩
  · contradiction
  · contradiction
  · exact now_afterBeat s.deployment i b
  · exact haround.now

namespace Run

theorem settleWithin (fuel first : Nat) (h : s₀.Run past s) (h₀ : s₀.Sound) :
    ∃ later, s₀.Run (past ++ later) (s.settleWithin fuel first) ∧
      (s.settleWithin fuel first).now = s.now := by
  induction fuel generalizing past s first with
  | zero => exact ⟨[], by rwa [List.append_nil], rfl⟩
  | succ fuel ih =>
    unfold Schedule.settleWithin
    split
    · rename_i m s' hnext
      have hstep := step?_of_next? hnext
      have hmove : s.turn? (.move m) = some s' := hstep
      obtain ⟨later, hrun, hnow⟩ := ih _ (h.turn rfl hmove)
      rw [← List.append_cons] at hrun
      exact ⟨_, hrun, hnow.trans (now_of_step? hstep (h.sound h₀))⟩
    · exact ⟨[], by rwa [List.append_nil], rfl⟩

theorem settle (h : s₀.Run past s) (h₀ : s₀.Sound) :
    ∃ later, s₀.Run (past ++ later) s.settle ∧ s.settle.now = s.now :=
  h.settleWithin patience 0 h₀

theorem atTime (h : s₀.Run past s) {t : Micros} (ht : s.now ≤ t) :
    s₀.Run (past ++ [⟨s, .elapse (t - s.now), s.atTime t⟩]) (s.atTime t) := by
  refine h.turn rfl ?_
  have hspan : 0 ≤ t - s.now := Int.sub_nonneg_of_le ht
  have hsum : s.now + (t - s.now) = t := by
    show (_ : Int) = _
    omega
  rw [turn?, if_pos hspan, hsum]

theorem advanceWithin {target : Micros} (fuel : Nat) (h : s₀.Run past s) (h₀ : s₀.Sound)
    (htarget : s.now ≤ target) :
    ∃ later, s₀.Run (past ++ later) (Schedule.advanceWithin target fuel s) := by
  induction fuel generalizing past s with
  | zero => exact ⟨[], by rwa [List.append_nil]⟩
  | succ fuel ih =>
    unfold Schedule.advanceWithin
    split
    · split
      · rename_i t _ ht
        obtain ⟨later, hrun, hnow⟩ := (h.atTime (Int.le_max_left s.now t)).settle h₀
        have hnow : (Schedule.settle (s.atTime (max s.now t))).now ≤ target := by
          rw [hnow]
          exact Int.max_le.mpr ⟨htarget, ht⟩
        obtain ⟨later', hrun'⟩ := ih hrun hnow
        rw [List.append_assoc, List.append_assoc] at hrun'
        exact ⟨_, hrun'⟩
      · exact ⟨_, h.atTime htarget⟩
    · exact ⟨_, h.atTime htarget⟩

/-- To let time pass, and happen what becomes due, is to go on with the run. -/
theorem advance (h : s₀.Run past s) (h₀ : s₀.Sound) (span : Micros) :
    ∃ later, s₀.Run (past ++ later) (s.advance span) :=
  h.advanceWithin patience h₀ (Int.le_add_of_nonneg_right (Int.le_max_left 0 span))

end Run

/-! ## Threads and their past -/

/-- What has to be shown of the relation between a thread and the past so that it holds of all
threads in a run: it does not get lost, it holds of a thread that begins, and a stretch that the
thread plays keeps it. -/
structure ThreadRule (s₀ : Schedule) (P : List Moment → Owner → Deployment.Work Unit → Prop) :
    Prop where
  mono : ∀ {past m owner r}, P past owner r → P (past ++ [m]) owner r
  grant : ∀ {past s s' site p pool} {t : Ticket (Handler Script)}, s₀.Run past s →
    s.deployment.pool? site = some p → p.grant? = some (t, pool) → t.work.IsService →
    P (past ++ [⟨s, .move (.grant site), s'⟩]) (.worker site t.number)
      (.yielding (Runner.run site t.number t.job t.work))
  begin : ∀ {past s s' i w}, s₀.Run past s → s.deployment.watches[i]? = some w →
    P (past ++ [⟨s, .move (.begin i), s'⟩]) (.watch i) (.yielding w.run)
  call : ∀ {past s s' number site command}, s₀.Run past s → command.isService →
    P (past ++ [⟨s, .call number site command, s'⟩]) (.caller number)
      (.yielding ((fun _ => ()) <$> command.perform site ⟨"", ""⟩))
  resume : ∀ {past s i t wake next abort}, s₀.Run past s → s.threads[i]? = some t →
    P past t.owner t.routine →
    (t.routine.resume.advance s.deployment).1 = .wait wake next abort →
    P (past ++ [⟨s, .move (.resume i), s.play i t.owner t.routine.resume⟩]) t.owner
      (.wait wake next abort)
  cancel : ∀ {past s s' i site ticket r due wake next abort}, s₀.Run past s →
    s.threads[i]? = some ⟨.worker site ticket, r, due⟩ → P past (.worker site ticket) r →
    (r.cancel.advance (s.deployment.spare site ticket)).1 = .wait wake next abort →
    P (past ++ [⟨s, .move (.cancel i), s'⟩]) (.worker site ticket) (.wait wake next abort)

theorem Run.threads_from {P : List Moment → Owner → Deployment.Work Unit → Prop}
    (rule : ThreadRule s₀ P) (h₀ : s₀.Sound) (hstart : ∀ t ∈ s₀.threads, P [] t.owner t.routine)
    (h : s₀.Run past s) : ∀ t ∈ s.threads, P past t.owner t.routine := by
  induction h with
  | start => exact hstart
  | @turn past s s' turn hrun hservice hturn ih =>
    have old : ∀ t ∈ s.threads, P (past ++ [⟨s, turn, s'⟩]) t.owner t.routine :=
      fun t ht => rule.mono (ih t ht)
    have push : ∀ t' : Thread, P (past ++ [⟨s, turn, s'⟩]) t'.owner t'.routine →
        ∀ t ∈ s.threads ++ [t'], P (past ++ [⟨s, turn, s'⟩]) t.owner t.routine := by
      intro t' ht' t ht
      rcases List.mem_append.mp ht with ht | ht
      · exact old t ht
      · exact List.mem_singleton.mp ht ▸ ht'
    cases took_of_turn? hturn with
    | @cancel i site ticket r due hthread =>
      intro t ht
      rcases mem_threads_play ht with ht | ⟨howner, hroutine, wake, next, abort, hwait⟩
      · exact old t ht
      · rw [howner, hwait]
        exact rule.cancel hrun hthread (ih _ (List.mem_of_getElem? hthread))
          (hroutine.symm.trans hwait)
    | @resume i t' hthread =>
      intro t ht
      rcases mem_threads_play ht with ht | ⟨howner, hroutine, wake, next, abort, hwait⟩
      · exact old t ht
      · rw [howner, hwait]
        exact rule.resume hrun hthread (ih _ (List.mem_of_getElem? hthread))
          (hroutine.symm.trans hwait)
    | grant hpool hgrant =>
      have hwork := ((hrun.sound h₀).proper.grant hpool hgrant).1
      exact push _ (rule.grant hrun hpool hgrant hwork)
    | begin hwatch => exact push _ (rule.begin hrun hwatch)
    | call number site command => exact push _ (rule.call hrun hservice)
    | beat | wake | elapse | shift => exact old

theorem Run.threads {P : List Moment → Owner → Deployment.Work Unit → Prop}
    (rule : ThreadRule s₀ P) (h₀ : s₀.Sound) (hnone : s₀.threads = []) (h : s₀.Run past s) :
    ∀ t ∈ s.threads, P past t.owner t.routine :=
  h.threads_from rule h₀ (by rw [hnone]; nofun)

/-! ## Runs of one engine -/

theorem Run.of_replay? {turns : List Turn} {later : List Moment} (h : s₀.Run past s)
    (hservice : ∀ turn ∈ turns, turn.isService) (hturns : s.replay? turns = some (later, s')) :
    s₀.Run (past ++ later) s' := by
  induction turns generalizing s past later with
  | nil =>
    obtain ⟨rfl, rfl⟩ := Prod.mk.inj (Option.some.inj hturns)
    rwa [List.append_nil]
  | cons turn rest ih =>
    obtain ⟨after, hafter, hturns⟩ := Option.bind_eq_some_iff.mp hturns
    obtain ⟨⟨later', last⟩, hrest, hlast⟩ := Option.bind_eq_some_iff.mp hturns
    obtain ⟨rfl, rfl⟩ := Prod.mk.inj (Option.some.inj hlast)
    have hrun := h.turn (hservice turn List.mem_cons_self) hafter
    rw [List.append_cons]
    exact ih hrun (fun turn hturn => hservice turn (List.mem_cons_of_mem _ hturn)) hrest

/-- A replay that can be taken to its end and ends well is a run that does. -/
theorem exists_run (s₀ : Schedule) (turns : List Turn) (p : List Moment → Schedule → Bool)
    (hservice : turns.all (·.isService)) (h : (s₀.replay? turns).any fun r => p r.1 r.2) :
    ∃ past s, s₀.Run past s ∧ p past s := by
  obtain ⟨⟨past, s⟩, hs, hp⟩ := (Option.any_eq_true _ _).mp h
  exact ⟨past, s, Run.of_replay? .start (List.all_eq_true.mp hservice) hs, hp⟩

/-- One engine, before anything has happened; the day is the first of 2026. -/
def ofEngine (slots : Nat) (keepAlive : Micros) (handlers : Handlers Script) : Schedule :=
  ofDeployment {
    cluster := {
      store := ∅
      clock := .starting ⟨63902822400000000, some 0⟩ 0
      ids := ⟨[], 0⟩
      metrics := .empty
      bus := .empty }
    handlers
    sites := [⟨⟨"host", defaultRounds⟩, keepAlive, .empty slots⟩]
    heartbeats := []
    watches := []
    gates := []
    executions := ∅
    doomed := [] }

theorem initial_ofEngine {slots : Nat} {keepAlive : Micros} {handlers : Handlers Script}
    (h : ∀ name h, handlers.get? name = some h → h.IsService) :
    (ofEngine slots keepAlive handlers).Initial where
  store := rfl
  proper := by
    refine ⟨h, fun s hs t ht => ?_⟩
    obtain rfl := List.mem_singleton.mp hs
    contradiction
  threads := rfl
  heartbeats := rfl

def single (slots : Nat) (keepAlive : Micros) (handler : Handler Script) : Schedule :=
  ofEngine slots keepAlive
    ⟨(∅ : Mapping _ _).insert (Text.lowercase handler.definition.jobType) handler⟩

theorem initial_single {slots : Nat} {keepAlive : Micros} {handler : Handler Script}
    (h : handler.IsService) : (single slots keepAlive handler).Initial := by
  refine initial_ofEngine fun name h' hh' => ?_
  unfold Handlers.get? at hh'
  rw [Mapping.get?_insert] at hh'
  split at hh'
  · exact Option.some.inj hh' ▸ h
  · contradiction

def sleeper (jobType : String) (span : Micros) : Handler Script :=
  ⟨.build jobType "" "" [] 0 .zero, [[.sleep span]]⟩

theorem isService_sleeper (jobType : String) (span : Micros) :
    (sleeper jobType span).IsService := by
  intro actions hactions a ha
  simp only [sleeper, List.mem_singleton] at hactions
  subst hactions
  obtain rfl := List.mem_singleton.mp ha
  rfl

/-- One engine with a slot for a nightly job of a minute. -/
def nightly : Schedule := single 1 Micros.perMinute (sleeper "nightly" Micros.perMinute)

theorem initial_nightly : nightly.Initial := initial_single (isService_sleeper _ _)

end Schedule
end JobControl
