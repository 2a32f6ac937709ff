import JobControl.Proofs.Failures
import JobControl.Proofs.RecordLives
import JobControl.Proofs.ServingRuns

/-! # Disabled job types

A type that was disabled stays so until it is enabled, and no job of a disabled type comes in. Types
are told apart by their spelling here, but the name in a start stands for a type without regard to
case: the start is refused if the type is disabled as its handler spells it, however it was spelled
when it was disabled. -/

namespace JobControl
open Routine (Keeps)

/-! ## Disabled types stay disabled -/

theorem Administration.contains_apply {a : Administration} {types : Mapping String String}
    {x : String} (h : types.contains x) (ha : a ≠ .enable x) : (a.apply types).contains x := by
  unfold Mapping.contains at h ⊢
  cases a with
  | aside => exact h
  | disable jobType comment =>
    show ((types.insert jobType comment).get? x).isSome
    rw [Mapping.get?_insert]
    split
    · rfl
    · exact h
  | enable jobType =>
    show ((types.erase jobType).get? x).isSome
    have hne : x ≠ jobType := fun heq => ha (heq ▸ rfl)
    rwa [Mapping.get?_erase, if_neg hne]

/-- The turn did so to the document of disabled types. -/
def Moment.Administers (m : Moment) (a : Administration) : Prop :=
  m.after.store.disabled = a.apply m.before.store.disabled

namespace Schedule
variable {s s' s₀ : Schedule} {past later : List Moment} {x : String}

/-- Every turn of every run administers the disabled types, or leaves them alone. -/
theorem Run.administers (h : s₀.Run past s) (h₀ : s₀.Initial) :
    ∀ m ∈ past, ∃ a, m.Administers a := by
  have hserving : s₀.Serving .any fun _ => True := h₀.serving trivial fun _ _ _ _ => trivial
  exact fun m hm => (h.serves h₀.sound hserving (fun m _ => m.paced_any) m hm).administers

theorem Run.stays_disabled (h : s.Run later s') (hadministers : ∀ m ∈ later, ∃ a, m.Administers a)
    (hnot : ∀ m ∈ later, ¬m.Administers (.enable x)) (hx : s.store.disabled.contains x) :
    s'.store.disabled.contains x := by
  induction h with
  | start => exact hx
  | turn hrun hservice hturn ih =>
    have hbefore := ih (fun m hm => hadministers m (List.mem_append_left _ hm))
      fun m hm => hnot m (List.mem_append_left _ hm)
    obtain ⟨a, ha⟩ := hadministers _ List.mem_concat_self
    have hne : a ≠ .enable x := fun heq => hnot _ List.mem_concat_self (heq ▸ ha)
    unfold Moment.Administers at ha
    rw [ha]
    exact a.contains_apply hbefore hne

end Schedule

/-! ## No job of a disabled type comes in -/

theorem RunLock.refusal?_eq_disabled {running disabled : Document} {jobType : String}
    {blockers : List String} :
    refusal? running disabled jobType blockers = some .disabled ↔
      disabled.data.contains jobType := by
  unfold refusal?
  split
  · simp [*]
  · rename_i hnot
    refine iff_of_false (fun h => ?_) hnot
    split at h
    · contradiction
    · split at h <;> contradiction

namespace Lifecycle
variable {engine : Engine} {d : Definition} {w : Workspace} {id hostname : String}
  {now : Timestamp}

theorem commit_enter_of_disabled (hrounds : 0 < engine.rounds)
    (h : w.store.disabled.contains d.jobType) :
    (enter engine d (Job.new id d.jobType now hostname)).commit w =
      (.error (.refused d.jobType .disabled), w) := by
  rw [commit_enter, if_neg (Int.not_le.mpr hrounds), RunLock.refusal?_eq_disabled.mpr h]

/-- Where the type is not disabled, a start is not refused for that. -/
theorem commit_enter_of_enabled (hrounds : 0 < engine.rounds)
    (h : ¬w.store.disabled.contains d.jobType) :
    ∃ outcome w', (enter engine d (Job.new id d.jobType now hostname)).commit w = (outcome, w') ∧
      (outcome = .ok () ∨ outcome = .error .store ∨
        ∃ reason, reason ≠ .disabled ∧ outcome = .error (.refused d.jobType reason)) := by
  rw [commit_enter, if_neg (Int.not_le.mpr hrounds)]
  split
  · rename_i reason hreason
    have hne : reason ≠ .disabled :=
      fun heq => h (RunLock.refusal?_eq_disabled.mp (heq ▸ hreason))
    exact ⟨_, _, rfl, .inr (.inr ⟨reason, hne, rfl⟩)⟩
  · split
    · exact ⟨_, _, rfl, .inr (.inl rfl)⟩
    · split
      · exact ⟨_, _, rfl, .inr (.inl rfl)⟩
      · exact ⟨_, _, rfl, .inl rfl⟩

/-- An engine without rounds gets no lock either. -/
theorem commit_enter_fails (h : w.store.disabled.contains d.jobType) :
    ∃ e, (enter engine d (Job.new id d.jobType now hostname)).commit w = (.error e, w) := by
  by_cases hrounds : engine.rounds ≤ 0
  · exact ⟨_, by rw [commit_enter, if_pos hrounds]⟩
  · exact ⟨_, commit_enter_of_disabled (Int.not_le.mp hrounds) h⟩

end Lifecycle

/-- The type of a job that comes in is not disabled. -/
theorem Moment.Performs.enabled {m : Moment} {tx : Transaction} (h : m.Performs tx) {job : String}
    (hstarts : m.Starts job) : ∃ r, m.after.store.running? job = some r ∧
      ¬m.before.store.disabled.contains r.jobType := by
  obtain ⟨r', hr'⟩ := Option.ne_none_iff_exists'.mp hstarts.2
  refine ⟨r', hr', fun hdisabled => ?_⟩
  have hfate := h.fate job
  have hidle := hstarts.1
  rw [Store.running?_eq_some] at hr'
  rw [Store.running?_eq_none] at hidle
  rw [hr'.1] at hfate
  generalize hr : m.before.store.records.get? job = r at hfate
  cases hfate with
  | start time htx =>
    subst htx
    obtain ⟨e, hfails⟩ := Lifecycle.commit_enter_fails hdisabled
    have hstore : m.after.store = m.before.store := by
      rw [h, hfails]
      rfl
    rw [← hstore, hr'.1] at hr
    contradiction
  | @update r =>
    have hrunning : r.stopped = none := hr'.2
    simpa [Record.isStopped, hrunning] using hidle r hr
  | mark hrunning => simpa [Record.isStopped, hrunning] using hidle _ hr
  | stop => exact absurd hr'.2 (Option.some_ne_none _)

/-! ## Starting by name -/

/-- On a way on which the invariant is found at every step, a routine returns what it promises. -/
theorem Routine.Keeps.of_way {ω σ α : Type} {C : Conduct σ} {Q : α → Prop} {r : Routine ω σ α}
    {fresh : Bool} {steps : List (σ × σ)} {a : α} (h : r.Keeps C Q fresh)
    (hway : r.Way steps (.ok a)) (hinv : ∀ p ∈ steps, C.inv p.1) : Q a := by
  generalize houtcome : (Except.ok a : Except Failure α) = outcome at hway
  induction hway generalizing fresh with
  | done outcome => exact h a houtcome.symm
  | step s hway ih =>
    obtain ⟨hs, hrest⟩ := List.forall_mem_cons.mp hinv
    exact ih (h s hs).2 hrest houtcome
  | resume hway ih => exact ih h.1 hinv houtcome
  | cancel hway ih => exact ih h.2 hinv houtcome

theorem Routine.run_attempt {ω σ α : Type} (r : Routine ω σ α) (s : σ) :
    r.attempt.run s = match r.run s with
      | (.error .cancelled, s') => (.error .cancelled, s')
      | (outcome, s') => (.ok outcome, s') := by
  induction r generalizing s with
  | done outcome =>
    cases outcome with
    | ok a => rfl
    | error e => cases e <;> rfl
  | step act next ih => exact ih s (act s)
  | wait wake next abort ih _ => exact ih s

/-- Everybody leaves the type disabled. -/
def Cluster.disabling (jobType : String) : Conduct Cluster where
  inv c := c.store.disabled.contains jobType
  turn _ c' := c'.store.disabled.contains jobType
  quiet c c' := c.store.disabled.contains jobType → c'.store.disabled.contains jobType
  quiet_refl _ := id
  turn_of_quiet hc h := h hc
  turn_quiet h h' := h' h
  inv_turn _ h := h

namespace Lifecycle
open Cluster

/-- A start of a type that is disabled all the time starts nothing. -/
theorem keeps_start_of_disabled (engine : Engine) (d : Definition) :
    Keeps (disabling d.jobType) (· = none) (start engine d) false := by
  refine .seq (.update (fun _ _ h => h) fun _ _ => trivial) fun id => ?_
  refine .seq (.act (fun _ _ h => h) fun _ _ _ _ => trivial) fun now => ?_
  let u := enter engine d (Job.new id d.jobType now engine.hostname)
  have hfails (c : Cluster) (hc : c.store.disabled.contains d.jobType) :
      ∃ e, u.commit c.toWorkspace = (.error e, c.toWorkspace) := commit_enter_fails hc
  have henter : Keeps (disabling d.jobType) (fun _ => False) (atomically u) false := by
    refine .yielding (.act (fun c hc => ?_) fun c hc _ hok => ?_)
    · obtain ⟨e, he⟩ := hfails c hc
      show (u.commit c.toWorkspace).2.store.disabled.contains d.jobType
      rw [he]
      exact hc
    · obtain ⟨e, he⟩ := hfails c hc
      exact absurd ((congrArg Prod.fst he).symm.trans hok) nofun
  refine .bind henter.attempt fun outcome hfails => ?_
  split
  · exact absurd (hfails _ rfl) not_false
  · exact .seq (.modify (fun _ _ h => h) trivial) fun _ => .pure rfl
  · exact .fail _

/-- What a start comes to that nobody interferes with. -/
theorem run_start {engine : Engine} {d : Definition} {c : Cluster} {now : Timestamp}
    (hnow : c.clock.now? = some now) {outcome : Except Failure Unit} {w : Workspace}
    (hcommit : (enter engine d (Job.new c.ids.next.1 d.jobType now engine.hostname)).commit
      ⟨c.store, c.clock.read.2⟩ = (outcome, w)) :
    (start engine d).run c = match outcome with
      | .ok () => (.ok (some (Job.new c.ids.next.1 d.jobType now engine.hostname)),
        ⟨w, c.ids.next.2, c.metrics.jobStarted d.jobType, c.bus⟩)
      | .error (.refused jobType reason) => (.ok none,
        ⟨w, c.ids.next.2, c.metrics.jobBlocked jobType reason.label, c.bus⟩)
      | .error e => (.error e, ⟨w, c.ids.next.2, c.metrics, c.bus⟩) := by
  let job := Job.new c.ids.next.1 d.jobType now engine.hostname
  let numbered : Cluster := ⟨c.toWorkspace, c.ids.next.2, c.metrics, c.bus⟩
  let called : Cluster := ⟨⟨c.store, c.clock.read.2⟩, c.ids.next.2, c.metrics, c.bus⟩
  have hid : nextId.run c = (.ok c.ids.next.1, numbered) := rfl
  have hread : Cluster.now.run numbered = (.ok now, called) := by
    show (c.clock.read.1, called) = _
    unfold Clock.read
    rw [hnow]
  have hact : (atomically (enter engine d job)).run called =
      (outcome, ⟨w, c.ids.next.2, c.metrics, c.bus⟩) :=
    congrArg (fun r => (r.1, (⟨r.2, c.ids.next.2, c.metrics, c.bus⟩ : Cluster))) hcommit
  unfold start
  rw [Routine.run_bind, hid]
  dsimp only
  rw [Routine.run_bind, hread]
  dsimp only
  rw [Routine.run_bind, Routine.run_attempt, hact]
  cases outcome with
  | ok _ => rfl
  | error e => cases e <;> rfl

end Lifecycle

namespace Service
variable {η : Type} {handlers : Handlers η} {handler : Handler η} {engine : Engine}
  {name : String} {c : Cluster} {now : Timestamp}

/-- Nothing was started because the type is disabled; that was counted, and is all. -/
structure Refuses (c : Cluster) (jobType : String)
    (r : Except Failure (Option (Job Timestamp × Handler η)) × Cluster) : Prop where
  nothing : r.1 = .ok none
  store : r.2.store = c.store
  counted : r.2.metrics = c.metrics.jobBlocked jobType Refusal.disabled.label

theorem start_of_unknown (h : handlers.get? name = none) :
    start handlers engine name = Routine.fail (.unknownJobType name) := by
  unfold start Handlers.find
  rw [h]
  rfl

theorem start_of_handler (h : handlers.get? name = some handler) :
    start handlers engine name = Lifecycle.start engine handler.definition >>= fun
      | some job => pure (some (job, handler))
      | none => pure none := by
  unfold start Handlers.find
  rw [h]
  rfl

theorem eq_disabled_of_jobBlocked {m : Metrics Micros} {jobType : String} {reason : Refusal}
    (h : m.jobBlocked jobType reason.label = m.jobBlocked jobType Refusal.disabled.label) :
    reason = .disabled := by
  have hcount := congrArg (fun m => m.blocked.count (jobType, Refusal.disabled.label)) h
  simp only [Metrics.jobBlocked, Tally.count_bump, Prod.mk.injEq, true_and, if_true] at hcount
  cases reason with
  | disabled => rfl
  | alreadyRunning | blocked =>
    rw [if_neg (by decide)] at hcount
    omega

/-- A start is refused as disabled exactly if the type is disabled as the handler spells it. -/
theorem refuses_iff (hhandler : handlers.get? name = some handler) (hrounds : 0 < engine.rounds)
    (hnow : c.clock.now? = some now) :
    Refuses c handler.definition.jobType ((start handlers engine name).run c) ↔
      c.store.disabled.contains handler.definition.jobType := by
  rw [start_of_handler hhandler, Routine.run_bind]
  refine ⟨fun h => Decidable.byContradiction fun hnot => ?_, fun h => ?_⟩
  · obtain ⟨outcome, w, hcommit, houtcome⟩ := @Lifecycle.commit_enter_of_enabled engine
      handler.definition ⟨c.store, c.clock.read.2⟩ c.ids.next.1 engine.hostname now hrounds hnot
    rw [Lifecycle.run_start hnow hcommit] at h
    rcases houtcome with rfl | rfl | ⟨reason, hne, rfl⟩
    · exact absurd h.nothing nofun
    · exact absurd h.nothing nofun
    · exact hne (eq_disabled_of_jobBlocked h.counted)
  · rw [Lifecycle.run_start hnow (Lifecycle.commit_enter_of_disabled hrounds h)]
    exact ⟨rfl, rfl, rfl⟩

end Service

namespace Schedule
variable {s s' s₀ : Schedule} {past later : List Moment} {x comment : String}

/-- When a type `x` has been disabled and nobody has enabled it since, `x` is disabled, and in no
turn since has a job come in whose type was disabled. A start by the name `x` fails if `x` stands
for no handler. If it stands for one, the start is refused as disabled exactly if the type is
disabled as the handler spells it; and as long as it is disabled so, nothing is started, whatever
happens between the steps of the start. -/
theorem start_disabled_iff (h₀ : s₀.Initial) {d : Moment}
    (h : s₀.Run (past ++ d :: later) s) (hd : d.Administers (.disable x comment))
    (hnot : ∀ m ∈ later, ¬m.Administers (.enable x)) :
    s.store.disabled.contains x ∧
    (∀ m ∈ later, ∀ job, m.Starts job → ∃ r, m.after.store.running? job = some r ∧
      ¬m.before.store.disabled.contains r.jobType) ∧
    ∀ (η : Type) (handlers : Handlers η) (engine : Engine),
      (handlers.get? x = none →
        Service.start handlers engine x = Routine.fail (.unknownJobType x)) ∧
      ∀ handler, handlers.get? x = some handler →
        (0 < engine.rounds → s.clock.now?.isSome →
          (Service.Refuses s.deployment.cluster handler.definition.jobType
              ((Service.start handlers engine x).run s.deployment.cluster) ↔
            s.store.disabled.contains handler.definition.jobType)) ∧
        ∀ steps found, (Service.start handlers engine x).Way steps (.ok found) →
          (∀ p ∈ steps, p.1.store.disabled.contains handler.definition.jobType) →
          found = none := by
  have hadministers := h.administers h₀
  have hlater : ∀ m ∈ later, m ∈ past ++ d :: later :=
    fun m hm => List.mem_append_right _ (List.mem_cons_of_mem _ hm)
  have hdisabled : d.after.store.disabled.contains x := by
    unfold Moment.Administers at hd
    rw [hd]
    show ((Mapping.insert _ x comment).get? x).isSome
    rw [Mapping.get?_insert, if_pos rfl]
    rfl
  refine ⟨?_, fun m hm job hstarts => ?_, fun η handlers engine => ⟨?_, fun handler hhandler => ?_⟩⟩
  · exact h.cut.2.stays_disabled (fun m hm => hadministers m (hlater m hm)) hnot hdisabled
  · obtain ⟨tx, hperforms⟩ := h.performs h₀ m (hlater m hm)
    exact hperforms.enabled hstarts
  · exact Service.start_of_unknown
  · refine ⟨fun hrounds hnow => ?_, fun steps found hway hinv => ?_⟩
    · obtain ⟨now, hnow⟩ := Option.isSome_iff_exists.mp hnow
      exact Service.refuses_iff hhandler hrounds hnow
    · have hkeeps : Keeps (Cluster.disabling handler.definition.jobType) (· = none)
          (Service.start handlers engine x) false := by
        rw [Service.start_of_handler hhandler]
        refine .bind (Lifecycle.keeps_start_of_disabled engine _) fun job hjob => ?_
        subst hjob
        exact .pure rfl
      exact hkeeps.of_way hway hinv

/-- The type is disabled as its handler spells it, and refused. -/
theorem start_disabled_iff_nightly :
    ∃ past d s, nightly.Initial ∧ nightly.Run (past ++ [d]) s ∧
      d.Administers (.disable "nightly" "") ∧ s.store.disabled.contains "nightly" ∧
      Service.Refuses s.deployment.cluster "nightly"
        ((Service.start nightly.deployment.handlers ⟨"host", defaultRounds⟩ "nightly").run
          s.deployment.cluster) := by
  let call : Turn := .call 0 0 (.disable (.named "nightly") "")
  obtain ⟨past, s, hrun, hp⟩ := exists_run nightly [call, .move (.resume 0)]
    (fun _ s => (s.turn? (.move (.resume 0))).any fun s' => s'.clock.now?.isSome &&
      s'.store.disabled = s.store.disabled.insert "nightly" "")
    (by decide +kernel) (by decide +kernel)
  simp only [Option.any_eq_true, Bool.and_eq_true, decide_eq_true_eq] at hp
  obtain ⟨s', hturn, hnow, hdisabled⟩ := hp
  have hrun : nightly.Run (past ++ [⟨s, .move (.resume 0), s'⟩]) s' := hrun.turn rfl hturn
  obtain ⟨hstays, -, hstart⟩ := start_disabled_iff initial_nightly hrun hdisabled
    (fun m hm => absurd hm List.not_mem_nil)
  obtain ⟨-, hhandler⟩ := hstart Script nightly.deployment.handlers ⟨"host", defaultRounds⟩
  obtain ⟨hrefuses, -⟩ := hhandler (sleeper "nightly" Micros.perMinute) rfl
  exact ⟨past, _, s', initial_nightly, hrun, hdisabled, hstays,
    (hrefuses (by decide) hnow).mpr hstays⟩

/-- A type that is disabled under another spelling is started, by that very spelling. -/
theorem started_though_disabled :
    ∃ past d later s, nightly.Initial ∧ nightly.Run (past ++ d :: later) s ∧
      d.Administers (.disable "NIGHTLY" "") ∧
      d.after.replay? [.call 1 0 (.start (.named "NIGHTLY")), .move (.resume 0),
        .move (.resume 0)] = some (later, s) ∧
      (∀ m ∈ later, m.after.store.disabled = m.before.store.disabled) ∧
      ∃ m ∈ later, m.Starts "job-1" := by
  let call : Turn := .call 0 0 (.disable (.named "NIGHTLY") "")
  let start : List Turn :=
    [.call 1 0 (.start (.named "NIGHTLY")), .move (.resume 0), .move (.resume 0)]
  obtain ⟨past, s, hrun, hp⟩ := exists_run nightly [call, .move (.resume 0)]
    (fun _ s => (s.turn? (.move (.resume 0))).any fun s₁ =>
      s₁.store.disabled = s.store.disabled.insert "NIGHTLY" "" &&
        (s₁.replay? start).any fun p =>
          (p.1.all fun m => m.after.store.disabled = m.before.store.disabled) &&
          p.1.any fun m => (m.before.store.running? "job-1").isNone &&
            (m.after.store.running? "job-1").isSome)
    (by decide +kernel) (by decide +kernel)
  simp only [Option.any_eq_true, Bool.and_eq_true, List.all_eq_true, List.any_eq_true,
    decide_eq_true_eq, Option.isNone_iff_eq_none, Option.isSome_iff_ne_none] at hp
  obtain ⟨s₁, hturn, hdisabled, ⟨later, s'⟩, hreplay, hleft, hstarts⟩ := hp
  have hrun' := Run.of_replay? (hrun.turn rfl hturn) (by decide) hreplay
  rw [← List.append_cons] at hrun'
  exact ⟨past, _, later, s', initial_nightly, hrun', hdisabled, hreplay, hleft, hstarts⟩

end Schedule
end JobControl
