import JobControl.Proofs.Phases

/-! # How runs come to their close

A run that announced its job leaves no heartbeat behind when it is over, and the job is stopped or
gone by then, with one exception: cancelled while it announces the start or stops the job, the run
is over at once. -/

namespace JobControl

/-- Before the turn the store was not to fail, and no job of the id was started in it. -/
structure Moment.Steady (m : Moment) (site : Nat) (job : String) : Prop where
  storable : m.before.clock.Storable
  rounds : 0 < (m.before.deployment.engine site).rounds
  not_starts : ¬m.Starts job

namespace Schedule
open Runner
variable {s s' s₀ : Schedule} {turn : Turn} {past : List Moment} {site ticket : Nat}

/-- The thread has not looked its job up yet. -/
def Looks (site ticket : Nat) (r : Deployment.Work Unit) : Prop :=
  ∃ id handler, handler.IsService ∧ (r = .yielding (Runner.run site ticket id handler) ∨
    ∃ began, r = inspect site ticket id handler began)

/-- How far the thread of a worker has come: it has not looked its job up, or it did so and is in a
phase of its work, in which the job stays closed as long as the moments are steady. -/
inductive Stage (past : List Moment) (d : Deployment) (site ticket : Nat)
    (r : Deployment.Work Unit) : Prop
  | looking (hlooks : Looks site ticket r) (hbeats : ∀ job, ¬d.Beats site ticket job)
  | attending {who : Identity} {earlier later : List Moment} {c : Moment}
    (hpast : past = earlier ++ c :: later) (hinspects : c.Inspects site ticket who.id)
    (hproceeds : Proceeds site ticket who (∀ m ∈ later, m.Steady site who.id) (r, d))

theorem running?_of_not_starts {job : String} (hs : s.store.running? job = none)
    (h : ¬Moment.Starts ⟨s, turn, s'⟩ job) : s'.store.running? job = none :=
  Decidable.byContradiction fun hs' => h ⟨hs, hs'⟩

theorem forall_mem_concat {P : Moment → Prop} {later : List Moment} {m : Moment}
    (h : ∀ e ∈ later ++ [m], P e) : (∀ e ∈ later, P e) ∧ P m :=
  ⟨fun e he => h e (List.mem_append_left _ he), h m List.mem_concat_self⟩

theorem concat_split {earlier later : List Moment} {c : Moment} (h : past = earlier ++ c :: later)
    (m : Moment) : past ++ [m] = earlier ++ c :: (later ++ [m]) := by
  rw [h, List.append_assoc, List.cons_append]

/-- What others do leaves the thread where it is. -/
theorem Stage.aside {r : Deployment.Work Unit} (h : Stage past s.deployment site ticket r)
    (hbeats : ∀ job, s'.deployment.Beats site ticket job ↔ s.deployment.Beats site ticket job) :
    Stage (past ++ [⟨s, turn, s'⟩]) s'.deployment site ticket r := by
  cases h with
  | looking hlooks hnone => exact .looking hlooks fun job => mt (hbeats job).mp (hnone job)
  | @attending who earlier later c hpast hinspects hproceeds =>
    obtain ⟨hphase, hjob, hclosed⟩ := hproceeds
    refine @Stage.attending _ _ _ _ _ who earlier _ c (concat_split hpast _) hinspects ?_
    refine .intro (hphase.mono fun hsteady => (forall_mem_concat hsteady).1)
      (fun job hjob' => hjob job ((hbeats job).mp hjob')) fun hc hsteady => ?_
    obtain ⟨hlater, hlast⟩ := forall_mem_concat hsteady
    exact running?_of_not_starts (hclosed hc hlater) hlast.not_starts

/-- A thread of a worker that plays a stretch goes on with what is left, or is over. -/
theorem worker_play_cases (hs : s.Seated) {i : Nat} {t : Thread} (hthread : s.threads[i]? = some t)
    (howner : t.owner = .worker site ticket) (d : Deployment) (r : Deployment.Work Unit) :
    (∃ wake next abort, (r.advance d).1 = .wait wake next abort ∧
      (play { s with deployment := d } i t.owner r).deployment = (r.advance d).2 ∧
      .worker site ticket ∈ (play { s with deployment := d } i t.owner r).owners ∧
      ∀ t' ∈ (play { s with deployment := d } i t.owner r).threads,
        t'.owner = .worker site ticket → t'.routine = (r.advance d).1) ∨
    (∃ outcome, (r.advance d).1 = .done outcome ∧
      (play { s with deployment := d } i t.owner r).deployment.cluster = (r.advance d).2.cluster ∧
      (∀ job, (play { s with deployment := d } i t.owner r).deployment.Beats site ticket job ↔
        (r.advance d).2.Beats site ticket job) ∧
      .worker site ticket ∉ (play { s with deployment := d } i t.owner r).owners) := by
  rcases play_cases { s with deployment := d } i t.owner r with
    ⟨outcome, d', hadvance, hplay⟩ | ⟨wake, next, abort, d', hadvance, hplay⟩
  · refine .inr ⟨outcome, ?_, ?_, fun job => ?_, ?_⟩
    · rw [hadvance]
    · rw [hplay, hadvance]
      exact t.owner.cluster_ended d'
    · rw [hplay, hadvance, howner]
      exact Iff.rfl
    · rw [hplay, owners_eraseIdx]
      exact hs.not_mem_eraseIdx hthread howner
  · refine .inl ⟨wake, next, abort, ?_, ?_, ?_, fun t' ht' howner' => ?_⟩
    · rw [hadvance]
    · rw [hplay, hadvance]
    · have hmem : t.owner ∈ s.owners := List.mem_map_of_mem (List.mem_of_getElem? hthread)
      rw [hplay]
      exact (owners_set (s := { s with deployment := d }) hthread _ _ _).symm ▸ howner ▸ hmem
    · rw [hadvance]
      rw [hplay] at ht'
      obtain ⟨k, hk⟩ := List.mem_iff_getElem?.mp ht'
      by_cases hik : i = k
      · subst k
        rw [List.getElem?_set_self (List.getElem?_eq_some_iff.mp hthread).1] at hk
        obtain rfl := Option.some.inj hk
        rfl
      · rw [List.getElem?_set_ne hik] at hk
        exact absurd (hs.eq_index hthread hk howner howner') hik

/-- What is told of a thread that is over: it had nothing to announce; or the job that it announced
is closed; or it was cancelled in a phase without a heartbeat. -/
inductive Over (past : List Moment) (s : Schedule) (turn : Turn) (s' : Schedule)
    (site ticket : Nat) : Prop
  | unannounced {t : Thread} (ht : t ∈ s.threads) (howner : t.owner = .worker site ticket)
    (hlooks : Looks site ticket t.routine)
    (hcluster : s'.deployment.cluster = s.deployment.cluster)
  | announced {job : String} {earlier later : List Moment} {c : Moment}
    (hpast : past ++ [⟨s, turn, s'⟩] = earlier ++ c :: later)
    (hinspects : c.Inspects site ticket job)
    (h : (∀ i, turn ≠ .move (.cancel i)) ∧
        ((∀ m ∈ later, m.Steady site job) → s'.store.running? job = none) ∨
      (∃ i, turn = .move (.cancel i)) ∧ s'.store = s.store ∧
        ∀ other, ¬s.deployment.Beats site ticket other)

/-- What a turn of the worker's own leads to. -/
inductive Onward (past : List Moment) (s : Schedule) (turn : Turn) (s' : Schedule)
    (site ticket : Nat) : Prop
  | goes (howner : .worker site ticket ∈ s'.owners)
    (hstages : ∀ t ∈ s'.threads, t.owner = .worker site ticket →
      Stage (past ++ [⟨s, turn, s'⟩]) s'.deployment site ticket t.routine)
  | ended (howner : .worker site ticket ∉ s'.owners)
    (hbeats : ∀ job, ¬s'.deployment.Beats site ticket job) (hover : Over past s turn s' site ticket)

section
variable {i : Nat} {t : Thread} (hs : s.Seated) (hthread : s.threads[i]? = some t)
  (howner : t.owner = .worker site ticket) {d : Deployment} {r : Deployment.Work Unit}
include hs hthread howner

theorem onward_of_stage {wake : Option Wake} {next abort : Deployment.Work Unit}
    (hwait : (r.advance d).1 = .wait wake next abort)
    (hstage : Stage (past ++ [⟨s, turn, play { s with deployment := d } i t.owner r⟩])
      (r.advance d).2 site ticket (r.advance d).1) :
    Onward past s turn (play { s with deployment := d } i t.owner r) site ticket := by
  rcases worker_play_cases hs hthread howner d r with
    ⟨_, _, _, -, hdeployment, hmem, hroutine⟩ | ⟨outcome, hdone, -⟩
  · refine .goes hmem fun t' ht' howner' => ?_
    rw [hroutine t' ht' howner', hdeployment]
    exact hstage
  · rw [hwait] at hdone
    contradiction

theorem onward_of_proceeds {who : Identity} {earlier later : List Moment} {c : Moment}
    (hpast : past ++ [⟨s, turn, play { s with deployment := d } i t.owner r⟩] =
      earlier ++ c :: later)
    (hinspects : c.Inspects site ticket who.id)
    (h : Proceeds site ticket who (∀ m ∈ later, m.Steady site who.id) (r.advance d)) :
    Onward past s turn (play { s with deployment := d } i t.owner r) site ticket := by
  obtain ⟨wake, next, abort, hwait⟩ := h.waits
  exact onward_of_stage hs hthread howner hwait (.attending hpast hinspects h)

theorem onward_of_done {outcome : Except Failure Unit} {d' : Deployment}
    (hdone : r.advance d = (.done outcome, d'))
    (hbeats : ∀ job, ¬d'.Beats site ticket job)
    (hover : (play { s with deployment := d } i t.owner r).deployment.cluster = d'.cluster →
      Over past s turn (play { s with deployment := d } i t.owner r) site ticket) :
    Onward past s turn (play { s with deployment := d } i t.owner r) site ticket := by
  rcases worker_play_cases hs hthread howner d r with
    ⟨_, _, _, hwait, -⟩ | ⟨outcome, -, hcluster, hsame, hmem⟩
  · rw [hdone] at hwait
    contradiction
  · rw [hdone] at hcluster hsame
    exact .ended hmem (fun job => mt (hsame job).mp (hbeats job)) (hover hcluster)

end

theorem Stage.resume (hs : s.Seated) (hsound : s.Sound) {i : Nat} {t : Thread}
    (hthread : s.threads[i]? = some t) (howner : t.owner = .worker site ticket)
    (h : Stage past s.deployment site ticket t.routine) :
    Onward past s (.move (.resume i)) (s.play i t.owner t.routine.resume) site ticket := by
  have hmem := List.mem_of_getElem? hthread
  cases h with
  | looking hlooks hnone =>
    obtain ⟨id, handler, hservice, hroutine⟩ := hlooks
    rcases hroutine with hroutine | ⟨began, hroutine⟩
    · -- It notes the time and goes on to the look-up.
      have hadvance : t.routine.resume.advance s.deployment =
          (inspect site ticket id handler s.now, s.deployment) := by
        rw [hroutine]
        rfl
      refine onward_of_stage hs hthread howner (d := s.deployment) (by rw [hadvance]; rfl) ?_
      rw [hadvance]
      exact .looking ⟨id, handler, hservice, .inr ⟨s.now, rfl⟩⟩ hnone
    · rcases @inspect_cases handler s.deployment site ticket id began with
        ⟨hfound, hattend⟩ | hdone
      · obtain ⟨owner, routine, due⟩ := t
        obtain rfl : owner = .worker site ticket := howner
        obtain rfl : routine = inspect site ticket id handler began := hroutine
        have hinspects := inspects_play hsound.proper hservice hthread hfound hattend
        rcases @attend_cases site ticket ⟨id, handler.definition.jobType⟩ began s.deployment
          (∀ m ∈ ([] : List Moment), m.Steady site id) handler hnone with hproceeds | ⟨e, hfails⟩
        · rw [← hattend] at hproceeds
          exact onward_of_proceeds hs hthread rfl rfl hinspects hproceeds
        · rw [← hattend] at hfails
          exact onward_of_done hs hthread rfl hfails hnone fun hcluster =>
            .unannounced hmem rfl ⟨id, handler, hservice, .inr ⟨began, rfl⟩⟩ hcluster
      · rw [← hroutine] at hdone
        refine onward_of_done hs hthread howner hdone hnone fun hcluster => ?_
        exact .unannounced hmem howner ⟨id, handler, hservice, .inr ⟨began, hroutine⟩⟩ hcluster
  | @attending who earlier later c hpast hinspects hproceeds =>
    obtain ⟨hphase, hjob, hclosed⟩ := hproceeds
    have hpast' := concat_split hpast
      ⟨s, .move (.resume i), s.play i t.owner t.routine.resume⟩
    have hreaches := @Phase.resume site ticket who s.deployment (∀ m ∈ later ++
      [⟨s, .move (.resume i), s.play i t.owner t.routine.resume⟩], m.Steady site who.id) _ _ _
      (hphase.mono fun hsteady => (forall_mem_concat hsteady).1)
      (fun hsteady => (forall_mem_concat hsteady).2.storable)
      (fun hsteady => (forall_mem_concat hsteady).2.rounds)
      hjob fun hc hsteady => hclosed hc (forall_mem_concat hsteady).1
    generalize hx : t.routine.resume.advance s.deployment = x at hreaches
    cases hreaches with
    | proceeds h => exact onward_of_proceeds hs hthread howner hpast' hinspects (hx ▸ h)
    | ended hbeats hstopped =>
      refine onward_of_done hs hthread howner hx hbeats fun hcluster => ?_
      refine .announced hpast' hinspects (.inl ⟨nofun, fun hsteady => ?_⟩)
      show (s.play i t.owner _).deployment.cluster.store.running? who.id = none
      rw [show (s.play i t.owner _).deployment.cluster = _ from hcluster]
      exact hstopped hsteady

theorem Stage.cancel (hs : s.Seated) {i : Nat} {r : Deployment.Work Unit} {due : Micros}
    (hthread : s.threads[i]? = some ⟨.worker site ticket, r, due⟩)
    (h : Stage past s.deployment site ticket r) :
    Onward past s (.move (.cancel i))
      (play { s with deployment := s.deployment.spare site ticket } i (.worker site ticket)
        r.cancel) site ticket := by
  have hmem := List.mem_of_getElem? hthread
  cases h with
  | looking hlooks hnone =>
    obtain ⟨outcome, hdone⟩ : ∃ outcome, r.cancel.advance (s.deployment.spare site ticket) =
        (.done outcome, s.deployment.spare site ticket) := by
      obtain ⟨id, handler, -, rfl | ⟨began, rfl⟩⟩ := hlooks <;> exact ⟨_, rfl⟩
    exact onward_of_done hs hthread rfl hdone hnone fun hcluster =>
      .unannounced hmem rfl hlooks hcluster
  | @attending who earlier later c hpast hinspects hproceeds =>
    obtain ⟨hphase, hjob, hclosed⟩ := hproceeds
    have hpast' := concat_split hpast ⟨s, .move (.cancel i),
      play { s with deployment := s.deployment.spare site ticket } i (.worker site ticket) r.cancel⟩
    rcases @Phase.cancel site ticket who (s.deployment.spare site ticket) (∀ m ∈ later ++
      [⟨s, .move (.cancel i), play { s with deployment := s.deployment.spare site ticket } i
        (.worker site ticket) r.cancel⟩], m.Steady site who.id) _ _ _
      (hphase.mono fun hsteady => (forall_mem_concat hsteady).1)
      (fun hsteady => (forall_mem_concat hsteady).2.rounds) hjob with hproceeds | ⟨hidle, hcancel⟩
    · exact onward_of_proceeds hs hthread rfl hpast' hinspects hproceeds
    · have hnone : ∀ job, ¬s.deployment.Beats site ticket job := fun job hbeats => by
        have := (hjob job hbeats).1
        rw [hidle] at this
        contradiction
      have hdone : r.cancel.advance (s.deployment.spare site ticket) =
          (.done (.error .cancelled), s.deployment.spare site ticket) := by
        rw [hcancel]
        rfl
      refine onward_of_done hs hthread rfl hdone hnone fun hcluster => ?_
      exact .announced hpast' hinspects (.inr ⟨⟨i, rfl⟩,
        congrArg (fun c : Cluster => c.store) hcluster, hnone⟩)

/-- Every thread of a worker is at some stage, and heartbeats beat for such threads only. -/
structure Attended (past : List Moment) (s : Schedule) : Prop where
  stages : ∀ site ticket, ∀ t ∈ s.threads, t.owner = .worker site ticket →
    Stage past s.deployment site ticket t.routine
  beating : ∀ site ticket job, s.deployment.Beats site ticket job → .worker site ticket ∈ s.owners

theorem Attended.onward (h : Attended past s) (hs : s.Seated) (hsound : s.Sound)
    (htook : s.Took turn s') (hof : Moment.OfWorker ⟨s, turn, s'⟩ site ticket) :
    Onward past s turn s' site ticket := by
  obtain ⟨i, t, rfl | rfl, hthread, howner⟩ := hof
  · have hstage := h.stages site ticket t (List.mem_of_getElem? hthread) howner
    cases htook with
    | resume hthread' =>
      obtain rfl := Option.some.inj (hthread.symm.trans hthread')
      exact hstage.resume hs hsound hthread howner
  · have hstage := h.stages site ticket t (List.mem_of_getElem? hthread) howner
    cases htook with
    | @cancel _ site' ticket' r due hthread' =>
      obtain rfl := Option.some.inj (hthread.symm.trans hthread')
      obtain ⟨rfl, rfl⟩ : site' = site ∧ ticket' = ticket := by
        injection howner with hsite hticket
        exact ⟨hsite, hticket⟩
      exact hstage.cancel hs hthread

theorem Run.attended (h : s₀.Run past s) (h₀ : s₀.Initial) (hvacant : s₀.Vacant) :
    Attended past s := by
  induction h with
  | start =>
    refine ⟨fun site ticket t ht => ?_, fun site ticket job ⟨b, hb, _⟩ => ?_⟩
    · rw [h₀.threads] at ht
      exact absurd ht List.not_mem_nil
    · rw [h₀.heartbeats] at hb
      exact absurd hb List.not_mem_nil
  | @turn past s s' turn hrun hservice hturn ih =>
    have hsound := hrun.sound h₀.sound
    have hs := hrun.seated (h₀.seated hvacant)
    have htook := took_of_turn? hturn
    refine ⟨fun site ticket t ht howner => ?_, fun site ticket job hbeats => ?_⟩
    · by_cases hof : Moment.OfWorker ⟨s, turn, s'⟩ site ticket
      · cases ih.onward hs hsound htook hof with
        | goes _ hstages => exact hstages t ht howner
        | ended hgone => exact absurd (howner ▸ List.mem_map_of_mem ht) hgone
      · obtain ⟨hsame, -, hthreads⟩ := htook.aside hs hsound.proper hof
        rcases hthreads t ht howner with hold | ⟨hnew, id, handler, hhandler, hroutine⟩
        · exact (ih.stages site ticket t hold howner).aside hsame
        · have hnone : ∀ job, ¬s'.deployment.Beats site ticket job := fun job hbeats =>
            hnew (ih.beating site ticket job ((hsame job).mp hbeats))
          exact .looking ⟨id, handler, hhandler, .inl hroutine⟩ hnone
    · by_cases hof : Moment.OfWorker ⟨s, turn, s'⟩ site ticket
      · cases ih.onward hs hsound htook hof with
        | goes hmem _ => exact hmem
        | ended _ hnone => exact absurd hbeats (hnone job)
      · obtain ⟨hsame, hkeeps, -⟩ := htook.aside hs hsound.proper hof
        exact hkeeps (ih.beating site ticket job ((hsame job).mp hbeats))

/-- A heartbeat belongs to a run that looked its job up and found it running. -/
theorem Attended.inspects_of_heartbeat (h : Attended past s) {b : Heartbeat}
    (hb : b ∈ s.deployment.heartbeats) : ∃ c ∈ past, c.Inspects b.site b.ticket b.job := by
  have hbeats : s.deployment.Beats b.site b.ticket b.job := ⟨b, hb, rfl, rfl, rfl⟩
  obtain ⟨t, ht, howner⟩ := List.mem_map.mp (h.beating _ _ _ hbeats)
  cases h.stages b.site b.ticket t ht howner with
  | looking _ hnone => exact absurd hbeats (hnone b.job)
  | attending hpast hinspects hproceeds =>
    obtain ⟨-, hjob, -⟩ := hproceeds
    refine ⟨_, ?_, (hjob b.job hbeats).2 ▸ hinspects⟩
    rw [hpast]
    exact List.mem_append_right _ List.mem_cons_self

/-- In the turn in which the thread of a worker ends, either it had not looked its job up or found
nothing to do, and nothing is announced; or it looked the job up before, found it running and
announced it, and this is what it leaves behind. No heartbeat of its own; a heartbeat that keeps the
same job alive is that of another run, for which a job of this id was found running as well. A
cancellation ends the thread at once only if the heartbeat has not begun or has ended, that is while
the start is announced or while the job is stopped. And if since the look-up the store did not fail
and no job of this id was started, the job is stopped or gone and holds no lock, unless the thread
was cancelled in this turn and the job was running before. -/
theorem announced_closed_iff (h₀ : s₀.Initial) (hvacant : s₀.Vacant) (hrun : s₀.Run past s)
    (hservice : turn.isService) (hturn : s.turn? turn = some s')
    (hbefore : .worker site ticket ∈ s.owners) (hover : .worker site ticket ∉ s'.owners) :
    (∃ t ∈ s.threads, t.owner = .worker site ticket ∧ Looks site ticket t.routine ∧
      s'.deployment.cluster = s.deployment.cluster) ∨
    ∃ job earlier c later, past ++ [⟨s, turn, s'⟩] = earlier ++ c :: later ∧
      c.Inspects site ticket job ∧
      (∀ b ∈ s'.deployment.heartbeats, b.job = job → (b.site, b.ticket) ≠ (site, ticket) ∧
        ∃ c' ∈ past ++ [⟨s, turn, s'⟩], c'.Inspects b.site b.ticket job) ∧
      ((∃ i, turn = .move (.cancel i)) →
        ∀ b ∈ s.deployment.heartbeats, (b.site, b.ticket) ≠ (site, ticket)) ∧
      ((∀ m ∈ later, m.Steady site job) →
        ((s'.store.running? job = none ∧ ∀ jobType, s'.store.holder jobType ≠ some job) ↔
          ((∃ i, turn = .move (.cancel i)) → s.store.running? job = none))) := by
  have hsound := hrun.sound h₀.sound
  have hs := hrun.seated (h₀.seated hvacant)
  have htook := took_of_turn? hturn
  have hrun' := hrun.turn hservice hturn
  have hattended := hrun'.attended h₀ hvacant
  have hof : Moment.OfWorker ⟨s, turn, s'⟩ site ticket := by
    by_contra hnot
    exact hover ((htook.aside hs hsound.proper hnot).2.1 hbefore)
  cases (hrun.attended h₀ hvacant).onward hs hsound htook hof with
  | goes hmem => exact absurd hmem hover
  | ended _ hnone hends =>
    cases hends with
    | unannounced ht howner hlooks hcluster => exact .inl ⟨_, ht, howner, hlooks, hcluster⟩
    | @announced job earlier later c hpast hinspects hclosed =>
      refine .inr ⟨job, earlier, c, later, hpast, hinspects, ?_, ?_, fun hsteady => ?_⟩
      · rintro b hb rfl
        refine ⟨fun heq => ?_, hattended.inspects_of_heartbeat hb⟩
        obtain ⟨hsite, hticket⟩ := Prod.mk.inj heq
        exact hnone b.job ⟨b, hb, hsite, hticket, rfl⟩
      · rintro ⟨i, hcancel⟩ b hb heq
        obtain ⟨hsite, hticket⟩ := Prod.mk.inj heq
        rcases hclosed with ⟨hnot, -⟩ | ⟨-, -, hidle⟩
        · exact hnot i hcancel
        · exact hidle b.job ⟨b, hb, hsite, hticket, rfl⟩
      · -- The run locks are held by running jobs only.
        have hlock : s'.store.running? job = none → ∀ jobType, s'.store.holder jobType ≠ some job :=
          fun hstopped => (hrun'.consistent h₀).holder_ne hstopped
        rcases hclosed with ⟨hnot, hstopped⟩ | ⟨hcancel, hsame, -⟩
        · have hstopped := hstopped hsteady
          exact ⟨fun _ ⟨i, hi⟩ => absurd hi (hnot i), fun _ => ⟨hstopped, hlock hstopped⟩⟩
        · refine ⟨fun h _ => hsame ▸ h.1, fun h => ?_⟩
          have hstopped : s'.store.running? job = none := hsame ▸ h hcancel
          exact ⟨hstopped, hlock hstopped⟩

/-- A nightly job that did its work is over. -/
theorem announced_closed_iff_nightly :
    ∃ past s s', nightly.Run past s ∧ s.turn? (.move (.resume 0)) = some s' ∧
      .worker 0 0 ∈ s.owners ∧ .worker 0 0 ∉ s'.owners ∧ s'.store.running? "job-1" = none ∧
      ∃ job, (∃ c ∈ past ++ [⟨s, .move (.resume 0), s'⟩], c.Inspects 0 0 job) ∧
        ∀ b ∈ s'.deployment.heartbeats, b.job = job → (b.site, b.ticket) ≠ (0, 0) := by
  obtain ⟨past, s, hrun, hp⟩ := exists_run nightly
    [.call 0 0 (.start (.named "nightly")), .move (.resume 0), .move (.resume 0),
      .move (.grant 0), .move (.resume 0), .move (.resume 0), .elapse Micros.perMinute,
      .move (.resume 0), .move (.resume 0)]
    (fun _ s => (s.turn? (.move (.resume 0))).any fun s' =>
      .worker 0 0 ∈ s.owners ∧ .worker 0 0 ∉ s'.owners ∧
        s.store.holder "nightly" = some "job-1" ∧ s'.store.holder "nightly" = none ∧
        s'.store.running? "job-1" = none)
    (by decide +kernel) (by decide +kernel)
  obtain ⟨s', hturn, hlast⟩ := (Option.any_eq_true _ _).mp hp
  obtain ⟨hbefore, hover, hheld, hfree, hstopped⟩ := of_decide_eq_true hlast
  have hvacant : nightly.Vacant := by
    intro site hsite
    obtain rfl := List.mem_singleton.mp hsite
    exact ⟨rfl, rfl⟩
  refine ⟨past, s, s', hrun, hturn, hbefore, hover, hstopped, ?_⟩
  rcases announced_closed_iff initial_nightly hvacant hrun rfl hturn hbefore hover with
    ⟨_, -, -, -, hsame⟩ | ⟨job, earlier, c, later, hpast, hinspects, hbeats, -⟩
  · have hstore : s'.store = s.store := congrArg (fun c : Cluster => c.store) hsame
    rw [hstore, hheld] at hfree
    contradiction
  · refine ⟨job, ⟨c, ?_, hinspects⟩, fun b hb hjob => (hbeats b hb hjob).1⟩
    rw [hpast]
    exact List.mem_append_right _ List.mem_cons_self

/-- The same schedule with the given ids to hand out, and with a listener to all events that takes
its time. -/
def attentive (s : Schedule) (ids : List String) (delay : Micros) : Schedule :=
  let listener : Listener := ⟨delay, fun _ => [], fun _ => false⟩
  let bus : Bus := ⟨(∅ : Mapping _ _).insert "slow" listener, ["slow"], [], []⟩
  { s with deployment := { s.deployment with
    cluster := { s.deployment.cluster with ids := ⟨ids, 0⟩, bus } } }

theorem Initial.attentive (h : s.Initial) (ids : List String) (delay : Micros) :
    (s.attentive ids delay).Initial :=
  ⟨h.store, ⟨h.proper.handlers, h.proper.queued⟩, h.threads, h.heartbeats⟩

/-- Two slots for nightly jobs, all of which get the same id. -/
def repeated : Schedule :=
  (single 2 Micros.perMinute (sleeper "nightly" Micros.perMinute)).attentive ["x", "x"] 0

/-- A run that is cancelled while a slow listener is told of its start leaves its job running and
locked. A run of a job that was killed and removed closes a second job of the same id as well, whose
heartbeat goes on to refresh the stopped record. -/
theorem left_running_or_refreshed :
    (∃ past s, (nightly.attentive [] (10 * Micros.perSecond)).Initial ∧
      (nightly.attentive [] (10 * Micros.perSecond)).Run past s ∧
      (∃ e ∈ s.deployment.cluster.bus.announced, e.jobId = "job-1") ∧ s.threads = [] ∧
      s.store.running? "job-1" ≠ none ∧ s.store.holder "nightly" = some "job-1") ∧
    ∃ past s s', repeated.Initial ∧ repeated.Run past s ∧
      (∃ m ∈ past, .worker 0 0 ∈ m.before.owners ∧ m.after.deployment.executed "x" = 1) ∧
      .worker 0 0 ∉ s.owners ∧ s.store.running? "x" = none ∧
      s.turn? (.move (.beat 0)) = some s' ∧
      ∃ r r', s.store.records.get? "x" = some r ∧ s'.store.records.get? "x" = some r' ∧
        r.lastUpdated < r'.lastUpdated := by
  constructor
  · obtain ⟨past, s, hrun, hp⟩ := exists_run (nightly.attentive [] (10 * Micros.perSecond))
      [.call 0 0 (.start (.named "nightly")), .move (.resume 0), .move (.resume 0),
        .move (.grant 0), .move (.resume 0), .move (.resume 0), .call 1 0 (.shutdown false),
        .move (.resume 1), .move (.cancel 0)]
      (fun _ s => s.deployment.cluster.bus.announced.any (·.jobId = "job-1") &&
        s.threads.isEmpty && (s.store.running? "job-1").isSome &&
        s.store.holder "nightly" = some "job-1")
      (by decide +kernel) (by decide +kernel)
    simp only [Bool.and_eq_true, List.any_eq_true, decide_eq_true_eq, List.isEmpty_iff,
      Option.isSome_iff_ne_none] at hp
    obtain ⟨⟨⟨hannounced, hover⟩, hruns⟩, hheld⟩ := hp
    exact ⟨past, s, initial_nightly.attentive _ _, hrun, hannounced, hover, hruns, hheld⟩
  · obtain ⟨past, s, hrun, hp⟩ := exists_run repeated
      [.call 0 0 (.start (.named "nightly")), .move (.resume 0), .move (.resume 0),
        .move (.grant 0), .move (.resume 0), .move (.resume 0),
        .call 1 0 (.kill (.named "x")), .move (.resume 1), .move (.resume 1), .move (.resume 1),
        .call 2 0 (.deleteJobs none), .move (.resume 1), .move (.resume 1),
        .elapse (30 * Micros.perSecond),
        .call 3 0 (.start (.named "nightly")), .move (.resume 1), .move (.resume 1),
        .move (.grant 0), .move (.resume 1), .move (.resume 1), .elapse (30 * Micros.perSecond),
        .move (.resume 0), .move (.resume 0), .move (.resume 0), .elapse (30 * Micros.perSecond)]
      (fun past s => (past.any fun m =>
          .worker 0 0 ∈ m.before.owners && m.after.deployment.executed "x" = 1) &&
        .worker 0 0 ∉ s.owners && s.store.running? "x" = none &&
        (s.turn? (.move (.beat 0))).any fun s' =>
          (s.store.records.get? "x").any fun r => (s'.store.records.get? "x").any fun r' =>
            r.lastUpdated < r'.lastUpdated)
      (by decide +kernel) (by decide +kernel)
    simp only [Bool.and_eq_true, List.any_eq_true, decide_eq_true_eq, Option.any_eq_true] at hp
    obtain ⟨⟨⟨hbegan, hover⟩, hstopped⟩, s', hturn, r, hr, r', hr', hlt⟩ := hp
    exact ⟨past, s, s', (initial_single (isService_sleeper _ _)).attentive _ _, hrun, hbegan, hover,
      hstopped, hturn, r, r', hr, hr', hlt⟩

end Schedule
end JobControl
