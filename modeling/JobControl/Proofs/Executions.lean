import JobControl.Proofs.LockedRuns

/-! # When handlers are executed

A runner looks its job up once, when it gets its slot. From then on it executes the handler as often
as the definition says, whatever becomes of the job meanwhile: what is left of the thread has no
look-up in it. So an execution is of a running job only as long as nothing has stopped the job since
the look-up. -/

namespace JobControl
open Routine (Keeps)

/-! ## Listeners without delay -/

/-- No listener takes time before it notes an event. -/
def Bus.Prompt (b : Bus) : Prop := ∀ name l, b.known.get? name = some l → l.delay ≤ 0

namespace Bus

theorem advance_deliver {b : Bus} (hb : b.Prompt) (e : Event) (name : String) :
    ∃ b', (deliver e name).advance b = (.done (.ok ()), b') ∧ b'.known = b.known := by
  unfold deliver
  rw [Routine.advance_bind]
  have hread : (Routine.read (ω := Wake) (·.known.get? name)).advance b =
      (.done (.ok (b.known.get? name)), b) := rfl
  rw [hread]
  cases hl : b.known.get? name with
  | none => exact ⟨b, rfl, rfl⟩
  | some l =>
    have hdelay : ¬0 < l.delay := Int.not_lt.mpr (hb name l hl)
    refine ⟨(call name l e b).2, ?_, known_call name l e b⟩
    simp only [if_neg hdelay, rescue_call]
    rfl

theorem advance_publish {b : Bus} (hb : b.Prompt) (e : Event) :
    ∃ b', (publish e).advance b = (.done (.ok ()), b') ∧ b'.known = b.known := by
  have hall : ∀ (names : List String) (b : Bus), b.Prompt →
      ∃ b', (deliverAll e names).advance b = (.done (.ok ()), b') ∧ b'.known = b.known := by
    intro names
    induction names with
    | nil => exact fun b _ => ⟨b, rfl, rfl⟩
    | cons name rest ih =>
      intro b hb
      obtain ⟨b₁, hdeliver, hknown⟩ := advance_deliver hb e name
      have hb₁ : b₁.Prompt := by unfold Prompt; rw [hknown]; exact hb
      obtain ⟨b₂, hrest, hknown'⟩ := ih b₁ hb₁
      refine ⟨b₂, ?_, hknown'.trans hknown⟩
      unfold deliverAll
      rw [Routine.advance_bind, hdeliver]
      exact hrest
  exact hall b.subscribed { b with announced := b.announced ++ [e] } hb

end Bus

namespace Cluster

theorem advance_announce {c : Cluster} (hc : c.bus.Prompt) (e : Event) :
    ∃ b, (announce e).advance c = (.done (.ok ()), { c with bus := b }) := by
  obtain ⟨b, hpublish, -⟩ := Bus.advance_publish hc e
  refine ⟨b, ?_⟩
  unfold announce
  rw [Routine.advance_zoom (fun c : Cluster => c.bus) (fun b c => { c with bus := b })
    (fun _ _ => rfl) (fun _ _ _ => rfl) (fun _ => rfl), hpublish]
  rfl

end Cluster

namespace Deployment

theorem advance_onCluster {α : Type} (r : Cluster.Work α) (d : Deployment) :
    (onCluster r).advance d =
      (onCluster (r.advance d.cluster).1, { d with cluster := (r.advance d.cluster).2 }) :=
  Routine.advance_zoom (fun d : Deployment => d.cluster) (fun c d => { d with cluster := c })
    (fun _ _ => rfl) (fun _ _ _ => rfl) (fun _ => rfl) r d

end Deployment

namespace Deployment
variable {K : String → Prop} {own : Option String} {α : Type} {Q : α → Prop}
  {r : Work α} {d : Deployment}

theorem executed_le_advance (h : Keeps (conduct K own) Q r false) (hd : d.Proper) (job : String) :
    d.executed job ≤ (r.advance d).2.executed job := by
  have hquiet : ∀ {d d' d'' : Deployment}, (conduct K own).quiet d d' →
      d'.executed job ≤ d''.executed job → d.executed job ≤ d''.executed job :=
    fun h h' => Nat.le_trans (h.2.executed_le job) h'
  exact h.advance_rel (R := fun d d' => d.executed job ≤ d'.executed job)
    (fun _ => Nat.le_refl _) hquiet hd

end Deployment

/-! ## From the look-up to the first execution -/

namespace Runner
open Deployment
variable {who : Identity} {handler : Handler Script} {d : Deployment} {site ticket : Nat}

theorem executed_attemptAll {restarts : Nat} {cleanup : Work Unit}
    (h : Keeps (conduct (fun _ => True) (some who.id)) (fun _ => True)
      ((attemptAll who handler restarts).ensure cleanup) false) (hd : d.Proper) :
    d.executed who.id < (((attemptAll who handler restarts).ensure cleanup).advance d).2.executed
      who.id := by
  obtain ⟨rest, hrest⟩ : ∃ rest : Deployment → Deployment → Work Unit,
      (attemptAll who handler restarts).ensure cleanup =
        .step id fun d₁ => .step (fun d => (countExecution who.id d).2) (rest d₁) := by
    cases restarts <;> exact ⟨_, rfl⟩
  rw [hrest] at h ⊢
  obtain ⟨⟨-, haround⟩, hkeeps⟩ := (h d hd).2 d hd
  have hle := executed_le_advance hkeeps (haround.proper hd) who.id
  rw [executed_countExecution, if_pos rfl] at hle
  exact hle

theorem advance_now (c : Cluster) :
    Cluster.now.advance c = (.done c.clock.read.1, { c with clock := c.clock.read.2 }) := rfl

/-- Unless a listener takes its time, a runner that announces a job goes on to execute it before it
waits for anything. -/
theorem executed_attend (hservice : handler.IsService) (hd : d.Proper)
    (hprompt : d.cluster.bus.Prompt) {began : Micros} {wake : Option Wake} {next abort : Work Unit}
    (hwait : ((attend site ticket who handler began).advance d).1 = .wait wake next abort) :
    d.executed who.id < ((attend site ticket who handler began).advance d).2.executed who.id := by
  have hbegin : (attend site ticket who handler began).advance d =
      (onCluster (do
          let time ← Cluster.now
          Cluster.announce ⟨who.id, who.jobType, time, .started (d.engine site).hostname⟩) >>=
        fun _ => Routine.modify (beginHeartbeat site ticket who.id) >>= fun _ =>
          (attemptAll who handler handler.definition.restarts).ensure
            (close site ticket who began)).advance d := rfl
  rw [hbegin, Routine.advance_bind, advance_onCluster, Routine.advance_bind, advance_now] at hwait ⊢
  cases htime : d.cluster.clock.read.1 with
  | error e =>
    rw [htime] at hwait
    contradiction
  | ok time =>
    obtain ⟨bus, hannounce⟩ := Cluster.advance_announce
      (c := { d.cluster with clock := d.cluster.clock.read.2 }) hprompt
      ⟨who.id, who.jobType, time, .started (d.engine site).hostname⟩
    simp only [hannounce]
    let d₁ : Deployment := { d with cluster := { d.cluster with
      clock := d.cluster.clock.read.2, bus } }
    have haround : Around none d (beginHeartbeat site ticket who.id d₁) :=
      (Around.cluster (Clock.Ran.read d.cluster.clock).elapsed_eq).trans (.beginHeartbeat ..)
    let L := keeping (some who.id)
    have hkeeps := L.ensure
      (L.attemptAll who handler handler.definition.restarts (fun _ => trivial) hservice rfl)
      (L.close site ticket who began trivial)
    have := executed_attemptAll hkeeps (haround.proper hd)
    rw [haround.executed who.id nofun] at this
    exact this

/-! ## The look-up -/

/-- The look-up of a job reads the store, and the runner goes on at once. -/
theorem advance_inspect (id : String) (began : Micros) :
    (inspect site ticket id handler began).resume.advance d =
      (unlessStopped (d.cluster.store.find? id)
        (attend site ticket ⟨id, handler.definition.jobType⟩ handler began)).advance d := rfl

/-- Either the job was found running, or the thread is over. -/
theorem inspect_cases (id : String) (began : Micros) :
    ((∃ r, d.cluster.store.running? id = some r) ∧
      (inspect site ticket id handler began).resume.advance d =
        (attend site ticket ⟨id, handler.definition.jobType⟩ handler began).advance d) ∨
    (inspect site ticket id handler began).resume.advance d = (.done (.ok ()), d) := by
  rw [advance_inspect]
  unfold unlessStopped
  cases hfound : d.cluster.store.find? id with
  | none => exact .inr rfl
  | some job =>
    by_cases hstopped : job.isStopped
    · simp only [hstopped, if_true]
      exact .inr rfl
    · have hrun := mt (Store.isStopped_find? hfound).mp hstopped
      simp only [hstopped]
      exact .inl ⟨Option.ne_none_iff_exists'.mp hrun, rfl⟩

end Runner

/-! ## Executions and the past -/

namespace Moment

def OfWorker (m : Moment) (site ticket : Nat) : Prop :=
  ∃ i t, (m.turn = .move (.resume i) ∨ m.turn = .move (.cancel i)) ∧
    m.before.threads[i]? = some t ∧ t.owner = .worker site ticket

/-- The thread of this work looked its job up and found it running. -/
def Inspects (m : Moment) (site ticket : Nat) (job : String) : Prop :=
  ∃ i t handler began, m.turn = .move (.resume i) ∧ m.before.threads[i]? = some t ∧
    t.owner = .worker site ticket ∧ t.routine = Runner.inspect site ticket job handler began ∧
    (∃ r, m.before.store.running? job = some r) ∧ m.after.store = m.before.store

/-- The handler of the job began to be executed. -/
def Executes (m : Moment) (job : String) : Prop :=
  m.before.deployment.executed job < m.after.deployment.executed job

end Moment

namespace Schedule
variable {s s' s₀ : Schedule} {past : List Moment}

/-- How far the thread of a runner has come: it has not begun, it is about to look its job up, or it
did so. The other threads execute no handlers. -/
def Progress (s₀ : Schedule) (past : List Moment) (owner : Owner) (r : Deployment.Work Unit) :
    Prop :=
  match owner with
  | .worker site ticket => ∃ id handler, handler.IsService ∧
    (r = .yielding (Runner.run site ticket id handler) ∨
      (∃ began, r = Runner.inspect site ticket id handler began) ∨
      Keeps (Deployment.conduct (fun _ => True) (some id)) (fun _ => True) r false ∧
        ∃ c ∈ past, c.Inspects site ticket id ∧
          (s₀.deployment.cluster.bus.Prompt → c.Executes id))
  | _ => Keeps (Deployment.conduct (fun _ => True) none) (fun _ => True) r false

/-- A stretch that begins with a successful look-up is the moment to remember. -/
theorem inspects_play (hproper : s.deployment.Proper) {i site ticket : Nat} {id : String}
    {handler : Handler Script} {began due : Micros} (hservice : handler.IsService)
    (hthread : s.threads[i]? =
      some ⟨.worker site ticket, Runner.inspect site ticket id handler began, due⟩)
    (hfound : ∃ r, s.store.running? id = some r)
    (hattend : (Runner.inspect site ticket id handler began).resume.advance s.deployment =
      (Runner.attend site ticket ⟨id, handler.definition.jobType⟩ handler began).advance
        s.deployment) :
    Moment.Inspects ⟨s, .move (.resume i), s.play i (.worker site ticket)
      (Runner.inspect site ticket id handler began).resume⟩ site ticket id := by
  refine ⟨i, _, handler, began, rfl, hthread, rfl, rfl, hfound, ?_⟩
  show (s.play i _ _).deployment.cluster.store = s.store
  rw [cluster_play, hattend]
  exact Deployment.store_advance
    (Runner.keeps_attend _ hservice site ticket began) hproper

theorem executes_play (hrun : s₀.Run past s) (h₀ : s₀.Sound) {i site ticket : Nat} {id : String}
    {handler : Handler Script} {began : Micros} (hservice : handler.IsService)
    (hattend : (Runner.inspect site ticket id handler began).resume.advance s.deployment =
      (Runner.attend site ticket ⟨id, handler.definition.jobType⟩ handler began).advance
        s.deployment)
    {wake : Option Wake} {next abort : Deployment.Work Unit}
    (hwait : ((Runner.inspect site ticket id handler began).resume.advance s.deployment).1 =
      .wait wake next abort) (hprompt : s₀.deployment.cluster.bus.Prompt) :
    Moment.Executes ⟨s, .move (.resume i), s.play i (.worker site ticket)
      (Runner.inspect site ticket id handler began).resume⟩ id := by
  have hprompt : s.deployment.cluster.bus.Prompt := by
    unfold Bus.Prompt
    rw [hrun.known h₀]
    exact hprompt
  show s.deployment.executed id < (s.play i _ _).deployment.executed id
  rw [deployment_play hwait, hattend]
  rw [hattend] at hwait
  exact Runner.executed_attend hservice (hrun.sound h₀).proper hprompt hwait

theorem progress_rule (h₀ : s₀.Sound) : ThreadRule s₀ (Progress s₀) where
  mono {past m owner r} h := by
    cases owner with
    | worker site ticket =>
      obtain ⟨id, handler, hservice, hnew | hlook | ⟨hkeeps, c, hc, hinspects⟩⟩ := h
      · exact ⟨id, handler, hservice, .inl hnew⟩
      · exact ⟨id, handler, hservice, .inr (.inl hlook)⟩
      · exact ⟨id, handler, hservice, .inr (.inr ⟨hkeeps, c, List.mem_append_left _ hc, hinspects⟩)⟩
    | watch i => exact h
    | caller number => exact h
  grant {past s s' site p pool t} _ _ _ hwork := ⟨t.job, t.work, hwork, .inl rfl⟩
  begin {past s s' i w} _ _ := by
    show Keeps _ _ _ false
    exact .yielding (w.keeps_run none).fresh_of_not
  call {past s s' number site command} _ hservice := by
    have hperform := Command.keeps_perform none site ⟨"", ""⟩ hservice
    show Keeps _ _ _ false
    exact .yielding (hperform.fresh_of_not.map fun _ _ => trivial)
  resume {past s i t wake next abort} hrun hthread h hwait := by
    have hproper := (hrun.sound h₀).proper
    obtain ⟨owner, r, due⟩ := t
    have others : ∀ own, Keeps (Deployment.conduct (fun _ => True) own) (fun _ => True) r false →
        Keeps (Deployment.conduct (fun _ => True) own) (fun _ => True) (.wait wake next abort)
          false := by
      intro own h
      have := (h.resume.advance hproper).2
      rwa [hwait] at this
    cases owner with
    | worker site ticket =>
      obtain ⟨id, handler, hservice, rfl | ⟨began, rfl⟩ | ⟨hkeeps, c, hc, hinspects⟩⟩ := h
      · exact ⟨id, handler, hservice, .inr (.inl ⟨s.now, hwait.symm⟩)⟩
      · rcases Runner.inspect_cases id began with ⟨hfound, hattend⟩ | hdone
        · have hkeeps := Runner.keeps_attend ⟨id, handler.definition.jobType⟩ hservice site ticket
            began
          have hrest := (hkeeps.fresh_of_not.advance hproper).2
          rw [← hattend, hwait] at hrest
          exact ⟨id, handler, hservice, .inr (.inr ⟨hrest, _, List.mem_concat_self,
            inspects_play hproper hservice hthread hfound hattend,
            executes_play hrun h₀ hservice hattend hwait⟩)⟩
        · rw [hdone] at hwait
          contradiction
      · exact ⟨id, handler, hservice, .inr (.inr ⟨others _ hkeeps, c,
          List.mem_append_left _ hc, hinspects⟩)⟩
    | watch i => exact others none h
    | caller number => exact others none h
  cancel {past s s' i site ticket r due wake next abort} hrun hthread h hwait := by
    have hproper := (hrun.sound h₀).proper
    obtain ⟨id, handler, hservice, rfl | ⟨began, rfl⟩ | ⟨hkeeps, c, hc, hinspects⟩⟩ := h
    -- Cancelled before it has looked the job up, the thread is over.
    · contradiction
    · contradiction
    · have hspare : (s.deployment.spare site ticket).Proper := ⟨hproper.handlers, hproper.queued⟩
      have := (hkeeps.cancel.advance hspare).2
      rw [hwait] at this
      exact ⟨id, handler, hservice, .inr (.inr ⟨this, c, List.mem_append_left _ hc, hinspects⟩)⟩

theorem executed_play_of_done {i : Nat} {owner : Owner} {r : Deployment.Work Unit}
    {outcome : Except Failure Unit} {d : Deployment} (job : String)
    (h : r.advance s.deployment = (.done outcome, d)) :
    (s.play i owner r).deployment.executed job = d.executed job := by
  rw [play_of_done h]
  exact (@Owner.around_ended none owner d).executed job nofun

/-- Only the thread of the job's own work executes its handler. -/
theorem eq_of_executed_play {i : Nat} {owner : Owner} {r : Deployment.Work Unit}
    {own : Option String} {job : String} (hproper : s.deployment.Proper)
    (h : Keeps (Deployment.conduct (fun _ => True) own) (fun _ => True) r true)
    (hexec : s.deployment.executed job < (s.play i owner r).deployment.executed job) :
    some job = own := by
  refine Decidable.byContradiction fun hne => ?_
  rw [(moved_play i owner h hproper).2.executed job hne] at hexec
  exact Nat.lt_irrefl _ hexec

/-- What executes a handler is the thread of a worker that has looked its job up, now or before. -/
theorem executes_cases (h₀ : s₀.Initial) (hrun : s₀.Run past s) {turn : Turn}
    (hturn : s.turn? turn = some s') {job : String}
    (hexec : s.deployment.executed job < s'.deployment.executed job) :
    ∃ site ticket, Moment.OfWorker ⟨s, turn, s'⟩ site ticket ∧
      (Moment.Inspects ⟨s, turn, s'⟩ site ticket job ∨
        ∃ c ∈ past, c.Inspects site ticket job ∧
          (s₀.deployment.cluster.bus.Prompt → c.Executes job)) := by
  have hproper := (hrun.sound h₀.sound).proper
  have hprogress := hrun.threads (progress_rule h₀.sound) h₀.sound h₀.threads
  have still : ∀ {d : Deployment}, d.executed job = s.deployment.executed job →
      ¬s.deployment.executed job < d.executed job :=
    fun h h' => Nat.lt_irrefl _ (h ▸ h')
  cases took_of_turn? hturn with
  | @resume i t hthread =>
    obtain ⟨owner, r, due⟩ := t
    have hpast := hprogress _ (List.mem_of_getElem? hthread)
    cases owner with
    | worker site ticket =>
      have howner : Moment.OfWorker ⟨s, .move (.resume i), s.play i (.worker site ticket)
          r.resume⟩ site ticket := ⟨i, _, .inl rfl, hthread, rfl⟩
      obtain ⟨id, handler, hservice, rfl | ⟨began, rfl⟩ | ⟨hkeeps, hc⟩⟩ := hpast
      · exact absurd hexec (still (congrArg (·.executed job) (deployment_play rfl)))
      · have hkeeps : Keeps (Deployment.conduct (fun _ => True) (some id)) (fun _ => True)
            (Runner.inspect site ticket id handler began) false :=
          (Deployment.keeping (some id)).inspect site ticket handler id began (fun _ => trivial)
            hservice rfl trivial
        obtain rfl := Option.some.inj (eq_of_executed_play hproper hkeeps.resume hexec)
        rcases Runner.inspect_cases job began with ⟨hfound, hattend⟩ | hdone
        · exact ⟨site, ticket, howner,
            .inl (inspects_play hproper hservice hthread hfound hattend)⟩
        · exact absurd hexec (still (executed_play_of_done job hdone))
      · obtain rfl := Option.some.inj (eq_of_executed_play hproper hkeeps.resume hexec)
        exact ⟨site, ticket, howner, .inr hc⟩
    | watch k => exact nomatch eq_of_executed_play hproper hpast.resume hexec
    | caller k => exact nomatch eq_of_executed_play hproper hpast.resume hexec
  | @cancel i site ticket r due hthread =>
    obtain ⟨id, handler, hservice, rfl | ⟨began, rfl⟩ | ⟨hkeeps, hc⟩⟩ :=
      hprogress _ (List.mem_of_getElem? hthread)
    · exact absurd hexec (still
        (executed_play_of_done (d := s.deployment.spare site ticket) job rfl))
    · exact absurd hexec (still
        (executed_play_of_done (d := s.deployment.spare site ticket) job rfl))
    · have hspare : (s.deployment.spare site ticket).Proper := ⟨hproper.handlers, hproper.queued⟩
      obtain rfl := Option.some.inj (eq_of_executed_play
        (s := { s with deployment := s.deployment.spare site ticket }) hspare hkeeps.cancel hexec)
      exact ⟨site, ticket, ⟨i, _, .inr rfl, hthread, rfl⟩, .inr hc⟩
  | grant hpool hgrant =>
    exact absurd hexec (still ((hproper.grant hpool hgrant).2.executed job nofun))
  | beat | wake | begin | call | elapse | shift => exact absurd hexec (Nat.lt_irrefl _)

/-- A running job goes on running exactly as long as no turn ends it. -/
theorem running_iff_of_run {job : String} (hrun : s₀.Run past s)
    (h₀ : s₀.store.running? job ≠ none) (hstarts : ∀ m ∈ past, ¬m.Starts job) :
    s.store.running? job ≠ none ↔ ∀ m ∈ past, ¬m.Ends job := by
  refine ⟨?_, fun hends hs => ?_⟩
  · induction hrun with
    | start => exact fun _ m hm => absurd hm List.not_mem_nil
    | @turn past s s' turn hrun hservice hturn ih =>
      intro hs' m hm
      have hlast := hstarts ⟨s, turn, s'⟩ List.mem_concat_self
      have hs : s.store.running? job ≠ none := fun hs => hlast ⟨hs, hs'⟩
      rcases List.mem_append.mp hm with hm | hm
      · exact ih (fun m hm => hstarts m (List.mem_append_left _ hm)) hs m hm
      · obtain rfl := List.mem_singleton.mp hm
        exact fun hends => hs' hends.2
  · obtain ⟨m, hm, hend⟩ := hrun.ends_of_running h₀ hs
    exact hends m hm hend

/-- An execution of a handler belongs to a worker that looked the job up, in the same turn or in an
earlier one, and found it running. The job is running at the execution, holds the run lock of its
type and is the only running one of the type, if and only if no turn since the look-up has ended it;
here no later job has been given the same id. Where no listener takes its time, the first execution
comes in the turn of the look-up itself, so that only restarts can come too late. -/
theorem running_of_executes (h₀ : s₀.Initial) (hrun : s₀.Run past s) {turn : Turn}
    (hservice : turn.isService) (hturn : s.turn? turn = some s') {job : String}
    (hexec : s.deployment.executed job < s'.deployment.executed job) :
    ∃ site ticket earlier c later, past ++ [⟨s, turn, s'⟩] = earlier ++ c :: later ∧
      Moment.OfWorker ⟨s, turn, s'⟩ site ticket ∧ c.Inspects site ticket job ∧
      ((∀ m ∈ later, ¬m.Starts job) →
        ((∃ r, s'.store.running? job = some r) ↔ ∀ m ∈ later, ¬m.Ends job)) ∧
      (∀ r, s'.store.running? job = some r → s'.store.holder r.jobType = some job ∧
        ∀ other r', s'.store.running? other = some r' → r'.jobType = r.jobType → other = job) ∧
      (s₀.deployment.cluster.bus.Prompt → later = [] ∨ c.Executes job) := by
  have hrun' := hrun.turn hservice hturn
  have hconsistent := hrun'.consistent h₀
  have hlock : ∀ r, s'.store.running? job = some r → s'.store.holder r.jobType = some job ∧
      ∀ other r', s'.store.running? other = some r' → r'.jobType = r.jobType → other = job :=
    fun r hr => ⟨(hconsistent _ _).mpr ⟨r, hr, rfl⟩,
      fun other r' hr' ht => hconsistent.unique hr' hr ht⟩
  have hwindow : ∀ {site ticket c earlier later},
      past ++ [⟨s, turn, s'⟩] = earlier ++ c :: later → Moment.Inspects c site ticket job →
      (∀ m ∈ later, ¬m.Starts job) →
      ((∃ r, s'.store.running? job = some r) ↔ ∀ m ∈ later, ¬m.Ends job) := by
    intro site ticket c earlier later hpast hinspects hstarts
    rw [hpast] at hrun'
    have hlater := hrun'.cut.2
    obtain ⟨_, _, _, _, _, _, _, _, hfound, hsame⟩ := hinspects
    have hfound : c.after.store.running? job ≠ none := by
      rw [hsame]
      exact Option.ne_none_iff_exists'.mpr hfound
    rw [← running_iff_of_run hlater hfound hstarts, Option.ne_none_iff_exists']
  obtain ⟨site, ticket, howner, hnow | ⟨c, hc, hinspects, hprompt⟩⟩ :=
    executes_cases h₀ hrun hturn hexec
  · exact ⟨site, ticket, past, _, [], rfl, howner, hnow, hwindow rfl hnow, hlock,
      fun _ => .inl rfl⟩
  · obtain ⟨earlier, later, rfl⟩ := List.append_of_mem hc
    have hpast : earlier ++ c :: later ++ [⟨s, turn, s'⟩] =
        earlier ++ c :: (later ++ [⟨s, turn, s'⟩]) := by simp
    exact ⟨site, ticket, earlier, c, _, hpast, howner, hinspects, hwindow hpast hinspects, hlock,
      fun h => .inr (hprompt h)⟩

/-- The first execution of a job that was started by a call. -/
theorem running_of_executes_nightly :
    ∃ past s s', nightly.Initial ∧
      nightly.Run past s ∧
      s.turn? (.move (.resume 0)) = some s' ∧
      s.deployment.executed "job-1" < s'.deployment.executed "job-1" ∧
      ∃ site ticket, Moment.OfWorker ⟨s, .move (.resume 0), s'⟩ site ticket := by
  obtain ⟨past, s, hrun, hp⟩ := exists_run nightly
    [.call 0 0 (.start (.named "nightly")), .move (.resume 0), .move (.resume 0),
      .move (.grant 0), .move (.resume 0)]
    (fun _ s => (s.turn? (.move (.resume 0))).any fun s' =>
      s.deployment.executed "job-1" < s'.deployment.executed "job-1")
    (by decide +kernel) (by decide +kernel)
  obtain ⟨s', hturn, hexec⟩ := (Option.any_eq_true _ _).mp hp
  have hexec := of_decide_eq_true hexec
  obtain ⟨site, ticket, _, _, _, -, howner, -⟩ :=
    running_of_executes initial_nightly hrun rfl hturn hexec
  exact ⟨past, s, s', initial_nightly, hrun, hturn, hexec, site, ticket, howner⟩

/-- The handler of a job whose execution fails and is repeated once, after ten seconds. -/
def failingHandler : Handler Script :=
  ⟨.build "nightly" "" "" [] 1 (.ofRatio false 10 1), [[.raise "ValueError" "boom"]]⟩

theorem isService_failingHandler : failingHandler.IsService := by
  intro actions hactions a ha
  simp only [failingHandler, List.mem_singleton] at hactions
  subst hactions
  obtain rfl := List.mem_singleton.mp ha
  rfl

/-- A job that is killed between two attempts is executed once more, beside the job that has its run
lock by then. -/
theorem executed_beside_successor :
    ∃ past s s', (single 1 Micros.perMinute failingHandler).Initial ∧
      (single 1 Micros.perMinute failingHandler).Run past s ∧
      s.turn? (.move (.resume 0)) = some s' ∧
      s.deployment.executed "job-1" < s'.deployment.executed "job-1" ∧
      s'.store.running? "job-1" = none ∧ s'.store.holder "nightly" = some "job-2" := by
  obtain ⟨past, s, hrun, hp⟩ := exists_run (single 1 Micros.perMinute failingHandler)
    [.call 0 0 (.start (.named "nightly")), .move (.resume 0), .move (.resume 0),
      .move (.grant 0), .move (.resume 0), .move (.resume 0), .move (.resume 0), .move (.resume 0),
      .call 1 0 (.kill (.named "job-1")), .move (.resume 1), .move (.resume 1), .move (.resume 1),
      .call 2 0 (.start (.named "nightly")), .move (.resume 1), .move (.resume 1),
      .elapse (10 * Micros.perSecond)]
    (fun _ s => (s.turn? (.move (.resume 0))).any fun s' =>
      s.deployment.executed "job-1" < s'.deployment.executed "job-1" ∧
        s'.store.running? "job-1" = none ∧ s'.store.holder "nightly" = some "job-2")
    (by decide +kernel) (by decide +kernel)
  obtain ⟨s', hturn, hexec⟩ := (Option.any_eq_true _ _).mp hp
  exact ⟨past, s, s', initial_single isService_failingHandler, hrun, hturn,
    of_decide_eq_true hexec⟩

end Schedule
end JobControl
