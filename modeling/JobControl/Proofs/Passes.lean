import JobControl.Proofs.Endings
import JobControl.Proofs.Heartbeats
import JobControl.Proofs.Queries

/-! # Passes for silent jobs

A pass reads the clock, asks once which running jobs were not updated for too long, and then kills
those and no others, whatever has become of them meanwhile. So in a timely run a job whose heartbeat
goes on is killed if and only if it was silent when the pass asked: the heartbeat had begun too late
and had not beaten yet. -/

namespace JobControl
open Routine (Keeps)

/-! ## What a pass asks for -/

/-- The time before which the last update of a job is too long ago, if the clock is read now. -/
def Clock.cutoff (c : Clock) (seconds : Seconds) : Except Failure Timestamp := do
  let now ← c.read.1
  let span ← seconds.toSpan
  match now.add? (-span) with
  | some since => return since
  | none => throw (.outOfRange .time)

/-- The cutoff lies the given span before what the clock shows. -/
theorem Clock.utcMicros_of_cutoff {c : Clock} {seconds : Seconds} {since : Timestamp}
    (h : c.cutoff seconds = .ok since) :
    ∃ span, seconds.toSpan = .ok span ∧ since.utcMicros + span = c.reading c.elapsed := by
  unfold cutoff read at h
  cases hnow : c.now? with
  | none =>
    rw [hnow] at h
    contradiction
  | some now =>
    cases hspan : seconds.toSpan with
    | error e =>
      rw [hnow, hspan] at h
      contradiction
    | ok span =>
      simp only [hnow, hspan, bind, Except.bind, Timestamp.add?] at h
      split at h
      · rename_i hadd
        split at hadd
        · obtain rfl := Except.ok.inj h
          obtain rfl := Option.some.inj hadd
          refine ⟨span, rfl, ?_⟩
          rw [← Clock.utcMicros_of_now? hnow]
          simp only [Timestamp.utcMicros]
          show (_ : Int) = _
          omega
        · contradiction
      · contradiction

namespace Lifecycle
variable (engine : Engine) (seconds : Seconds)

theorem killSilentSince_eq :
    killSilentSince engine seconds =
      .step (fun c => { c with clock := c.clock.read.2 }) fun c =>
        match c.clock.cutoff seconds with
        | .ok since => killSilentBefore engine since
        | .error e => .done (.error e) := by
  refine congrArg (Routine.step _) (funext fun c => ?_)
  show (Routine.done c.clock.read.1 >>= fun now => Routine.ofExcept seconds.toSpan >>= fun span =>
    match now.add? (-span) with
    | some since => pure since
    | none => Routine.fail (.outOfRange .time)) >>= killSilentBefore engine = _
  unfold Clock.cutoff
  rcases c.clock.read.1 with e | now
  · rfl
  · rcases seconds.toSpan with e | span
    · rfl
    · show (match now.add? (-span) with
        | some since => pure since
        | none => Routine.fail (.outOfRange .time)) >>= killSilentBefore engine =
          match (match now.add? (-span) with
            | some since => .ok since
            | none => .error (.outOfRange .time) : Except Failure Timestamp) with
          | .ok since => killSilentBefore engine since
          | .error e => .done (.error e)
      cases now.add? (-span) <;> rfl

theorem killSilentBefore_eq (since : Timestamp) :
    killSilentBefore engine since =
      .yielding (.step id fun c => match since.toInstant? with
        | some cut => killAll engine (c.store.findStale cut)
        | none => .done (.error .store)) := by
  refine congrArg Routine.yielding
    (congrArg₂ Routine.step (funext fun c => ?_) (funext fun c => ?_))
  · show ({ c with toWorkspace := ((Jobs.findStale since).commit c.toWorkspace).2 } : Cluster) = c
    rw [Jobs.commit_findStale]
    cases since.toInstant? <;> rfl
  · show (Routine.done ((Jobs.findStale since).commit c.toWorkspace).1).bind (killAll engine) = _
    rw [Jobs.commit_findStale]
    cases since.toInstant? <;> rfl

end Lifecycle

theorem Store.mem_map_id_findStale {s : Store} {cut : Instant} {id : String} :
    id ∈ (s.findStale cut).map (·.id) ↔
      ∃ r, s.running? id = some r ∧ r.lastUpdated < cut := by
  simp only [List.mem_map, mem_findStale, running?_eq_some]
  constructor
  · rintro ⟨j, ⟨hj, hstopped, hlt⟩, rfl⟩
    obtain ⟨r, hr, hassemble⟩ := Option.map_eq_some_iff.mp hj
    rw [← hassemble] at hstopped hlt
    exact ⟨r, ⟨hr, hstopped⟩, hlt⟩
  · rintro ⟨r, ⟨hr, hstopped⟩, hlt⟩
    exact ⟨assemble id r (s.messagesOf id), ⟨by simp [find?, hr, assemble], hstopped, hlt⟩, rfl⟩

namespace Deployment
variable {α β : Type} {K : String → Prop} {who : Option String} {Q : α → Prop} {d : Deployment}

/-- A routine of the cluster, with an event bus of its own or not. -/
def carry (own : Bool) (r : Cluster.Work α) : Work α := if own then onOwnBus r else onCluster r

theorem keeps_carry (own : Bool) {r : Cluster.Work α}
    (h : Keeps (Cluster.conduct K) Q r false) : Keeps (conduct K who) Q (carry own r) false := by
  cases own
  · exact keeps_onCluster h
  · exact keeps_onOwnBus h

theorem stalls_carry (own : Bool) {r : Cluster.Work α} {job : String}
    (h : r.Stalls (Cluster.Runs job)) : (carry own r).Stalls (·.cluster.Runs job) := by
  cases own <;> exact .zoom (fun _ => id) (fun _ _ => id) h

theorem carry_bind (own : Bool) (r : Cluster.Work α) (k : α → Cluster.Work β) :
    carry own (r >>= k) = carry own r >>= fun a => carry own (k a) := by
  cases own <;> exact Routine.zoom_bind ..

variable {own : Bool} {engine : Engine} {seconds : Seconds} {k : List String → Work Unit}

/-- In its first stretch a pass reads the clock. -/
theorem advance_killSilentSince :
    ((carry own (Lifecycle.killSilentSince engine seconds) >>= k).advance d).1 =
      match d.cluster.clock.cutoff seconds with
      | .ok since => carry own (Lifecycle.killSilentBefore engine since) >>= k
      | .error e => .done (.error e) := by
  rw [Lifecycle.killSilentSince_eq]
  have hstep : ∃ d', ((carry own (.step (fun c => { c with clock := c.clock.read.2 }) fun c =>
        match c.clock.cutoff seconds with
        | .ok since => Lifecycle.killSilentBefore engine since
        | .error e => .done (.error e)) >>= k).advance d).1 =
      ((carry own (match d.cluster.clock.cutoff seconds with
        | .ok since => Lifecycle.killSilentBefore engine since
        | .error e => .done (.error e)) >>= k).advance d').1 := by
    cases own <;> exact ⟨_, rfl⟩
  obtain ⟨d', hstep⟩ := hstep
  rw [hstep]
  cases d.cluster.clock.cutoff seconds <;> cases own <;> rfl

/-- In its second stretch a pass asks, and goes on to kill what it has found. -/
theorem advance_killSilentBefore (since : Timestamp) :
    (carry own (Lifecycle.killSilentBefore engine since) >>= k).resume.advance d =
      match since.toInstant? with
      | some cut =>
        (carry own (Lifecycle.killAll engine (d.cluster.store.findStale cut)) >>= k).advance d
      | none => (.done (.error .store), d) := by
  rw [Lifecycle.killSilentBefore_eq]
  have hstep : (carry own (.yielding (.step id fun c => match since.toInstant? with
        | some cut => Lifecycle.killAll engine (c.store.findStale cut)
        | none => .done (.error .store))) >>= k).resume.advance d =
      (carry own (match since.toInstant? with
        | some cut => Lifecycle.killAll engine (d.cluster.store.findStale cut)
        | none => .done (.error .store)) >>= k).advance d := by
    cases own <;> rfl
  rw [hstep]
  cases since.toInstant? <;> cases own <;> rfl

end Deployment

/-! ## The stages of a pass -/

/-- For how long a job must have been silent, if the command is a pass for silent jobs. -/
def Command.deadAfter? : Command → Option Seconds
  | killSilent seconds => some seconds
  | reap deadAfter _ => some (.whole (deadAfter.getD 180))
  | _ => none

namespace Moment

/-- The work that begins with a turn: whose it is, and for how long a job must have been silent if
the work is a pass for silent jobs. -/
def begun? (m : Moment) : Option (Owner × Option Seconds) :=
  match m.turn with
  | .call number _ command => some (.caller number, command.deadAfter?)
  | .move (.begin i) => m.before.deployment.watches[i]?.map fun w =>
    (.watch i, some (.whole w.reaper.deadAfter))
  | .move (.grant site) => ((m.before.deployment.pool? site).bind (·.grant?)).map fun g =>
    (.worker site g.1.number, none)
  | _ => none

def Resumes (m : Moment) (owner : Owner) : Prop :=
  ∃ i t, m.turn = .move (.resume i) ∧ m.before.threads[i]? = some t ∧ t.owner = owner

/-- A thread of the owner went on, and returned. -/
def Returns (m : Moment) (owner : Owner) : Prop :=
  ∃ i t, m.turn = .move (.resume i) ∧ m.before.threads[i]? = some t ∧ t.owner = owner ∧
    (t.routine.resume.advance m.before.deployment).1 = .done (.ok ())

/-- A thread of the owner asked for the running jobs whose last update lay more than `span` before
the `time` that the clock had shown to it, and found those of the given ids. -/
structure Asks (q : Moment) (owner : Owner) (span : Micros) (earlier : List Moment) (time : Micros)
    (ids : List String) : Prop where
  resumes : q.Resumes owner
  read : ∃ c ∈ earlier, c.Resumes owner ∧ c.before.shown = time
  store : q.after.store = q.before.store
  found : ∀ job, job ∈ ids ↔ ∃ r, q.before.store.running? job = some r ∧
    r.lastUpdated.micros + span < time

end Moment

/-- All work of the owner is passes for jobs that are silent for so long. -/
def Owner.Passes (owner : Owner) (seconds : Seconds) (past : List Moment) : Prop :=
  ∀ m ∈ past, ∀ work, m.begun? = some (owner, work) → work = some seconds

/-- What is left to do concerns no particular jobs. -/
def Deployment.Idle {α β : Type} (k : α → Work β) : Prop :=
  ∀ K a, Keeps (conduct K none) (fun _ => True) (k a) false

open Deployment (carry Idle)

/-- A pass has asked at `q`, and found the jobs `ids`. What is left of it concerns these only, and
is to end those that have not ended since. -/
structure Kills (owner : Owner) (span time : Micros) (ids : List String) (earlier : List Moment)
    (q : Moment) (later : List Moment) (r : Deployment.Work Unit) : Prop where
  keeps : Keeps (Deployment.conduct (· ∈ ids) none) (fun _ => True) r false
  asks : q.Asks owner span earlier time ids
  ends : ∀ job ∈ ids, (∃ m ∈ later, m.Ends job) ∨ r.Stalls (·.cluster.Runs job)

inductive Stage (owner : Owner) (seconds : Seconds) (past : List Moment) :
    Deployment.Work Unit → Prop
  /-- It has not begun. -/
  | fresh {work : Deployment.Work Unit}
    (hwork : ∀ d, ∃ own engine k, Idle k ∧ work.advance d =
      (carry own (Lifecycle.killSilentSince engine seconds) >>= k).advance d) :
    Stage owner seconds past (.yielding work)
  /-- It has read the clock and is about to ask. -/
  | asking {own : Bool} {engine : Engine} {since : Timestamp}
    {k : List String → Deployment.Work Unit} {c : Moment} {span : Micros} (hk : Idle k)
    (hspan : seconds.toSpan = .ok span) (hc : c ∈ past) (hresumes : c.Resumes owner)
    (hsince : since.utcMicros + span = c.before.shown) :
    Stage owner seconds past (carry own (Lifecycle.killSilentBefore engine since) >>= k)
  /-- It has asked. -/
  | killing {r : Deployment.Work Unit} {ids : List String} {earlier later : List Moment}
    {q : Moment} {span time : Micros} (hspan : seconds.toSpan = .ok span)
    (hpast : past = earlier ++ q :: later) (hkills : Kills owner span time ids earlier q later r) :
    Stage owner seconds past r

namespace Stage
variable {owner : Owner} {seconds : Seconds} {past : List Moment} {r : Deployment.Work Unit}

theorem mono {m : Moment} (h : Stage owner seconds past r) :
    Stage owner seconds (past ++ [m]) r := by
  cases h with
  | fresh hwork => exact .fresh hwork
  | asking hk hspan hc hresumes hsince =>
    exact .asking hk hspan (List.mem_append_left _ hc) hresumes hsince
  | @killing _ ids earlier later q _ _ hspan hpast hkills =>
    have hends : ∀ job ∈ ids, (∃ e ∈ later ++ [m], e.Ends job) ∨ r.Stalls (·.cluster.Runs job) :=
      fun job hjob => (hkills.ends job hjob).imp_left
        fun ⟨e, he, hends⟩ => ⟨e, List.mem_append_left _ he, hends⟩
    exact .killing hspan (by rw [hpast, List.append_assoc, List.cons_append])
      ⟨hkills.keeps, hkills.asks, hends⟩

/-- A run of a reaper is a pass with a removal of old jobs after it. -/
theorem carry_runOnce (own : Bool) (reaper : Reaper) (engine : Engine) {β : Type}
    (f : List String → β) : ∃ k : List String → Deployment.Work β, Idle k ∧
      f <$> carry own (reaper.runOnce engine) =
        carry own (Lifecycle.killSilentSince engine (.whole reaper.deadAfter)) >>= k := by
  refine ⟨_, fun K killed => ?_,
    (congrArg (f <$> ·) (Deployment.carry_bind own _ _)).trans (Routine.bind_assoc _ _ _)⟩
  refine Keeps.map (@Deployment.keeps_carry _ K none (fun _ => True) own _ ?_) fun _ _ => trivial
  dsimp only
  split
  · exact .seq ((Cluster.keeping K).keepLast _) fun _ => .pure trivial
  · exact .pure trivial

theorem fresh_run (w : Watch) :
    Stage owner (.whole w.reaper.deadAfter) past (.yielding w.run) := by
  obtain ⟨k, hk, hrun⟩ := carry_runOnce (!w.name.isSome) w.reaper w.engine fun _ => ()
  have hw : w.run = (fun _ => ()) <$> carry (!w.name.isSome) (w.reaper.runOnce w.engine) := by
    unfold Watch.run carry
    cases w.name.isSome <;> rfl
  exact .fresh fun d => ⟨_, _, k, hk, by rw [hw, hrun]⟩

/-- A command that asks the cluster for names does so at once. -/
theorem advance_names {site : Nat} {command : Command} {work : Engine → Cluster.Work (List String)}
    (h : command.perform site ⟨"", ""⟩ =
      Routine.read (·.engine site) >>= fun engine => Reply.names <$> carry false (work engine))
    (d : Deployment) :
    ((fun _ => ()) <$> command.perform site ⟨"", ""⟩).advance d =
      ((fun _ => ()) <$> carry false (work (d.engine site))).advance d := by
  have hnames := congrArg (Routine.advance · d)
    (Routine.map_map (carry false (work (d.engine site))) Reply.names fun _ => ())
  rw [h]
  exact hnames

theorem fresh_perform {site : Nat} {command : Command} (h : command.deadAfter? = some seconds) :
    Stage owner seconds past (.yielding ((fun _ => ()) <$> command.perform site ⟨"", ""⟩)) := by
  refine .fresh fun d => ?_
  cases command
  case killSilent =>
    obtain rfl := Option.some.inj h
    exact ⟨false, d.engine site, fun _ => pure (), fun K _ => .pure trivial,
      @advance_names site _ (Lifecycle.killSilentSince · _) rfl d⟩
  case reap deadAfter keep =>
    obtain rfl := Option.some.inj h
    let reaper := Command.plan none deadAfter keep
    obtain ⟨k, hk, hrun⟩ := carry_runOnce false reaper (d.engine site) fun _ => ()
    exact ⟨false, d.engine site, k, hk,
      (@advance_names site _ reaper.runOnce rfl d).trans (congrArg (Routine.advance · d) hrun)⟩
  all_goals contradiction

/-- A pass that has not asked yet leaves the store as it is. -/
theorem store_or_kills {d : Deployment} (h : Stage owner seconds past r) (hd : d.Proper) :
    (r.resume.advance d).2.cluster.store = d.cluster.store ∨
      ∃ span time ids earlier q later, seconds.toSpan = .ok span ∧ past = earlier ++ q :: later ∧
        Kills owner span time ids earlier q later r := by
  cases h with
  | @fresh work hwork =>
    obtain ⟨own, engine, k, hk, hadvance⟩ := hwork d
    have hkeeps : Keeps (Deployment.conduct (fun _ => True) none) (fun _ => True)
        (carry own (Lifecycle.killSilentSince engine seconds) >>= k) false :=
      .seq (Deployment.keeps_carry own
        ((Cluster.keeping fun _ => True).killSilentSince (fun _ => trivial) engine seconds))
        fun a => hk _ a
    refine .inl ?_
    show (work.advance d).2.cluster.store = _
    rw [hadvance]
    exact Deployment.store_advance hkeeps hd
  | @asking own engine since k _ _ hk =>
    refine .inl ?_
    show ((carry own (Lifecycle.killSilentBefore engine since) >>= k).resume.advance
      d).2.cluster.store = _
    rw [Deployment.advance_killSilentBefore]
    cases since.toInstant? with
    | none => rfl
    | some cut =>
      -- What it goes on to kill waits for the next turn.
      have hkeeps : Keeps (Deployment.conduct (fun _ => True) none) (fun _ => True)
          (carry own (Lifecycle.killAll engine (d.cluster.store.findStale cut)) >>= k) false :=
        .seq (Deployment.keeps_carry own
          ((Cluster.keeping fun _ => True).killAll engine fun _ _ => trivial)) fun a => hk _ a
      exact Deployment.store_advance hkeeps hd
  | killing hspan hpast hkills => exact .inr ⟨_, _, _, _, _, _, hspan, hpast, hkills⟩

end Stage

namespace Schedule
variable {s s' s₀ : Schedule} {past : List Moment} {owner : Owner} {seconds : Seconds}
  {span : Micros}

/-- The threads of an owner whose work is passes are at some stage; they are not of a worker. -/
def Passing (owner : Owner) (seconds : Seconds) (past : List Moment) (o : Owner)
    (r : Deployment.Work Unit) : Prop :=
  o = owner → owner.Passes seconds past →
    (∀ site ticket, owner ≠ .worker site ticket) ∧ Stage owner seconds past r

/-- What a thread is to end has ended with its turn, or the rest of it is still to end it. -/
theorem ended_or_stalls {turn : Turn} {i : Nat} {r : Deployment.Work Unit} {K : String → Prop}
    {job : String} (hproper : s.deployment.Proper)
    (hkeeps : Keeps (Deployment.conduct K none) (fun _ => True) r true)
    (h : r.Stalls (·.cluster.Runs job)) (hruns : s.store.running? job ≠ none) :
    Moment.Ends ⟨s, turn, s.play i owner r⟩ job ∨
      (r.advance s.deployment).1.Stalls (·.cluster.Runs job) := by
  by_cases hafter : (s.play i owner r).store.running? job = none
  · exact .inl ⟨hruns, hafter⟩
  · have hquiet : ∀ {d d' : Deployment}, (Deployment.conduct K none).quiet d d' →
        (d.cluster.Runs job ↔ d'.cluster.Runs job) := by
      intro d d' hquiet
      unfold Cluster.Runs
      rw [hquiet.1.store]
    unfold store at hafter
    rw [cluster_play] at hafter
    exact .inr (h.advance hquiet hkeeps hproper hruns hafter)

/-- The turn in which a pass asks. -/
theorem kills_of_asking (hrun : s₀.Run past s) (h₀ : s₀.Sound) {i : Nat} {due : Micros} {own : Bool}
    {engine : Engine} {since : Timestamp} {k : List String → Deployment.Work Unit} {c : Moment}
    {cut : Instant} {r : Deployment.Work Unit}
    (hr : r = carry own (Lifecycle.killSilentBefore engine since) >>= k)
    (hthread : s.threads[i]? = some ⟨owner, r, due⟩) (hk : Idle k) (hc : c ∈ past)
    (hresumes : c.Resumes owner) (hsince : since.utcMicros + span = c.before.shown)
    (hcut : since.toInstant? = some cut) :
    Kills owner span c.before.shown ((s.store.findStale cut).map (·.id)) past
      ⟨s, .move (.resume i), s.play i owner r.resume⟩ [] (r.resume.advance s.deployment).1 := by
  have hproper := (hrun.sound h₀).proper
  let ids := (s.store.findStale cut).map (·.id)
  let rest := carry own (Lifecycle.killAll engine (s.store.findStale cut)) >>= k
  have hadvance : r.resume.advance s.deployment = rest.advance s.deployment := by
    rw [hr, Deployment.advance_killSilentBefore, hcut]
    rfl
  have hkeeps : Keeps (Deployment.conduct (· ∈ ids) none) (fun _ => True) rest false :=
    .seq (Deployment.keeps_carry own
      ((Cluster.keeping (· ∈ ids)).killAll engine fun j hj => List.mem_map_of_mem hj))
      fun a => hk _ a
  have hplay : s.play i owner r.resume = s.play i owner rest := by
    unfold play
    rw [hadvance]
  have hstore : (s.play i owner rest).store = s.store := by
    unfold store
    rw [cluster_play]
    exact Deployment.store_advance hkeeps hproper
  have hfound : ∀ job, job ∈ ids ↔ ∃ r, s.store.running? job = some r ∧
      r.lastUpdated.micros + span < c.before.shown := by
    have hmicros := (Timestamp.toInstant?_eq_some.mp hcut).1
    refine fun job => Store.mem_map_id_findStale.trans
      (exists_congr fun r => and_congr_right fun _ => ?_)
    rw [Instant.lt_def, ← hsince, hmicros]
    exact (Int.add_lt_add_iff_right span).symm
  rw [hplay, hadvance]
  refine ⟨(hkeeps.fresh_of_not.advance hproper).2,
    ⟨⟨i, _, rfl, hthread, rfl⟩, ⟨c, hc, hresumes, rfl⟩, hstore, hfound⟩, fun job hjob => .inr ?_⟩
  obtain ⟨j, hj, rfl⟩ := List.mem_map.mp hjob
  obtain ⟨r', hr', -⟩ := (hfound j.id).mp hjob
  have hruns : s.store.running? j.id ≠ none := by simp [hr']
  have hstalls : rest.Stalls (·.cluster.Runs j.id) :=
    .first (Deployment.stalls_carry own (Lifecycle.stalls_killAll hj))
  refine (@ended_or_stalls s owner (.move (.resume i)) i rest _ _ hproper hkeeps.fresh_of_not
    hstalls hruns).resolve_left fun hends => hruns ?_
  rw [← hends.2, hstore]

/-- A turn of a pass that has asked before. -/
theorem kills_play {ids : List String} {time : Micros} {earlier later : List Moment} {q : Moment}
    {r : Deployment.Work Unit} (hrun : s₀.Run (earlier ++ q :: later) s) (h₀ : s₀.Sound) (i : Nat)
    (h : Kills owner span time ids earlier q later r) :
    Kills owner span time ids earlier q
      (later ++ [⟨s, .move (.resume i), s.play i owner r.resume⟩])
      (r.resume.advance s.deployment).1 := by
  have hproper := (hrun.sound h₀).proper
  refine ⟨(h.keeps.resume.advance hproper).2, h.asks, fun job hjob => ?_⟩
  rcases h.ends job hjob with ⟨m, hm, hends⟩ | hstalls
  · exact .inl ⟨m, List.mem_append_left _ hm, hends⟩
  · by_cases hruns : s.store.running? job = none
    · -- Somebody else has ended it since the pass asked.
      obtain ⟨r', hr', -⟩ := (h.asks.found job).mp hjob
      have hrunning : q.after.store.running? job ≠ none := by simp [h.asks.store, hr']
      obtain ⟨m, hm, hends⟩ := hrun.cut.2.ends_of_running hrunning hruns
      exact .inl ⟨m, List.mem_append_left _ hm, hends⟩
    · exact (ended_or_stalls hproper h.keeps.resume hstalls.resume hruns).imp_left
        fun hends => ⟨_, List.mem_concat_self, hends⟩

/-- A turn of a pass fails, or leads to a stage. -/
theorem stage_play (hrun : s₀.Run past s) (h₀ : s₀.Sound) {i : Nat} {due : Micros}
    {r : Deployment.Work Unit} (hthread : s.threads[i]? = some ⟨owner, r, due⟩)
    (h : Stage owner seconds past r) :
    (∃ e, (r.resume.advance s.deployment).1 = .done (.error e)) ∨
      Stage owner seconds (past ++ [⟨s, .move (.resume i), s.play i owner r.resume⟩])
        (r.resume.advance s.deployment).1 := by
  cases h with
  | @fresh work hwork =>
    obtain ⟨own, engine, k, hk, hadvance⟩ := hwork s.deployment
    show (∃ e, (work.advance s.deployment).1 = _) ∨ Stage _ _ _ (work.advance s.deployment).1
    rw [hadvance, Deployment.advance_killSilentSince]
    split
    · rename_i since hcutoff
      obtain ⟨span, hspan, hsince⟩ := Clock.utcMicros_of_cutoff hcutoff
      exact .inr (.asking hk hspan List.mem_concat_self ⟨i, _, rfl, hthread, rfl⟩ hsince)
    · exact .inl ⟨_, rfl⟩
  | @asking own engine since k c span hk hspan hc hresumes hsince =>
    cases hcut : since.toInstant? with
    | none =>
      rw [Deployment.advance_killSilentBefore, hcut]
      exact .inl ⟨_, rfl⟩
    | some cut =>
      exact .inr (.killing hspan rfl
        (kills_of_asking hrun h₀ rfl hthread hk hc hresumes hsince hcut))
  | killing hspan hpast hkills =>
    refine .inr (.killing hspan ?_ (kills_play (hpast ▸ hrun) h₀ i hkills))
    rw [hpast, List.append_assoc, List.cons_append]

theorem passing_rule (h₀ : s₀.Sound) (owner : Owner) (seconds : Seconds) :
    ThreadRule s₀ (Passing owner seconds) where
  mono h ho hpasses := by
    obtain ⟨hworker, hstage⟩ := h ho fun m hm => hpasses m (List.mem_append_left _ hm)
    exact ⟨hworker, hstage.mono⟩
  grant {past s s' site p pool t} _ hpool hgrant _ ho hpasses := by
    -- The work of a slot is no pass.
    have hbegun : Moment.begun? ⟨s, .move (.grant site), s'⟩ = some (owner, none) := by
      show ((s.deployment.pool? site).bind (·.grant?)).map _ = _
      rw [hpool, Option.bind_some, hgrant, ← ho]
      rfl
    exact absurd (hpasses _ List.mem_concat_self _ hbegun) (Option.some_ne_none _).symm
  begin {past s s' i w} _ hwatch ho hpasses := by
    have hbegun : Moment.begun? ⟨s, .move (.begin i), s'⟩ =
        some (owner, some (.whole w.reaper.deadAfter)) := by
      show s.deployment.watches[i]?.map _ = _
      rw [hwatch, ← ho]
      rfl
    obtain rfl := Option.some.inj (hpasses _ List.mem_concat_self _ hbegun)
    exact ⟨fun _ _ he => Owner.noConfusion (ho.trans he), .fresh_run w⟩
  call {past s s' number site command} _ _ ho hpasses := by
    have hbegun : Moment.begun? ⟨s, .call number site command, s'⟩ =
        some (owner, command.deadAfter?) := by
      rw [← ho]
      rfl
    exact ⟨fun _ _ he => Owner.noConfusion (ho.trans he), .fresh_perform
      (hpasses _ List.mem_concat_self _ hbegun)⟩
  resume {past s i t wake next abort} hrun hthread h hwait ho hpasses := by
    obtain ⟨hworker, hstage⟩ := h ho fun m hm => hpasses m (List.mem_append_left _ hm)
    obtain ⟨o, r, due⟩ := t
    obtain rfl := ho
    rcases stage_play hrun h₀ hthread hstage with ⟨e, herror⟩ | hnext
    · rw [hwait] at herror
      contradiction
    · rw [hwait] at hnext
      exact ⟨hworker, hnext⟩
  cancel {past s s' i site ticket r due wake next abort} _ _ h _ ho hpasses := by
    obtain ⟨hworker, -⟩ := h ho fun m hm => hpasses m (List.mem_append_left _ hm)
    exact absurd ho.symm (hworker site ticket)

/-- A pass that ends a job, or returns, has asked. It ends only jobs that it has found; and if it
returns, all of them have ended since. -/
theorem asks_of_turn (hrun : s₀.Run past s) (h₀ : s₀.Sound) {i : Nat} {due : Micros}
    {r : Deployment.Work Unit} (hthread : s.threads[i]? = some ⟨owner, r, due⟩)
    (hstage : Stage owner seconds past r) {m : Moment}
    (hm : m = ⟨s, .move (.resume i), s.play i owner r.resume⟩)
    (h : (∃ job, m.Ends job) ∨ (r.resume.advance s.deployment).1 = .done (.ok ())) :
    ∃ span time ids earlier q later, seconds.toSpan = .ok span ∧
      past ++ [m] = earlier ++ q :: later ∧ q.Asks owner span earlier time ids ∧
      (∀ job, m.Ends job → job ∈ ids) ∧
      ((r.resume.advance s.deployment).1 = .done (.ok ()) →
        ∀ job ∈ ids, ∃ e ∈ later, e.Ends job) := by
  have hproper := (hrun.sound h₀).proper
  have hbefore : m.before.store = s.deployment.cluster.store := by rw [hm]; rfl
  have hafter : m.after.store = (r.resume.advance s.deployment).2.cluster.store := by
    rw [hm]
    unfold store
    rw [cluster_play]
  have hall : ∀ {span time ids earlier q later}, Kills owner span time ids earlier q later
      (r.resume.advance s.deployment).1 → (r.resume.advance s.deployment).1 = .done (.ok ()) →
      ∀ job ∈ ids, ∃ e ∈ later, e.Ends job := by
    intro span time ids earlier q later hkills hreturned job hjob
    have hends := hkills.ends job hjob
    rw [hreturned] at hends
    exact hends.resolve_right fun hstalls => hstalls () rfl
  rcases hstage.store_or_kills hproper with
    hstore | ⟨span, time, ids, earlier, q, later, hspan, hpast, hkills⟩
  · have hends : ∀ job, ¬m.Ends job := by
      intro job hends
      refine hends.1 ?_
      rw [hbefore, ← hstore, ← hafter]
      exact hends.2
    have hreturned := h.resolve_left fun ⟨job, hjob⟩ => hends job hjob
    have hnext := (stage_play hrun h₀ hthread hstage).resolve_left fun ⟨e, herror⟩ =>
      absurd (Routine.done.inj (hreturned.symm.trans herror)) nofun
    rw [← hm] at hnext
    generalize hrest : (r.resume.advance s.deployment).1 = rest at hnext hreturned
    cases hnext with
    | fresh => contradiction
    | @asking own => cases own <;> contradiction
    | killing hspan hpast hkills =>
      exact ⟨_, _, _, _, _, _, hspan, hpast, hkills.asks, fun job hjob => absurd hjob (hends job),
        fun hreturned => hall (hrest ▸ hkills) (hrest ▸ hreturned)⟩
  · have hkills' := hm ▸ kills_play (hpast ▸ hrun) h₀ i hkills
    refine ⟨span, time, ids, earlier, q, _, hspan, ?_, hkills.asks, fun job hends => ?_,
      hall hkills'⟩
    · rw [hpast, List.append_assoc, List.cons_append]
    · refine Decidable.byContradiction fun hjob => ?_
      have hstore := (moved_play i owner hkills.keeps.resume hproper).1.store.running?_eq hjob
      rw [hm] at hends
      exact hends.1 (hstore.symm.trans hends.2)

theorem eq_play_of_resume {i : Nat} {t : Thread} (h : s.turn? (.move (.resume i)) = some s')
    (hthread : s.threads[i]? = some t) : s' = s.play i t.owner t.routine.resume := by
  cases took_of_turn? h with
  | resume hthread' => rw [Option.some.inj (hthread.symm.trans hthread')]

/-- A heartbeat that goes on while its job is found silent began late and has not beaten yet. -/
theorem late_of_asks (h₀ : s₀.Initial) (htick : s₀.clock.tick = 0)
    (hpos : 0 ≤ span)
    (hintervals : ∀ site every, s₀.deployment.interval? site = some every → every ≤ span)
    {earlier : List Moment} {q : Moment} {time : Micros} {ids : List String}
    (hrun : s₀.Run earlier q.before) (htimely : ∀ e ∈ earlier, e.isTimely)
    (hasks : q.Asks owner span earlier time ids) {job : String} (hjob : job ∈ ids) {h : Heartbeat}
    (hh : h ∈ q.before.deployment.heartbeats) (hhjob : h.job = job) :
    ∃ e ∈ earlier, e.BeginsLate span h ∨ e.Restarts h := by
  obtain ⟨r, hr, hsilent⟩ := (hasks.found job).mp hjob
  have hin := hrun.inTime h₀ htick hpos hintervals htimely h hh
  refine hin.covers.resolve_left fun hcovers => ?_
  have htime : time ≤ q.before.shown := by
    obtain ⟨c, hc, -, rfl⟩ := hasks.read
    have hnow := hrun.now_le h₀.sound c hc
    obtain ⟨front, back, rfl⟩ := List.append_of_mem hc
    have hreading := (hrun.clock_timely h₀.sound htick htimely).2
    have hreadingc := (hrun.cut.1.clock_timely h₀.sound htick fun e he =>
      htimely e (List.mem_append_left _ he)).2
    unfold shown
    rw [hreading, hreadingc]
    exact Clock.reading_le hnow
  have hnext : q.before.shown ≤ q.before.clock.reading (q.before.nextBeat h) :=
    Clock.reading_le (Int.le_max_left _ _)
  exact absurd (hcovers r (hhjob ▸ hr))
    (Int.not_le.mpr (Int.lt_of_lt_of_le hsilent (Int.le_trans htime hnext)))

/-- In a timely run in which heartbeats come at least as often as `span`, a pass for jobs that are
silent for `span` asks once. The jobs that it ends are among those it has found then, and when it
returns, all of these have ended. No heartbeat of such a job had beaten by then: each had begun when
the last update was so long ago that the first beat would come too late, or had not beaten since a
job of the same id was started anew. -/
theorem pass_ends_late (h₀ : s₀.Initial) (htick : s₀.clock.tick = 0)
    (hspan : seconds.toSpan = .ok span)
    (hpos : 0 ≤ span)
    (hintervals : ∀ site every, s₀.deployment.interval? site = some every → every ≤ span)
    {m : Moment} (hrun : s₀.Run (past ++ [m]) s) (htimely : ∀ e ∈ past ++ [m], e.isTimely)
    (hpasses : owner.Passes seconds past) (hresumes : m.Resumes owner)
    (h : (∃ job, m.Ends job) ∨ m.Returns owner) :
    ∃ time ids earlier q later, past ++ [m] = earlier ++ q :: later ∧
      q.Asks owner span earlier time ids ∧
      (∀ job, m.Ends job → job ∈ ids) ∧
      (m.Returns owner → ∀ job ∈ ids, ∃ e ∈ later, e.Ends job) ∧
      ∀ job ∈ ids, ∀ h ∈ q.before.deployment.heartbeats, h.job = job →
        ∃ e ∈ earlier, e.BeginsLate span h ∨ e.Restarts h := by
  obtain ⟨hrun', -, hturn, -⟩ := hrun.last
  obtain ⟨i, ⟨o, r, due⟩, hresume, hthread, ho⟩ := hresumes
  obtain rfl : o = owner := ho
  have hpassing := hrun'.threads (passing_rule h₀.sound o seconds) h₀.sound h₀.threads
  obtain ⟨-, hstage⟩ := hpassing _ (List.mem_of_getElem? hthread) rfl hpasses
  have hm : m = ⟨m.before, .move (.resume i), m.before.play i o r.resume⟩ := by
    rw [← eq_play_of_resume (hresume ▸ hturn) hthread, ← hresume]
  have hreturns : m.Returns o → (r.resume.advance m.before.deployment).1 = .done (.ok ()) := by
    rintro ⟨i', t, hi, hthread', -, hdone⟩
    obtain rfl : i = i' := Move.resume.inj (Turn.move.inj (hresume.symm.trans hi))
    rwa [← Option.some.inj (hthread.symm.trans hthread')] at hdone
  obtain ⟨span', time, ids, earlier, q, later, hspan', hpast, hasks, hends, hall⟩ :=
    asks_of_turn hrun' h₀.sound hthread hstage hm (h.imp_right hreturns)
  obtain rfl : span = span' := Except.ok.inj (hspan.symm.trans hspan')
  refine ⟨time, ids, earlier, q, later, hpast, hasks, hends, fun h => hall (hreturns h),
    fun job hjob h hh hhjob => ?_⟩
  rw [hpast] at hrun htimely
  exact late_of_asks h₀ htick hpos hintervals hrun.cut.1
    (fun e he => htimely e (List.mem_append_left _ he)) hasks hjob hh hhjob

/-- One engine with one slot, and two types of jobs that sleep. -/
def crowded : Schedule :=
  ofEngine 1 Micros.perMinute ⟨((∅ : Mapping _ _).insert "long" (sleeper "long"
    (200 * Micros.perSecond))).insert "short" (sleeper "short" Micros.perMinute)⟩

theorem initial_crowded : crowded.Initial := by
  refine initial_ofEngine fun name h hh => ?_
  unfold Handlers.get? at hh
  rw [Mapping.get?_insert, Mapping.get?_insert, Mapping.get?_empty] at hh
  split at hh
  · exact Option.some.inj hh ▸ isService_sleeper _ _
  · split at hh
    · exact Option.some.inj hh ▸ isService_sleeper _ _
    · contradiction

/-- A short job waits 200 seconds for its slot; five seconds later a pass for jobs that are silent
for three minutes has asked, and kills it. -/
theorem run_crowded :
    ∃ past m s, crowded.Run (past ++ [m]) s ∧ (∀ e ∈ past ++ [m], e.isTimely) ∧
      (Owner.caller 2).Passes (.whole 180) past ∧ m.Resumes (.caller 2) ∧ m.Ends "job-2" ∧
      m.before.deployment.executed "job-2" = 1 ∧
      (0, 1, "job-2") ∈ m.before.deployment.heartbeats.map fun h => (h.site, h.ticket, h.job) := by
  obtain ⟨past, s, hrun, hp⟩ := exists_run crowded
    [.call 0 0 (.start (.named "long")), .move (.resume 0), .move (.resume 0), .move (.grant 0),
      .move (.resume 0), .move (.resume 0), .call 1 0 (.start (.named "short")),
      .move (.resume 1), .move (.resume 1), .elapse Micros.perMinute, .move (.beat 0),
      .elapse Micros.perMinute, .move (.beat 0), .elapse Micros.perMinute, .move (.beat 0),
      .elapse (20 * Micros.perSecond), .move (.resume 0), .move (.resume 0), .move (.resume 0),
      .move (.grant 0), .move (.resume 0), .move (.resume 0), .elapse (5 * Micros.perSecond),
      .call 2 0 (.killSilent (.whole 180)), .move (.resume 1), .move (.resume 1)]
    (fun past s => past.all (·.isTimely) && Moment.isTimely ⟨s, .move (.resume 1), s⟩ &&
      (past.all fun m => m.begun?.all fun p => p.1 != .caller 2 || p.2 == some (.whole 180)) &&
      (s.threads[1]?.any fun t => t.owner = .caller 2) &&
      (s.turn? (.move (.resume 1))).any fun s' => (s.store.running? "job-2").isSome &&
        (s'.store.running? "job-2").isNone && s.deployment.executed "job-2" = 1 &&
        (0, 1, "job-2") ∈ s.deployment.heartbeats.map fun h => (h.site, h.ticket, h.job))
    (by decide +kernel) (by decide +kernel)
  simp only [Bool.and_eq_true, Option.any_eq_true, List.all_eq_true, decide_eq_true_eq] at hp
  obtain ⟨⟨⟨⟨htimely, hlast⟩, hbegun⟩, t, hthread, howner⟩, s', hturn,
    ⟨⟨hbefore, hafter⟩, hexec⟩, hbeat⟩ := hp
  refine ⟨past, ⟨s, .move (.resume 1), s'⟩, s', hrun.turn rfl hturn, fun e he => ?_,
    fun m hm work hwork => ?_, ⟨1, t, rfl, hthread, howner⟩,
    ⟨Option.isSome_iff_ne_none.mp hbefore, Option.isNone_iff_eq_none.mp hafter⟩, hexec, hbeat⟩
  · rcases List.mem_append.mp he with he | he
    · exact htimely e he
    · exact List.mem_singleton.mp he ▸ hlast
  · simpa [hwork] using hbegun m hm

/-- The pass had found the short job. -/
theorem pass_ends_late_crowded :
    ∃ past m s, crowded.Run (past ++ [m]) s ∧ m.Ends "job-2" ∧
      ∃ time ids earlier q later, past ++ [m] = earlier ++ q :: later ∧
        q.Asks (.caller 2) (180 * Micros.perSecond) earlier time ids ∧ "job-2" ∈ ids := by
  obtain ⟨past, m, s, hrun, htimely, hpasses, hresumes, hends, -⟩ := run_crowded
  have hintervals : ∀ site every, crowded.deployment.interval? site = some every →
      every ≤ 180 * Micros.perSecond := by
    intro site every hevery
    obtain ⟨s, hs, rfl⟩ := Option.map_eq_some_iff.mp hevery
    obtain rfl := List.mem_singleton.mp (List.mem_of_getElem? hs)
    decide
  obtain ⟨time, ids, earlier, q, later, hpast, hasks, hfound, -⟩ :=
    pass_ends_late initial_crowded rfl
      (rfl : (Seconds.whole 180).toSpan = .ok (180 * Micros.perSecond)) (by decide) hintervals hrun
      htimely hpasses hresumes (.inl ⟨"job-2", hends⟩)
  exact ⟨past, m, s, hrun, hends, time, ids, earlier, q, later, hpast, hasks, hfound _ hends⟩

/-- A pass for jobs that are silent for three minutes ends a job while its handler is executed and
its heartbeat goes on, which is to beat every minute: it has begun five seconds ago. -/
theorem killed_before_first_beat :
    ∃ past m s, crowded.Initial ∧ crowded.Run (past ++ [m]) s ∧
      (∀ e ∈ past ++ [m], e.isTimely) ∧ (Owner.caller 2).Passes (.whole 180) past ∧
      m.Resumes (.caller 2) ∧ m.Ends "job-2" ∧ m.before.deployment.executed "job-2" = 1 ∧
      (0, 1, "job-2") ∈ m.before.deployment.heartbeats.map fun h => (h.site, h.ticket, h.job) := by
  obtain ⟨past, m, s, h⟩ := run_crowded
  exact ⟨past, m, s, initial_crowded, h⟩

end Schedule
end JobControl
