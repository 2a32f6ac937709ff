import JobControl.Proofs.Runs
import JobControl.Proofs.ServingWork

/-! # Runs that serve

A run keeps a pace if the clock goes on only as the pace allows while threads wait. In every turn of
such a run jobs come in with a date of the pace, and the document of disabled types is at most
administered. -/

namespace JobControl
open Routine (Fulfils)

/-- The runs of reapers wait for `W` only, other work for anything. -/
def Owner.may (W : Wake → Prop) : Owner → Wake → Prop
  | watch _ => W
  | worker _ _ => fun _ => True
  | caller _ => fun _ => True

theorem Bus.Waited.may {W : Wake → Prop} {b : Bus} (h : b.Waited W) (owner : Owner) :
    b.Waited (owner.may W) := by
  cases owner with
  | watch i => exact h
  | worker site ticket => exact fun _ _ _ _ => trivial
  | caller number => exact fun _ _ _ _ => trivial

namespace Moment

/-- Where time passes or the clock is set, the threads that wait may rely on the pace. -/
def Paced (pace : Pace) (m : Moment) : Prop :=
  match m.turn with
  | .elapse _ | .shift _ => pace.inv m.after.clock ∧
    ∀ t ∈ m.before.threads, pace.rely t.routine.waitsFor m.before.clock m.after.clock
  | _ => True

theorem paced_any (m : Moment) : m.Paced .any := by
  unfold Paced
  split
  · exact ⟨trivial, fun _ _ => trivial⟩
  · exact ⟨trivial, fun _ _ => trivial⟩
  · trivial

structure Serves (pace : Pace) (m : Moment) : Prop where
  dated : ∀ id r, m.before.store.running? id = none → m.after.store.running? id = some r →
    pace.dated m.before.clock r.lastUpdated.micros
  administers : ∃ a : Administration, m.after.store.disabled = a.apply m.before.store.disabled

theorem Serves.of_store_eq {pace : Pace} {m : Moment} (h : m.after.store = m.before.store) :
    m.Serves pace where
  dated id r hidle hr := by
    rw [h, hidle] at hr
    contradiction
  administers := ⟨.aside, congrArg Store.disabled h⟩

theorem Serves.of_cluster {pace : Pace} {m : Moment}
    (h : m.before.deployment.cluster.Serves pace m.after.deployment.cluster) : m.Serves pace :=
  ⟨h.dated, h.administers⟩

end Moment

/-- The thread waits, and may rely on the pace. -/
structure Thread.Serves (pace : Pace) (W : Wake → Prop) (c : Clock) (t : Thread) : Prop where
  waits : ∃ wake next abort, t.routine = .wait wake next abort
  honours : t.routine.Honours (Deployment.pact pace (t.owner.may W)) false c

namespace Thread.Serves
variable {pace : Pace} {W : Wake → Prop} {c c' : Clock} {t : Thread}

theorem of_rely (h : t.Serves pace W c) (hrely : pace.rely t.routine.waitsFor c c') :
    t.Serves pace W c' := by
  obtain ⟨⟨wake, next, abort, hwait⟩, hhonours⟩ := h
  refine ⟨⟨wake, next, abort, hwait⟩, ?_⟩
  rw [hwait] at hhonours hrely ⊢
  exact hhonours.of_rely hrely

theorem new {owner : Owner} {work : Deployment.Work Unit}
    (h : Fulfils (Deployment.pact pace (owner.may W)) work) :
    (Thread.new owner work).Serves pace W c := by
  have hyielding : Fulfils (Deployment.pact pace (owner.may W)) (.yielding work) :=
    .yielding nofun fun v => (h v).fresh_of_not
  exact ⟨⟨_, _, _, rfl⟩, hyielding c⟩

end Thread.Serves

namespace Schedule
variable {pace : Pace} {W : Wake → Prop} {s s' s₀ : Schedule} {turn : Turn} {past : List Moment}

structure Serving (pace : Pace) (W : Wake → Prop) (s : Schedule) : Prop where
  inv : pace.inv s.clock
  waited : s.deployment.cluster.bus.Waited W
  threads : ∀ t ∈ s.threads, t.Serves pace W s.clock

namespace Serving

/-- What leaves the clock and the listeners alone may replace the deployment. -/
theorem deployment (hs : s.Serving pace W) {d : Deployment}
    (hclock : d.cluster.clock = s.clock)
    (hbus : d.cluster.bus.known = s.deployment.cluster.bus.known) :
    Serving pace W { s with deployment := d } := by
  refine ⟨?_, hs.waited.of_known hbus, fun t ht => ?_⟩
  · show pace.inv d.cluster.clock
    exact hclock ▸ hs.inv
  · show t.Serves pace W d.cluster.clock
    exact hclock ▸ hs.threads t ht

theorem push (hs : s.Serving pace W) {owner : Owner} {work : Deployment.Work Unit}
    (h : Fulfils (Deployment.pact pace (owner.may W)) work) :
    Serving pace W { s with threads := s.threads ++ [.new owner work] } := by
  refine ⟨hs.inv, hs.waited, fun t ht => ?_⟩
  rcases List.mem_append.mp ht with ht | ht
  · exact hs.threads t ht
  · obtain rfl := List.mem_singleton.mp ht
    exact .new h

/-- A stretch of one thread is no more than the others rely on. -/
theorem play (hs : s.Serving pace W) (i : Nat) {owner : Owner} {r : Deployment.Work Unit}
    (h : r.Honours (Deployment.pact pace (owner.may W)) true s.clock) :
    s.deployment.cluster.Serves pace (s.play i owner r).deployment.cluster ∧
      Deployment.Watches s.deployment.watches (r.advance s.deployment).2.watches ∧
      (s.play i owner r).Serving pace W := by
  have hinv : (Deployment.pact pace (owner.may W)).inv s.deployment :=
    ⟨hs.inv, hs.waited.may owner⟩
  obtain ⟨⟨hserves, hwatches⟩, hrest⟩ := h.advance hinv
  rw [← @cluster_play s i owner r] at hserves
  refine ⟨hserves, hwatches, ⟨pace.inv_ran hs.inv hserves.clock,
    hs.waited.of_known hserves.known, fun t ht => ?_⟩⟩
  rcases mem_threads_play ht with ht | ⟨howner, hroutine, hwait⟩
  · exact (hs.threads t ht).of_rely (pace.rely_ran hs.inv hserves.clock)
  · refine ⟨hwait, ?_⟩
    rw [howner, hroutine]
    have hclock : (s.play i owner r).clock = (r.advance s.deployment).2.cluster.clock :=
      congrArg (·.clock) cluster_play
    rw [hclock]
    exact hrest

theorem resume (hs : s.Serving pace W) {i : Nat} {t : Thread} (ht : s.threads[i]? = some t) :
    t.routine.resume.Honours (Deployment.pact pace (t.owner.may W)) true s.clock :=
  (hs.threads t (List.mem_of_getElem? ht)).honours.resume

end Serving

theorem Took.serving (h : s.Took turn s') (hs : s.Sound) (hserving : s.Serving pace W)
    (hservice : turn.isService) (hpaced : Moment.Paced pace ⟨s, turn, s'⟩) :
    Moment.Serves pace ⟨s, turn, s'⟩ ∧ s'.Serving pace W := by
  cases h with
  | @cancel i site ticket r due hthread =>
    have hspare : Serving pace W { s with deployment := s.deployment.spare site ticket } :=
      hserving.deployment rfl rfl
    have hcancel := (hserving.threads _ (List.mem_of_getElem? hthread)).honours.cancel
    obtain ⟨hserves, -, hafter⟩ := hspare.play i hcancel
    exact ⟨.of_cluster hserves, hafter⟩
  | @resume i t hthread =>
    obtain ⟨hserves, -, hafter⟩ := hserving.play i (hserving.resume hthread)
    exact ⟨.of_cluster hserves, hafter⟩
  | @grant site p pool t hpool hgrant =>
    have hwork := (hs.proper.grant hpool hgrant).1
    have hpool : Serving pace W
        { s with deployment := s.deployment.modifyPool site fun _ => pool } :=
      hserving.deployment rfl rfl
    have hrun := (Deployment.serving pace (Owner.may W (.worker site t.number))).run site t.number
      t.work t.job (fun _ => trivial) hwork trivial trivial
    exact ⟨.of_store_eq rfl, hpool.push hrun⟩
  | @beat i b hbeat hdue =>
    have hserves : s.deployment.cluster.Serves pace (s.deployment.afterBeat i b).cluster :=
      Cluster.serves_of_plain (Lifecycle.plain_keepAlive b.job) _
    refine ⟨.of_cluster hserves, pace.inv_ran hserving.inv hserves.clock,
      hserving.waited.of_known hserves.known, fun t ht => ?_⟩
    exact (hserving.threads t ht).of_rely (pace.rely_ran hserving.inv hserves.clock)
  | wake => exact ⟨.of_store_eq rfl, hserving.deployment rfl rfl⟩
  | @begin i w hwatch =>
    have hbegan : Serving pace W
        { s with deployment := s.deployment.modifyLoop i (·.runBegan) } :=
      hserving.deployment rfl rfl
    have hrun := (Deployment.serving pace (Owner.may W (.watch i))).watch w fun _ => trivial
    exact ⟨.of_store_eq rfl, hbegan.push hrun⟩
  | call number site command =>
    let L := Deployment.serving pace (Owner.may W (.caller number))
    exact ⟨.of_store_eq rfl, hserving.push (L.map (L.perform site ⟨"", ""⟩ command hservice))⟩
  | elapse hspan =>
    exact ⟨.of_store_eq rfl, hpaced.1, hserving.waited,
      fun t ht => (hserving.threads t ht).of_rely (hpaced.2 t ht)⟩
  | shift d =>
    exact ⟨.of_store_eq rfl, hpaced.1, hserving.waited,
      fun t ht => (hserving.threads t ht).of_rely (hpaced.2 t ht)⟩

theorem Initial.serving (h : s.Initial) (hinv : pace.inv s.clock)
    (hwaited : s.deployment.cluster.bus.Waited W) : s.Serving pace W :=
  ⟨hinv, hwaited, by rw [h.threads]; nofun⟩

/-- In every schedule of a run that keeps the pace all threads may rely on it. -/
theorem Run.serving (h : s₀.Run past s) (h₀ : s₀.Sound) (hserving : s₀.Serving pace W)
    (hpaced : ∀ m ∈ past, m.Paced pace) : s.Serving pace W := by
  induction h with
  | start => exact hserving
  | turn hrun hservice hturn ih =>
    have ih := ih fun m hm => hpaced m (List.mem_append_left _ hm)
    have hlast := hpaced _ List.mem_concat_self
    exact ((took_of_turn? hturn).serving (hrun.sound h₀) ih hservice hlast).2

/-- Every turn of such a run serves. -/
theorem Run.serves (h : s₀.Run past s) (h₀ : s₀.Sound) (hserving : s₀.Serving pace W)
    (hpaced : ∀ m ∈ past, m.Paced pace) : ∀ m ∈ past, m.Serves pace := by
  intro m hm
  obtain ⟨earlier, later, rfl⟩ := List.append_of_mem hm
  rw [List.append_cons] at h
  obtain ⟨s₁, hearlier, -⟩ := h.of_append
  obtain ⟨hbefore, hservice, hturn, -⟩ := hearlier.last
  have hs := hbefore.serving h₀ hserving fun m hm => hpaced m (List.mem_append_left _ hm)
  exact ((took_of_turn? hturn).serving (hbefore.sound h₀) hs hservice (hpaced m hm)).1

end Schedule
end JobControl
