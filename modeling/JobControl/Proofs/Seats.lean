import Mathlib.Data.List.InsertIdx
import JobControl.Proofs.Slots

/-! # Every thread of a worker has its slot

In every schedule of a run the threads of workers hold the slots of different tickets, so that
nothing but its own thread changes the slot and the heartbeat of a ticket. -/

namespace JobControl
open Routine (Keeps)

/-- The slot, by site and ticket, that the thread of an owner holds. -/
def Owner.slot? : Owner → Option (Nat × Nat)
  | worker site ticket => some (site, ticket)
  | _ => none

theorem Owner.beside_ended (owner : Owner) (d : Deployment) :
    d.Beside owner.slot? owner.slot? (owner.ended d) := by
  cases owner with
  | worker site ticket =>
    have hfinish : d.Beside (some (site, ticket)) (some (site, ticket))
        (d.modifyPool site (·.finish ticket)) := by
      refine .modifyPool fun p _ hp => ⟨hp.finish ticket, fun n hne hold => hold.finish ?_⟩
      rintro rfl
      exact hne rfl
    exact hfinish.trans (.of_eq rfl rfl)
  | watch i => exact .of_eq rfl rfl
  | caller number => exact .refl d

namespace Schedule
variable {s s' s₀ : Schedule} {turn : Turn} {past : List Moment}

def owners (s : Schedule) : List Owner := s.threads.map (·.owner)

/-- The threads of workers hold different slots, and each minds its own. -/
structure Seated (s : Schedule) : Prop where
  numbered : s.deployment.Numbered
  distinct : ∀ site ticket, s.owners.count (.worker site ticket) ≤ 1
  holds : ∀ site ticket, .worker site ticket ∈ s.owners → (s.deployment.poolAt site).Holds ticket
  minds : ∀ t ∈ s.threads,
    Keeps (Deployment.beside t.owner.slot?) (fun _ => True) t.routine false

theorem owners_push (s : Schedule) (d : Deployment) (t : Thread) :
    (⟨d, s.threads ++ [t]⟩ : Schedule).owners = s.owners ++ [t.owner] := by
  simp [owners]

theorem owners_set {t : Thread} {i : Nat} (hthread : s.threads[i]? = some t) (d : Deployment)
    (r : Deployment.Work Unit) (due : Micros) :
    (⟨d, s.threads.set i ⟨t.owner, r, due⟩⟩ : Schedule).owners = s.owners := by
  obtain ⟨hi, rfl⟩ := List.getElem?_eq_some_iff.mp hthread
  simp only [owners, List.map_set]
  refine List.ext_getElem (by simp) fun k hk _ => ?_
  rw [List.getElem_set]
  split
  · subst k
    simp
  · rfl

theorem owners_eraseIdx (s : Schedule) (d : Deployment) (i : Nat) :
    (⟨d, s.threads.eraseIdx i⟩ : Schedule).owners = s.owners.eraseIdx i := by
  simp [owners, List.eraseIdx_map]

namespace Seated

theorem not_mem_eraseIdx (hs : s.Seated) {i site ticket : Nat} {t : Thread}
    (hthread : s.threads[i]? = some t) (howner : t.owner = .worker site ticket) :
    .worker site ticket ∉ s.owners.eraseIdx i := by
  have hi : s.owners[i]? = some (.worker site ticket) := by
    simp [owners, hthread, howner]
  obtain ⟨hlt, heq⟩ := List.getElem?_eq_some_iff.mp hi
  have hsplit : s.owners = s.owners.take i ++ .worker site ticket :: s.owners.drop (i + 1) := by
    rw [← heq, List.getElem_cons_drop, List.take_append_drop]
  have hone := hs.distinct site ticket
  rw [hsplit, List.count_append, List.count_cons_self] at hone
  rw [List.eraseIdx_eq_take_drop_succ, ← List.count_eq_zero, List.count_append]
  omega

/-- A worker has no more than one thread. -/
theorem eq_index (hs : s.Seated) {i j site ticket : Nat} {t t' : Thread}
    (hi : s.threads[i]? = some t) (hj : s.threads[j]? = some t')
    (ht : t.owner = .worker site ticket) (ht' : t'.owner = .worker site ticket) : i = j := by
  refine Decidable.byContradiction fun hne => hs.not_mem_eraseIdx hi ht ?_
  rw [List.mem_eraseIdx_iff_getElem?]
  exact ⟨j, fun h => hne h.symm, by simp [owners, hj, ht']⟩

theorem push (hs : s.Seated) {d : Deployment} {freed : Option (Nat × Nat)} {t : Thread}
    (hd : s.deployment.Beside freed none d)
    (hnew : ∀ site ticket, t.owner = .worker site ticket →
      ¬(s.deployment.poolAt site).Holds ticket ∧ (d.poolAt site).Holds ticket)
    (ht : Keeps (Deployment.beside t.owner.slot?) (fun _ => True) t.routine false) :
    (⟨d, s.threads ++ [t]⟩ : Schedule).Seated := by
  refine ⟨hd.numbered hs.numbered, fun site ticket => ?_, fun site ticket hmem => ?_,
    fun t' ht' => ?_⟩
  · rw [owners_push, List.count_append]
    by_cases howner : t.owner = .worker site ticket
    · have hnone : s.owners.count (.worker site ticket) = 0 := by
        rw [List.count_eq_zero]
        exact fun hmem => (hnew site ticket howner).1 (hs.holds site ticket hmem)
      simp [hnone, howner]
    · have hzero : [t.owner].count (.worker site ticket) = 0 := by
        rw [List.count_eq_zero, List.mem_singleton]
        exact fun h => howner h.symm
      rw [hzero]
      exact hs.distinct site ticket
  · rw [owners_push] at hmem
    rcases List.mem_append.mp hmem with hmem | hmem
    · exact hd.holds hs.numbered site ticket nofun (hs.holds site ticket hmem)
    · exact (hnew site ticket (List.mem_singleton.mp hmem).symm).2
  · rcases List.mem_append.mp ht' with ht' | ht'
    · exact hs.minds t' ht'
    · exact List.mem_singleton.mp ht' ▸ ht

end Seated

theorem beside_play (s : Schedule) (i : Nat) {owner : Owner} {r : Deployment.Work Unit}
    (h : Keeps (Deployment.beside owner.slot?) (fun _ => True) r true) :
    s.deployment.Beside owner.slot? owner.slot? (s.play i owner r).deployment := by
  obtain ⟨hbeside, -⟩ := h.advance (s := s.deployment) trivial
  rcases play_cases s i owner r with
    ⟨outcome, d, hadvance, hplay⟩ | ⟨wake, next, abort, d, hadvance, hplay⟩
  · rw [hadvance] at hbeside
    rw [hplay]
    exact (Deployment.Beside.frees hbeside).trans (owner.beside_ended d)
  · rw [hadvance] at hbeside
    rw [hplay]
    exact Deployment.Beside.frees hbeside

theorem Seated.play (hs : s.Seated) {i : Nat} {t : Thread} (hthread : s.threads[i]? = some t)
    {r : Deployment.Work Unit}
    (h : Keeps (Deployment.beside t.owner.slot?) (fun _ => True) r true) :
    (s.play i t.owner r).Seated := by
  have hbeside := beside_play s i h
  obtain ⟨hstretch, hrest⟩ := h.advance (s := s.deployment) trivial
  rcases play_cases s i t.owner r with
    ⟨outcome, d, hadvance, hplay⟩ | ⟨wake, next, abort, d, hadvance, hplay⟩
  · rw [hplay] at hbeside ⊢
    have howners := owners_eraseIdx s (t.owner.ended d) i
    refine ⟨hbeside.numbered hs.numbered, fun site ticket => ?_, fun site ticket hmem => ?_,
      fun t' ht' => hs.minds t' (List.mem_of_mem_eraseIdx ht')⟩
    · rw [howners]
      exact Nat.le_trans ((List.eraseIdx_sublist ..).count_le _) (hs.distinct site ticket)
    · rw [howners] at hmem
      refine hbeside.holds hs.numbered site ticket (fun hslot => ?_)
        (hs.holds site ticket (List.mem_of_mem_eraseIdx hmem))
      have howner : t.owner = .worker site ticket := by
        cases hcase : t.owner <;> rw [hcase] at hslot <;> simp_all [Owner.slot?]
      exact hs.not_mem_eraseIdx hthread howner hmem
  · rw [hadvance] at hstretch hrest
    rw [hplay] at hbeside ⊢
    have howners := owners_set hthread d (.wait wake next abort) (d.dueOf (.wait wake next abort))
    refine ⟨hbeside.numbered hs.numbered, fun site ticket => ?_, fun site ticket hmem => ?_,
      fun t' ht' => ?_⟩
    · rw [howners]
      exact hs.distinct site ticket
    · rw [howners] at hmem
      exact Deployment.Beside.holds hstretch hs.numbered site ticket nofun
        (hs.holds site ticket hmem)
    · rcases List.mem_or_eq_of_mem_set ht' with ht' | rfl
      · exact hs.minds t' ht'
      · exact hrest

/-- A deployment in which no work has been submitted. -/
def Vacant (s : Schedule) : Prop :=
  ∀ site ∈ s.deployment.sites, site.pool.queue = [] ∧ site.pool.active = []

theorem Initial.seated (h₀ : s₀.Initial) (hvacant : s₀.Vacant) : s₀.Seated := by
  refine ⟨fun site => ?_, ?_, ?_, ?_⟩
  · unfold Deployment.poolAt Deployment.pool?
    cases hsite : s₀.deployment.sites[site]? with
    | none => exact Pool.numbered_of_vacant rfl rfl
    | some p =>
      obtain ⟨hqueue, hactive⟩ := hvacant p (List.mem_of_getElem? hsite)
      exact Pool.numbered_of_vacant hqueue hactive
  · simp [owners, h₀.threads]
  · simp [owners, h₀.threads]
  · simp [h₀.threads]

theorem poolAt_of_pool? {d : Deployment} {site : Nat} {p : Pool (Handler Script)}
    (h : d.pool? site = some p) : d.poolAt site = p := by
  unfold Deployment.poolAt
  rw [h]
  rfl

theorem poolAt_granted {d : Deployment} {site : Nat} {p : Pool (Handler Script)}
    (h : d.pool? site = some p) (pool : Pool (Handler Script)) :
    (d.modifyPool site fun _ => pool).poolAt site = pool := by
  obtain ⟨_, hsite, -⟩ := Option.map_eq_some_iff.mp h
  have hlt := (List.getElem?_eq_some_iff.mp hsite).1
  rw [Deployment.poolAt_modifyPool, if_pos ⟨rfl, hlt⟩]

/-- Nothing but the thread of a worker changes its slot and its heartbeat. -/
theorem Took.beside (h : s.Took turn s') (hs : s.Seated) :
    s'.Seated ∧ ∃ own, (∀ site ticket, own = some (site, ticket) →
        Moment.OfWorker ⟨s, turn, s'⟩ site ticket) ∧
      s.deployment.Beside own own s'.deployment := by
  cases h with
  | @cancel i site ticket r due hthread =>
    have hspare : s.deployment.Beside (some (site, ticket)) (some (site, ticket))
        (s.deployment.spare site ticket) := .of_eq rfl rfl
    have hseated : Seated { s with deployment := s.deployment.spare site ticket } :=
      ⟨hspare.numbered hs.numbered, hs.distinct, hs.holds, hs.minds⟩
    have hminds := (hs.minds _ (List.mem_of_getElem? hthread)).cancel
    have hplay := @beside_play { s with deployment := s.deployment.spare site ticket } i
      (.worker site ticket) _ hminds
    refine ⟨@Seated.play _ hseated i ⟨.worker site ticket, r, due⟩ hthread _ hminds,
      some (site, ticket), ?_, hspare.trans hplay⟩
    rintro _ _ ⟨⟩
    exact ⟨i, _, .inr rfl, hthread, rfl⟩
  | @resume i t hthread =>
    have hminds := (hs.minds _ (List.mem_of_getElem? hthread)).resume
    refine ⟨hs.play hthread hminds, t.owner.slot?, fun site ticket hown => ?_,
      beside_play s i hminds⟩
    refine ⟨i, t, .inl rfl, hthread, ?_⟩
    cases howner : t.owner <;> rw [howner] at hown <;> simp_all [Owner.slot?]
  | @grant site p pool t hpool hgrant =>
    have hp : p.Numbered := poolAt_of_pool? hpool ▸ hs.numbered site
    obtain ⟨hnumbered, hholds, hfree⟩ := hp.grant hgrant
    have hbeside : s.deployment.Beside none none (s.deployment.modifyPool site fun _ => pool) := by
      refine .modifyPool fun p' hp' _ => ?_
      obtain rfl := Option.some.inj (hpool.symm.trans hp')
      exact ⟨hnumbered, fun n _ hold => hold.grant hgrant⟩
    refine ⟨hs.push hbeside (fun k n howner => ?_) ?_, none, nofun, hbeside⟩
    · obtain ⟨rfl, rfl⟩ : site = k ∧ t.number = n := by
        injection howner with hsite hnumber
        exact ⟨hsite, hnumber⟩
      rw [poolAt_granted hpool, poolAt_of_pool? hpool]
      exact ⟨hfree, hholds⟩
    · have hrun := (Deployment.minding (some (site, t.number))).run site t.number t.work t.job
        (fun _ => trivial) trivial trivial rfl
      exact .yielding (Keeps.fresh_of_not hrun)
  | beat hbeat hdue =>
    have hbeside := @Deployment.Beside.afterBeat none none _ _ _ hbeat
    exact ⟨⟨hbeside.numbered hs.numbered, hs.distinct,
      fun site ticket hmem => hbeside.holds hs.numbered _ _ nofun (hs.holds site ticket hmem),
      hs.minds⟩, none, nofun, hbeside⟩
  | @begin i w hwatch =>
    have hbeside : s.deployment.Beside none none (s.deployment.modifyLoop i (·.runBegan)) :=
      .of_eq rfl rfl
    have hrun := (Deployment.minding none).watch w fun _ => trivial
    exact ⟨hs.push hbeside nofun (.yielding (Keeps.fresh_of_not hrun)), none, nofun, hbeside⟩
  | call number site command =>
    have hbeside := @Deployment.Beside.refl none none s.deployment
    let L := Deployment.minding none
    have hperform := L.map (f := fun _ => ()) (L.perform site ⟨"", ""⟩ command trivial)
    exact ⟨hs.push hbeside nofun (.yielding (Keeps.fresh_of_not hperform)), none, nofun, hbeside⟩
  | wake | elapse | shift =>
    refine ⟨⟨hs.numbered, hs.distinct, hs.holds, hs.minds⟩, none, nofun, ?_⟩
    exact .of_eq rfl rfl

/-- A turn of others leaves the heartbeat and the thread of a worker as they are. A thread that was
not there has just been granted its slot. -/
theorem Took.aside (h : s.Took turn s') (hs : s.Seated) (hproper : s.deployment.Proper)
    {site ticket : Nat} (hnot : ¬Moment.OfWorker ⟨s, turn, s'⟩ site ticket) :
    (∀ job, s'.deployment.Beats site ticket job ↔ s.deployment.Beats site ticket job) ∧
    (.worker site ticket ∈ s.owners → .worker site ticket ∈ s'.owners) ∧
    ∀ t ∈ s'.threads, t.owner = .worker site ticket → t ∈ s.threads ∨
      .worker site ticket ∉ s.owners ∧ ∃ id handler, handler.IsService ∧
        t.routine = .yielding (Runner.run site ticket id handler) := by
  obtain ⟨own, hown, hbeside⟩ := (h.beside hs).2
  have hne : some (site, ticket) ≠ own := fun heq => hnot (hown site ticket heq.symm)
  refine ⟨fun job => hbeside.beats site ticket job hne, ?_⟩
  -- A thread of another owner plays; what it does to the list of threads concerns itself only.
  have played : ∀ {d : Deployment} {i : Nat} {t : Thread} (r : Deployment.Work Unit),
      s.threads[i]? = some t → t.owner ≠ .worker site ticket →
      (.worker site ticket ∈ s.owners →
        .worker site ticket ∈ (play { s with deployment := d } i t.owner r).owners) ∧
      ∀ t' ∈ (play { s with deployment := d } i t.owner r).threads,
        t'.owner = .worker site ticket → t' ∈ s.threads ∨ .worker site ticket ∉ s.owners ∧
          ∃ id handler, handler.IsService ∧
            t'.routine = .yielding (Runner.run site ticket id handler) := by
    intro d i t r hthread howner
    refine ⟨fun hmem => ?_, fun t' ht' howner' => ?_⟩
    · rcases play_cases { s with deployment := d } i t.owner r with
        ⟨outcome, d', -, hplay⟩ | ⟨wake, next, abort, d', -, hplay⟩
      · rw [hplay, owners_eraseIdx, List.mem_eraseIdx_iff_getElem?]
        obtain ⟨k, hk⟩ := List.mem_iff_getElem?.mp hmem
        refine ⟨k, fun heq => howner ?_, hk⟩
        have hi : s.owners[i]? = some t.owner := by simp [owners, hthread]
        exact Option.some.inj (hi.symm.trans (heq ▸ hk))
      · rw [hplay]
        exact (owners_set (s := { s with deployment := d }) hthread _ _ _).symm ▸ hmem
    · rcases mem_threads_play ht' with ht' | ⟨hsame, -⟩
      · exact .inl ht'
      · exact absurd (hsame.symm.trans howner') howner
  -- So does a thread that is new.
  have pushed : ∀ {d : Deployment} {t : Thread},
      (t.owner = .worker site ticket → .worker site ticket ∉ s.owners ∧
        ∃ id handler, handler.IsService ∧
          t.routine = .yielding (Runner.run site ticket id handler)) →
      (.worker site ticket ∈ s.owners →
        .worker site ticket ∈ (⟨d, s.threads ++ [t]⟩ : Schedule).owners) ∧
      ∀ t' ∈ s.threads ++ [t], t'.owner = .worker site ticket → t' ∈ s.threads ∨
        .worker site ticket ∉ s.owners ∧ ∃ id handler, handler.IsService ∧
          t'.routine = .yielding (Runner.run site ticket id handler) := by
    intro d t hnew
    refine ⟨fun hmem => ?_, fun t' ht' howner' => ?_⟩
    · rw [owners_push]
      exact List.mem_append_left _ hmem
    · rcases List.mem_append.mp ht' with ht' | ht'
      · exact .inl ht'
      · obtain rfl := List.mem_singleton.mp ht'
        exact .inr (hnew howner')
  cases h with
  | @cancel i site' ticket' r due hthread =>
    have howner : Owner.worker site' ticket' ≠ .worker site ticket := fun heq =>
      hnot ⟨i, _, .inr rfl, hthread, heq⟩
    exact played r.cancel hthread howner
  | @resume i t hthread =>
    exact played t.routine.resume hthread fun heq => hnot ⟨i, t, .inl rfl, hthread, heq⟩
  | @grant site' p pool t hpool hgrant =>
    refine pushed fun howner => ?_
    obtain ⟨rfl, rfl⟩ : site' = site ∧ t.number = ticket := by
      injection howner with hsite hnumber
      exact ⟨hsite, hnumber⟩
    have hp : p.Numbered := poolAt_of_pool? hpool ▸ hs.numbered site'
    refine ⟨fun hmem => (hp.grant hgrant).2.2 ?_, t.job, t.work,
      (hproper.grant hpool hgrant).1, rfl⟩
    exact poolAt_of_pool? hpool ▸ hs.holds _ _ hmem
  | begin => exact pushed nofun
  | call => exact pushed nofun
  | beat | wake | elapse | shift => exact ⟨id, fun t' ht' _ => .inl ht'⟩

theorem Run.seated (h : s₀.Run past s) (h₀ : s₀.Seated) : s.Seated := by
  induction h with
  | start => exact h₀
  | turn _ _ hturn ih => exact ((took_of_turn? hturn).beside ih).1

end Schedule
end JobControl
