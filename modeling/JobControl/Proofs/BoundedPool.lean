import Mathlib.Data.List.Induction
import JobControl.Proofs.PoolOrder

/-! # The pool is bounded and fair

Whatever is asked of a pool in which all jobs differ, at no moment are more jobs executed than there
are slots, none waits in vain, and the jobs begin in turn; a shutdown leaves no work unfinished
(`bounded_pool`). -/

namespace JobControl
open History

namespace Bench
variable {slots : Nat} {b b' : Bench} {es : List Happening}

/-! ## Waiting for the tracked work -/

theorem exists_due (h : Orderly slots es b) (hslots : 1 ≤ slots) (hsettled : b.next? = none)
    (hpending : unfinished es ≠ []) :
    ∃ time, b.nextDue? = some time ∧
      ∃ t ∈ b.pool.active, (b.due.get? t.number).any (· ≤ time) := by
  have hexecuting : executing es ≠ [] := by
    intro hnone
    by_cases hwaits : waiting es = []
    · obtain ⟨t, ht⟩ := List.exists_mem_of_ne_nil _ hpending
      rcases h.mem_unfinished.mp ht with ht | ht
      · simp [hwaits] at ht
      · simp [hnone] at ht
    · have hfull := h.full hsettled hwaits
      rw [hnone] at hfull
      exact absurd hslots (by simp [← hfull])
  obtain ⟨t, ht⟩ := List.exists_mem_of_ne_nil _ hexecuting
  obtain ⟨end_, hend⟩ := Option.isSome_iff_exists.mp ((h.due t.number).mpr ⟨t, ht, rfl⟩)
  have hmem := (b.due.mem_entries_iff).mpr hend
  have hsome : (b.due.entries.map (·.2)).min?.isSome := by
    rw [List.isSome_min?_iff]
    exact List.ne_nil_of_mem (List.mem_map_of_mem hmem)
  obtain ⟨time, htime⟩ := Option.isSome_iff_exists.mp hsome
  refine ⟨time, htime, ?_⟩
  -- The end that comes next is that of some work in a slot.
  obtain ⟨⟨n, time'⟩, hentry, rfl⟩ := List.mem_map.mp (List.min?_mem htime)
  have hget := (b.due.mem_entries_iff).mp hentry
  obtain ⟨u, hu, rfl⟩ := (h.due n).mp (by rw [hget]; rfl)
  exact ⟨u, h.active ▸ hu, by rw [hget]; simp⟩

theorem not_isPending_drainWithin (hslots : 1 ≤ slots) (numbers : List Nat) {fuel : Nat}
    (h : (Bench.starting slots).Trace es b) (hsettled : b.next? = none) (hfuel : b.load < fuel) :
    ∀ n ∈ numbers, ¬(drainWithin numbers fuel b).pool.isPending n := by
  induction fuel generalizing b es with
  | zero => omega
  | succ fuel ih =>
    have ho := Orderly.of_trace h
    unfold drainWithin
    split
    · rename_i hany
      obtain ⟨n, -, hn⟩ := List.any_eq_true.mp hany
      obtain ⟨t, ht, -⟩ := (ho.isPending_iff n).mp hn
      obtain ⟨time, htime, u, hu, hdue⟩ := exists_due ho hslots hsettled (List.ne_nil_of_mem ht)
      rw [htime]
      obtain ⟨es', htrace, -⟩ := Quiet.settleAt b (max b.now time)
      have hdue' : (b.due.get? u.number).any (· ≤ max b.now time) := by
        rw [Option.any_eq_true] at hdue ⊢
        obtain ⟨end_, hend, hle⟩ := hdue
        refine ⟨end_, hend, ?_⟩
        simp only [decide_eq_true_eq] at hle ⊢
        exact Int.le_trans hle (Int.le_max_right ..)
      have hless : ({ b with now := max b.now time } : Bench).settle.load < b.load :=
        load_settle_lt (b := { b with now := max b.now time }) hu hdue'
      exact ih (h.trans htrace) (next?_settle _) (by omega)
    · rename_i hany
      intro n hn hpending
      exact hany (List.any_eq_true.mpr ⟨n, hn, hpending⟩)

/-- Tickets that were not finished before were not submitted since. -/
theorem unfinished_append {es' : List Happening} (hquiet : submitted es' = []) {t : Ticket Task}
    (ht : t ∈ unfinished (es ++ es')) : t ∈ unfinished es ∧ t ∉ closed es' := by
  have hsubmitted : submitted (es ++ es') = submitted es := by
    unfold submitted at hquiet ⊢
    rw [List.filterMap_append, hquiet, List.append_nil]
  have hclosed : closed (es ++ es') = closed es ++ closed es' := List.filterMap_append
  obtain ⟨ht, hnot⟩ := List.mem_filter.mp ht
  rw [hsubmitted] at ht
  simp only [hclosed, List.mem_append, not_or, decide_eq_true_eq] at hnot
  exact ⟨List.mem_filter.mpr ⟨ht, by simpa using hnot.1⟩, hnot.2⟩

theorem unfinished_drained (hslots : 1 ≤ slots) (h : (Bench.starting slots).Trace es b)
    (hdistinct : ((submitted es).map (·.job)).Nodup) :
    ∃ es', b.Trace es' (b.shutdown true) ∧ submitted es' = [] ∧ unfinished (es ++ es') = [] := by
  obtain ⟨es₁, htrace₁, hquiet₁⟩ := Quiet.settle b
  obtain ⟨es₂, htrace₂, hquiet₂⟩ := Quiet.drainWithin (b.pool.tracked.entries.map (·.2))
    (b.settle.pool.queue.length + b.settle.pool.active.length + 1) b.settle
  have hquiet : submitted (es₁ ++ es₂) = [] := by
    unfold submitted at hquiet₁ hquiet₂ ⊢
    rw [List.filterMap_append, hquiet₁, hquiet₂, List.append_nil]
  have htrace := htrace₁.trans htrace₂
  have hdone := not_isPending_drainWithin hslots (b.pool.tracked.entries.map (·.2))
    (h.trans htrace₁) (next?_settle b) (Nat.lt_succ_self _)
  refine ⟨es₁ ++ es₂, htrace, hquiet, List.eq_nil_iff_forall_not_mem.mpr fun t ht => ?_⟩
  obtain ⟨hbefore, -⟩ := unfinished_append hquiet ht
  have htracked := (Tracks.of_trace h hdistinct t.job t.number).mpr ⟨t, hbefore, rfl, rfl⟩
  have hnumber : t.number ∈ b.pool.tracked.entries.map (·.2) :=
    List.mem_map.mpr ⟨_, (b.pool.tracked.mem_entries_iff).mpr htracked, rfl⟩
  have hpending := (Orderly.of_trace (h.trans htrace)).isPending_iff t.number
  exact hdone _ hnumber (hpending.mpr ⟨t, ht, rfl⟩)

/-! ## Cancelling the tracked work -/

theorem trace_drops {ts : List (Ticket Task)} (hqueued : ∀ t ∈ ts, t ∈ b.pool.queue)
    (hnumbers : (ts.map (·.number)).Nodup) :
    b.Trace (ts.map .cancelled)
      { b with pool := ts.foldl (fun p t => p.finish t.number) b.pool } := by
  induction ts generalizing b with
  | nil => exact .refl
  | cons t ts ih =>
    rw [List.map_cons, List.nodup_cons] at hnumbers
    obtain ⟨hnew, hrest⟩ := hnumbers
    have hfirst : b.Trace [.cancelled t] { b with pool := b.pool.finish t.number } :=
      .single (.drop (hqueued t List.mem_cons_self))
    refine hfirst.trans (ih (fun u hu => ?_) hrest)
    have hmem : u.number ∈ ts.map (·.number) := List.mem_map_of_mem hu
    have hne : u.number ≠ t.number := fun e => hnew (e ▸ hmem)
    exact List.mem_filter.mpr ⟨hqueued u (List.mem_cons_of_mem _ hu), by simpa using hne⟩

theorem trace_interrupts {ts : List (Ticket Task)} (hactive : ∀ t ∈ ts, t ∈ b.pool.active)
    (hnumbers : (ts.map (·.number)).Nodup) :
    b.Trace (ts.map .cancelled) (ts.foldl interrupt b) := by
  induction ts generalizing b with
  | nil => exact .refl
  | cons t ts ih =>
    rw [List.map_cons, List.nodup_cons] at hnumbers
    obtain ⟨hnew, hrest⟩ := hnumbers
    have hfirst : b.Trace [.cancelled t] (b.interrupt t) :=
      .single (.interrupt (hactive t List.mem_cons_self))
    refine hfirst.trans (ih (fun u hu => ?_) hrest)
    have hmem : u.number ∈ ts.map (·.number) := List.mem_map_of_mem hu
    have hne : u.number ≠ t.number := fun e => hnew (e ▸ hmem)
    exact List.mem_filter.mpr ⟨hactive u (List.mem_cons_of_mem _ hu), by simpa using hne⟩

theorem submitted_cancelled (ts : List (Ticket Task)) : submitted (ts.map .cancelled) = [] := by
  unfold submitted
  rw [List.filterMap_map, List.filterMap_eq_nil_iff]
  exact fun _ _ => rfl

theorem closed_cancelled (ts : List (Ticket Task)) : closed (ts.map .cancelled) = ts := by
  unfold closed
  rw [List.filterMap_map]
  exact List.filterMap_some

theorem unfinished_cancelled (h : (Bench.starting slots).Trace es b)
    (hdistinct : ((submitted es).map (·.job)).Nodup) :
    ∃ es', b.Trace es' (b.shutdown false) ∧ submitted es' = [] ∧ unfinished (es ++ es') = [] := by
  have ho := Orderly.of_trace h
  have htracks := Tracks.of_trace h hdistinct
  have hqueued : b.pool.trackedQueued = b.pool.queue := List.filter_eq_self.mpr fun t ht =>
    htracks.isTracked (ho.mem_unfinished.mpr (.inl (ho.queue ▸ ht)))
  have hactive : b.pool.trackedActive = b.pool.active := List.filter_eq_self.mpr fun t ht =>
    htracks.isTracked (ho.mem_unfinished.mpr (.inr (ho.active ▸ ht)))
  have hnumbers : ((submitted es).map (·.number)).Nodup := ho.numbers ▸ List.nodup_range
  have hdrops : b.Trace (b.pool.queue.map .cancelled) { b with pool := b.pool.dropQueued } := by
    unfold Pool.dropQueued
    rw [hqueued]
    refine trace_drops (fun _ => id) (hnumbers.sublist ?_)
    rw [ho.queue]
    exact List.filter_sublist.map _
  -- What holds a slot is not touched by this.
  have hkept : ∀ t ∈ b.pool.active, t ∈ b.pool.dropQueued.active := by
    intro t ht
    have hactive' : b.pool.dropQueued.active = executing (es ++ b.pool.queue.map .cancelled) :=
      (Orderly.of_trace (h.trans hdrops)).active
    have hbegan : began (es ++ b.pool.queue.map .cancelled) = began es ++ began _ :=
      List.filterMap_append
    have hclosed : closed (es ++ b.pool.queue.map .cancelled) = closed es ++ b.pool.queue :=
      List.filterMap_append.trans (congrArg _ (closed_cancelled _))
    rw [ho.active] at ht
    obtain ⟨ht, hnot⟩ := List.mem_filter.mp ht
    have hwaits : t ∉ b.pool.queue := by
      rw [ho.queue]
      intro hmem
      have hfresh := (List.mem_filter.mp hmem).2
      simp [ht] at hfresh
    rw [hactive']
    refine List.mem_filter.mpr ⟨hbegan ▸ List.mem_append_left _ ht, ?_⟩
    simpa [hclosed, hwaits] using hnot
  have hcuts : ({ b with pool := b.pool.dropQueued } : Bench).Trace
      (b.pool.active.map .cancelled) (b.shutdown false) := by
    have hshutdown : b.shutdown false =
        b.pool.active.foldl interrupt { b with pool := b.pool.dropQueued } := by
      rw [← hactive]
      rfl
    rw [hshutdown]
    have hsub : (executing es).Sublist (submitted es) :=
      List.filter_sublist.trans ((List.sublist_append_left _ _).trans ho.order)
    refine trace_interrupts hkept (hnumbers.sublist ?_)
    rw [ho.active]
    exact hsub.map _
  have hquiet : submitted (b.pool.queue.map .cancelled ++ b.pool.active.map .cancelled) = [] := by
    rw [← List.map_append]
    exact submitted_cancelled _
  refine ⟨_, hdrops.trans hcuts, hquiet, List.eq_nil_iff_forall_not_mem.mpr fun t ht => ?_⟩
  obtain ⟨hbefore, hnot⟩ := unfinished_append hquiet ht
  rw [← List.map_append, closed_cancelled, ho.queue, ho.active] at hnot
  exact hnot (List.mem_append.mpr (ho.mem_unfinished.mp hbefore))

/-! ## Sequences of orders -/

/-- What the pool promises at every moment, in terms of what has happened so far. -/
structure Fair (slots : Nat) (es : List Happening) (b : Bench) : Prop where
  /-- No more jobs have begun and are not closed than there are slots. -/
  bounded : (executing es).length ≤ slots
  /-- Where nothing more can happen, work waits only if all slots are taken. -/
  full : b.next? = none → waiting es ≠ [] → (executing es).length = slots
  order : (began es).Sublist (submitted es)
  once : ((began es).map (·.job)).Nodup
  begun : ∀ t ∈ ended es, t ∈ began es
  /-- Work that has ended, well or badly, or was cancelled, holds no slot and does not wait. -/
  slot : b.pool.active = executing es
  queue : b.pool.queue = waiting es
  activeJobs : b.pool.activeJobs.Perm ((unfinished es).map (·.job))

theorem fair_of_trace (h : (Bench.starting slots).Trace es b)
    (hdistinct : ((submitted es).map (·.job)).Nodup) : Fair slots es b := by
  have ho := Orderly.of_trace h
  have horder : (began es).Sublist (submitted es) :=
    (List.sublist_append_left _ _).trans ho.order
  exact ⟨ho.bounded, ho.full, horder, hdistinct.sublist (horder.map _), ho.ended, ho.active,
    ho.queue, (Tracks.of_trace h hdistinct).activeJobs hdistinct⟩

/-- Every order is carried out by single happenings, among them the submission it asks for. -/
theorem exists_trace_perform (hslots : 1 ≤ slots) (h : (Bench.starting slots).Trace es b)
    (hdistinct : ((submitted es).map (·.job)).Nodup) (order : Order) :
    ∃ es', b.Trace es' (order.perform b) ∧ (submitted es').map (·.job) = order.job?.toList ∧
      (∀ wait, order = .shutdown wait → unfinished (es ++ es') = []) := by
  cases order with
  | submit job task =>
    exact ⟨_, .single (.submit job task), rfl, nofun⟩
  | advance span =>
    obtain ⟨es', htrace, hquiet⟩ := Quiet.advance b span
    exact ⟨es', htrace, by rw [hquiet]; rfl, nofun⟩
  | shutdown wait =>
    have hclosed : ∃ es', b.Trace es' (b.shutdown wait) ∧ submitted es' = [] ∧
        unfinished (es ++ es') = [] := by
      cases wait with
      | true => exact unfinished_drained hslots h hdistinct
      | false => exact unfinished_cancelled h hdistinct
    obtain ⟨es', htrace, hquiet, hnone⟩ := hclosed
    exact ⟨es', htrace, by rw [hquiet]; rfl, fun _ _ => hnone⟩
  | settle =>
    obtain ⟨es', htrace, hquiet⟩ := Quiet.settle b
    exact ⟨es', htrace, by rw [hquiet]; rfl, nofun⟩

theorem exists_trace (hslots : 1 ≤ slots) {orders : List Order}
    (hdistinct : (orders.filterMap (·.job?)).Nodup) :
    ∃ es, (Bench.starting slots).Trace es (performAll orders (Bench.starting slots)) ∧
      (submitted es).map (·.job) = orders.filterMap (·.job?) ∧
      (∀ rest wait, orders = rest ++ [.shutdown wait] → unfinished es = []) := by
  induction orders using List.reverseRecOn with
  | nil => exact ⟨[], .refl, rfl, fun rest wait h => by simp at h⟩
  | append_singleton orders order ih =>
    rw [List.filterMap_append] at hdistinct
    obtain ⟨es, htrace, hjobs, -⟩ := ih (List.nodup_append.mp hdistinct).1
    have hbefore : ((submitted es).map (·.job)).Nodup := hjobs ▸ (List.nodup_append.mp hdistinct).1
    obtain ⟨es', htrace', hjobs', hclosed⟩ := exists_trace_perform hslots htrace hbefore order
    refine ⟨es ++ es', ?_, ?_, fun rest wait hlast => ?_⟩
    · rw [performAll, List.foldl_append]
      exact htrace.trans htrace'
    · have hsubmitted : submitted (es ++ es') = submitted es ++ submitted es' :=
        List.filterMap_append
      rw [hsubmitted, List.map_append, hjobs, hjobs', List.filterMap_append]
      cases hjob : order.job? <;> simp [hjob]
    · exact hclosed wait (List.singleton_inj.mp (List.append_inj' hlast rfl).2)

/-- Whatever is asked of a pool in which all jobs differ: it comes to a history of single
happenings, and at every moment of it the pool is bounded and fair. When it was left to settle, it
has settled; after a shutdown no work is unfinished. -/
theorem bounded_pool (hslots : 1 ≤ slots) {orders : List Order}
    (hdistinct : (orders.filterMap (·.job?)).Nodup) :
    ∃ es, (Bench.starting slots).Trace es (performAll orders (Bench.starting slots)) ∧
      (submitted es).map (·.job) = orders.filterMap (·.job?) ∧
      (∀ earlier later, es = earlier ++ later → ∃ b, (Bench.starting slots).Trace earlier b ∧
        b.Trace later (performAll orders (Bench.starting slots)) ∧ Fair slots earlier b) ∧
      (∀ rest, orders = rest ++ [.settle] →
        (performAll orders (Bench.starting slots)).next? = none) ∧
      ∀ rest wait, orders = rest ++ [.shutdown wait] → unfinished es = [] := by
  obtain ⟨es, htrace, hjobs, hclosed⟩ := exists_trace hslots hdistinct
  refine ⟨es, htrace, hjobs, fun earlier later hes => ?_, fun rest hrest => ?_, hclosed⟩
  · rw [hes] at htrace
    obtain ⟨b, hearlier, hlater⟩ := htrace.split
    have hsub : (submitted earlier).Sublist (submitted es) :=
      hes ▸ (List.sublist_append_left _ _).filterMap _
    have hdistinct' : ((submitted earlier).map (·.job)).Nodup :=
      (hjobs ▸ hdistinct).sublist (hsub.map _)
    exact ⟨b, hearlier, hlater, fair_of_trace hearlier hdistinct'⟩
  · rw [hrest, performAll, List.foldl_append]
    exact next?_settle _

/-- Four jobs in two slots: the first fails and makes room for the third, the fourth is submitted
just before the pool is shut down without waiting. -/
def fourJobs : List Order :=
  [.submit "a" ⟨"first", 5, true⟩, .submit "b" ⟨"second", 10, false⟩,
    .submit "c" ⟨"third", 3, false⟩, .settle, .advance 6, .submit "d" ⟨"fourth", 1, false⟩,
    .shutdown false]

theorem bounded_pool_fourJobs :
    1 ≤ 2 ∧ (fourJobs.filterMap (·.job?)).Nodup ∧
      (performAll fourJobs (Bench.starting 2)).log.map (fun l => (l.time, l.name, l.mark)) =
        [(0, "first", .began), (0, "second", .began), (5, "third", .began),
          (6, "second", .cancelled), (6, "third", .cancelled)] ∧
      ∃ es, (Bench.starting 2).Trace es (performAll fourJobs (Bench.starting 2)) ∧
        (submitted es).map (·.job) = ["a", "b", "c", "d"] ∧
        Fair 2 es (performAll fourJobs (Bench.starting 2)) ∧ unfinished es = [] := by
  have hslots : 1 ≤ 2 := by decide
  have hdistinct : (fourJobs.filterMap (·.job?)).Nodup := by decide
  obtain ⟨es, htrace, hjobs, hfair, -, hclosed⟩ := bounded_pool hslots hdistinct
  refine ⟨hslots, hdistinct, by decide +kernel, es, htrace, hjobs, ?_, ?_⟩
  · obtain ⟨b, hes, hrest, hb⟩ := hfair es [] (List.append_nil es).symm
    exact hrest.eq_of_nil ▸ hb
  · exact hclosed [.submit "a" ⟨"first", 5, true⟩, .submit "b" ⟨"second", 10, false⟩,
      .submit "c" ⟨"third", 3, false⟩, .settle, .advance 6, .submit "d" ⟨"fourth", 1, false⟩]
      false rfl

end Bench
end JobControl
