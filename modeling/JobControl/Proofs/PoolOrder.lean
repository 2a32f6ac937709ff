import Mathlib.Data.List.Nodup
import Mathlib.Data.List.Perm.Basic
import JobControl.Proofs.PoolHistory

/-! # The state of a pool and its history

`Bench.Orderly` ties the state of a pool to its history: the queue is what waits, the slots are held
by what is being executed, and work begins in the order of its submission. `Bench.Tracks` says of
which work the pool keeps track. Each is settled for single happenings, and so for every history. -/

namespace JobControl
open History

/-! ## Tickets and their numbers -/

namespace Bench
variable {slots : Nat} {b b' : Bench} {es : List Happening} {e : Happening} {t : Ticket Task}

/-- The state of a pool is what its history tells. -/
structure Orderly (slots : Nat) (es : List Happening) (b : Bench) : Prop where
  slots_eq : b.pool.slots = slots
  numbers : (submitted es).map (·.number) = List.range b.pool.issued
  queue : b.pool.queue = waiting es
  active : b.pool.active = executing es
  /-- Work begins in the order of its submission; what has not begun comes later. -/
  order : (began es ++ waiting es).Sublist (submitted es)
  ended : ∀ t ∈ ended es, t ∈ began es
  closed : ∀ t ∈ closed es, t ∈ submitted es
  bounded : (executing es).length ≤ slots
  /-- Exactly the work that is being executed has an end. -/
  due : ∀ n, (b.due.get? n).isSome ↔ ∃ t ∈ executing es, t.number = n

namespace Orderly

theorem starting (slots : Nat) : Orderly slots [] (starting slots) where
  slots_eq := rfl
  numbers := rfl
  queue := rfl
  active := rfl
  order := .slnil
  ended := nofun
  closed := nofun
  bounded := Nat.zero_le slots
  due n := by simp [Bench.starting, executing, began]

theorem mem_submitted_of_began (h : Orderly slots es b) (ht : t ∈ began es) : t ∈ submitted es :=
  h.order.subset (List.mem_append_left _ ht)

theorem mem_unfinished (h : Orderly slots es b) :
    t ∈ unfinished es ↔ t ∈ waiting es ∨ t ∈ executing es := by
  unfold unfinished waiting executing
  simp only [List.mem_filter, decide_eq_true_eq]
  constructor
  · rintro ⟨hsubmitted, hclosed⟩
    by_cases hbegan : t ∈ began es
    · exact .inr ⟨hbegan, hclosed⟩
    · exact .inl ⟨hsubmitted, hbegan, hclosed⟩
  · rintro (⟨hsubmitted, -, hclosed⟩ | ⟨hbegan, hclosed⟩)
    · exact ⟨hsubmitted, hclosed⟩
    · exact ⟨h.mem_submitted_of_began hbegan, hclosed⟩

theorem nodup_submitted (h : Orderly slots es b) : (submitted es).Nodup :=
  .of_map (·.number) (h.numbers ▸ List.nodup_range)

/-- A ticket is known by its number. -/
theorem eq_of_number (h : Orderly slots es b) {t' : Ticket Task} (ht : t ∈ submitted es)
    (ht' : t' ∈ submitted es) (hnumber : t.number = t'.number) : t = t' :=
  List.inj_on_of_nodup_map (h.numbers ▸ List.nodup_range) ht ht' hnumber

theorem number_lt (h : Orderly slots es b) (ht : t ∈ submitted es) : t.number < b.pool.issued := by
  have hmem := List.mem_map_of_mem (f := (·.number)) ht
  rw [h.numbers] at hmem
  exact List.mem_range.mp hmem

theorem filter_number (h : Orderly slots es b) (ht : t ∈ submitted es) {l : List (Ticket Task)}
    (hl : ∀ t' ∈ l, t' ∈ submitted es) :
    l.filter (·.number ≠ t.number) = l.filter (· ≠ t) := by
  refine List.filter_congr fun t' ht' => ?_
  have hiff : t'.number = t.number ↔ t' = t :=
    ⟨h.eq_of_number (hl t' ht') ht, fun e => e ▸ rfl⟩
  simp [hiff]

/-! ## Single happenings -/

theorem submit (h : Orderly slots es b) (job : String) (task : Task) :
    Orderly slots (es ++ [.submitted ⟨b.pool.issued, job, task⟩]) (b.submit job task) := by
  obtain ⟨t, ht⟩ : ∃ t : Ticket Task, t = ⟨b.pool.issued, job, task⟩ := ⟨_, rfl⟩
  rw [← ht]
  have hsubmitted : submitted (es ++ [.submitted t]) = submitted es ++ [t] := submitted_snoc ..
  have hbegan : began (es ++ [.submitted t]) = began es :=
    (began_snoc ..).trans (List.append_nil _)
  have hended : History.ended (es ++ [.submitted t]) = History.ended es :=
    (ended_snoc ..).trans (List.append_nil _)
  have hclosed : History.closed (es ++ [.submitted t]) = History.closed es :=
    (closed_snoc ..).trans (List.append_nil _)
  -- The ticket has a number of its own, so nothing has happened to it yet.
  have hnew : t ∉ submitted es := by
    intro hmem
    have hlt := h.number_lt hmem
    rw [ht] at hlt
    exact Nat.lt_irrefl _ hlt
  have hwaits : t ∉ began es ∧ t ∉ History.closed es :=
    ⟨fun hmem => hnew (h.mem_submitted_of_began hmem), fun hmem => hnew (h.closed t hmem)⟩
  have hwaiting : waiting (es ++ [.submitted t]) = waiting es ++ [t] := by
    unfold waiting
    rw [hsubmitted, hbegan, hclosed, List.filter_append, List.filter_singleton]
    simp [hwaits]
  have hexecuting : executing (es ++ [.submitted t]) = executing es := by
    unfold executing
    rw [hbegan, hclosed]
  refine ⟨h.slots_eq, ?_, ?_, ?_, ?_, ?_, ?_, ?_, ?_⟩
  · rw [hsubmitted, List.map_append, h.numbers]
    show _ = List.range (b.pool.issued + 1)
    rw [List.range_succ, ht]
    rfl
  · rw [hwaiting, ← h.queue, ht]
    rfl
  · rw [hexecuting]
    exact h.active
  · rw [hbegan, hwaiting, hsubmitted, ← List.append_assoc]
    exact h.order.append (.refl _)
  · rw [hended, hbegan]
    exact h.ended
  · intro t' ht'
    rw [hclosed] at ht'
    rw [hsubmitted]
    exact List.mem_append_left _ (h.closed t' ht')
  · rw [hexecuting]
    exact h.bounded
  · rw [hexecuting]
    exact h.due

theorem start (h : Orderly slots es b) {pool : Pool Task}
    (hgrant : b.pool.grant? = some (t, pool)) :
    Orderly slots (es ++ [.began t]) (b.start t pool) := by
  have hsubmitted : submitted (es ++ [.began t]) = submitted es :=
    (submitted_snoc ..).trans (List.append_nil _)
  have hbegan : began (es ++ [.began t]) = began es ++ [t] := began_snoc ..
  have hended : History.ended (es ++ [.began t]) = History.ended es :=
    (ended_snoc ..).trans (List.append_nil _)
  have hclosed : History.closed (es ++ [.began t]) = History.closed es :=
    (closed_snoc ..).trans (List.append_nil _)
  unfold Pool.grant? at hgrant
  split at hgrant
  case isFalse => contradiction
  case isTrue hfree =>
  split at hgrant
  case h_2 => contradiction
  case h_1 t' rest hqueue =>
  obtain ⟨rfl, rfl⟩ := Prod.mk.inj (Option.some.inj hgrant)
  have hhead : waiting es = t' :: rest := h.queue.symm.trans hqueue
  have hmem : t' ∈ waiting es := hhead ▸ List.mem_cons_self
  obtain ⟨ht, hnot⟩ := List.mem_filter.mp hmem
  simp only [decide_eq_true_eq] at hnot
  have hnodup : (t' :: rest).Nodup := hhead ▸ h.nodup_submitted.filter _
  have hwaiting : waiting (es ++ [.began t']) = rest := by
    have hfilter : waiting (es ++ [.began t']) = (waiting es).filter (· ≠ t') := by
      unfold waiting
      rw [hsubmitted, hbegan, hclosed, List.filter_filter]
      refine List.filter_congr fun u _ => ?_
      simp only [List.mem_append, List.mem_singleton, ne_eq, not_or]
      by_cases hu : u = t' <;> simp [hu]
    rw [hfilter, hhead, List.filter_cons_of_neg (by simp)]
    refine List.filter_eq_self.mpr fun u hu => ?_
    have hne : u ≠ t' := fun e => (List.nodup_cons.mp hnodup).1 (e ▸ hu)
    simpa using hne
  have hexecuting : executing (es ++ [.began t']) = executing es ++ [t'] := by
    unfold executing
    rw [hbegan, hclosed, List.filter_append, List.filter_singleton]
    simp [hnot.2]
  refine ⟨h.slots_eq, ?_, ?_, ?_, ?_, ?_, ?_, ?_, fun n => ?_⟩
  · rw [hsubmitted]
    exact h.numbers
  · exact hwaiting.symm
  · rw [hexecuting, ← h.active]
    rfl
  · have horder := h.order
    rw [hhead] at horder
    rw [hbegan, hwaiting, hsubmitted, List.append_assoc]
    exact horder
  · intro u hu
    rw [hended] at hu
    rw [hbegan]
    exact List.mem_append_left _ (h.ended u hu)
  · rw [hclosed, hsubmitted]
    exact h.closed
  · rw [hexecuting, List.length_append, ← h.active, ← h.slots_eq]
    exact hfree
  · have hdue : (b.start t' { b.pool with queue := rest, active := b.pool.active ++ [t'] }).due =
        b.due.insert t'.number (b.now + max 0 t'.work.takes) := rfl
    rw [hdue, Mapping.get?_insert, hexecuting]
    by_cases hn : n = t'.number
    · simp [hn]
    · have hn' : ¬t'.number = n := fun e => hn e.symm
      simp [hn, hn', h.due]

/-- The work of a ticket is closed, and the ticket is taken away. -/
theorem close (h : Orderly slots es b) (hsubmit : e.submitted? = none) (hbegin : e.began? = none)
    (hend : ∀ u, e.ended? = some u → u ∈ began es) (hclose : e.closed? = some t)
    (ht : t ∈ submitted es) (hpool : b'.pool = b.pool.finish t.number)
    (hdue : ∀ n, (b'.due.get? n).isSome ↔ (b.due.get? n).isSome ∧ n ≠ t.number) :
    Orderly slots (es ++ [e]) b' := by
  have hsubmitted : submitted (es ++ [e]) = submitted es := by
    rw [submitted_snoc, hsubmit, Option.toList_none, List.append_nil]
  have hbegan : began (es ++ [e]) = began es := by
    rw [began_snoc, hbegin, Option.toList_none, List.append_nil]
  have hclosed : History.closed (es ++ [e]) = History.closed es ++ [t] := by
    rw [closed_snoc, hclose, Option.toList_some]
  have hwaiting : waiting (es ++ [e]) = (waiting es).filter (· ≠ t) := by
    unfold waiting
    rw [hsubmitted, hbegan, hclosed, List.filter_filter]
    refine List.filter_congr fun u _ => ?_
    simp only [List.mem_append, List.mem_singleton, ne_eq, not_or]
    by_cases hu : u = t <;> simp [hu]
  have hexecuting : executing (es ++ [e]) = (executing es).filter (· ≠ t) := by
    unfold executing
    rw [hbegan, hclosed, List.filter_filter]
    refine List.filter_congr fun u _ => ?_
    simp only [List.mem_append, List.mem_singleton, ne_eq, not_or]
    by_cases hu : u = t <;> simp [hu]
  have hwaits : ∀ u ∈ waiting es, u ∈ submitted es := fun u hu => (List.mem_filter.mp hu).1
  have hexecutes : ∀ u ∈ executing es, u ∈ submitted es := fun u hu =>
    h.mem_submitted_of_began (List.mem_filter.mp hu).1
  have hsub : (executing (es ++ [e])).Sublist (executing es) := by
    rw [hexecuting]
    exact List.filter_sublist
  refine ⟨?_, ?_, ?_, ?_, ?_, fun u hu => ?_, fun u hu => ?_, ?_, fun n => ?_⟩
  · rw [hpool]
    exact h.slots_eq
  · rw [hsubmitted, hpool]
    exact h.numbers
  · rw [hpool, hwaiting, ← h.filter_number ht hwaits, ← h.queue]
    rfl
  · rw [hpool, hexecuting, ← h.filter_number ht hexecutes, ← h.active]
    rfl
  · rw [hbegan, hsubmitted, hwaiting]
    exact ((List.Sublist.refl _).append List.filter_sublist).trans h.order
  · rw [hbegan]
    simp only [ended_snoc, List.mem_append, Option.mem_toList] at hu
    rcases hu with hu | hu
    · exact h.ended u hu
    · exact hend u hu
  · rw [hsubmitted]
    rw [hclosed] at hu
    rcases List.mem_append.mp hu with hu | hu
    · exact h.closed u hu
    · exact List.mem_singleton.mp hu ▸ ht
  · exact Nat.le_trans hsub.length_le h.bounded
  · rw [hdue, h.due, hexecuting]
    constructor
    · rintro ⟨⟨u, hu, rfl⟩, hne⟩
      have hut : u ≠ t := fun e => hne (e ▸ rfl)
      exact ⟨u, List.mem_filter.mpr ⟨hu, by simpa using hut⟩, rfl⟩
    · rintro ⟨u, hu, rfl⟩
      obtain ⟨hu, hut⟩ := List.mem_filter.mp hu
      refine ⟨⟨u, hu, rfl⟩, fun hnumber => ?_⟩
      exact of_decide_eq_true hut (h.eq_of_number (hexecutes u hu) ht hnumber)

theorem happens (h : Orderly slots es b) (he : b.Happens e b') : Orderly slots (es ++ [e]) b' := by
  have hexecutes : ∀ u ∈ b.pool.active, u ∈ began es ∧ u ∈ submitted es := by
    intro u hu
    rw [h.active] at hu
    have hbegan := (List.mem_filter.mp hu).1
    exact ⟨hbegan, h.mem_submitted_of_began hbegan⟩
  have herase : ∀ (u : Ticket Task) n,
      ((b.due.erase u.number).get? n).isSome ↔ (b.due.get? n).isSome ∧ n ≠ u.number := by
    intro u n
    rw [Mapping.get?_erase]
    by_cases hn : n = u.number <;> simp [hn]
  have hnone : ∀ {e : Happening}, e.ended? = none → ∀ u, e.ended? = some u → u ∈ began es :=
    fun hn u hu => absurd (hu.symm.trans hn) (Option.some_ne_none u)
  cases he with
  | submit job task => exact h.submit job task
  | start hgrant => exact h.start hgrant
  | @finish t hactive =>
    obtain ⟨hbegan, hsubmitted⟩ := hexecutes t hactive
    refine h.close rfl rfl (fun u hu => Option.some.inj hu ▸ hbegan) rfl hsubmitted ?_ fun n => ?_
    · exact pool_finish b t
    · rw [due_finish]
      exact herase t n
  | @interrupt t hactive =>
    obtain ⟨-, hsubmitted⟩ := hexecutes t hactive
    exact h.close rfl rfl (hnone rfl) rfl hsubmitted rfl (herase t)
  | @drop t hqueued =>
    rw [h.queue] at hqueued
    obtain ⟨hsubmitted, hnot⟩ := List.mem_filter.mp hqueued
    simp only [decide_eq_true_eq] at hnot
    refine h.close rfl rfl (hnone rfl) rfl hsubmitted rfl fun n => ?_
    -- Work that has not begun has no end.
    refine ⟨fun hn => ⟨hn, ?_⟩, fun hn => hn.1⟩
    rintro rfl
    obtain ⟨u, hu, hnumber⟩ := (h.due _).mp hn
    obtain ⟨hbegan, -⟩ := List.mem_filter.mp hu
    obtain rfl := h.eq_of_number (h.mem_submitted_of_began hbegan) hsubmitted hnumber
    exact hnot.1 hbegan
  | pass time =>
    have hsubmitted : submitted (es ++ [.passed]) = submitted es :=
      (submitted_snoc ..).trans (List.append_nil _)
    have hbegan : began (es ++ [.passed]) = began es := (began_snoc ..).trans (List.append_nil _)
    have hended : History.ended (es ++ [.passed]) = History.ended es :=
      (ended_snoc ..).trans (List.append_nil _)
    have hclosed : History.closed (es ++ [.passed]) = History.closed es :=
      (closed_snoc ..).trans (List.append_nil _)
    refine ⟨h.slots_eq, ?_, ?_, ?_, ?_, ?_, ?_, ?_, ?_⟩
    all_goals simp only [waiting, executing, hsubmitted, hbegan, hended, hclosed]
    · exact h.numbers
    · exact h.queue
    · exact h.active
    · exact h.order
    · exact h.ended
    · exact h.closed
    · exact h.bounded
    · exact h.due

/-- Every moment of a history is in order. -/
theorem of_trace (h : (Bench.starting slots).Trace es b) : Orderly slots es b := by
  induction h with
  | refl => exact .starting slots
  | snoc _ he ih => exact ih.happens he

/-- In a pool that has settled, no work waits while a slot is free. -/
theorem full (h : Orderly slots es b) (hsettled : b.next? = none) (hwaits : waiting es ≠ []) :
    (executing es).length = slots := by
  have hgrant : b.pool.grant? = none := by
    unfold next? at hsettled
    split at hsettled
    · contradiction
    · split at hsettled
      · contradiction
      · assumption
  have hqueue : b.pool.queue ≠ [] := h.queue ▸ hwaits
  unfold Pool.grant? at hgrant
  split at hgrant
  · split at hgrant
    · contradiction
    · contradiction
  · rename_i hfull
    rw [h.slots_eq, h.active] at hfull
    exact Nat.le_antisymm h.bounded (Nat.not_lt.mp hfull)

theorem isPending_iff (h : Orderly slots es b) (n : Nat) :
    b.pool.isPending n ↔ ∃ t ∈ unfinished es, t.number = n := by
  unfold Pool.isPending
  rw [h.queue, h.active, List.any_append]
  simp only [Bool.or_eq_true, List.any_eq_true, decide_eq_true_eq, h.mem_unfinished]
  grind

end Orderly

/-! ## Tracked work -/

/-- The tracked tickets are those of the unfinished work, which is so where the jobs differ. -/
def Tracks (es : List Happening) (b : Bench) : Prop :=
  ∀ job n, b.pool.tracked.get? job = some n ↔ ∃ t ∈ unfinished es, t.job = job ∧ t.number = n

theorem get?_foldl_erase (l : List (Ticket Task)) (m : Mapping String Nat) (job : String) :
    (l.foldl (fun m t => m.erase t.job) m).get? job =
      if ∃ t ∈ l, t.job = job then none else m.get? job := by
  induction l generalizing m with
  | nil => simp
  | cons t l ih =>
    rw [List.foldl_cons, ih, Mapping.get?_erase]
    by_cases ht : t.job = job
    · simp [ht]
    · have ht' : ¬job = t.job := fun e => ht e.symm
      simp [ht, ht']

/-- In a history in which all jobs differ, a job tells the ticket. -/
theorem eq_of_job (hdistinct : ((submitted es).map (·.job)).Nodup) {t t' : Ticket Task}
    (ht : t ∈ submitted es) (ht' : t' ∈ submitted es) (hjob : t.job = t'.job) : t = t' :=
  List.inj_on_of_nodup_map hdistinct ht ht' hjob

namespace Tracks

theorem submit (h : Tracks es b) (ho : Orderly slots es b) (job : String) (task : Task)
    (hdistinct : ((submitted (es ++ [.submitted ⟨b.pool.issued, job, task⟩])).map (·.job)).Nodup) :
    Tracks (es ++ [.submitted ⟨b.pool.issued, job, task⟩]) (b.submit job task) := by
  obtain ⟨t, ht⟩ : ∃ t : Ticket Task, t = ⟨b.pool.issued, job, task⟩ := ⟨_, rfl⟩
  rw [← ht] at hdistinct ⊢
  have hjob : t.job = job := by rw [ht]
  have hnumber : t.number = b.pool.issued := by rw [ht]
  have hsubmitted : submitted (es ++ [.submitted t]) = submitted es ++ [t] := submitted_snoc ..
  have hclosed : History.closed (es ++ [.submitted t]) = History.closed es :=
    (closed_snoc ..).trans (List.append_nil _)
  have hlast : t ∈ submitted (es ++ [.submitted t]) := by simp [hsubmitted]
  have hfresh : t ∉ History.closed es := fun hmem => by
    have hlt := ho.number_lt (ho.closed t hmem)
    omega
  have hunfinished : unfinished (es ++ [.submitted t]) = unfinished es ++ [t] := by
    unfold unfinished
    rw [hsubmitted, hclosed, List.filter_append, List.filter_singleton]
    simp [hfresh]
  intro k n
  have htracked : (b.submit job task).pool.tracked = b.pool.tracked.insert job b.pool.issued := rfl
  rw [htracked, Mapping.get?_insert, hunfinished]
  by_cases hk : k = job
  · rw [if_pos hk]
    constructor
    · intro hn
      exact ⟨t, by simp, hjob.trans hk.symm, hnumber.trans (Option.some.inj hn)⟩
    · rintro ⟨u, hu, hujob, rfl⟩
      have hmem : u ∈ submitted (es ++ [.submitted t]) := by
        rw [hsubmitted]
        rcases List.mem_append.mp hu with hu | hu
        · exact List.mem_append_left _ (List.mem_filter.mp hu).1
        · exact List.mem_append_right _ hu
      obtain rfl := eq_of_job hdistinct hmem hlast (hujob.trans (hk.trans hjob.symm))
      rw [hnumber]
  · rw [if_neg hk, h k n]
    constructor
    · rintro ⟨u, hu, hu'⟩
      exact ⟨u, List.mem_append_left _ hu, hu'⟩
    · rintro ⟨u, hu, hujob, hunumber⟩
      rcases List.mem_append.mp hu with hu | hu
      · exact ⟨u, hu, hujob, hunumber⟩
      · obtain rfl := List.mem_singleton.mp hu
        exact absurd (hujob.symm.trans hjob) hk

theorem same (h : Tracks es b) (hsubmit : e.submitted? = none) (hclosed : e.closed? = none)
    (htracked : b'.pool.tracked = b.pool.tracked) : Tracks (es ++ [e]) b' := by
  have hunfinished : unfinished (es ++ [e]) = unfinished es := by
    unfold unfinished
    rw [submitted_snoc, closed_snoc, hsubmit, hclosed, Option.toList_none, List.append_nil,
      List.append_nil]
  intro job n
  rw [htracked, hunfinished]
  exact h job n

/-- When the work of a ticket is closed, its job is no longer tracked. -/
theorem close (h : Tracks es b) (ho : Orderly slots es b)
    (hdistinct : ((submitted es).map (·.job)).Nodup) (hsubmit : e.submitted? = none)
    (hclose : e.closed? = some t) (ht : t ∈ unfinished es)
    (hpool : b'.pool = b.pool.finish t.number) : Tracks (es ++ [e]) b' := by
  have hsubmitted : ∀ {u}, u ∈ unfinished es → u ∈ submitted es := fun hu =>
    (List.mem_filter.mp hu).1
  have hpending : ∀ u, u ∈ b.pool.queue ++ b.pool.active ↔ u ∈ unfinished es := by
    intro u
    rw [ho.mem_unfinished, ho.queue, ho.active, List.mem_append]
  have hunfinished : ∀ u, u ∈ unfinished (es ++ [e]) ↔ u ∈ unfinished es ∧ u ≠ t := by
    intro u
    unfold unfinished
    rw [submitted_snoc, closed_snoc, hsubmit, hclose]
    simp only [Option.toList_none, List.append_nil, Option.toList_some, List.mem_filter,
      List.mem_append, List.mem_singleton, decide_eq_true_eq]
    grind
  -- Of the pending tickets only this one has its number, and only this one has its job.
  have hgone : ∀ job, (∃ u ∈ (b.pool.queue ++ b.pool.active).filter (·.number = t.number),
      u.job = job) ↔ job = t.job := by
    intro job
    constructor
    · rintro ⟨u, hu, rfl⟩
      obtain ⟨hu, hnumber⟩ := List.mem_filter.mp hu
      have hu' := hsubmitted ((hpending u).mp hu)
      rw [ho.eq_of_number hu' (hsubmitted ht) (of_decide_eq_true hnumber)]
    · rintro rfl
      exact ⟨t, List.mem_filter.mpr ⟨(hpending t).mpr ht, by simp⟩, rfl⟩
  intro job n
  have htracked : b'.pool.tracked = ((b.pool.queue ++ b.pool.active).filter
      (·.number = t.number)).foldl (fun m t => m.erase t.job) b.pool.tracked := by
    rw [hpool]
    rfl
  rw [htracked, get?_foldl_erase]
  simp only [hgone, hunfinished]
  by_cases hjob : job = t.job
  · rw [if_pos hjob]
    constructor
    · exact fun hn => absurd hn.symm (Option.some_ne_none n)
    · rintro ⟨u, ⟨hu, hne⟩, hujob, -⟩
      exact absurd (eq_of_job hdistinct (hsubmitted hu) (hsubmitted ht) (hujob.trans hjob)) hne
  · rw [if_neg hjob, h job n]
    constructor
    · rintro ⟨u, hu, hujob, hn⟩
      exact ⟨u, ⟨hu, fun e => hjob (e ▸ hujob).symm⟩, hujob, hn⟩
    · rintro ⟨u, ⟨hu, -⟩, hu'⟩
      exact ⟨u, hu, hu'⟩

theorem of_trace (h : (Bench.starting slots).Trace es b)
    (hdistinct : ((submitted es).map (·.job)).Nodup) : Tracks es b := by
  induction h with
  | refl =>
    intro job n
    simp [Bench.starting, Pool.empty, unfinished, submitted]
  | @snoc es e b₁ b₂ hfront he ih =>
    have ho := Orderly.of_trace hfront
    have hfronts : ((submitted es).map (·.job)).Nodup := by
      rw [submitted_snoc, List.map_append] at hdistinct
      exact (List.nodup_append.mp hdistinct).1
    have htracks := ih hfronts
    cases he with
    | submit job task => exact htracks.submit ho job task hdistinct
    | start hgrant =>
      refine htracks.same rfl rfl ?_
      unfold Pool.grant? at hgrant
      split at hgrant
      · split at hgrant
        · obtain ⟨rfl, rfl⟩ := Prod.mk.inj (Option.some.inj hgrant)
          rfl
        · contradiction
      · contradiction
    | finish hactive =>
      have ht := ho.mem_unfinished.mpr (.inr (ho.active ▸ hactive))
      exact htracks.close ho hfronts rfl rfl ht (pool_finish b₁ _)
    | interrupt hactive =>
      have ht := ho.mem_unfinished.mpr (.inr (ho.active ▸ hactive))
      exact htracks.close ho hfronts rfl rfl ht rfl
    | drop hqueued =>
      have ht := ho.mem_unfinished.mpr (.inl (ho.queue ▸ hqueued))
      exact htracks.close ho hfronts rfl rfl ht rfl
    | pass time => exact htracks.same rfl rfl rfl

theorem isTracked (h : Tracks es b) (ht : t ∈ unfinished es) : b.pool.isTracked t.number := by
  have hget := (h t.job t.number).mpr ⟨t, ht, rfl, rfl⟩
  have hmem := (b.pool.tracked.mem_entries_iff).mpr hget
  exact List.any_eq_true.mpr ⟨_, hmem, by simp⟩

theorem activeJobs (h : Tracks es b) (hdistinct : ((submitted es).map (·.job)).Nodup) :
    b.pool.activeJobs.Perm ((unfinished es).map (·.job)) := by
  have hsub : (unfinished es).Sublist (submitted es) := List.filter_sublist
  refine (List.mergeSort_perm ..).trans ?_
  refine (List.perm_ext_iff_of_nodup b.pool.tracked.distinct (hdistinct.sublist (hsub.map _))).mpr
    fun job => ?_
  constructor
  · intro hjob
    obtain ⟨⟨k, n⟩, hmem, rfl⟩ := List.mem_map.mp hjob
    obtain ⟨t, ht, hjob, -⟩ := (h k n).mp ((b.pool.tracked.mem_entries_iff).mp hmem)
    exact List.mem_map.mpr ⟨t, ht, hjob⟩
  · intro hjob
    obtain ⟨t, ht, rfl⟩ := List.mem_map.mp hjob
    have hget := (h t.job t.number).mpr ⟨t, ht, rfl, rfl⟩
    exact List.mem_map.mpr ⟨_, (b.pool.tracked.mem_entries_iff).mpr hget, rfl⟩

end Tracks

end Bench
end JobControl
