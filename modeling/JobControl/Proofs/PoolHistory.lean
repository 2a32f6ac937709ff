import JobControl.Pool.Bench

/-! # What happens in a pool

`Bench.Happens` lists the single things that happen in a pool: work is submitted, begins, ends or is
cancelled, and time passes. Every operation of the bench is a sequence of them (`Order.trace`), so
what holds after every `Bench.Trace` holds at every moment, also in the middle of an operation. -/

namespace JobControl

deriving instance DecidableEq for Ticket

inductive Happening where
  | submitted (t : Ticket Task)
  | began (t : Ticket Task)
  /-- The work has come to its end, well or badly. -/
  | ended (t : Ticket Task)
  | cancelled (t : Ticket Task)
  | passed

namespace Happening

def submitted? : Happening → Option (Ticket Task)
  | submitted t => some t
  | _ => none

def began? : Happening → Option (Ticket Task)
  | began t => some t
  | _ => none

def ended? : Happening → Option (Ticket Task)
  | ended t => some t
  | _ => none

/-- The work that is over: it has ended, or was cancelled. -/
def closed? : Happening → Option (Ticket Task)
  | ended t => some t
  | cancelled t => some t
  | _ => none

end Happening

/-! ## What a history tells -/

namespace History

def submitted (es : List Happening) : List (Ticket Task) := es.filterMap (·.submitted?)

def began (es : List Happening) : List (Ticket Task) := es.filterMap (·.began?)

def ended (es : List Happening) : List (Ticket Task) := es.filterMap (·.ended?)

def closed (es : List Happening) : List (Ticket Task) := es.filterMap (·.closed?)

section
variable (es : List Happening) (e : Happening)

theorem filterMap_snoc (f : Happening → Option (Ticket Task)) :
    (es ++ [e]).filterMap f = es.filterMap f ++ (f e).toList := by
  rw [List.filterMap_append]
  cases h : f e <;> simp [h]

theorem submitted_snoc : submitted (es ++ [e]) = submitted es ++ e.submitted?.toList :=
  filterMap_snoc es e _

theorem began_snoc : began (es ++ [e]) = began es ++ e.began?.toList := filterMap_snoc es e _

theorem ended_snoc : ended (es ++ [e]) = ended es ++ e.ended?.toList := filterMap_snoc es e _

theorem closed_snoc : closed (es ++ [e]) = closed es ++ e.closed?.toList := filterMap_snoc es e _

end

/-- What was submitted and has neither begun nor been cancelled. -/
def waiting (es : List Happening) : List (Ticket Task) :=
  (submitted es).filter fun t => t ∉ began es ∧ t ∉ closed es

/-- What has begun and is not closed. -/
def executing (es : List Happening) : List (Ticket Task) :=
  (began es).filter fun t => t ∉ closed es

/-- What was submitted and is not closed. -/
def unfinished (es : List Happening) : List (Ticket Task) :=
  (submitted es).filter fun t => t ∉ closed es

end History

namespace Bench
variable {b b' b'' : Bench} {es es' : List Happening}

/-- The work of a ticket has got a slot and begins. -/
def start (b : Bench) (t : Ticket Task) (pool : Pool Task) : Bench :=
  { b with pool, due := b.due.insert t.number (b.now + max 0 t.work.takes) }.note t.work.name .began

/-- One thing that happens in the pool. -/
inductive Happens (b : Bench) : Happening → Bench → Prop
  | submit (job : String) (task : Task) :
    Happens b (.submitted ⟨b.pool.issued, job, task⟩) (b.submit job task)
  | start {t : Ticket Task} {pool : Pool Task} (granted : b.pool.grant? = some (t, pool)) :
    Happens b (.began t) (b.start t pool)
  | finish {t : Ticket Task} (active : t ∈ b.pool.active)
    (due : (b.due.get? t.number).any (· ≤ b.now)) : Happens b (.ended t) (b.finish t)
  | interrupt {t : Ticket Task} (active : t ∈ b.pool.active) :
    Happens b (.cancelled t) (b.interrupt t)
  | drop {t : Ticket Task} (queued : t ∈ b.pool.queue) :
    Happens b (.cancelled t) { b with pool := b.pool.finish t.number }
  | pass (time : Micros) : Happens b .passed { b with now := time }

inductive Trace (b : Bench) : List Happening → Bench → Prop
  | refl : Trace b [] b
  | snoc {es : List Happening} {e : Happening} {b' b'' : Bench} (h : Trace b es b')
    (he : b'.Happens e b'') : Trace b (es ++ [e]) b''

namespace Trace

theorem single {e : Happening} (h : b.Happens e b') : b.Trace [e] b' := .snoc .refl h

theorem trans (h : b.Trace es b') (h' : b'.Trace es' b'') : b.Trace (es ++ es') b'' := by
  induction h' with
  | refl => rwa [List.append_nil]
  | snoc _ he ih =>
    rw [← List.append_assoc]
    exact .snoc ih he

theorem eq_of_nil (h : b.Trace [] b') : b' = b := by
  generalize hes : ([] : List Happening) = es at h
  cases h with
  | refl => rfl
  | snoc => exact absurd hes.symm (by simp)

/-- There is a state of the pool after every part of its history. -/
theorem split (h : b.Trace (es ++ es') b'') : ∃ b', b.Trace es b' ∧ b'.Trace es' b'' := by
  generalize hall : es ++ es' = all at h
  induction h generalizing es' with
  | refl =>
    obtain ⟨rfl, rfl⟩ := List.append_eq_nil_iff.mp hall
    exact ⟨b, .refl, .refl⟩
  | @snoc front e b₁ b₂ hfront he ih =>
    rcases List.eq_nil_or_concat es' with rfl | ⟨back, e', rfl⟩
    · rw [List.append_nil] at hall
      exact ⟨b₂, hall ▸ .snoc hfront he, .refl⟩
    · rw [List.concat_eq_append, ← List.append_assoc] at hall
      obtain ⟨hfronts, hlast⟩ := List.append_inj' hall rfl
      obtain rfl := List.singleton_inj.mp hlast
      obtain ⟨b', hb', hback⟩ := ih hfronts
      exact ⟨b', hb', by rw [List.concat_eq_append]; exact .snoc hback he⟩

end Trace

/-! ## Operations -/

theorem next?_eq_some (h : b.next? = some b') :
    (∃ t ∈ b.pool.active, (b.due.get? t.number).any (· ≤ b.now) ∧ b' = b.finish t) ∨
      ∃ t pool, b.pool.grant? = some (t, pool) ∧ b' = b.start t pool := by
  unfold next? at h
  split at h
  · rename_i t hfind
    have hdue := List.find?_some hfind
    exact .inl ⟨t, List.mem_of_find?_eq_some hfind, hdue, (Option.some.inj h).symm⟩
  · split at h
    · rename_i t pool hgrant
      exact .inr ⟨t, pool, hgrant, (Option.some.inj h).symm⟩
    · contradiction

/-- What is asked of a pool. Settling lets everything happen that is possible at the time. -/
inductive Order where
  | submit (job : String) (task : Task)
  | advance (span : Micros)
  | shutdown (wait : Bool)
  | settle

def Order.perform (b : Bench) : Order → Bench
  | submit job task => b.submit job task
  | advance span => b.advance span
  | shutdown wait => b.shutdown wait
  | settle => b.settle

def Order.job? : Order → Option String
  | submit job _ => some job
  | _ => none

/-- The pool after a sequence of orders. -/
def performAll (orders : List Order) (b : Bench) : Bench := orders.foldl Order.perform b

/-- A sequence of happenings in which nothing is submitted. -/
def Quiet (b b' : Bench) : Prop := ∃ es, b.Trace es b' ∧ History.submitted es = []

namespace Quiet

theorem refl (b : Bench) : b.Quiet b := ⟨[], .refl, rfl⟩

theorem trans (h : b.Quiet b') (h' : b'.Quiet b'') : b.Quiet b'' := by
  obtain ⟨es, htrace, hes⟩ := h
  obtain ⟨es', htrace', hes'⟩ := h'
  refine ⟨es ++ es', htrace.trans htrace', ?_⟩
  rw [History.submitted, List.filterMap_append]
  exact List.append_eq_nil_iff.mpr ⟨hes, hes'⟩

theorem single {e : Happening} (h : b.Happens e b') (he : e.submitted? = none) : b.Quiet b' :=
  ⟨[e], .single h, by rw [← List.nil_append [e], History.submitted_snoc, he]; rfl⟩

theorem pass (b : Bench) (time : Micros) : b.Quiet { b with now := time } :=
  .single (.pass time) rfl

theorem next? (h : b.next? = some b') : b.Quiet b' := by
  rcases next?_eq_some h with ⟨t, hactive, hdue, rfl⟩ | ⟨t, pool, hgrant, rfl⟩
  · exact .single (.finish hactive hdue) rfl
  · exact .single (.start hgrant) rfl

theorem settleWithin (fuel : Nat) (b : Bench) : b.Quiet (settleWithin fuel b) := by
  induction fuel generalizing b with
  | zero => exact .refl b
  | succ fuel ih =>
    unfold Bench.settleWithin
    split
    · rename_i b' hnext
      exact (next? hnext).trans (ih b')
    · exact .refl b

theorem settle (b : Bench) : b.Quiet b.settle := settleWithin _ b

theorem settleAt (b : Bench) (time : Micros) : b.Quiet { b with now := time }.settle :=
  (pass b time).trans (settle _)

theorem advanceWithin (target : Micros) (fuel : Nat) (b : Bench) :
    b.Quiet (advanceWithin target fuel b) := by
  induction fuel generalizing b with
  | zero => exact pass b target
  | succ fuel ih =>
    unfold Bench.advanceWithin
    split
    · split
      · exact (settleAt b _).trans (ih _)
      · exact pass b target
    · exact pass b target

theorem advance (b : Bench) (span : Micros) : b.Quiet (b.advance span) :=
  (settle b).trans (advanceWithin _ _ _)

theorem drainWithin (numbers : List Nat) (fuel : Nat) (b : Bench) :
    b.Quiet (drainWithin numbers fuel b) := by
  induction fuel generalizing b with
  | zero => exact .refl b
  | succ fuel ih =>
    unfold Bench.drainWithin
    split
    · split
      · exact (settleAt b _).trans (ih _)
      · exact .refl b
    · exact .refl b

end Quiet

/-! ## Settling -/

theorem pool_finish (b : Bench) (t : Ticket Task) : (b.finish t).pool = b.pool.finish t.number := by
  unfold finish
  dsimp only
  split <;> rfl

theorem due_finish (b : Bench) (t : Ticket Task) : (b.finish t).due = b.due.erase t.number := by
  unfold finish
  dsimp only
  split <;> rfl

theorem length_finish_lt {t : Ticket Task} (h : t ∈ b.pool.active) :
    (b.finish t).pool.active.length < b.pool.active.length ∧
      (b.finish t).pool.queue.length ≤ b.pool.queue.length := by
  rw [pool_finish]
  refine ⟨?_, List.length_filter_le ..⟩
  refine List.length_filter_lt_length_iff_exists.mpr ⟨t, h, ?_⟩
  simp

theorem length_start {t : Ticket Task} {pool : Pool Task}
    (h : b.pool.grant? = some (t, pool)) :
    (b.start t pool).pool.active.length = b.pool.active.length + 1 ∧
      (b.start t pool).pool.queue.length + 1 = b.pool.queue.length := by
  unfold Pool.grant? at h
  split at h
  · split at h
    · rename_i hqueue
      obtain ⟨rfl, rfl⟩ := Prod.mk.inj (Option.some.inj h)
      rw [hqueue]
      exact ⟨List.length_append, rfl⟩
    · contradiction
  · contradiction

/-- What may still happen: each piece of work begins and ends. -/
def outlook (b : Bench) : Nat := 2 * b.pool.queue.length + b.pool.active.length

theorem outlook_lt_of_next? (h : b.next? = some b') : b'.outlook < b.outlook := by
  unfold outlook
  rcases next?_eq_some h with ⟨t, hactive, -, rfl⟩ | ⟨t, pool, hgrant, rfl⟩
  · obtain ⟨hless, hle⟩ := length_finish_lt hactive
    omega
  · obtain ⟨hmore, hless⟩ := length_start hgrant
    omega

theorem next?_settleWithin {fuel : Nat} (h : b.outlook ≤ fuel) :
    (settleWithin fuel b).next? = none := by
  induction fuel generalizing b with
  | zero =>
    unfold settleWithin
    cases hnext : b.next? with
    | none => rfl
    | some b' =>
      have hless := outlook_lt_of_next? hnext
      omega
  | succ fuel ih =>
    unfold settleWithin
    split
    · rename_i b' hnext
      have hless := outlook_lt_of_next? hnext
      exact ih (by omega)
    · assumption

/-- When a pool has settled, nothing more is possible at the time. -/
theorem next?_settle (b : Bench) : b.settle.next? = none := by
  refine next?_settleWithin ?_
  unfold outlook
  omega

/-- How much work is pending. -/
def load (b : Bench) : Nat := b.pool.queue.length + b.pool.active.length

theorem load_le_of_next? (h : b.next? = some b') : b'.load ≤ b.load := by
  unfold load
  rcases next?_eq_some h with ⟨t, hactive, -, rfl⟩ | ⟨t, pool, hgrant, rfl⟩
  · obtain ⟨hless, hle⟩ := length_finish_lt hactive
    omega
  · obtain ⟨hmore, hless⟩ := length_start hgrant
    omega

theorem load_settleWithin_le (fuel : Nat) (b : Bench) : (settleWithin fuel b).load ≤ b.load := by
  induction fuel generalizing b with
  | zero => exact Nat.le_refl _
  | succ fuel ih =>
    unfold settleWithin
    split
    · rename_i b' hnext
      exact Nat.le_trans (ih b') (load_le_of_next? hnext)
    · exact Nat.le_refl _

/-- Where some work is due, settling ends it. -/
theorem load_settle_lt {t : Ticket Task} (hactive : t ∈ b.pool.active)
    (hdue : (b.due.get? t.number).any (· ≤ b.now)) : b.settle.load < b.load := by
  have hpos : 0 < b.pool.active.length := List.length_pos_of_mem hactive
  obtain ⟨fuel, hfuel⟩ : ∃ fuel, 2 * (b.pool.queue.length + b.pool.active.length) = fuel + 1 :=
    ⟨2 * (b.pool.queue.length + b.pool.active.length) - 1, by omega⟩
  have hfound : (b.pool.active.find? fun t => (b.due.get? t.number).any (· ≤ b.now)).isSome :=
    List.find?_isSome.mpr ⟨t, hactive, hdue⟩
  obtain ⟨t', ht'⟩ := Option.isSome_iff_exists.mp hfound
  have hnext : b.next? = some (b.finish t') := by
    unfold next?
    rw [ht']
  have hless := (length_finish_lt (List.mem_of_find?_eq_some ht')).1
  have hle := (length_finish_lt (List.mem_of_find?_eq_some ht')).2
  have hsettle : b.settle = settleWithin fuel (b.finish t') := by
    unfold settle
    rw [hfuel, settleWithin, hnext]
  have hrest := load_settleWithin_le fuel (b.finish t')
  rw [hsettle]
  unfold load at hrest ⊢
  omega

end Bench
end JobControl
