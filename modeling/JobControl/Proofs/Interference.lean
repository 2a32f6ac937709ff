import JobControl.Deployment.Command
import JobControl.Proofs.RunLockSpec

/-! # Statements among other writers

Calls of the run locks are carried out statement by statement, and between two statements of a call
the other calls go on. A `Path` is what the statements of all of them make of the documents, one
after the other. `Routine.Obeys` holds of a routine if, whatever the others do between its
statements, each of its own is allowed, and what it returns is accounted for by the path up to its
end. -/

namespace JobControl

namespace Documents
variable {ds ds' ds'' : Documents}

/-- No document gets lost, and one that is changed gets a higher version. -/
def Grows (ds ds' : Documents) : Prop :=
  ∀ topic d, ds.get topic = some d →
    ∃ d', ds'.get topic = some d' ∧ (d' = d ∨ d.version < d'.version)

theorem Grows.refl (ds : Documents) : Grows ds ds := fun _ d h => ⟨d, h, .inl rfl⟩

theorem Grows.trans (h : Grows ds ds') (h' : Grows ds' ds'') : Grows ds ds'' := by
  intro topic d hd
  obtain ⟨d', hd', hle⟩ := h topic d hd
  obtain ⟨d'', hd'', hle'⟩ := h' topic d' hd'
  refine ⟨d'', hd'', ?_⟩
  rcases hle with rfl | hlt
  · exact hle'
  · rcases hle' with rfl | hlt'
    · exact .inr hlt
    · exact .inr (Nat.lt_trans hlt hlt')

theorem Grows.create (ds : Documents) (topic : Topic) : Grows ds (ds.create topic) := by
  intro topic' d hd
  refine ⟨d, ?_, .inl rfl⟩
  rw [get_create]
  split
  · subst topic'
    rw [ds.current_of_get topic hd]
  · exact hd

theorem Grows.amend (ds : Documents) (topic : Topic) (data : Mapping String String) :
    Grows ds (ds.amend topic data) := by
  intro topic' d hd
  unfold Documents.amend write
  rw [get_set]
  split
  · subst topic'
    refine ⟨_, rfl, .inr ?_⟩
    rw [ds.current_of_get topic hd]
    exact Nat.lt_succ_self _
  · exact ⟨d, hd, .inl rfl⟩

end Documents

/-- A statement of a caller, and the documents on which it acted. -/
structure Statement where
  caller : Nat
  act : Documents → Documents
  before : Documents

namespace Statement

def after (e : Statement) : Documents := e.act e.before

/-- The statement reads, or creates a document that there was not, or fails to write. -/
def Idle (e : Statement) : Prop :=
  e.after = e.before ∨ ∃ topic, e.before.get topic = none ∧ e.after = e.before.create topic

/-- The statement changes a document. -/
def Changes (e : Statement) (topic : Topic) : Prop :=
  (e.before.current topic).version < (e.after.current topic).version

variable {e : Statement}

theorem Idle.current (h : e.Idle) (topic : Topic) :
    e.after.current topic = e.before.current topic := by
  rcases h with h | ⟨_, -, h⟩ <;> simp [h]

theorem Idle.not_changes (h : e.Idle) (topic : Topic) : ¬e.Changes topic := by
  unfold Changes
  rw [h.current]
  exact Nat.lt_irrefl _

theorem Idle.grows (h : e.Idle) : e.before.Grows e.after := by
  rcases h with h | ⟨topic, -, h⟩ <;> rw [h]
  · exact .refl _
  · exact .create _ topic

theorem idle_create (caller : Nat) (topic : Topic) (ds : Documents) :
    Idle ⟨caller, (·.create topic), ds⟩ := by
  cases h : ds.get topic with
  | none => exact .inr ⟨topic, h, rfl⟩
  | some d => exact .inl (ds.create_of_get topic h)

end Statement

/-- All the caller's own statements are idle. -/
def Silent (me : Nat) (past : List Statement) : Prop := ∀ e ∈ past, e.caller = me → e.Idle

namespace Silent
variable {me : Nat} {past more : List Statement}

theorem of_others (h : ∀ e ∈ past, e.caller ≠ me) : Silent me past :=
  fun e he hme => absurd hme (h e he)

theorem append (h : Silent me past) (hmore : Silent me more) : Silent me (past ++ more) := by
  intro e he
  rcases List.mem_append.mp he with he | he
  · exact h e he
  · exact hmore e he

theorem snoc (h : Silent me past) {e : Statement} (he : e.Idle) : Silent me (past ++ [e]) :=
  h.append fun _ he' _ => List.mem_singleton.mp he' ▸ he

theorem front (h : Silent me (past ++ more)) : Silent me past :=
  fun e he => h e (List.mem_append_left _ he)

end Silent

/-- The statements lead from the documents `ds₀` to the last ones. -/
inductive Path (ds₀ : Documents) : List Statement → Documents → Prop
  | nil : Path ds₀ [] ds₀
  | snoc {past : List Statement} {e : Statement} (h : Path ds₀ past e.before)
    (hgrows : e.before.Grows e.after) : Path ds₀ (past ++ [e]) e.after

namespace Path
variable {ds₀ ds : Documents} {me : Nat} {past front back : List Statement} {topic : Topic}
  {d : Document}

theorem snoc_cases {e : Statement} (h : Path ds₀ (past ++ [e]) ds) :
    Path ds₀ past e.before ∧ e.before.Grows e.after ∧ ds = e.after := by
  generalize hall : past ++ [e] = all at h
  cases h with
  | nil => exact absurd hall (by simp)
  | snoc h hgrows =>
    obtain ⟨rfl, hlast⟩ := List.append_inj' hall rfl
    obtain rfl := List.singleton_inj.mp hlast
    exact ⟨h, hgrows, rfl⟩

theorem of_append (h : Path ds₀ (front ++ back) ds) :
    ∃ ds₁, Path ds₀ front ds₁ ∧ Path ds₁ back ds := by
  generalize hall : front ++ back = all at h
  induction h generalizing back with
  | nil =>
    obtain ⟨rfl, rfl⟩ := List.append_eq_nil_iff.mp hall
    exact ⟨ds₀, .nil, .nil⟩
  | @snoc past e h hgrows ih =>
    rcases List.eq_nil_or_concat back with rfl | ⟨back, e', rfl⟩
    · rw [List.append_nil] at hall
      exact ⟨e.after, hall ▸ h.snoc hgrows, .nil⟩
    · rw [List.concat_eq_append, ← List.append_assoc] at hall
      obtain ⟨hfront, hlast⟩ := List.append_inj' hall rfl
      obtain rfl := List.singleton_inj.mp hlast
      obtain ⟨ds₁, h₁, h₂⟩ := ih hfront
      exact ⟨ds₁, h₁, List.concat_eq_append ▸ h₂.snoc hgrows⟩

theorem grows (h : Path ds₀ past ds) : ds₀.Grows ds := by
  induction h with
  | nil => exact .refl _
  | snoc _ hgrows ih => exact ih.trans hgrows

/-- What was there at the start is there at the end, or a statement has changed it that is not an
idle one of the caller. -/
theorem kept_or_changed (h : Path ds₀ past ds) (hd : ds₀.get topic = some d)
    (hidle : Silent me past) :
    ds.get topic = some d ∨
      (∃ d', ds.get topic = some d' ∧ d.version < d'.version) ∧
        ∃ e ∈ past, e.caller ≠ me ∧ e.Changes topic := by
  induction h with
  | nil => exact .inl hd
  | @snoc past e h hgrows ih =>
    have hlast : e ∈ past ++ [e] := List.mem_concat_self
    rcases ih hidle.front with hkept | ⟨⟨d₁, hd₁, hlt⟩, e₁, he₁, hchanges⟩
    · obtain ⟨d', hd', rfl | hlt⟩ := hgrows topic d hkept
      · exact .inl hd'
      · have hchanges : e.Changes topic := by
          unfold Statement.Changes
          rwa [e.before.current_of_get topic hkept, e.after.current_of_get topic hd']
        exact .inr ⟨⟨d', hd', hlt⟩, e, hlast,
          fun hme => (hidle e hlast hme).not_changes topic hchanges, hchanges⟩
    · obtain ⟨d', hd', hle⟩ := hgrows topic d₁ hd₁
      refine .inr ⟨⟨d', hd', ?_⟩, e₁, List.mem_append_left _ he₁, hchanges⟩
      rcases hle with rfl | hlt'
      · exact hlt
      · exact Nat.lt_trans hlt hlt'

end Path

/-! ## One caller among others -/

namespace Routine
variable {α β : Type} {ds₀ : Documents} {me : Nat} {Writes : Statement → Prop}
  {Post : List Statement → Except Failure α → Prop} {past : List Statement}

/-- Whatever others do between the statements of the routine, each of its own is idle or a write
that is allowed, and in the end the path accounts for the outcome. -/
def Obeys (ds₀ : Documents) (me : Nat) (Writes : Statement → Prop)
    (Post : List Statement → Except Failure α → Prop) :
    RunLock.Statements α → List Statement → Prop
  | done outcome, past => Post past outcome
  | step act next, past => ∀ others ds, (∀ e ∈ others, e.caller ≠ me) →
    Path ds₀ (past ++ others) ds →
    (Statement.Idle ⟨me, act, ds⟩ ∨ Writes ⟨me, act, ds⟩) ∧
      (next ds).Obeys ds₀ me Writes Post (past ++ others ++ [⟨me, act, ds⟩])
  | wait .., _ => False

namespace Obeys

theorem others {r : RunLock.Statements α} (h : r.Obeys ds₀ me Writes Post past)
    (hstable : ∀ past others outcome, (∀ e ∈ others, e.caller ≠ me) → Post past outcome →
      Post (past ++ others) outcome) {others : List Statement}
    (hothers : ∀ e ∈ others, e.caller ≠ me) :
    r.Obeys ds₀ me Writes Post (past ++ others) := by
  cases r with
  | done outcome => exact hstable past others outcome hothers h
  | step act next =>
    intro more ds hmore hpath
    rw [List.append_assoc past others more] at hpath ⊢
    refine h (others ++ more) ds (fun e he => ?_) hpath
    rcases List.mem_append.mp he with he | he
    · exact hothers e he
    · exact hmore e he
  | wait wake next abort => exact h

theorem map {f : α → β} {Post : List Statement → Except Failure β → Prop}
    {r : RunLock.Statements α}
    (h : r.Obeys ds₀ me Writes (fun past o => Post past (o.map f)) past) :
    (f <$> r).Obeys ds₀ me Writes Post past := by
  show (r.bind fun a => Routine.done (.ok (f a))).Obeys ds₀ me Writes Post past
  induction r generalizing past with
  | done outcome => cases outcome <;> exact h
  | step act next ih =>
    intro others ds hothers hpath
    obtain ⟨hact, hnext⟩ := h others ds hothers hpath
    exact ⟨hact, ih ds hnext⟩
  | wait wake next abort => exact h

theorem update {f : Documents → β × Documents} {k : β → RunLock.Statements α}
    (h : ∀ others ds, (∀ e ∈ others, e.caller ≠ me) → Path ds₀ (past ++ others) ds →
      (Statement.Idle ⟨me, fun ds => (f ds).2, ds⟩ ∨ Writes ⟨me, fun ds => (f ds).2, ds⟩) ∧
        (k (f ds).1).Obeys ds₀ me Writes Post (past ++ others ++ [⟨me, fun ds => (f ds).2, ds⟩])) :
    (Routine.update f >>= k).Obeys ds₀ me Writes Post past := h

theorem read {f : Documents → β} {k : β → RunLock.Statements α}
    (h : ∀ others ds, (∀ e ∈ others, e.caller ≠ me) → Path ds₀ (past ++ others) ds →
      (k (f ds)).Obeys ds₀ me Writes Post (past ++ others ++ [⟨me, id, ds⟩])) :
    (Routine.read f >>= k).Obeys ds₀ me Writes Post past :=
  fun others ds hothers hpath => ⟨.inl (.inl rfl), h others ds hothers hpath⟩

/-- Reading a document takes some idle statements; the document was there at the last of them. -/
theorem load {topic : Topic} {k : Document → RunLock.Statements α}
    (h : ∀ seg r d, Silent me seg → r.caller = me → r.after = r.before →
      r.before.get topic = some d → (k d).Obeys ds₀ me Writes Post (past ++ seg ++ [r])) :
    (RunLock.load topic >>= k).Obeys ds₀ me Writes Post past := by
  rw [RunLock.load, bind_assoc]
  refine .read fun others ds hothers hpath => ?_
  cases hd : ds.get topic with
  | some d => exact h others ⟨me, id, ds⟩ d (.of_others hothers) rfl rfl hd
  | none =>
    simp only [bind_assoc]
    intro others' ds' hothers' hpath'
    have hcreate := Statement.idle_create me topic ds'
    refine ⟨.inl hcreate, .read fun others'' ds'' hothers'' hpath'' => ?_⟩
    obtain ⟨ds₁, hfront, hback⟩ := hpath''.of_append
    obtain ⟨-, -, rfl⟩ := hfront.snoc_cases
    have hcreated : (ds'.create topic).get topic = some (ds'.current topic) := by
      rw [ds'.get_create, if_pos rfl]
    obtain ⟨d, hd, -⟩ := hback.grows topic _ hcreated
    rw [hd]
    show (k d).Obeys ds₀ me Writes Post _
    have hsilent : Silent me (others ++ [⟨me, id, ds⟩] ++ others' ++
        [⟨me, (·.create topic), ds'⟩] ++ others'') :=
      ((((Silent.of_others hothers).snoc (.inl rfl)).append (.of_others hothers')).snoc
        hcreate).append (.of_others hothers'')
    simpa only [List.append_assoc] using h _ ⟨me, id, ds''⟩ d hsilent rfl rfl hd

end Obeys
end Routine
end JobControl
