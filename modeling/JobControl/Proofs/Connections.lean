import Mathlib.Data.List.Induction
import JobControl.Connection

/-! # What outlasts a connection

Connections are made and closed, and units of work come in between, in any order. A unit of work is
refused exactly where there is no connection; elsewhere it stores all its documents or none. So what
is stored at any time is what was stored at first and the documents of the units that ended well. -/

namespace JobControl.Connection

/-! ## Inserting documents -/

/-- None of the documents is stored yet, and none is inserted twice. -/
def Insertable (stored ids : List String) : Prop := ids.Nodup ∧ ∀ id ∈ ids, id ∉ stored

theorem insertable_nil (stored : List String) : Insertable stored [] :=
  ⟨List.nodup_nil, fun _ h => absurd h List.not_mem_nil⟩

theorem insertable_cons {stored rest : List String} {id : String} :
    Insertable stored (id :: rest) ↔ id ∉ stored ∧ Insertable (stored ++ [id]) rest := by
  unfold Insertable
  rw [List.nodup_cons, List.forall_mem_cons]
  constructor
  · rintro ⟨⟨hrest, hnodup⟩, hid, hfresh⟩
    refine ⟨hid, hnodup, fun k hk hmem => ?_⟩
    rcases List.mem_append.mp hmem with hmem | hmem
    · exact hfresh k hk hmem
    · exact hrest (List.mem_singleton.mp hmem ▸ hk)
  · rintro ⟨hid, hnodup, hfresh⟩
    refine ⟨⟨fun hmem => ?_, hnodup⟩, hid, fun k hk hmem => ?_⟩
    · exact hfresh id hmem (List.mem_append_right _ (List.mem_singleton_self id))
    · exact hfresh k hk (List.mem_append_left _ hmem)

theorem insertAll_of_insertable {stored ids : List String} (h : Insertable stored ids) :
    insertAll stored ids = .ok (stored ++ ids) := by
  induction ids generalizing stored with
  | nil => rw [insertAll, List.append_nil]
  | cons id rest ih =>
    obtain ⟨hid, hrest⟩ := insertable_cons.mp h
    rw [insertAll, if_neg hid, ih hrest, List.append_assoc, List.singleton_append]

/-- Whichever insertion it is that fails, the database fails. -/
theorem insertAll_of_not_insertable {stored ids : List String} (h : ¬Insertable stored ids) :
    insertAll stored ids = .error .database := by
  induction ids generalizing stored with
  | nil => exact absurd (insertable_nil stored) h
  | cons id rest ih =>
    rw [insertAll]
    split
    · rfl
    · rename_i hid
      exact ih fun hrest => h (insertable_cons.mpr ⟨hid, hrest⟩)

/-! ## Steps -/

/-- What is done with a connection. -/
inductive Step where
  | createEngine
  | connect
  | close
  | use (inserts : List String) (ending : Ending)
deriving DecidableEq, Repr

def perform (c : Connection) : Step → Except Failure Unit × Connection
  | .createEngine => (.ok (), c.createEngine)
  | .connect => (.ok (), c.connect)
  | .close => (.ok (), c.close)
  | .use inserts ending => c.use inserts ending

/-- The connection after some steps. -/
def after (c : Connection) (steps : List Step) : Connection :=
  steps.foldl (fun c step => (c.perform step).2) c

/-- The documents that a step inserts, if it is a unit of work that ends well. -/
def added (c : Connection) : Step → List String
  | .use inserts ending => if (c.use inserts ending).1 = .ok () then inserts else []
  | _ => []

/-- The documents of all units of work among the steps that end well. -/
def addedAll (c : Connection) : List Step → List String
  | [] => []
  | step :: rest => c.added step ++ addedAll (c.perform step).2 rest

/-- A connection has been made that was not closed since. -/
def Connected (steps : List Step) : Prop :=
  ∃ earlier later, steps = earlier ++ .connect :: later ∧ .close ∉ later

/-! ## One unit of work -/

section
variable {c : Connection} {inserts : List String} {ending : Ending}

theorem use_of_closed (h : c.factory = false) (ending : Ending) :
    c.use inserts ending = (.error .notConnected, c) := by
  simp [use, h]

theorem use_of_clash (h : c.factory = true) (hclash : ¬Insertable c.documents inserts)
    (ending : Ending) : c.use inserts ending = (.error .store, c) := by
  have hbody : body c.documents inserts ending = .error .database := by
    unfold body
    rw [insertAll_of_not_insertable hclash]
    rfl
  simp [use, h, hbody, Fault.failure]

theorem use_of_insertable (h : c.factory = true) (hinserts : Insertable c.documents inserts)
    (ending : Ending) : c.use inserts ending = match ending with
      | .well => (.ok (), { c with documents := c.documents ++ inserts })
      | .failing => (.error .store, c)
      | .raising kind text => (.error (.raised kind text), c) := by
  have hbody : body c.documents inserts ending =
      ending.outcome.map fun _ => c.documents ++ inserts := by
    unfold body
    rw [insertAll_of_insertable hinserts]
    cases ending <;> rfl
  cases ending <;> simp [use, h, hbody, Ending.outcome, Except.map, Fault.failure]

/-- A unit of work stores all its documents and ends well, or leaves everything as it was. -/
theorem use_cases (c : Connection) (inserts : List String) (ending : Ending) :
    c.use inserts ending = (.ok (), { c with documents := c.documents ++ inserts }) ∨
      ∃ e, c.use inserts ending = (.error e, c) := by
  by_cases h : c.factory = true
  · by_cases hinserts : Insertable c.documents inserts
    · rw [use_of_insertable h hinserts]
      cases ending with
      | well => exact .inl rfl
      | failing => exact .inr ⟨_, rfl⟩
      | raising kind text => exact .inr ⟨_, rfl⟩
    · exact .inr ⟨_, use_of_clash h hinserts _⟩
  · exact .inr ⟨_, use_of_closed (Bool.eq_false_iff.mpr h) _⟩

end

/-! ## All steps -/

theorem factory_use (c : Connection) (inserts : List String) (ending : Ending) :
    (c.use inserts ending).2.factory = c.factory := by
  rcases c.use_cases inserts ending with huse | ⟨e, huse⟩ <;> rw [huse]

theorem close_eq (c : Connection) : c.close.factory = false ∧ c.close.documents = c.documents := by
  unfold close
  split
  · exact ⟨rfl, rfl⟩
  · rename_i hengine
    exact ⟨Bool.eq_false_iff.mpr fun hfactory => hengine (c.bound hfactory), rfl⟩

theorem documents_perform (c : Connection) (step : Step) :
    (c.perform step).2.documents = c.documents ++ c.added step := by
  cases step with
  | createEngine | connect => exact (List.append_nil _).symm
  | close => exact c.close_eq.2.trans (List.append_nil _).symm
  | use inserts ending =>
    rcases c.use_cases inserts ending with huse | ⟨e, huse⟩ <;> simp [perform, added, huse]

theorem documents_after (c : Connection) (steps : List Step) :
    (c.after steps).documents = c.documents ++ c.addedAll steps := by
  induction steps generalizing c with
  | nil => exact (List.append_nil _).symm
  | cons step rest ih =>
    show ((c.perform step).2.after rest).documents = _
    rw [ih, documents_perform, addedAll, List.append_assoc]

theorem connected_concat {steps : List Step} {step : Step} :
    Connected (steps ++ [step]) ↔ step = .connect ∨ Connected steps ∧ step ≠ .close := by
  constructor
  · rintro ⟨earlier, later, hsteps, hlater⟩
    rcases List.eq_nil_or_concat later with rfl | ⟨later, last, rfl⟩
    · exact .inl (List.singleton_inj.mp (List.append_inj' hsteps rfl).2)
    · rw [List.concat_eq_append, ← List.cons_append, ← List.append_assoc] at hsteps
      obtain ⟨rfl, hlast⟩ := List.append_inj' hsteps rfl
      obtain rfl := List.singleton_inj.mp hlast
      rw [List.concat_eq_append, List.mem_append, List.mem_singleton, not_or] at hlater
      exact .inr ⟨⟨earlier, later, rfl, hlater.1⟩, fun h => hlater.2 h.symm⟩
  · rintro (rfl | ⟨⟨earlier, later, rfl, hlater⟩, hstep⟩)
    · exact ⟨steps, [], rfl, List.not_mem_nil⟩
    · refine ⟨earlier, later ++ [step], by simp, fun hmem => ?_⟩
      rcases List.mem_append.mp hmem with hmem | hmem
      · exact hlater hmem
      · exact hstep (List.mem_singleton.mp hmem).symm

/-- Whether there is a connection can be told from the steps that led there. -/
theorem factory_after {c : Connection} (hclosed : c.factory = false) (steps : List Step) :
    (c.after steps).factory = true ↔ Connected steps := by
  induction steps using List.reverseRecOn with
  | nil =>
    refine ⟨fun h => absurd (hclosed.symm.trans h) nofun, ?_⟩
    rintro ⟨earlier, later, hsteps, -⟩
    exact absurd hsteps (by simp)
  | append_singleton steps step ih =>
    rw [after, List.foldl_append, connected_concat, ← ih]
    show ((c.after steps).perform step).2.factory = true ↔ _
    cases step with
    | createEngine => simp [perform, createEngine]
    | connect => simp [perform, connect]
    | close => simp [perform, (c.after steps).close_eq.1]
    | use inserts ending => simp [perform, factory_use]

/-- After any steps from a closed connection, what is stored is what was stored at first and the
documents of the units of work that ended well. A further unit of work is refused exactly if no
connection has been made since the last one was closed. With a connection, it fails in the store
if one of its documents cannot be inserted or it fails there afterwards; otherwise it fails as its
body does, or ends well. It has stored all its documents if it ends well, and else none. -/
theorem use_exact (documents : List String) (past : List Step) (inserts : List String)
    (ending : Ending) :
    let c₀ := closed documents
    let c := c₀.after past
    let r := c.perform (.use inserts ending)
    c.documents = documents ++ c₀.addedAll past ∧
    (r.1 = .error .notConnected ↔ ¬Connected past) ∧
    (r.1 = .error .store ↔
      Connected past ∧ (Insertable c.documents inserts → ending = .failing)) ∧
    (∀ kind text, r.1 = .error (.raised kind text) ↔
      Connected past ∧ Insertable c.documents inserts ∧ ending = .raising kind text) ∧
    (r.1 = .ok () ↔ Connected past ∧ Insertable c.documents inserts ∧ ending = .well) ∧
    (r.1 = .ok () → r.2.documents = c.documents ++ inserts) ∧ (r.1 ≠ .ok () → r.2 = c) ∧
    Failure.notConnected.kind = "RuntimeError" ∧ Failure.store.kind = "StorageError" ∧
    ∀ kind text, (Failure.raised kind text).kind = kind := by
  intro c₀ c r
  have hopen : c.factory = true ↔ Connected past := factory_after rfl past
  refine ⟨documents_after c₀ past, ?_⟩
  cases h : c.factory with
  | false =>
    have hnot : ¬Connected past := fun hconnected => by simp [hopen.mpr hconnected] at h
    have hr : r = (.error .notConnected, c) := use_of_closed h _
    simp [hr, hnot, Failure.kind]
  | true =>
    have hconnected := hopen.mp h
    by_cases hinserts : Insertable c.documents inserts
    · have hr : r = _ := use_of_insertable h hinserts ending
      cases ending <;> simp [hr, hconnected, hinserts, Failure.kind, eq_comm]
    · have hr : r = (.error .store, c) := use_of_clash h hinserts _
      simp [hr, hconnected, hinserts, Failure.kind]

end JobControl.Connection
