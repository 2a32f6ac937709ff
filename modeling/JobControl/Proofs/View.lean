import JobControl.Proofs.Transactions

/-! # What a store holds of one job

All jobs share one table of records, one table of messages and one document of run locks.
`Store.View` is what concerns a single job of it, `Store.Spares` says that nothing else was changed.
Both are settled here for the single changes that operations on one job are made of. -/

namespace JobControl

namespace Store
variable {s s' s'' : Store} {id : String}

/-- What a store holds of one job. -/
structure View where
  record : Option Record
  messages : List (Message Instant)
  /-- Whether the job holds the run lock of its type. -/
  locked : Bool

def view (s : Store) (id : String) : View :=
  ⟨s.records.get? id, s.messagesOf id,
    (s.records.get? id).any fun r => s.holder r.jobType = some id⟩

/-- Only one job was touched, and of the run locks only the one that it held. -/
structure Spares (id : String) (s s' : Store) : Prop where
  records : ∀ k ≠ id, s'.records.get? k = s.records.get? k
  messages : ∀ k ≠ id, s'.messagesOf k = s.messagesOf k
  disabled : s'.documents.disabled = s.documents.disabled
  locks : ∀ t, s'.holder t = s.holder t ∨
    s.holder t = some id ∧ s'.holder t = none ∧ ∃ r, s.records.get? id = some r ∧ r.jobType = t
  typed : (s'.records.get? id).map (·.jobType) = (s.records.get? id).map (·.jobType)
  unknown : s.records.get? id = none → s' = s

/-- Two stores hold the same jobs with the same messages, the same run locks and the same disabled
types. The messages of different jobs may be interleaved differently. -/
structure Alike (s s' : Store) : Prop where
  records : ∀ id, s'.records.get? id = s.records.get? id
  messages : ∀ id, s'.messagesOf id = s.messagesOf id
  running : ∀ t, s'.holder t = s.holder t
  disabled : s'.documents.disabled = s.documents.disabled

namespace Spares

theorem refl (s : Store) : Spares id s s :=
  ⟨fun _ _ => rfl, fun _ _ => rfl, rfl, fun _ => .inl rfl, rfl, fun _ => rfl⟩

theorem trans (h : Spares id s s') (h' : Spares id s' s'') : Spares id s s'' where
  records k hk := (h'.records k hk).trans (h.records k hk)
  messages k hk := (h'.messages k hk).trans (h.messages k hk)
  disabled := h'.disabled.trans h.disabled
  locks t := by
    rcases h'.locks t with hsame | ⟨hheld, hfree, r', hr', rfl⟩
    · rw [hsame]
      exact h.locks t
    · rcases h.locks r'.jobType with hsame | ⟨-, hfree', -⟩
      · -- The type of the job is what it was before.
        have htyped := h.typed
        rw [hr'] at htyped
        obtain ⟨r, hr, htype⟩ := Option.map_eq_some_iff.mp htyped.symm
        exact .inr ⟨hsame ▸ hheld, hfree, r, hr, htype⟩
      · rw [hfree'] at hheld
        contradiction
  typed := h'.typed.trans h.typed
  unknown hnone := by
    have hs' := h.unknown hnone
    rw [h'.unknown (hs' ▸ hnone), hs']

/-- What was done to one job leaves the view of another as it was. -/
theorem view_eq (h : Spares id s s') {k : String} (hk : k ≠ id) : s'.view k = s.view k := by
  unfold view
  rw [h.records k hk, h.messages k hk]
  cases s.records.get? k with
  | none => rfl
  | some r =>
    rcases h.locks r.jobType with hsame | ⟨hheld, hfree, -⟩
    · simp only [Option.any_some, hsame]
    · have hid : ¬id = k := fun e => hk e.symm
      simp [hheld, hfree, hid]

theorem holder_eq (h : Spares id s s') {t : String} (ht : s.holder t ≠ some id) :
    s'.holder t = s.holder t := by
  rcases h.locks t with hsame | ⟨hheld, -⟩
  · exact hsame
  · exact absurd hheld ht

theorem holder_ne (h : Spares id s s') {t k : String} (ht : s.holder t ≠ some k) :
    s'.holder t ≠ some k := by
  rcases h.locks t with hsame | ⟨-, hfree, -⟩
  · exact hsame ▸ ht
  · simp [hfree]

/-- Whether a job has given back a lock can be told from the view of it. -/
theorem holder_of_view {s₁ s₁' : Store} (h : Spares id s s') (h₁ : Spares id s₁ s₁') {t : String}
    (hs : s₁.holder t = s.holder t) (hview : s₁'.view id = s'.view id) :
    s₁'.holder t = s'.holder t := by
  have gives : ∀ {a a' b' : Store}, Spares id a a' → a'.holder t = none →
      a.holder t = some id → (∃ r, a.records.get? id = some r ∧ r.jobType = t) →
      b'.view id = a'.view id → b'.holder t ≠ some id := by
    rintro a a' b' ha hfree - ⟨r, hr, rfl⟩ hview hheld
    have htyped := ha.typed
    rw [hr] at htyped
    obtain ⟨r', hr', htype⟩ := Option.map_eq_some_iff.mp htyped
    have hb' : b'.records.get? id = some r' := (congrArg View.record hview).trans hr'
    have hlocked : (b'.view id).locked = (a'.view id).locked := congrArg View.locked hview
    simp [view, hr', hb', htype, hheld, hfree] at hlocked
  rcases h.locks t with hsame | ⟨hheld, hfree, htype⟩
  · rcases h₁.locks t with hsame₁ | ⟨hheld₁, hfree₁, htype₁⟩
    · rw [hsame, hsame₁, hs]
    · have hno := gives h₁ hfree₁ hheld₁ htype₁ hview.symm
      exact absurd (hsame.trans (hs.symm.trans hheld₁)) hno
  · rcases h₁.locks t with hsame₁ | ⟨-, hfree₁, -⟩
    · have hno := gives h hfree hheld htype hview
      exact absurd (hsame₁.trans (hs.trans hheld)) hno
    · rw [hfree, hfree₁]

end Spares

/-! ## Single changes -/

theorem find?_eq (s : Store) (id : String) :
    s.find? id = (s.view id).record.map fun r => assemble id r (s.view id).messages := rfl

theorem messagesOf_appendMessage (k : String) (m : Message Instant) :
    (s.appendMessage id m).messagesOf k =
      if k = id then s.messagesOf k ++ [m] else s.messagesOf k := by
  unfold appendMessage messagesOf
  by_cases hk : id = k <;> simp [hk, Ne.symm, eq_comm]

theorem spares_appendMessage (m : Message Instant) (hknown : s.records.get? id ≠ none) :
    Spares id s (s.appendMessage id m) where
  records _ _ := rfl
  messages k hk := by rw [messagesOf_appendMessage, if_neg hk]
  disabled := rfl
  locks _ := .inl rfl
  typed := rfl
  unknown h := absurd h hknown

theorem view_appendMessage (m : Message Instant) :
    (s.appendMessage id m).view id =
      { s.view id with messages := (s.view id).messages ++ [m] } := by
  unfold view
  rw [messagesOf_appendMessage, if_pos rfl]
  rfl

section
variable {p : Record → Bool} {f : Record → Record} (htype : ∀ r, (f r).jobType = r.jobType)
include htype

theorem spares_updateIf : Spares id s (s.updateIf id p f).2 where
  records k hk := by rw [get?_updateIf, if_neg hk]
  messages k _ := by simp only [messagesOf, messages_updateIf]
  disabled := by rw [documents_updateIf]
  locks t := .inl (holder_updateIf ..)
  typed := by
    rw [get?_updateIf, if_pos rfl, Option.map_map]
    congr 1
    funext r
    show (if p r then f r else r).jobType = r.jobType
    split
    · exact htype r
    · rfl
  unknown hnone := by simp [updateIf, hnone]

theorem view_updateIf :
    (s.updateIf id p f).2.view id =
      { s.view id with record := (s.view id).record.map fun r => if p r then f r else r } := by
  have htype' : ∀ r, (if p r then f r else r).jobType = r.jobType := by
    intro r
    split
    · exact htype r
    · rfl
  unfold view
  simp only [get?_updateIf, if_true, messagesOf, messages_updateIf, holder_updateIf]
  cases s.records.get? id with
  | none => rfl
  | some r => simp [htype']

end

theorem fst_updateIf (p : Record → Bool) (f : Record → Record) :
    (s.updateIf id p f).1 = (s.view id).record.any p := by
  unfold updateIf view
  cases h : (s.records.get? id).any p <;> simp

/-- A job gives back the lock of its type. -/
def yieldLock (s : Store) (jobType id : String) : Store :=
  unlock { s with documents := s.documents.create .running } jobType id

theorem holder_yieldLock (jobType t : String) :
    (s.yieldLock jobType id).holder t =
      if t = jobType ∧ s.holder jobType = some id then none else s.holder t := by
  have hcreate : ∀ t, ({ s with documents := s.documents.create .running } : Store).holder t =
      s.holder t := fun t => by
    unfold holder
    rw [Documents.content_create]
  unfold yieldLock
  rw [holder_unlock, hcreate, hcreate]

theorem spares_yieldLock {r : Record} (hr : s.records.get? id = some r) :
    Spares id s (s.yieldLock r.jobType id) where
  records _ _ := rfl
  messages _ _ := rfl
  disabled := by
    have hcreate : (s.documents.create .running).disabled = s.documents.disabled :=
      Documents.get_create s.documents .running .disabled
    unfold yieldLock unlock Documents.release
    split
    · exact hcreate
    · exact hcreate
  locks t := by
    rw [holder_yieldLock]
    split
    · rename_i h
      exact .inr ⟨h.1 ▸ h.2, rfl, r, hr, h.1.symm⟩
    · exact .inl rfl
  typed := rfl
  unknown hnone := by rw [hr] at hnone; contradiction

theorem view_yieldLock {r : Record} (hr : s.records.get? id = some r) :
    (s.yieldLock r.jobType id).view id = { s.view id with locked := false } := by
  have hholder : (s.yieldLock r.jobType id).holder r.jobType ≠ some id := by
    rw [holder_yieldLock]
    split
    · simp
    · rename_i h
      exact fun e => h ⟨rfl, e⟩
  have hr' : (s.yieldLock r.jobType id).records.get? id = some r := hr
  unfold view
  rw [hr', hr, Option.any_some, decide_eq_false hholder]
  rfl

/-- A job gives back its lock and is stopped, if it is running. -/
def letOut (s : Store) (id : String) (r : Record) (time : Instant) (status : Option Status) :
    Bool × Store :=
  (s.yieldLock r.jobType id).stop id time status

section
variable {r : Record} (hr : s.records.get? id = some r) (time : Instant) (status : Option Status)
include hr

theorem spares_letOut : Spares id s (s.letOut id r time status).2 :=
  (spares_yieldLock hr).trans (spares_updateIf fun _ => rfl)

theorem fst_letOut : (s.letOut id r time status).1 = !r.isStopped := by
  unfold letOut stop
  rw [fst_updateIf, view_yieldLock hr]
  simp [view, hr]

theorem view_letOut : (s.letOut id r time status).2.view id =
    ⟨some (if r.isStopped then r else r.ended time status), (s.view id).messages, false⟩ := by
  have htype : ∀ r : Record, (r.ended time status).jobType = r.jobType := fun _ => rfl
  show ((s.yieldLock r.jobType id).updateIf id (!·.isStopped) (·.ended time status)).2.view id = _
  rw [view_updateIf htype, view_yieldLock hr]
  cases hstopped : r.isStopped <;> simp [view, hr, hstopped, Record.ended]

end

end Store

end JobControl
