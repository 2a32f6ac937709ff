import JobControl.Proofs.Executions

/-! # Slots and their tickets

The tickets in a pool have different numbers. `Deployment.Beside` says of a step that it takes no
slot from a ticket and neither begins nor ends the heartbeat of another ticket than its own; all
that threads do is made of such steps. -/

namespace JobControl
open Routine (Keeps)

/-! ## Numbers of tickets -/

namespace Pool
variable {ρ : Type} {p pool : Pool ρ} {t : Ticket ρ} {n : Nat}

def Holds (p : Pool ρ) (n : Nat) : Prop := n ∈ p.active.map (·.number)

/-- The tickets of the pool have different numbers, and the next one gets a new one. -/
structure Numbered (p : Pool ρ) : Prop where
  nodup : ((p.queue ++ p.active).map (·.number)).Nodup
  lt_issued : ∀ t ∈ p.queue ++ p.active, t.number < p.issued

theorem numbered_of_vacant (hqueue : p.queue = []) (hactive : p.active = []) : p.Numbered := by
  refine ⟨?_, ?_⟩
  · simp [hqueue, hactive]
  · simp [hqueue, hactive]

namespace Numbered

theorem not_queued (h : p.Numbered) (hn : p.Holds n) : n ∉ p.queue.map (·.number) := by
  intro hqueue
  have hnodup := h.nodup
  rw [List.map_append, List.nodup_append] at hnodup
  exact hnodup.2.2 _ hqueue _ hn rfl

theorem submit (h : p.Numbered) (job : String) (work : ρ) : (p.submit job work).Numbered := by
  have hnew : p.issued ∉ (p.queue ++ p.active).map (·.number) := by
    intro hmem
    obtain ⟨t, ht, heq⟩ := List.mem_map.mp hmem
    exact Nat.lt_irrefl _ (heq ▸ h.lt_issued t ht)
  have hnodup := h.nodup
  refine ⟨?_, fun t ht => ?_⟩
  · simp only [Pool.submit, List.map_append, List.map_cons, List.append_assoc, List.nil_append,
      List.cons_append] at hnew hnodup ⊢
    exact (List.perm_middle.nodup_iff).mpr (List.nodup_cons.mpr ⟨hnew, hnodup⟩)
  · simp only [Pool.submit, List.mem_append, List.mem_singleton] at ht ⊢
    rcases ht with (ht | rfl) | ht
    · exact Nat.lt_succ_of_lt (h.lt_issued t (List.mem_append_left _ ht))
    · exact Nat.lt_succ_self _
    · exact Nat.lt_succ_of_lt (h.lt_issued t (List.mem_append_right _ ht))

theorem finish (h : p.Numbered) (n : Nat) : (p.finish n).Numbered := by
  have hsub : ((p.finish n).queue ++ (p.finish n).active).Sublist (p.queue ++ p.active) :=
    List.filter_sublist.append List.filter_sublist
  exact ⟨h.nodup.sublist (hsub.map _), fun t ht => h.lt_issued t (hsub.subset ht)⟩

/-- Work that gets a slot takes its ticket with it. -/
theorem grant (h : p.Numbered) (hgrant : p.grant? = some (t, pool)) :
    pool.Numbered ∧ pool.Holds t.number ∧ ¬p.Holds t.number := by
  have hqueue := grant?_eq_some hgrant
  obtain ⟨hactive, hissued⟩ : pool.active = p.active ++ [t] ∧ pool.issued = p.issued := by
    unfold grant? at hgrant
    split at hgrant
    · split at hgrant
      · obtain ⟨rfl, rfl⟩ := Prod.mk.inj (Option.some.inj hgrant)
        exact ⟨rfl, rfl⟩
      · contradiction
    · contradiction
  have hperm : (pool.queue ++ pool.active).Perm (p.queue ++ p.active) := by
    rw [hactive, hqueue, List.cons_append, ← List.append_assoc]
    exact List.perm_append_singleton t _
  refine ⟨⟨(hperm.map _).nodup_iff.mpr h.nodup, fun t' ht' => ?_⟩, ?_, fun hold => ?_⟩
  · rw [hissued]
    exact h.lt_issued t' (hperm.subset ht')
  · simp [Holds, hactive]
  · exact h.not_queued hold (List.mem_map_of_mem (hqueue ▸ List.mem_cons_self))

end Numbered

theorem Holds.finish (h : p.Holds n) {k : Nat} (hne : n ≠ k) : (p.finish k).Holds n := by
  obtain ⟨t, ht, rfl⟩ := List.mem_map.mp h
  exact List.mem_map_of_mem (List.mem_filter.mpr ⟨ht, by simpa using hne⟩)

theorem Holds.grant (h : p.Holds n) (hgrant : p.grant? = some (t, pool)) : pool.Holds n := by
  unfold grant? at hgrant
  split at hgrant
  · split at hgrant
    · obtain ⟨rfl, rfl⟩ := Prod.mk.inj (Option.some.inj hgrant)
      exact List.mem_map.mpr <|
        (List.mem_map.mp h).imp fun _ ht => ⟨List.mem_append_left _ ht.1, ht.2⟩
    · contradiction
  · contradiction

/-- Dropping work takes no slot from any ticket. -/
theorem Numbered.dropQueued (h : p.Numbered) :
    p.dropQueued.Numbered ∧ ∀ n, p.Holds n → p.dropQueued.Holds n := by
  have hfold : ∀ (ts : List (Ticket ρ)) (q : Pool ρ), q.Numbered →
      (∀ t ∈ ts, ¬q.Holds t.number) →
      (ts.foldl (fun p t => p.finish t.number) q).Numbered ∧
        ∀ n, q.Holds n → (ts.foldl (fun p t => p.finish t.number) q).Holds n := by
    intro ts
    induction ts with
    | nil => exact fun q hq _ => ⟨hq, fun _ => id⟩
    | cons t ts ih =>
      intro q hq hts
      have hfree : ∀ t' ∈ ts, ¬(q.finish t.number).Holds t'.number := fun t' ht' hold =>
        hts t' (List.mem_cons_of_mem _ ht') ((List.filter_sublist.map _).subset hold)
      obtain ⟨hnumbered, hholds⟩ := ih (q.finish t.number) (hq.finish _) hfree
      refine ⟨hnumbered, fun n hn => hholds n (hn.finish ?_)⟩
      rintro rfl
      exact hts t List.mem_cons_self hn
  refine hfold p.trackedQueued p h fun t ht hold => ?_
  have hqueued : t ∈ p.queue := (List.mem_filter.mp ht).1
  exact h.not_queued hold (List.mem_map_of_mem hqueued)

end Pool

/-! ## What one step does beside a worker -/

namespace Deployment
variable {own freed : Option (Nat × Nat)} {d d' d'' : Deployment}

def poolAt (d : Deployment) (site : Nat) : Pool (Handler Script) :=
  (d.pool? site).getD (.empty 0)

def Numbered (d : Deployment) : Prop := ∀ site, (d.poolAt site).Numbered

/-- The work of a ticket keeps a job alive. -/
def Beats (d : Deployment) (site ticket : Nat) (job : String) : Prop :=
  ∃ h ∈ d.heartbeats, h.site = site ∧ h.ticket = ticket ∧ h.job = job

/-- Only the heartbeat of the ticket `own` may have begun or ended, and only the ticket `freed` may
have given back its slot. -/
structure Beside (own freed : Option (Nat × Nat)) (d d' : Deployment) : Prop where
  engine : ∀ site, d'.engine site = d.engine site
  numbered : d.Numbered → d'.Numbered
  holds : d.Numbered → ∀ site ticket, some (site, ticket) ≠ freed →
    (d.poolAt site).Holds ticket → (d'.poolAt site).Holds ticket
  beats : ∀ site ticket job, some (site, ticket) ≠ own →
    (d'.Beats site ticket job ↔ d.Beats site ticket job)

theorem poolAt_modifyPool (d : Deployment) (site k : Nat)
    (f : Pool (Handler Script) → Pool (Handler Script)) :
    (d.modifyPool site f).poolAt k =
      if k = site ∧ site < d.sites.length then f (d.poolAt k) else d.poolAt k := by
  unfold poolAt pool? modifyPool modifySite
  rw [List.getElem?_modify]
  by_cases hk : k = site
  · subst k
    by_cases hlt : site < d.sites.length <;> simp [hlt]
  · have hne : ¬site = k := fun h => hk h.symm
    simp [hk, hne]

theorem engine_modifyPool (d : Deployment) (site k : Nat)
    (f : Pool (Handler Script) → Pool (Handler Script)) :
    (d.modifyPool site f).engine k = d.engine k := by
  unfold engine modifyPool modifySite
  rw [List.getElem?_modify]
  split
  · cases d.sites[k]? <;> rfl
  · simp

namespace Beside

theorem refl (d : Deployment) : Beside own freed d d :=
  ⟨fun _ => rfl, id, fun _ _ _ _ => id, fun _ _ _ _ => .rfl⟩

theorem trans (h : Beside own freed d d') (h' : Beside own freed d' d'') :
    Beside own freed d d'' where
  engine site := (h'.engine site).trans (h.engine site)
  numbered hd := h'.numbered (h.numbered hd)
  holds hd site ticket hne hold :=
    h'.holds (h.numbered hd) site ticket hne (h.holds hd site ticket hne hold)
  beats site ticket job hne := (h'.beats site ticket job hne).trans (h.beats site ticket job hne)

theorem frees (h : Beside own none d d') : Beside own freed d d' :=
  ⟨h.engine, h.numbered, fun hd site ticket _ => h.holds hd site ticket nofun, h.beats⟩

theorem of_eq (hsites : d'.sites = d.sites) (hheartbeats : d'.heartbeats = d.heartbeats) :
    Beside own freed d d' := by
  have hpool : ∀ site, d'.poolAt site = d.poolAt site := fun site => by
    simp only [poolAt, pool?, hsites]
  refine ⟨fun site => ?_, fun hd site => ?_, fun _ site ticket _ hold => ?_,
    fun site ticket job _ => ?_⟩
  · simp only [Deployment.engine, hsites]
  · rw [hpool]
    exact hd site
  · rw [hpool]
    exact hold
  · simp only [Beats, hheartbeats]

theorem modifyPool {site : Nat} {f : Pool (Handler Script) → Pool (Handler Script)}
    (hf : ∀ p, d.pool? site = some p → p.Numbered → (f p).Numbered ∧
      ∀ n, some (site, n) ≠ freed → p.Holds n → (f p).Holds n) :
    Beside own freed d (d.modifyPool site f) := by
  have hcases : ∀ k, (d.modifyPool site f).poolAt k = d.poolAt k ∨
      k = site ∧ d.pool? site = some (d.poolAt k) ∧
        (d.modifyPool site f).poolAt k = f (d.poolAt k) := by
    intro k
    rw [poolAt_modifyPool]
    split
    · rename_i hk
      obtain ⟨rfl, hlt⟩ := hk
      refine .inr ⟨rfl, ?_, rfl⟩
      simp [poolAt, pool?, hlt]
    · exact .inl rfl
  refine ⟨fun k => engine_modifyPool d site k f, fun hd k => ?_, fun hd k n hne hold => ?_,
    fun _ _ _ _ => .rfl⟩
  · rcases hcases k with heq | ⟨rfl, hpool, heq⟩
    · exact heq ▸ hd k
    · exact heq ▸ (hf _ hpool (hd k)).1
  · rcases hcases k with heq | ⟨rfl, hpool, heq⟩
    · exact heq ▸ hold
    · exact heq ▸ (hf _ hpool (hd k)).2 n hne hold

theorem submit (site : Nat) (job : String) (work : Handler Script) :
    Beside own freed d (d.modifyPool site (·.submit job work)) :=
  modifyPool fun _ _ hp => ⟨hp.submit job work, fun _ _ => id⟩

theorem cancelTracked (site : Nat) : Beside own freed d (d.cancelTracked site) := by
  unfold Deployment.cancelTracked
  split
  · have hdrop : Beside own freed d (d.modifyPool site Pool.dropQueued) :=
      modifyPool fun p _ hp => ⟨hp.dropQueued.1, fun n _ => hp.dropQueued.2 n⟩
    exact hdrop.trans (of_eq rfl rfl)
  · exact refl d

theorem beginHeartbeat (site ticket : Nat) (job : String) :
    Beside (some (site, ticket)) freed d (d.beginHeartbeat site ticket job) := by
  unfold Deployment.beginHeartbeat
  split
  · refine ⟨fun _ => rfl, id, fun _ _ _ _ => id, fun k n job' hne => ?_⟩
    simp only [Beats, List.mem_append, List.mem_singleton]
    constructor
    · rintro ⟨h, hold | rfl, hkey⟩
      · exact ⟨h, hold, hkey⟩
      · obtain ⟨rfl, rfl, -⟩ := hkey
        exact absurd rfl hne
    · rintro ⟨h, hold, hkey⟩
      exact ⟨h, .inl hold, hkey⟩
  · exact refl d

theorem endHeartbeat (site ticket : Nat) :
    Beside (some (site, ticket)) freed d (d.endHeartbeat site ticket) := by
  refine ⟨fun _ => rfl, id, fun _ _ _ _ => id, fun k n job hne => ?_⟩
  constructor
  · rintro ⟨h, hmem, hkey⟩
    exact ⟨h, (List.mem_filter.mp hmem).1, hkey⟩
  · rintro ⟨h, hmem, rfl, rfl, rfl⟩
    refine ⟨h, List.mem_filter.mpr ⟨hmem, ?_⟩, rfl, rfl, rfl⟩
    simp only [Bool.not_eq_true', Bool.and_eq_false_iff, beq_eq_false_iff_ne, ne_eq]
    by_cases hsite : h.site = site
    · refine .inr fun hticket => hne ?_
      rw [hsite, hticket]
    · exact .inl hsite

end Beside

theorem beats_afterBeat (d : Deployment) {i : Nat} {h : Heartbeat} (hi : d.heartbeats[i]? = some h)
    (site ticket : Nat) (job : String) :
    (d.afterBeat i h).Beats site ticket job ↔ d.Beats site ticket job := by
  have hset : (d.afterBeat i h).heartbeats =
      d.heartbeats.set i { h with due := h.due + h.every } := rfl
  unfold Beats
  rw [hset]
  constructor
  · rintro ⟨b, hb, hkey⟩
    rcases List.mem_or_eq_of_mem_set hb with hb | rfl
    · exact ⟨b, hb, hkey⟩
    · exact ⟨h, List.mem_of_getElem? hi, hkey⟩
  · rintro ⟨b, hb, hkey⟩
    obtain ⟨k, hk⟩ := List.mem_iff_getElem?.mp hb
    by_cases hik : i = k
    · subst k
      obtain rfl := Option.some.inj (hi.symm.trans hk)
      have hmem := List.mem_set (List.getElem?_eq_some_iff.mp hi).1
        { h with due := h.due + h.every }
      exact ⟨_, hmem, hkey⟩
    · refine ⟨b, List.mem_iff_getElem?.mpr ⟨k, ?_⟩, hkey⟩
      rw [List.getElem?_set_ne hik]
      exact hk

theorem Beside.afterBeat {i : Nat} {h : Heartbeat} (hi : d.heartbeats[i]? = some h) :
    Beside own freed d (d.afterBeat i h) :=
  ⟨fun _ => rfl, id, fun _ _ _ _ => id,
    fun site ticket job _ => beats_afterBeat d hi site ticket job⟩

theorem not_beats_endHeartbeat (d : Deployment) (site ticket : Nat) (job : String) :
    ¬(d.endHeartbeat site ticket).Beats site ticket job := by
  rintro ⟨h, hmem, rfl, rfl, -⟩
  simp [endHeartbeat] at hmem

theorem beats_beginHeartbeat {site ticket : Nat} {job job' : String}
    (h : (d.beginHeartbeat site ticket job).Beats site ticket job') :
    d.Beats site ticket job' ∨ job' = job := by
  unfold beginHeartbeat at h
  split at h
  · obtain ⟨b, hb, hkey⟩ := h
    rcases List.mem_append.mp hb with hb | hb
    · exact .inl ⟨b, hb, hkey⟩
    · obtain rfl := List.mem_singleton.mp hb
      exact .inr hkey.2.2.symm
  · exact .inl h

def beside (own : Option (Nat × Nat)) : Conduct Deployment where
  inv _ := True
  turn := Beside own none
  quiet := Beside own none
  quiet_refl := .refl
  turn_of_quiet _ h := h
  turn_quiet h h' := h.trans h'
  inv_turn _ _ := trivial

end Deployment

/-! ## What threads do beside a worker -/

section
open Deployment
variable {own : Option (Nat × Nat)} {α : Type} {fresh : Bool}

namespace Deployment

/-- What is done on a part of the deployment without slots and heartbeats is done beside them. -/
theorem minds_zoom {get : Deployment → Cluster} {set : Cluster → Deployment → Deployment}
    (h : ∀ c d, Beside own none d (set c d)) (r : Cluster.Work α) :
    Keeps (beside own) (fun _ => True) (r.zoom get set : Work α) fresh := by
  induction r generalizing fresh with
  | done outcome => exact fun _ _ => trivial
  | step act next ih => exact fun d _ => ⟨by cases fresh <;> exact h _ d, ih _⟩
  | wait wake next abort ihn iha => exact ⟨ihn, iha⟩

theorem minds_onCluster (r : Cluster.Work α) :
    Keeps (beside own) (fun _ => True) (onCluster r) fresh := by
  refine minds_zoom (fun c d => ?_) r
  exact .of_eq rfl rfl

theorem minds_onOwnBus (r : Cluster.Work α) :
    Keeps (beside own) (fun _ => True) (onOwnBus r) fresh := by
  refine minds_zoom (fun c d => ?_) r
  exact .of_eq rfl rfl

theorem minds_modify {f : Deployment → Deployment} (h : ∀ d, Beside own none d (f d)) :
    Keeps (beside own) (fun _ => True) (Routine.modify f : Work Unit) fresh :=
  .modify (fun d _ => by cases fresh <;> exact h d) trivial

/-- Whatever is carried out is done beside the workers, but the heartbeat of the ticket `own` may
begin and end. -/
def minding (own : Option (Nat × Nat)) : Logic where
  toLogic := (beside own).logic Wake
  cluster := Cluster.keeping fun _ => True
  onCluster _ := minds_onCluster _
  apart := True
  onOwnBus _ _ := minds_onOwnBus _
  concerns _ := trivial
  allows _ := True
  startDefined _ _ := trivial
  append _ := trivial
  outside site who command _ hservice := by
    refine ((beside own).logic Wake).read fun d _ => ?_
    cases command with
    | transaction calls => exact minds_onCluster _
    | shiftClock | vanish => exact .seq (minds_onCluster _) fun _ => .pure trivial
    | _ => exact absurd rfl hservice
  able _ := True
  admits _ _ _ := trivial
  submit site job _ _ := minds_modify fun _ => .submit site job _
  body _ _ _ a _ := by
    cases a with
    | note level text => exact fun _ => trivial
    | _ => trivial
  error _ _ := trivial
  waits _ := True
  await _ := ⟨.pure trivial, .fail _⟩
  pass := ⟨.pure trivial, .pure trivial⟩
  cancelTracked site := minds_modify fun _ => .cancelTracked site
  startWatch _ _ _ := minds_modify fun _ => .of_eq rfl rfl
  stopLatest _ := minds_modify fun _ => .of_eq rfl rfl
  openGate _ := minds_modify fun _ => .of_eq rfl rfl
  counts _ := True
  countExecution _ := .update (fun _ _ => .of_eq rfl rfl) fun _ _ => trivial
  beats site ticket := own = some (site, ticket)
  beginHeartbeat {site ticket} id hown :=
    minds_modify fun _ => hown ▸ .beginHeartbeat site ticket id
  endHeartbeat {site ticket} hown := minds_modify fun _ => hown ▸ .endHeartbeat site ticket

end Deployment
end
end JobControl
