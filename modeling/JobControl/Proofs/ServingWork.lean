import JobControl.Proofs.Deployments
import JobControl.Proofs.Serving

/-! # Commands, handlers and runners serve

The pact of the cluster, for everything that goes on in a deployment. Reapers go on, are told to
stop, or are added at the end. Only handlers wait for spans of time and for gates. -/

namespace JobControl
open Routine (Fulfils)

/-! ## Reapers that go on -/

/-- The same reaper, which may have been told to stop. -/
structure Watch.Continues (w w' : Watch) : Prop where
  name : w'.name = w.name
  reaper : w'.reaper = w.reaper
  loop : w'.loop = w.loop ∨ w'.loop = w.loop.stop

theorem Loop.stop_stop (l : Loop) : l.stop.stop = l.stop := by
  obtain ⟨interval, stopping, phase⟩ := l
  cases phase <;> rfl

namespace Watch.Continues
variable {w w' w'' : Watch}

theorem refl (w : Watch) : w.Continues w := ⟨rfl, rfl, .inl rfl⟩

theorem trans (h : w.Continues w') (h' : w'.Continues w'') : w.Continues w'' := by
  refine ⟨h'.name.trans h.name, h'.reaper.trans h.reaper, ?_⟩
  rcases h.loop with heq | heq <;> rcases h'.loop with heq' | heq' <;> rw [heq] at heq'
  · exact .inl heq'
  · exact .inr heq'
  · exact .inr heq'
  · exact .inr (heq'.trans (Loop.stop_stop _))

theorem stop (w : Watch) : w.Continues { w with loop := w.loop.stop } := ⟨rfl, rfl, .inr rfl⟩

end Watch.Continues

namespace Deployment

/-- All reapers go on, and those that are added begin with a run. -/
structure Watches (ws ws' : List Watch) : Prop where
  goesOn : ∀ (i : Nat) (w : Watch), ws[i]? = some w → ∃ w', ws'[i]? = some w' ∧ w.Continues w'
  begins : ∀ (i : Nat) (w' : Watch), ws[i]? = none → ws'[i]? = some w' →
    ∃ w : Watch, w.loop = .start w.reaper.pause ∧ w.Continues w'

namespace Watches
variable {ws ws' ws'' : List Watch}

theorem refl (ws : List Watch) : Watches ws ws :=
  ⟨fun _ w hw => ⟨w, hw, .refl w⟩, fun _ _ hnone hw => absurd (hnone.symm.trans hw) nofun⟩

theorem trans (h : Watches ws ws') (h' : Watches ws' ws'') : Watches ws ws'' where
  goesOn i w hw := by
    obtain ⟨w', hw', hcontinues⟩ := h.goesOn i w hw
    obtain ⟨w'', hw'', hcontinues'⟩ := h'.goesOn i w' hw'
    exact ⟨w'', hw'', hcontinues.trans hcontinues'⟩
  begins i w'' hnone hw'' := by
    cases hw' : ws'[i]? with
    | none => exact h'.begins i w'' hw' hw''
    | some w' =>
      obtain ⟨w, hstart, hcontinues⟩ := h.begins i w' hnone hw'
      obtain ⟨w₁, hw₁, hcontinues'⟩ := h'.goesOn i w' hw'
      obtain rfl := Option.some.inj (hw''.symm.trans hw₁)
      exact ⟨w, hstart, hcontinues.trans hcontinues'⟩

theorem append {w : Watch} (hw : w.loop = .start w.reaper.pause) (ws : List Watch) :
    Watches ws (ws ++ [w]) := by
  refine ⟨fun i w' hw' => ⟨w', ?_, .refl w'⟩, fun i w' hnone hw' => ⟨w, hw, ?_⟩⟩
  · rwa [List.getElem?_append_left (List.getElem?_eq_some_iff.mp hw').1]
  · rw [List.getElem?_append_right (List.getElem?_eq_none_iff.mp hnone)] at hw'
    obtain rfl := List.mem_singleton.mp (List.mem_of_getElem? hw')
    exact .refl w'

theorem cons {w w' : Watch} (hw : w.Continues w') (h : Watches ws ws') :
    Watches (w :: ws) (w' :: ws') := by
  refine ⟨fun i w₁ hw₁ => ?_, fun i w₁ hnone hw₁ => ?_⟩
  · cases i with
    | zero =>
      obtain rfl := Option.some.inj hw₁
      exact ⟨w', rfl, hw⟩
    | succ i => exact h.goesOn i w₁ hw₁
  · cases i with
    | zero => contradiction
    | succ i => exact h.begins i w₁ hnone hw₁

theorem stopLatest (name : String) (ws : List Watch) :
    Watches ws (Command.stopLatest name ws) := by
  induction ws with
  | nil => exact .refl []
  | cons w rest ih =>
    unfold Command.stopLatest
    split
    · exact .cons (.stop w) (.refl rest)
    · exact .cons (.refl w) ih

end Watches

/-! ## The pact of a deployment -/

variable {pace : Pace} {may : Wake → Prop} {α : Type}

def pact (pace : Pace) (may : Wake → Prop) : Pact Wake Clock Deployment where
  inv d := (Cluster.pact pace may).inv d.cluster
  turn d d' := d.cluster.Serves pace d'.cluster ∧ Watches d.watches d'.watches
  quiet d d' := d.cluster.Calm d'.cluster ∧ Watches d.watches d'.watches
  quiet_refl _ := ⟨.refl _, .refl _⟩
  turn_of_quiet _ h := ⟨h.1.serves, h.2⟩
  turn_quiet h h' := ⟨h.1.calm h'.1, h.2.trans h'.2⟩
  inv_turn hd h := (Cluster.pact pace may).inv_turn hd h.1
  view := (·.cluster.clock)
  waits := (Cluster.pact pace may).waits
  rely := pace.rely
  rely_refl := pace.rely_refl
  rely_trans := pace.rely_trans

theorem fulfils_onCluster {r : Cluster.Work α} (h : Fulfils (Cluster.pact pace may) r) :
    Fulfils (pact pace may) (onCluster r) := by
  intro v
  unfold onCluster
  refine .zoom (P := Cluster.pact pace may) (D := pact pace may) (f := id) (fun _ hd => hd)
    (fun d c fresh _ hc => ?_) (fun _ => rfl) (fun _ _ => rfl) (fun _ h => h) (fun _ _ _ h => h)
    (h v)
  cases fresh <;> exact ⟨hc, .refl _⟩

theorem fulfils_onOwnBus {r : Cluster.Work α} (h : Fulfils (Cluster.pact pace may) r) :
    Fulfils (pact pace may) (onOwnBus r) := by
  intro v
  unfold onOwnBus
  refine .zoom (P := Cluster.pact pace may) (D := pact pace may) (f := id) ?_ ?_ ?_ ?_ ?_ ?_ (h v)
  · exact fun d hd => ⟨hd.1, Bus.waited_empty⟩
  · intro d c fresh _ hc
    cases fresh with
    | false =>
      obtain ⟨hstore, hclock, -⟩ := hc
      exact ⟨⟨hstore, hclock, rfl⟩, .refl _⟩
    | true =>
      obtain ⟨hdated, hadministers, hclock, -⟩ := hc
      exact ⟨⟨hdated, hadministers, hclock, rfl⟩, .refl _⟩
  · exact fun _ => rfl
  · exact fun _ _ => rfl
  · exact fun _ h => h
  · exact fun _ _ _ h => h

theorem fulfils_modify {f : Deployment → Deployment} (hcluster : ∀ d, (f d).cluster = d.cluster)
    (hwatches : ∀ d, Watches d.watches (f d).watches) :
    Fulfils (pact pace may) (Routine.modify f : Work Unit) :=
  .modify fun d _ => ⟨hcluster d ▸ .refl _, hwatches d⟩

theorem watches_cancelTracked (d : Deployment) (site : Nat) :
    (d.cancelTracked site).watches = d.watches := by
  unfold cancelTracked
  split <;> rfl

theorem watches_beginHeartbeat (site ticket : Nat) (job : String) (d : Deployment) :
    (beginHeartbeat site ticket job d).watches = d.watches := by
  unfold beginHeartbeat
  split <;> rfl

/-- Commands, handlers and runners of the service fulfil the pact of a deployment. -/
def serving (pace : Pace) (may : Wake → Prop) : Logic where
  toLogic := (pact pace may).logic
  cluster := Cluster.serving pace may
  onCluster := fulfils_onCluster
  apart := True
  onOwnBus _ := fulfils_onOwnBus
  concerns _ := trivial
  allows command := command.isService
  startDefined _ := trivial
  append _ := trivial
  outside _ _ _ h hservice := absurd h hservice
  able := Handler.IsService
  admits _ _ := trivial
  submit _ _ _ _ := fulfils_modify (fun _ => rfl) fun _ => .refl _
  body := Handler.IsService.within
  error _ _ := trivial
  waits := may
  await hmay := .await fun _ h => Option.some.inj h ▸ hmay
  pass := .pass fun wake h => absurd h (Option.some_ne_none wake).symm
  cancelTracked site :=
    fulfils_modify (cluster_cancelTracked · site) fun d => watches_cancelTracked d site ▸ .refl _
  startWatch _ _ _ := fulfils_modify (fun _ => rfl) fun d => .append rfl d.watches
  stopLatest name := fulfils_modify (fun _ => rfl) fun d => .stopLatest name d.watches
  openGate _ := fulfils_modify (fun _ => rfl) fun _ => .refl _
  counts _ := True
  countExecution _ := .update fun _ _ => ⟨.refl _, .refl _⟩
  beats _ _ := True
  beginHeartbeat {site ticket} id _ :=
    fulfils_modify (cluster_beginHeartbeat site ticket id)
      fun d => watches_beginHeartbeat site ticket id d ▸ .refl _
  endHeartbeat _ := fulfils_modify (fun _ => rfl) fun _ => .refl _

end Deployment
end JobControl
