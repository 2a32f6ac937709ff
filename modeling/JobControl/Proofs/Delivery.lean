import JobControl.Bus

/-! # Delivery of events

An event goes to the listeners that are subscribed when it is announced, to each as often as it is
subscribed and in the order of the subscriptions. Listeners may fail, take their time and change the
subscriptions, and others may change them while a listener takes its time: this shows in who is
subscribed afterwards, but not in who is called. -/

namespace JobControl

/-! ## Routines while others act -/

namespace Routine
variable {ω σ α β : Type}

/-- Play to the end while others act: at each place to wait at, the next of them changes the state.
What is left of them is returned as well. -/
def runAmid : Routine ω σ α → List (σ → σ) → σ → Except Failure α × List (σ → σ) × σ
  | done r, others, s => (r, others, s)
  | step act next, others, s => (next s).runAmid others (act s)
  | wait _ next _, others, s => next.runAmid others.tail (others.headD id s)

theorem runAmid_bind (r : Routine ω σ α) (k : α → Routine ω σ β) (others : List (σ → σ)) (s : σ) :
    (r >>= k).runAmid others s =
      match r.runAmid others s with
      | (.ok a, rest, s') => (k a).runAmid rest s'
      | (.error e, rest, s') => (.error e, rest, s') := by
  show (r.bind k).runAmid others s = _
  induction r generalizing others s with
  | done outcome => cases outcome <;> rfl
  | step act next ih => exact ih s others (act s)
  | wait wake next abort ih _ => exact ih _ _

theorem runAmid_bind_of_ok {r : Routine ω σ α} {k : α → Routine ω σ β} {others rest : List (σ → σ)}
    {s s' : σ} {a : α} (h : r.runAmid others s = (.ok a, rest, s')) :
    (r >>= k).runAmid others s = (k a).runAmid rest s' := by
  rw [runAmid_bind, h]

end Routine

/-! ## Changes of the subscriptions -/

namespace Subscription

def apply (names : List String) : Subscription → List String
  | add name => names ++ [name]
  | remove name => names.erase name

/-- Only listeners that exist can be added. -/
def Within (known : Mapping String Listener) : Subscription → Prop
  | add name => known.contains name
  | remove _ => True

instance (known : Mapping String Listener) : DecidablePred (Within known)
  | add name => inferInstanceAs (Decidable (known.contains name = true))
  | remove _ => inferInstanceAs (Decidable True)

end Subscription

namespace Bus

theorem changeAll_eq (changes : List Subscription) (b : Bus) :
    b.changeAll changes =
      { b with subscribed := changes.foldl Subscription.apply b.subscribed } := by
  unfold changeAll
  induction changes generalizing b with
  | nil => rfl
  | cons c rest ih =>
    rw [List.foldl_cons, ih]
    cases c <;> rfl

/-! ## One call -/

/-- What is done to the subscriptions while a listener is called that has then noted the events
`heard`. Others act first, if it takes its time. -/
def performedBy (l : Listener) (heard : List Event) (amid : List (List Subscription)) :
    List Subscription :=
  (if 0 < l.delay then amid.headD [] else []) ++ l.during heard

/-- What others have still to do after a listener was called. -/
def leftBy (l : Listener) (amid : List (List Subscription)) : List (List Subscription) :=
  if 0 < l.delay then amid.tail else amid

theorem runAmid_deliver {b : Bus} {name : String} {l : Listener}
    (hname : b.known.get? name = some l) (e : Event) (amid : List (List Subscription)) :
    (deliver e name).runAmid (amid.map changeAll) b = (.ok (), (leftBy l amid).map changeAll,
      { b with
        subscribed := (performedBy l (heard (b.noted ++ [(name, e)]) name) amid).foldl
          Subscription.apply b.subscribed
        noted := b.noted ++ [(name, e)] }) := by
  have hcall (others : List (Bus → Bus)) (b : Bus) :
      (Routine.modify (ω := Wake) fun b => (call name l e b).2).runAmid others b =
        (.ok (), others, (b.note name e).changeAll (l.during (heard (b.note name e).noted name))) :=
    rfl
  unfold deliver performedBy leftBy
  rw [Routine.runAmid_bind_of_ok rfl]
  simp only [hname, rescue_call]
  by_cases hdelay : 0 < l.delay
  · simp only [if_pos hdelay]
    rw [Routine.runAmid_bind_of_ok rfl, hcall, changeAll_eq, List.foldl_append, List.map_tail]
    cases amid with
    | nil => rfl
    | cons changes rest => simp [changeAll_eq, note]
  · simp only [if_neg hdelay]
    rw [hcall, changeAll_eq]
    rfl

/-! ## One event -/

/-- What is done to the subscriptions while some listeners are called for an event one after the
other, `noted` being the calls before. -/
def performed (known : Mapping String Listener) (e : Event) :
    List (String × Event) → List String → List (List Subscription) → List Subscription
  | _, [], _ => []
  | noted, name :: rest, amid =>
    match known.get? name with
    | some l =>
      let noted := noted ++ [(name, e)]
      performedBy l (heard noted name) amid ++ performed known e noted rest (leftBy l amid)
    | none => performed known e noted rest amid

theorem runAmid_deliverAll {b : Bus} {names : List String}
    (hnames : ∀ name ∈ names, b.known.contains name) (e : Event)
    (amid : List (List Subscription)) :
    ∃ rest, (deliverAll e names).runAmid (amid.map changeAll) b = (.ok (), rest,
      { b with
        subscribed := (performed b.known e b.noted names amid).foldl Subscription.apply b.subscribed
        noted := b.noted ++ names.map (·, e) }) := by
  induction names generalizing b amid with
  | nil => exact ⟨amid.map changeAll, by simp [deliverAll, performed, Routine.runAmid, pure]⟩
  | cons name names ih =>
    obtain ⟨l, hl⟩ := Option.isSome_iff_exists.mp (hnames name List.mem_cons_self)
    rw [deliverAll, Routine.runAmid_bind_of_ok (runAmid_deliver hl e amid)]
    -- The call leaves alone which listeners there are.
    let b' : Bus :=
      { b with
        subscribed := (performedBy l (heard (b.noted ++ [(name, e)]) name) amid).foldl
          Subscription.apply b.subscribed
        noted := b.noted ++ [(name, e)] }
    obtain ⟨rest, hrest⟩ :=
      ih (b := b') (fun n hn => hnames n (List.mem_cons_of_mem _ hn)) (leftBy l amid)
    exact ⟨rest, hrest.trans (by simp [b', performed, hl])⟩

theorem runAmid_publish {b : Bus} (hnames : ∀ name ∈ b.subscribed, b.known.contains name)
    (e : Event) (amid : List (List Subscription)) :
    ∃ rest, (publish e).runAmid (amid.map changeAll) b = (.ok (), rest,
      { b with
        subscribed := (performed b.known e b.noted b.subscribed amid).foldl Subscription.apply
          b.subscribed
        announced := b.announced ++ [e]
        noted := b.noted ++ b.subscribed.map (·, e) }) := by
  unfold publish
  rw [Routine.runAmid_bind_of_ok rfl]
  exact runAmid_deliverAll (b := { b with announced := b.announced ++ [e] }) hnames e amid

/-! ## All steps -/

/-- What is done with a bus. While a listener takes its time after an event, others may act. -/
inductive Step where
  | change (c : Subscription)
  | publish (e : Event) (amid : List (List Subscription))

def perform (b : Bus) : Step → Except Failure Unit × Bus
  | .change c => (.ok (), b.change c)
  | .publish e amid =>
    let r := (publish e).runAmid (amid.map changeAll) b
    (r.1, r.2.2)

/-- The bus after some steps. -/
def after (b : Bus) (steps : List Step) : Bus := steps.foldl (fun b step => (b.perform step).2) b

/-- Only listeners that exist are added in a step. -/
def Step.Within (known : Mapping String Listener) : Step → Prop
  | change c => c.Within known
  | publish _ amid => ∀ changes ∈ amid, ∀ c ∈ changes, c.Within known

instance (known : Mapping String Listener) : DecidablePred (Step.Within known)
  | .change c => inferInstanceAs (Decidable (c.Within known))
  | .publish _ amid =>
    inferInstanceAs (Decidable (∀ changes ∈ amid, ∀ c ∈ changes, c.Within known))

/-- The listeners that are subscribed exist, and so do those that a listener adds. -/
structure Closed (b : Bus) : Prop where
  subscribed : ∀ name ∈ b.subscribed, b.known.contains name
  during : ∀ entry ∈ b.known.entries, ∀ heard, ∀ c ∈ entry.2.during heard, c.Within b.known

theorem contains_apply {known : Mapping String Listener} {names : List String} {c : Subscription}
    (hc : c.Within known) (hnames : ∀ name ∈ names, known.contains name) :
    ∀ name ∈ c.apply names, known.contains name := by
  cases c with
  | add name =>
    intro n hn
    rcases List.mem_append.mp hn with hn | hn
    · exact hnames n hn
    · exact List.mem_singleton.mp hn ▸ hc
  | remove name => exact fun n hn => hnames n (List.mem_of_mem_erase hn)

theorem contains_applyAll {known : Mapping String Listener} {names : List String}
    {changes : List Subscription} (hchanges : ∀ c ∈ changes, c.Within known)
    (hnames : ∀ name ∈ names, known.contains name) :
    ∀ name ∈ changes.foldl Subscription.apply names, known.contains name := by
  induction changes generalizing names with
  | nil => exact hnames
  | cons c rest ih =>
    exact ih (fun c' hc' => hchanges c' (List.mem_cons_of_mem _ hc'))
      (contains_apply (hchanges c List.mem_cons_self) hnames)

/-- What is done while listeners are called is done by them or by the others. -/
theorem Closed.within_performed {b : Bus} (hb : b.Closed) (e : Event)
    (noted : List (String × Event)) (names : List String) {amid : List (List Subscription)}
    (hamid : ∀ changes ∈ amid, ∀ c ∈ changes, c.Within b.known) :
    ∀ c ∈ performed b.known e noted names amid, c.Within b.known := by
  induction names generalizing noted amid with
  | nil => exact fun c hc => absurd hc List.not_mem_nil
  | cons name names ih =>
    unfold performed
    split
    · rename_i l hl
      have hrest : ∀ c ∈ performed b.known e (noted ++ [(name, e)]) names (leftBy l amid),
          c.Within b.known := by
        refine ih _ fun changes hmem => hamid changes ?_
        unfold leftBy at hmem
        split at hmem
        · exact List.mem_of_mem_tail hmem
        · exact hmem
      intro c hc
      rcases List.mem_append.mp hc with hc | hc
      · rcases List.mem_append.mp hc with hc | hc
        · split at hc
          · cases amid with
            | nil => exact absurd hc List.not_mem_nil
            | cons changes rest => exact hamid changes List.mem_cons_self c hc
          · exact absurd hc List.not_mem_nil
        · exact hb.during (name, l) ((b.known.mem_entries_iff).mpr hl) _ c hc
      · exact hrest c hc
    · exact ih noted hamid

theorem perform_change (b : Bus) (c : Subscription) :
    b.perform (.change c) = (.ok (), { b with subscribed := c.apply b.subscribed }) := by
  cases c <;> rfl

theorem Closed.perform_publish {b : Bus} (hb : b.Closed) (e : Event)
    (amid : List (List Subscription)) :
    b.perform (.publish e amid) = (.ok (),
      { b with
        subscribed := (performed b.known e b.noted b.subscribed amid).foldl Subscription.apply
          b.subscribed
        announced := b.announced ++ [e]
        noted := b.noted ++ b.subscribed.map (·, e) }) := by
  obtain ⟨rest, hrun⟩ := runAmid_publish hb.subscribed e amid
  simp only [perform, hrun]

theorem Closed.perform {b : Bus} (hb : b.Closed) {step : Step} (hstep : step.Within b.known) :
    (b.perform step).2.Closed ∧ (b.perform step).2.known = b.known := by
  cases step with
  | change c =>
    rw [perform_change]
    exact ⟨⟨contains_apply hstep hb.subscribed, hb.during⟩, rfl⟩
  | publish e amid =>
    rw [hb.perform_publish]
    exact ⟨⟨contains_applyAll (hb.within_performed _ _ _ hstep) hb.subscribed, hb.during⟩, rfl⟩

theorem Closed.after {b : Bus} (hb : b.Closed) {steps : List Step}
    (hsteps : ∀ step ∈ steps, step.Within b.known) :
    (b.after steps).Closed ∧ (b.after steps).known = b.known := by
  induction steps generalizing b with
  | nil => exact ⟨hb, rfl⟩
  | cons step rest ih =>
    obtain ⟨hnext, hknown⟩ := hb.perform (hsteps step List.mem_cons_self)
    have hrest := ih hnext fun s hs => hknown ▸ hsteps s (List.mem_cons_of_mem _ hs)
    exact ⟨hrest.1, hrest.2.trans hknown⟩

/-- After any steps, an event goes to the listeners that are subscribed at that time, to each as
often as it is subscribed and in the order of the subscriptions, whatever they and others do to the
subscriptions meanwhile and whichever of them fail; announcing it does not fail. Afterwards those
are subscribed who were so before, with the changes made meanwhile in the order in which they were
made. What a listener does may be another thing at each call. -/
theorem delivery_exact {b : Bus} {past : List Step} (hb : b.Closed)
    (hpast : ∀ step ∈ past, step.Within b.known) (e : Event) (amid : List (List Subscription)) :
    let b' := b.after past
    b'.perform (.publish e amid) = (.ok (),
      { b' with
        subscribed := (performed b.known e b'.noted b'.subscribed amid).foldl Subscription.apply
          b'.subscribed
        announced := b'.announced ++ [e]
        noted := b'.noted ++ b'.subscribed.map (·, e) }) ∧
    ∀ c, b'.perform (.change c) = (.ok (), { b' with subscribed := c.apply b'.subscribed }) := by
  intro b'
  obtain ⟨hb', hknown⟩ := hb.after hpast
  rw [← hknown]
  exact ⟨hb'.perform_publish e amid, perform_change b'⟩

/-- One listener, at its first call only, takes itself out, adds another and fails; one is taken out
before its turn comes. The first two are called as often as they were subscribed, the one that was
added is not. -/
theorem delivery_exact_selfRemoving :
    ∃ (b : Bus) (past : List Step) (e : Event) (amid : List (List Subscription)),
      b.Closed ∧ (∀ step ∈ past, step.Within b.known) ∧
      (b.after past).subscribed = ["hasty", "hasty", "slow", "slow"] ∧
      ((b.after past).perform (.publish e amid)).1 = .ok () ∧
      ((b.after past).perform (.publish e amid)).2.noted =
        [("hasty", e), ("hasty", e), ("slow", e), ("slow", e)] ∧
      ((b.after past).perform (.publish e amid)).2.subscribed = ["hasty", "slow", "late"] := by
  let hasty : Listener :=
    { delay := 0
      during := fun heard => if heard.length = 1 then [.remove "hasty", .add "late"] else []
      fails := fun heard => heard.length = 1 }
  let b : Bus :=
    { known := ⟨[("hasty", hasty), ("slow", ⟨5, fun _ => [], fun _ => false⟩),
        ("late", ⟨0, fun _ => [], fun _ => false⟩)], by decide⟩
      subscribed := ["hasty", "hasty"]
      announced := []
      noted := [] }
  let past : List Step := [.change (.add "slow"), .change (.add "slow")]
  let e : Event := ⟨"job-1", "backup", ⟨63902829600000000, some 0⟩, .dead⟩
  have hduring : ∀ entry ∈ b.known.entries, ∀ heard, ∀ c ∈ entry.2.during heard,
      c.Within b.known := by
    intro entry hentry heard c hc
    simp only [b, List.mem_cons, List.not_mem_nil, or_false] at hentry
    rcases hentry with rfl | rfl | rfl
    · by_cases hfirst : heard.length = 1 <;> simp [hasty, hfirst] at hc
      rcases hc with rfl | rfl
      · exact trivial
      · rfl
    · exact absurd hc List.not_mem_nil
    · exact absurd hc List.not_mem_nil
  have hb : b.Closed := ⟨by decide +kernel, hduring⟩
  have hpast : ∀ step ∈ past, step.Within b.known := by decide +kernel
  have hexact := (delivery_exact hb hpast e [[.remove "slow"]]).1
  refine ⟨b, past, e, [[.remove "slow"]], hb, hpast, by decide +kernel, ?_⟩
  rw [hexact]
  exact ⟨rfl, by decide +kernel, by decide +kernel⟩

end Bus
end JobControl
