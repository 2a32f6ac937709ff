import JobControl.Bus

/-! # What is proved construct by construct

Much that is proved of routines holds of whatever is put together from routines of which it holds. A
`Routine.Logic` is such a property with its rules, a `Bus.Logic` one of work on the event bus. What
is put together in the same way for every logic is gone through once. -/

namespace JobControl

/-- A property of routines, with a rule for each construct. -/
structure Routine.Logic (ω σ : Type) where
  holds : {α : Type} → Routine ω σ α → Prop
  /-- What may be assumed of a state that is read. -/
  given : σ → Prop
  pure : ∀ {α : Type} (a : α), holds (Pure.pure a : Routine ω σ α)
  fail : ∀ {α : Type} (e : Failure), holds (Routine.fail e : Routine ω σ α)
  bind : ∀ {α β : Type} {r : Routine ω σ α} {k : α → Routine ω σ β},
    holds r → (∀ a, holds (k a)) → holds (r >>= k)
  read : ∀ {α β : Type} {f : σ → α} {k : α → Routine ω σ β},
    (∀ s, given s → holds (k (f s))) → holds (Routine.read f >>= k)
  rescue : ∀ {α : Type} {r : Routine ω σ α} {handler : Failure → Routine ω σ α},
    holds r → (∀ e, holds (handler e)) → holds (r.rescue handler)
  ensure : ∀ {α : Type} {r : Routine ω σ α} {cleanup : Routine ω σ Unit},
    holds r → holds cleanup → holds (r.ensure cleanup)

namespace Routine.Logic
variable {ω σ α β : Type} (L : Logic ω σ)

theorem reading (f : σ → α) : L.holds (Routine.read f : Routine ω σ α) := by
  have hread : L.holds (Routine.read f >>= fun a => Pure.pure a : Routine ω σ α) :=
    L.read fun s _ => L.pure (f s)
  exact hread

theorem map {r : Routine ω σ α} {f : α → β} (h : L.holds r) : L.holds (f <$> r) :=
  L.bind h fun a => L.pure (f a)

theorem attempt {r : Routine ω σ α} (h : L.holds r) : L.holds r.attempt :=
  L.rescue (L.bind h fun a => L.pure (Except.ok a)) fun e => L.pure (Except.error e)

theorem ofExcept (r : Except Failure α) : L.holds (Routine.ofExcept r : Routine ω σ α) := by
  cases r with
  | ok a => exact L.pure a
  | error e => exact L.fail e

theorem collect {f : β → Routine ω σ (Option α)} {l : List β} (h : ∀ x ∈ l, L.holds (f x)) :
    L.holds (Routine.collect f l) := by
  induction l with
  | nil => exact L.pure []
  | cons x l ih =>
    refine L.bind (h x List.mem_cons_self) fun _ => ?_
    exact L.bind (ih fun y hy => h y (List.mem_cons_of_mem _ hy)) fun _ => L.pure _

end Routine.Logic

/-! ## The event bus -/

/-- A logic for work on the event bus. Listeners that are known may take their time. -/
structure Bus.Logic extends Routine.Logic Wake Bus where
  call : ∀ name l e, holds (Routine.act (Bus.call name l e))
  await : ∀ {b : Bus} {name : String} {l : Listener}, given b → b.known.get? name = some l →
    0 < l.delay → holds (Routine.await (.after l.delay))

namespace Bus.Logic
variable (L : Logic) (e : Event)

theorem deliver (name : String) : L.holds (Bus.deliver e name) := by
  refine L.read fun b hb => ?_
  cases hl : b.known.get? name with
  | none => exact L.pure ()
  | some l =>
    have hcall := L.rescue (L.call name l e) fun _ => L.pure ()
    dsimp only
    split
    · rename_i hdelay
      exact L.bind (L.await hb hl hdelay) fun _ => hcall
    · exact hcall

theorem deliverAll (names : List String) : L.holds (Bus.deliverAll e names) := by
  induction names with
  | nil => exact L.pure ()
  | cons name rest ih => exact L.bind (L.deliver e name) fun _ => ih

theorem publish (hannounce : L.holds (Routine.update fun b : Bus =>
      (b.subscribed, { b with announced := b.announced ++ [e] }))) :
    L.holds (Bus.publish e) :=
  L.bind hannounce fun names => L.deliverAll e names

end Bus.Logic

end JobControl
