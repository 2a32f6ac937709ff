import JobControl.Job.Event
import JobControl.Routine
import JobControl.Store.Mapping

/-! # The event bus

Listeners are called one after the other, in the order of their subscription. A listener may take
its time, may change the subscriptions and may fail; none of this keeps the later ones from being
called. -/

namespace JobControl

/-- What a routine waits for. -/
inductive Wake where
  | after (d : Micros)
  | gate (name : String)
  | never
deriving DecidableEq, Repr

/-- A change of the subscriptions, by the name of the listener. -/
inductive Subscription where
  | add (name : String)
  | remove (name : String)
deriving DecidableEq, Repr

/-- What a listener does at a call may depend on the events that it has noted, the last of which is
the one that it is called for. -/
structure Listener where
  /-- How long it takes before it notes an event. -/
  delay : Micros
  /-- What it does to the subscriptions afterwards. -/
  during : List Event → List Subscription
  fails : List Event → Bool

structure Bus where
  /-- The listeners that can be subscribed. -/
  known : Mapping String Listener
  subscribed : List String
  announced : List Event
  /-- The calls that were made: which listener noted which event. -/
  noted : List (String × Event)

namespace Bus

def empty : Bus := ⟨∅, [], [], []⟩

/-- Removing takes away the first occurrence, if there is one. -/
def change (b : Bus) : Subscription → Bus
  | .add name => { b with subscribed := b.subscribed ++ [name] }
  | .remove name => { b with subscribed := b.subscribed.erase name }

def note (b : Bus) (name : String) (e : Event) : Bus := { b with noted := b.noted ++ [(name, e)] }

/-- The events that the listener has noted. -/
def heard (noted : List (String × Event)) (name : String) : List Event :=
  (noted.filter (·.1 = name)).map (·.2)

def changeAll (changes : List Subscription) (b : Bus) : Bus := changes.foldl change b

/-- A listener notes an event, changes the subscriptions and perhaps fails. -/
def call (name : String) (l : Listener) (e : Event) (b : Bus) : Except Failure Unit × Bus :=
  let b := b.note name e
  (if l.fails (heard b.noted name) then .error (.raised "RuntimeError" name) else .ok (),
    b.changeAll (l.during (heard b.noted name)))

/-- Call one listener and swallow its failure. -/
def deliver (e : Event) (name : String) : Routine Wake Bus Unit := do
  match ← Routine.read (·.known.get? name) with
  | none => pure ()
  | some l =>
    if 0 < l.delay then Routine.await (.after l.delay)
    (Routine.act (call name l e)).rescue fun _ => pure ()

/-- Whether the listener fails shows nowhere. -/
theorem rescue_call (name : String) (l : Listener) (e : Event) :
    ((Routine.act (call name l e)).rescue fun _ => pure () : Routine Wake Bus Unit) =
      Routine.modify fun b => (call name l e b).2 := by
  have hdone : ∀ b, ((Routine.done (call name l e b).1).rescue fun _ => pure () :
      Routine Wake Bus Unit) = Routine.done (.ok ()) := by
    intro b
    unfold call
    dsimp only
    split <;> rfl
  exact congrArg (Routine.step fun b => (call name l e b).2) (funext hdone)

def deliverAll (e : Event) : List String → Routine Wake Bus Unit
  | [] => pure ()
  | name :: rest => do
    deliver e name
    deliverAll e rest

/-- Announce an event to the listeners that are subscribed now. -/
def publish (e : Event) : Routine Wake Bus Unit := do
  let names ← Routine.update fun b => (b.subscribed, { b with announced := b.announced ++ [e] })
  deliverAll e names

end Bus
end JobControl
