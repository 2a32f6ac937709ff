import JobControl.Failure

/-! # The connection to the store

A unit of work needs a session, and sessions come from a factory that is bound to an engine.
Connecting twice is the same as connecting once, and what is stored outlasts a connection. -/

namespace JobControl

structure Connection where
  /-- An engine was created. -/
  engine : Bool
  /-- There is a factory of sessions. -/
  factory : Bool
  /-- A factory is bound to an engine. -/
  bound : factory → engine
  documents : List String

namespace Connection

def closed (documents : List String) : Connection := ⟨false, false, id, documents⟩

/-- Create an engine, unless there is one. -/
def createEngine (c : Connection) : Connection := { c with engine := true, bound := fun _ => rfl }

def connect (c : Connection) : Connection :=
  { c.createEngine with factory := true, bound := fun _ => rfl }

/-- Give up the engine, if there is one, and the factory with it. -/
def close (c : Connection) : Connection := if c.engine then closed c.documents else c

/-! ## Units of work -/

/-- What is raised within a session. -/
inductive Fault where
  | database
  | raised (kind text : String)

/-- Failures of the database arrive as failures of the store, all others as they are. -/
def Fault.failure : Fault → Failure
  | database => .store
  | raised kind text => .raised kind text

/-- How a unit of work ends once it has inserted its documents. -/
inductive Ending where
  | well
  /-- Something else fails in the database. -/
  | failing
  | raising (kind text : String)
deriving DecidableEq, Repr

def Ending.outcome : Ending → Except Fault Unit
  | well => .ok ()
  | failing => .error .database
  | raising kind text => .error (.raised kind text)

/-- Add documents one by one; an id must not be in use. -/
def insertAll : List String → List String → Except Fault (List String)
  | stored, [] => .ok stored
  | stored, id :: rest => if id ∈ stored then .error .database else insertAll (stored ++ [id]) rest

/-- What is stored when the body of a unit of work is over. -/
def body (stored inserts : List String) (ending : Ending) : Except Fault (List String) := do
  let stored ← insertAll stored inserts
  ending.outcome
  return stored

/-- A unit of work that inserts documents and then ends well or fails. Nothing is stored unless it
ends well. -/
def use (c : Connection) (inserts : List String) (ending : Ending) :
    Except Failure Unit × Connection :=
  if c.factory then
    match body c.documents inserts ending with
    | .ok stored => (.ok (), { c with documents := stored })
    | .error fault => (.error fault.failure, c)
  else (.error .notConnected, c)

def ids (c : Connection) : List String := c.documents.mergeSort fun a b => a ≤ b

end Connection
end JobControl
