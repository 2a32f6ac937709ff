import JobControl.Deployment.Script
import JobControl.Pool
import JobControl.Reaper

/-! # Deployments

A deployment is a cluster together with what happens around it in time: the sites at which engines
run, their pools and heartbeats, the reapers, and the gates that handlers wait for. -/

namespace JobControl

/-- Keeps a job alive at regular intervals while it is executed. -/
structure Heartbeat where
  site : Nat
  ticket : Nat
  job : String
  every : Micros
  due : Micros
deriving DecidableEq, Repr

structure Site where
  engine : Engine
  keepAlive : Micros
  pool : Pool (Handler Script)

/-- A reaper that runs in a loop. One without a name is a process of its own, whose events are
announced to nobody else. -/
structure Watch where
  name : Option String
  engine : Engine
  reaper : Reaper
  loop : Loop

structure Deployment where
  cluster : Cluster
  handlers : Handlers Script
  sites : List Site
  heartbeats : List Heartbeat
  watches : List Watch
  gates : List String
  /-- How often a handler was executed, by job. -/
  executions : Mapping String Nat
  /-- The work, by site and ticket, that is to be cancelled. -/
  doomed : List (Nat × Nat)

namespace Deployment
variable {α : Type}

abbrev Work (α : Type) := Routine Wake Deployment α

def onCluster (r : Cluster.Work α) : Work α :=
  r.zoom (·.cluster) fun c d => { d with cluster := c }

/-- A routine of a process with an event bus of its own. -/
def onOwnBus (r : Cluster.Work α) : Work α :=
  r.zoom (fun d => { d.cluster with bus := Bus.empty })
    fun c d => { d with cluster := { c with bus := d.cluster.bus } }

def now (d : Deployment) : Micros := d.cluster.clock.elapsed

def atTime (d : Deployment) (t : Micros) : Deployment :=
  { d with cluster := { d.cluster with clock := { d.cluster.clock with elapsed := t } } }

/-- The engine of a site; where there is no site, one that never writes a shared document. -/
def engine (d : Deployment) (site : Nat) : Engine :=
  (d.sites[site]?.map (·.engine)).getD ⟨"", 0⟩

def modifySite (d : Deployment) (site : Nat) (f : Site → Site) : Deployment :=
  { d with sites := d.sites.modify site f }

def modifyPool (d : Deployment) (site : Nat) (f : Pool (Handler Script) → Pool (Handler Script)) :
    Deployment :=
  d.modifySite site fun s => { s with pool := f s.pool }

def pool? (d : Deployment) (site : Nat) : Option (Pool (Handler Script)) :=
  d.sites[site]?.map (·.pool)

/-- Drop the tracked work of a site that waits for a slot, and doom the rest of it. -/
def cancelTracked (d : Deployment) (site : Nat) : Deployment :=
  match d.pool? site with
  | some p =>
    { d.modifyPool site Pool.dropQueued with
      doomed := d.doomed ++ p.trackedActive.map fun t => (site, t.number) }
  | none => d

def trackedTickets (d : Deployment) (site : Nat) : List Nat :=
  ((d.pool? site).map fun p => p.tracked.entries.map (·.2)).getD []

def isPending (d : Deployment) (site ticket : Nat) : Bool :=
  (d.pool? site).any (·.isPending ticket)

def beginHeartbeat (site ticket : Nat) (job : String) (d : Deployment) : Deployment :=
  match d.sites[site]? with
  | some s =>
    { d with heartbeats := d.heartbeats ++ [⟨site, ticket, job, s.keepAlive, d.now + s.keepAlive⟩] }
  | none => d

def endHeartbeat (site ticket : Nat) (d : Deployment) : Deployment :=
  { d with heartbeats := d.heartbeats.filter fun h => !(h.site == site && h.ticket == ticket) }

def spare (site ticket : Nat) (d : Deployment) : Deployment :=
  { d with doomed := d.doomed.filter (· ≠ (site, ticket)) }

def modifyLoop (d : Deployment) (watch : Nat) (f : Loop → Loop) : Deployment :=
  { d with watches := d.watches.modify watch fun w => { w with loop := f w.loop } }

/-- Count an execution of a job's handler; the result is the number of earlier ones. -/
def countExecution (job : String) (d : Deployment) : Nat × Deployment :=
  let n := (d.executions.get? job).getD 0
  (n, { d with executions := d.executions.insert job (n + 1) })

end Deployment
end JobControl
