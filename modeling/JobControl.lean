import JobControl.Connection
import JobControl.Job.Fields
import JobControl.Metrics.Exposition
import JobControl.Pool.Bench
import JobControl.Proofs.BoundedPool
import JobControl.Proofs.Connections
import JobControl.Proofs.Detection
import JobControl.Proofs.DisabledTypes
import JobControl.Proofs.Executions
import JobControl.Proofs.Isolation
import JobControl.Proofs.JobNames
import JobControl.Proofs.KillPass
import JobControl.Proofs.LockContest
import JobControl.Proofs.LockSweep
import JobControl.Proofs.Messages
import JobControl.Proofs.Outcomes
import JobControl.Proofs.RecordTimes
import JobControl.Proofs.Retention
import JobControl.Proofs.RunTotals
import JobControl.Proofs.StaleKills
import JobControl.Proofs.Starts
import JobControl.Proofs.StoredJobs
import JobControl.Reaper.Process
import JobControl.Proofs.Delivery
import JobControl.Proofs.Registrations
import JobControl.Proofs.ReaperTurns
import JobControl.Proofs.ReaperRounds
