import IngressOperator.Cluster.Http
import IngressOperator.Control
import IngressOperator.Flags
import IngressOperator.Main
import IngressOperator.Rehearsal
import IngressOperator.Schema
import IngressOperator.Json.Printer
import IngressOperator.Proofs.Time.Digits
import IngressOperator.Proofs.Time.Rfc3339
import IngressOperator.Proofs.Wire.Record
import IngressOperator.Proofs.Wire.Resources
import IngressOperator.Proofs.Program.Trace
import IngressOperator.Proofs.Program.Composes
import IngressOperator.Proofs.Program.Yields
import IngressOperator.Proofs.Store.Contract
import IngressOperator.Proofs.Drift.Settle
import IngressOperator.Proofs.Ensure.Keeping
import IngressOperator.Proofs.Store.Repeat
import IngressOperator.Proofs.Steps.Await
import IngressOperator.Proofs.Drift.Desired
import IngressOperator.Proofs.Steps.Targets
import IngressOperator.Proofs.Steps.Pieces
import IngressOperator.Proofs.Steps.Repeat
import IngressOperator.Proofs.Ensure.Preserve
import IngressOperator.Proofs.Steps.Note
import IngressOperator.Proofs.Steps.Parts
import IngressOperator.Proofs.Steps.Permits
import IngressOperator.Proofs.Steps.Told
import IngressOperator.Proofs.Steps.Lasting
import IngressOperator.Proofs.Status.Mark
import IngressOperator.Proofs.Pass.Course
import IngressOperator.Proofs.Pass.Progress
import IngressOperator.Proofs.Pass.Replay
import IngressOperator.Proofs.Pass.Repeat
import IngressOperator.Proofs.Cluster.Direct
import IngressOperator.Proofs.Steps.Wanted
import IngressOperator.Proofs.Pass.Converge
import IngressOperator.Proofs.Store.Shared
import IngressOperator.Proofs.Store.Served
import IngressOperator.Proofs.Pass.Interleaving
import IngressOperator.Proofs.Pass.Restart
import IngressOperator.Proofs.Cluster.Shared
import IngressOperator.Proofs.Status.Reported
import IngressOperator.Proofs.Pass.Report
import IngressOperator.Proofs.Control.Events
import IngressOperator.Proofs.Steps.Obstacles
import IngressOperator.Proofs.Pass.Prerequisites
import IngressOperator.Proofs.Status.Restated
import IngressOperator.Proofs.Pass.Owned
import IngressOperator.Proofs.Control.Frame
import IngressOperator.Proofs.Store.Custody
import IngressOperator.Proofs.Drift.Agree
import IngressOperator.Proofs.Steps.Brought
import IngressOperator.Proofs.Pass.Published
import IngressOperator.Proofs.Pass.OneHost
import IngressOperator.Proofs.Program.Abreast
import IngressOperator.Proofs.Ensure.Blur
import IngressOperator.Proofs.Store.Beside
import IngressOperator.Proofs.Steps.Abreast
import IngressOperator.Proofs.Status.Concur
import IngressOperator.Proofs.Pass.Abreast
import IngressOperator.Proofs.Pass.Level
import IngressOperator.Proofs.Pass.Blind
import IngressOperator.Proofs.Cluster.Even
import IngressOperator.Proofs.Pass.Apart
import IngressOperator.Proofs.Pass.Secrecy
import IngressOperator.Proofs.Steps.Rollout
import IngressOperator.Proofs.Pass.Instances
import IngressOperator.Proofs.Pass.Legacy
import IngressOperator.Proofs.Program.Heeds
import IngressOperator.Proofs.Pass.OneDomain
import IngressOperator.Proofs.Drift.Verdict
import IngressOperator.Proofs.Drift.Takeover
import IngressOperator.Proofs.Status.History
import IngressOperator.Proofs.Status.Edits
import IngressOperator.Proofs.Time.Waits
import IngressOperator.Proofs.Drift.Order
import IngressOperator.Proofs.Ensure.Course
import IngressOperator.Proofs.Ensure.Truth
import IngressOperator.Proofs.Drift.Tolerations
import IngressOperator.Proofs.Text.Split
import IngressOperator.Proofs.Console.Address
import IngressOperator.Proofs.Status.Pods
import IngressOperator.Proofs.Json.Text
import IngressOperator.Proofs.Wire.Regular
import IngressOperator.Proofs.Pass.ReadBack
import IngressOperator.Proofs.Drift.Unmodelled
import IngressOperator.Proofs.Text.Trim
import IngressOperator.Proofs.Desired.Image
import IngressOperator.Proofs.Desired.NodePort
