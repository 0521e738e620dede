import NetLab.Cluster.Client
import NetLab.Controller.Metrics
import NetLab.Controller.Status
import NetLab.Http.Router
import NetLab.Sandbox.Session
import NetLab.Settings
import NetLab.Topology.File
import NetLab.Proofs.Cluster.Store
import NetLab.Proofs.Reconcile.Order
import NetLab.Proofs.Reconcile.Rules
import NetLab.Proofs.Reconcile.Ownership
import NetLab.Proofs.Reconcile.Interleaving
import NetLab.Proofs.Maps
import NetLab.Proofs.Json.Members
import NetLab.Proofs.Json.Subset
import NetLab.Proofs.Drift.Filled
import NetLab.Proofs.Json.Canonical
import NetLab.Proofs.Render.Objects
import NetLab.Proofs.Cluster.Faithful
import NetLab.Proofs.Reconcile.Mirror
import NetLab.Proofs.Reconcile.Progress
import NetLab.Proofs.Reconcile.Convergence
import NetLab.Proofs.Render.Mounts
import NetLab.Proofs.Reconcile.Mounts
import NetLab.Proofs.Json.Compact
import NetLab.Proofs.Json.Exact
import NetLab.Proofs.Drift.Requirements
import NetLab.Proofs.Render.Identity
import NetLab.Proofs.Drift.Workloads
import NetLab.Proofs.Drift.Policies
import NetLab.Proofs.Drift.Completeness
import NetLab.Proofs.Drift.Specs
import NetLab.Proofs.Render.Keys
import NetLab.Proofs.Policy.Meaning
import NetLab.Proofs.Policy.Links
import NetLab.Proofs.Policy.Drift
import NetLab.Proofs.Cluster.Runs
import NetLab.Proofs.Cluster.Versions
import NetLab.Proofs.Reconcile.Phases
import NetLab.Proofs.Reconcile.Singleness
import NetLab.Proofs.Cluster.Views
import NetLab.Proofs.Reconcile.Isolation
import NetLab.Proofs.Reconcile.Overwriting
import NetLab.Proofs.Cluster.Histories
import NetLab.Proofs.Cluster.Interruption
import NetLab.Proofs.Reconcile.Groups
import NetLab.Proofs.Reconcile.Pruning
import NetLab.Proofs.Reconcile.Deletion
import NetLab.Proofs.Reconcile.Accounting
import NetLab.Proofs.Reconcile.Cancellation
import NetLab.Proofs.Reconcile.Refusals
import NetLab.Proofs.Render.References
import NetLab.Proofs.Reconcile.UpToDate
import NetLab.Proofs.Render.Locality
import NetLab.Proofs.Policy.Keys
import NetLab.Proofs.Reconcile.SecondPass
import NetLab.Proofs.Render.UserData
import NetLab.Proofs.Render.Completeness
import NetLab.Proofs.Render.MountPaths
import NetLab.Proofs.Reconcile.Knowledge
import NetLab.Proofs.Reconcile.Turns
import NetLab.Proofs.Reconcile.Gating
import NetLab.Proofs.Reconcile.Statuses
import NetLab.Proofs.Text.ByteOrder
import NetLab.Proofs.Classify.Patterns
import NetLab.Proofs.Classify.Precedence
import NetLab.Proofs.Classify.KnownKinds
import NetLab.Proofs.Render.Bundles
import NetLab.Proofs.Render.Layers
import NetLab.Proofs.Render.Labels
import NetLab.Proofs.Render.Modes
import NetLab.Proofs.Topology.Ends
import NetLab.Proofs.Topology.Endpoints
import NetLab.Proofs.Topology.Check
import NetLab.Proofs.Topology.Interfaces
import NetLab.Proofs.Render.Wiring
import NetLab.Proofs.Text.LegalLabels
import NetLab.Proofs.Render.Names
import NetLab.Proofs.Topology.Records
import NetLab.Proofs.Topology.RoundTrip
import NetLab.Proofs.Reconcile.LeastOrder
import NetLab.Proofs.Json.Comparison
