import CongestionRouting.Config.Settings
import CongestionRouting.Main
import CongestionRouting.Mesh.Event
import CongestionRouting.Session
import CongestionRouting.Proofs.Mesh.Conservation
import CongestionRouting.Proofs.Route.Phase
import CongestionRouting.Proofs.Session.Lifetime
import CongestionRouting.Proofs.Mesh.Counting
import CongestionRouting.Proofs.Mesh.Resting
import CongestionRouting.Proofs.Mesh.Healthy
import CongestionRouting.Proofs.Mesh.Hearing
import CongestionRouting.Proofs.Mesh.Majority
import CongestionRouting.Proofs.Mesh.Relay
import CongestionRouting.Proofs.Mesh.Recovery
import CongestionRouting.Proofs.Neighbor.Consistent
import CongestionRouting.Proofs.Session.Neighbors
import CongestionRouting.Proofs.Session.Handles
import CongestionRouting.Proofs.Session.Damping
import CongestionRouting.Proofs.Agent.Eviction
import CongestionRouting.Proofs.Session.Eviction
import CongestionRouting.Proofs.Session.Shutdown
import CongestionRouting.Proofs.Session.Resolution
import CongestionRouting.Proofs.Pacing
import CongestionRouting.Proofs.Draws
import CongestionRouting.Proofs.Mesh.Coherence
import CongestionRouting.Proofs.Mesh.Bounds
import CongestionRouting.Proofs.Mesh.Traffic
import CongestionRouting.Proofs.Mesh.Splitting
import CongestionRouting.Proofs.Mesh.Signals
import CongestionRouting.Proofs.Route.Calls
import CongestionRouting.Proofs.Node.Runs
import CongestionRouting.Proofs.Node.Notifications
import CongestionRouting.Proofs.Node.Retry
import CongestionRouting.Proofs.Node.Clock
import CongestionRouting.Proofs.Node.Failures
import CongestionRouting.Proofs.Node.Balance
import CongestionRouting.Proofs.Node.Reports
import CongestionRouting.Proofs.Session.Requests
import CongestionRouting.Proofs.Agent.Repetition
import CongestionRouting.Proofs.CountOption
import CongestionRouting.Proofs.Session.Verdicts
import CongestionRouting.Proofs.Session.Clearing
import CongestionRouting.Proofs.Threshold.Reading
import CongestionRouting.Proofs.Interval.Display
