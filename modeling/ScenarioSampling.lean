import ScenarioSampling.Bridge.Script
import ScenarioSampling.Worker.Host
import ScenarioSampling.Proofs.Accounts
import ScenarioSampling.Proofs.Backlog
import ScenarioSampling.Proofs.Backtracking
import ScenarioSampling.Proofs.BestCandidate
import ScenarioSampling.Proofs.ClockChecks
import ScenarioSampling.Proofs.Counting
import ScenarioSampling.Proofs.Coverage
import ScenarioSampling.Proofs.Decisions
import ScenarioSampling.Proofs.Disconnection
import ScenarioSampling.Proofs.Duplicates
import ScenarioSampling.Proofs.Endings
import ScenarioSampling.Proofs.Evaluation
import ScenarioSampling.Proofs.Faults
import ScenarioSampling.Proofs.Improvements
import ScenarioSampling.Proofs.Inbound
import ScenarioSampling.Proofs.Lag
import ScenarioSampling.Proofs.Lifecycle
import ScenarioSampling.Proofs.Peaceful
import ScenarioSampling.Proofs.Penalties
import ScenarioSampling.Proofs.Polling
import ScenarioSampling.Proofs.ProgressCounts
import ScenarioSampling.Proofs.Reading
import ScenarioSampling.Proofs.RepairDistance
import ScenarioSampling.Proofs.Replay
import ScenarioSampling.Proofs.Reporting
import ScenarioSampling.Proofs.SampleLimit
import ScenarioSampling.Proofs.SetOperations
import ScenarioSampling.Proofs.SoundReports
import ScenarioSampling.Proofs.Stamps
import ScenarioSampling.Proofs.StopRequests
import ScenarioSampling.Proofs.Support
import ScenarioSampling.Proofs.Trial
import ScenarioSampling.Proofs.Verdict
import ScenarioSampling.Proofs.Walking
import ScenarioSampling.Proofs.Wording
