import Refute.Journal
import Refute.Script.Change
import Refute.Script.Guide
import Refute.Script.Stage
import Refute.Script.Written
import Refute.Source.Views
import Refute.Text.Literal
import Refute.Theory
import Refute.Proofs.Draws
import Refute.Proofs.Composed
import Refute.Proofs.Replay
import Refute.Proofs.Descent
import Refute.Proofs.Simpler
import Refute.Proofs.Termination
import Refute.Proofs.Trials
import Refute.Proofs.Acceptance
import Refute.Proofs.Unasked
import Refute.Proofs.Minimality
import Refute.Proofs.Rounds
import Refute.Proofs.Conclusions
import Refute.Proofs.Endless
import Refute.Proofs.Moves
import Refute.Proofs.Reports
import Refute.Proofs.Boundaries
import Refute.Proofs.StepReplay
import Refute.Proofs.Reseed
import Refute.Proofs.Checkpoints
import Refute.Proofs.SerialRuns
import Refute.Proofs.Workers
import Refute.Proofs.Outlasting
import Refute.Proofs.LongerDescent
import Refute.Proofs.LongerSearch
import Refute.Proofs.Workload
import Refute.Proofs.Turns
import Refute.Proofs.StepRuns
import Refute.Proofs.StepFailures
import Refute.Proofs.Rejections
import Refute.Proofs.Scrambling
import Refute.Proofs.Ranges
import Refute.Proofs.Plans
import Refute.Proofs.Budget
import Refute.Proofs.Fusion
import Refute.Proofs.Candidates
import Refute.Proofs.Slots
import Refute.Proofs.Thresholds
import Refute.Proofs.Divergences
import Refute.Proofs.StepCounts
import Refute.Proofs.StepAttempts
import Refute.Proofs.Layouts
import Refute.Proofs.Encoding
import Refute.Proofs.Variables
import Refute.Proofs.Changes
import Refute.Proofs.Notices
import Refute.Proofs.Others
