import Reconcile.Main
import Reconcile.Proofs.Engine.Drive
import Reconcile.Proofs.Engine.Levels
import Reconcile.Rehearsal.Holders
import Reconcile.Rehearsal.Performance
import Reconcile.Rehearsal.Trials
import Reconcile.Proofs.Engine.Flattening
import Reconcile.Proofs.Data.Places
import Reconcile.Proofs.Retry.Rounding
import Reconcile.Proofs.Retry.Delays
import Reconcile.Proofs.Retry.Growth
import Reconcile.Proofs.Retry.Spread
import Reconcile.Proofs.Attempt.Succession
import Reconcile.Proofs.Engine.Strides
import Reconcile.Proofs.Attempt.Change
import Reconcile.Proofs.Attempt.Fleet
import Reconcile.Proofs.Cluster.Server
import Reconcile.Proofs.Event.Lifecycle
import Reconcile.Proofs.Cluster.Increments
import Reconcile.Proofs.Registry.Account
import Reconcile.Proofs.Attempt.Course
import Reconcile.Proofs.Step.Plans
import Reconcile.Proofs.Attempt.Report
import Reconcile.Proofs.Attempt.Body
import Reconcile.Proofs.Attempt.Story
import Reconcile.Proofs.Engine.Cancellation
import Reconcile.Proofs.Engine.Passage
import Reconcile.Proofs.Engine.Interruption
import Reconcile.Proofs.Sink.Indifference
import Reconcile.Proofs.Engine.Remainder
import Reconcile.Proofs.Attempt.Completion
import Reconcile.Proofs.Attempt.Streak
import Reconcile.Proofs.Engine.Turns
import Reconcile.Proofs.Engine.Visits
import Reconcile.Proofs.Engine.Budget
import Reconcile.Proofs.Engine.Waits
import Reconcile.Proofs.Engine.Critical
import Reconcile.Proofs.Attempt.Undisturbed
import Reconcile.Proofs.Step.Terminals
import Reconcile.Proofs.Engine.Framing
import Reconcile.Proofs.Engine.Concatenation
import Reconcile.Proofs.Registry.Holding
import Reconcile.Proofs.Engine.Pace
import Reconcile.Proofs.Sink.Merging
import Reconcile.Proofs.Attempt.Unison
import Reconcile.Proofs.Attempt.Independence
import Reconcile.Proofs.Event.Naming
import Reconcile.Proofs.Sink.Contents
import Reconcile.Proofs.Cluster.Archive
import Reconcile.Proofs.Sink.Agreement
import Reconcile.Proofs.Attempt.Stragglers
import Reconcile.Proofs.Event.Bookkeeping
import Reconcile.Proofs.Attempt.Emitting
import Reconcile.Proofs.Attempt.Bureau
import Reconcile.Proofs.Text.Filling
import Reconcile.Proofs.Sink.Repeats
import Reconcile.Proofs.Event.FailureText
import Reconcile.Proofs.Event.Origin
import Reconcile.Proofs.Event.Wording
import Reconcile.Proofs.Step.Assembly
import Reconcile.Proofs.Engine.Terminals
import Reconcile.Proofs.Step.Occurrences
import Reconcile.Proofs.Engine.Conduct
import Reconcile.Proofs.Engine.Shares
import Reconcile.Proofs.Attempt.Workload
import Reconcile.Proofs.Retry.Tries
