import Myndaix.Ledger.Delivery
import Myndaix.Ledger.LockOrder
import Myndaix.Ledger.Accuracy
import Myndaix.Review.Lock
import Myndaix.Review.Fold
import Myndaix.Runner.Pool
import Myndaix.Runner.Output
import Myndaix.Outcomes.Closing
import Myndaix.Outcomes.Relabel
import Myndaix.Fix.Ceiling
import Myndaix.Api.Storage
import Myndaix.Automerge.Classifier
import Myndaix.Automerge.Caps
import Myndaix.Ledger.AdmissionTree
import Myndaix.Inbox.FenceIntegrity
import Myndaix.Inbox.Valve
import Myndaix.Inbox.Classification
import Myndaix.Capture.Episodes
import Myndaix.Capture.Bans
import Myndaix.Capture.Drafts
import Myndaix.Capture.Renderable
import Myndaix.Curate.Guarantees
import Myndaix.Ledger.Burials
import Myndaix.Automerge.Shadow
import Myndaix.Controller.Advances
import Myndaix.Outcomes.Arming
import Myndaix.Outcomes.Boundary
import Myndaix.Capture.Fences
import Myndaix.Knowledge.Rebuild
import Myndaix.Curate.Untouched
import Myndaix.Capture.SkillRuns
import Myndaix.Staging.Export
import Myndaix.Inbox.PullExactness
import Myndaix.Runner.Pings
import Myndaix.Canary.Latch
import Myndaix.Workspace.CaptureDiff
import Myndaix.Outcomes.Keyed
import Myndaix.Cli.Reports
import Myndaix.Migration.Readings
import Myndaix.Phone.Grants
import Myndaix.Deploy.Torn
import Myndaix.Workspace.Delivered
import Myndaix.Capture.Specificity
import Myndaix.Knowledge.Recall
import Myndaix.Stitch.Accounts
import Myndaix.Reconcile.Commits
import Myndaix.Numbers.Rounding
import Myndaix.Orchestrator.Accounting
