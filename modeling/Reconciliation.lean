import Reconciliation.Engine.Description
import Reconciliation.Proofs.Condition.Dating
import Reconciliation.Proofs.Edit.NoLostUpdates
import Reconciliation.Proofs.Edit.Obstacles
import Reconciliation.Proofs.Edit.Repeating
import Reconciliation.Proofs.Engine.Bookkeeping
import Reconciliation.Proofs.Engine.Building
import Reconciliation.Proofs.Engine.Events
import Reconciliation.Proofs.Engine.Exiting
import Reconciliation.Proofs.Engine.Finalizing
import Reconciliation.Proofs.Engine.Footprint
import Reconciliation.Proofs.Engine.InHand
import Reconciliation.Proofs.Engine.MarkedAlone
import Reconciliation.Proofs.Engine.Rerun
import Reconciliation.Proofs.Engine.Tracking
import Reconciliation.Proofs.Engine.Wording
import Reconciliation.Proofs.Finalizer.Outcomes
import Reconciliation.Proofs.Finalizer.Safety
import Reconciliation.Proofs.Json.Mentions
import Reconciliation.Proofs.Resource.RoundTrip
import Reconciliation.Proofs.Store.Showing
import Reconciliation.Proofs.Store.Versions
import Reconciliation.Rehearsal
