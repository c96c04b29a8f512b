import Reconciler.Client.Create
import Reconciler.Client.Hook
import Reconciler.Client.Update
import Reconciler.Connection.Lifecycle
import Reconciler.Json.Decode
import Reconciler.Patch.Apply
import Reconciler.Resource.Shelf
import Reconciler.Proofs.Value.Equality
import Reconciler.Proofs.Patch.Alike
import Reconciler.Proofs.Patch.Elements
import Reconciler.Proofs.Patch.Merge
import Reconciler.Proofs.Patch.Keyed
import Reconciler.Proofs.Patch.Strategic
import Reconciler.Proofs.Patch.Reordering
import Reconciler.Proofs.Cluster.Calls
import Reconciler.Proofs.Readiness.Reading
import Reconciler.Proofs.Readiness.Waiting
import Reconciler.Proofs.Readiness.Conjunction
import Reconciler.Proofs.Readiness.Population
import Reconciler.Proofs.Client.Building
import Reconciler.Proofs.Client.Ownership
import Reconciler.Proofs.Client.Isolation
import Reconciler.Proofs.Client.Reporting
import Reconciler.Proofs.Client.Restarting
import Reconciler.Proofs.Client.Returning
import Reconciler.Proofs.Value.Decidable
import Reconciler.Proofs.Client.Undoing
import Reconciler.Proofs.Client.Equivalent
import Reconciler.Proofs.Watch.Deciding
import Reconciler.Proofs.Connection.Leftover
import Reconciler.Proofs.Client.Completing
import Reconciler.Proofs.Client.Bringing
import Reconciler.Proofs.Manifest.Building
import Reconciler.Proofs.Connection.Lifetime
import Reconciler.Proofs.Manifest.Failing
import Reconciler.Proofs.Manifest.Checking
import Reconciler.Proofs.Client.Recording
import Reconciler.Proofs.Patch.Distinct
import Reconciler.Proofs.Patch.Least
import Reconciler.Proofs.Schema.Typed
import Reconciler.Proofs.Manifest.Naming
import Reconciler.Proofs.Rollout.Labels
import Reconciler.Proofs.Readiness.Oldest
import Reconciler.Proofs.Rollout.Bounds
import Reconciler.Proofs.Manifest.Flattening
import Reconciler.Proofs.Rollout.Percentage
import Reconciler.Proofs.Schema.Lossless
import Reconciler.Proofs.Patch.Canonical
