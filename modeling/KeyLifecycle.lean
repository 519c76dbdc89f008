import KeyLifecycle.Lifecycle.Deployment
import KeyLifecycle.Lifecycle.Service
import KeyLifecycle.Proofs.Bytes.Base64Url
import KeyLifecycle.Proofs.Documents
import KeyLifecycle.Proofs.Error
import KeyLifecycle.Proofs.Except
import KeyLifecycle.Proofs.Json.Acceptance
import KeyLifecycle.Proofs.Json.Containers
import KeyLifecycle.Proofs.Json.Gather
import KeyLifecycle.Proofs.Json.Layout
import KeyLifecycle.Proofs.Json.Leaf
import KeyLifecycle.Proofs.Json.Local
import KeyLifecycle.Proofs.Json.Quoted
import KeyLifecycle.Proofs.Json.RoundTrip
import KeyLifecycle.Proofs.Json.Spelling
import KeyLifecycle.Proofs.Json.Tree
import KeyLifecycle.Proofs.Key.Descriptor
import KeyLifecycle.Proofs.Key.Generation
import KeyLifecycle.Proofs.Last
import KeyLifecycle.Proofs.Lifecycle.Alike
import KeyLifecycle.Proofs.Lifecycle.Balance
import KeyLifecycle.Proofs.Lifecycle.Change
import KeyLifecycle.Proofs.Lifecycle.Commute
import KeyLifecycle.Proofs.Lifecycle.Course
import KeyLifecycle.Proofs.Lifecycle.Custody
import KeyLifecycle.Proofs.Lifecycle.Deeds
import KeyLifecycle.Proofs.Lifecycle.Done
import KeyLifecycle.Proofs.Lifecycle.Effect
import KeyLifecycle.Proofs.Lifecycle.EventLog
import KeyLifecycle.Proofs.Lifecycle.FailStop
import KeyLifecycle.Proofs.Lifecycle.Grounds
import KeyLifecycle.Proofs.Lifecycle.Handover
import KeyLifecycle.Proofs.Lifecycle.History
import KeyLifecycle.Proofs.Lifecycle.Insertion
import KeyLifecycle.Proofs.Lifecycle.Isolation
import KeyLifecycle.Proofs.Lifecycle.Marks
import KeyLifecycle.Proofs.Lifecycle.Mirror
import KeyLifecycle.Proofs.Lifecycle.Operations
import KeyLifecycle.Proofs.Lifecycle.Orphans
import KeyLifecycle.Proofs.Lifecycle.Plan
import KeyLifecycle.Proofs.Lifecycle.Quiet
import KeyLifecycle.Proofs.Lifecycle.Rejection
import KeyLifecycle.Proofs.Lifecycle.Run
import KeyLifecycle.Proofs.Lifecycle.Secrecy
import KeyLifecycle.Proofs.Lifecycle.Service
import KeyLifecycle.Proofs.Lifecycle.Succession
import KeyLifecycle.Proofs.Lifecycle.TwoSteps
import KeyLifecycle.Proofs.Lifecycle.Uniqueness
import KeyLifecycle.Proofs.Lifecycle.View
import KeyLifecycle.Proofs.Lifecycle.Within
import KeyLifecycle.Proofs.ObjectTexts
import KeyLifecycle.Proofs.Settings.Environment
import KeyLifecycle.Proofs.Store.History
import KeyLifecycle.Proofs.Store.Keyed
import KeyLifecycle.Proofs.Timestamp.Rfc3339
import KeyLifecycle.Proofs.Vault.Journal
import KeyLifecycle.Store.Keyed
import KeyLifecycle.Store.Ledger
