import BuildWorker.Action
import BuildWorker.Capture.Depot
import BuildWorker.Capture.Insertion
import BuildWorker.Capture.Outputs
import BuildWorker.Decimal.Binary64
import BuildWorker.Decimal.Shortest
import BuildWorker.Decimal.Text
import BuildWorker.Digest
import BuildWorker.Directory
import BuildWorker.Dispatch.Backplane
import BuildWorker.Dispatch.Exchange
import BuildWorker.Dispatch.Match
import BuildWorker.Dispatch.Registry
import BuildWorker.Duration.Basic
import BuildWorker.Duration.Human
import BuildWorker.Failure
import BuildWorker.Files.Basic
import BuildWorker.Files.Layout
import BuildWorker.Files.Lookup
import BuildWorker.Json.Access
import BuildWorker.Json.Basic
import BuildWorker.Json.Message
import BuildWorker.Json.Plain
import BuildWorker.Json.Reader
import BuildWorker.Json.Writer
import BuildWorker.Lease.Basic
import BuildWorker.Lease.Roster
import BuildWorker.Logging.Filter
import BuildWorker.Operation
import BuildWorker.Platform
import BuildWorker.Proofs.Capture.Absence
import BuildWorker.Proofs.Capture.Agreement
import BuildWorker.Proofs.Capture.Closure
import BuildWorker.Proofs.Capture.Enumeration
import BuildWorker.Proofs.Capture.Errands
import BuildWorker.Proofs.Capture.Insertion
import BuildWorker.Proofs.Capture.Interruption
import BuildWorker.Proofs.Capture.Listing
import BuildWorker.Proofs.Capture.Outcome
import BuildWorker.Proofs.Capture.Rebuild
import BuildWorker.Proofs.Capture.Streaming
import BuildWorker.Proofs.Capture.Streams
import BuildWorker.Proofs.Capture.Walk
import BuildWorker.Proofs.Directory.Encoding
import BuildWorker.Proofs.Directory.Expansion
import BuildWorker.Proofs.Directory.Order
import BuildWorker.Proofs.Dispatch.Conservation
import BuildWorker.Proofs.Dispatch.Exclusion
import BuildWorker.Proofs.Dispatch.Interruption
import BuildWorker.Proofs.Dispatch.Round
import BuildWorker.Proofs.Dispatch.Scan
import BuildWorker.Proofs.Duration.Human
import BuildWorker.Proofs.Files.Plain
import BuildWorker.Proofs.Files.Regular
import BuildWorker.Proofs.Json.Lawful
import BuildWorker.Proofs.Json.Records
import BuildWorker.Proofs.Json.RoundTrip
import BuildWorker.Proofs.Lease.History
import BuildWorker.Proofs.Lease.Lifecycle
import BuildWorker.Proofs.Lease.Punctual
import BuildWorker.Proofs.Lease.Service
import BuildWorker.Proofs.Lease.Steps
import BuildWorker.Proofs.Lease.Timing
import BuildWorker.Proofs.Retry.Attempts
import BuildWorker.Proofs.Settings.Laws
import BuildWorker.Proofs.Store.Chunking
import BuildWorker.Proofs.Store.Integrity
import BuildWorker.Proofs.Store.Run
import BuildWorker.Proofs.Tables
import BuildWorker.Proofs.Text.Utf8
import BuildWorker.Proofs.Worker.Cadence
import BuildWorker.Proofs.Worker.Calls
import BuildWorker.Proofs.Worker.Publication
import BuildWorker.Proofs.Worker.Release
import BuildWorker.Proofs.Worker.Retrieval
import BuildWorker.Retry.Backoff
import BuildWorker.Retry.Policy
import BuildWorker.Settings.Basic
import BuildWorker.Settings.Document
import BuildWorker.Settings.Encoding
import BuildWorker.Settings.Load
import BuildWorker.Settings.Rule
import BuildWorker.Settings.Sample
import BuildWorker.Sha256
import BuildWorker.Store.Account
import BuildWorker.Store.Basic
import BuildWorker.Store.Desk
import BuildWorker.Store.Session
import BuildWorker.Text.Blank
import BuildWorker.Text.Hex
import BuildWorker.Text.Number
import BuildWorker.Text.Utf8
import BuildWorker.Violation
import BuildWorker.Worker
import BuildWorker.Yaml.Cursor
import BuildWorker.Yaml.Node
import BuildWorker.Yaml.Reading
import BuildWorker.Yaml.Scalar
import BuildWorker.Yaml.Token
import BuildWorker.Proofs.Capture.Recording
import BuildWorker.Proofs.Capture.Unproduced
import BuildWorker.Proofs.Directory.Identity
import BuildWorker.Proofs.Store.Calls
import BuildWorker.Proofs.Store.Presence
import BuildWorker.Proofs.Store.Keys
import BuildWorker.Proofs.Store.Isolation
import BuildWorker.Proofs.Store.Accounting
import BuildWorker.Proofs.Text.Number
import BuildWorker.Proofs.Digest.Spelling
import BuildWorker.Proofs.Dispatch.Bound
import BuildWorker.Proofs.Worker.Policies
