import NotificationServer.Lib.Transaction
import NotificationServer.Lib.Relational
import NotificationServer.Lib.Transition
import NotificationServer.Vault.Basic
import NotificationServer.Vault.Artifact
import NotificationServer.Vault.Crypto
import NotificationServer.Vault.Tables
import NotificationServer.Vault.Schema
import NotificationServer.Vault.Session
import NotificationServer.Vault.Store
import NotificationServer.A9.Authority
import NotificationServer.A9.Control
import NotificationServer.A9.Current
import NotificationServer.A9.Watermark
import NotificationServer.Gate6.Authority
import NotificationServer.Gate6.Deletion
import NotificationServer.Gate6.Lease
import NotificationServer.Gate6.Refresh
import NotificationServer.Gate6.Policy
import NotificationServer.Gate6.Retention
import NotificationServer.A9.Replace
import NotificationServer.A9.Registration
import NotificationServer.System
import NotificationServer.A9.Ledger
import NotificationServer.A9.Simulation
import NotificationServer.Run
import NotificationServer.A9.Cursor
import NotificationServer.A9.History
import NotificationServer.A9.Denial
import NotificationServer.A9.Renewal
import NotificationServer.A9.Latch
import NotificationServer.Gate6.Kept
import NotificationServer.Gate6.Preserved
import NotificationServer.Gate6.Written
import NotificationServer.Gate6.Agreement
import NotificationServer.Gate6.Constraints
import NotificationServer.Gate6.Progress
import NotificationServer.Gate6.Completion
import NotificationServer.A9.Answer
import NotificationServer.A9.Constraints
import NotificationServer.A9.Epochs
import NotificationServer.A9.Idempotency
import NotificationServer.A3.Chain
import NotificationServer.A9.Generation
import NotificationServer.A9.Provenance
import NotificationServer.Delivery.Attempt
import NotificationServer.Delivery.Attempts
import NotificationServer.Delivery.Claims
import NotificationServer.Delivery.Enqueue
import NotificationServer.Delivery.Progress
import NotificationServer.Delivery.Token
import NotificationServer.Durable.Envelope
import NotificationServer.Durable.Receipts
import NotificationServer.Durable.Safety
import NotificationServer.Keyset.A10
import NotificationServer.Keyset.Outage
import NotificationServer.Replay.Once
import NotificationServer.Durable.Admission
import NotificationServer.Durable.Capacity
import NotificationServer.Delivery.Dedupe
import NotificationServer.Delivery.Once
import NotificationServer.Gate6.Restore
import NotificationServer.Gate8.Opening
import NotificationServer.Incident.Window
import NotificationServer.Push.PayloadLength
import NotificationServer.Plaintext.Tokens
import NotificationServer.Vault.Envelope
import NotificationServer.Runs
