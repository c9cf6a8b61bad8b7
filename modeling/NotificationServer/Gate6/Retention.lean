import Mathlib.Data.List.Sort
import NotificationServer.Gate6.Policy

/-!
# The retention sweep, invalid-token erasure and the restore gate

`Sweep` (`retention.go`) first commits that retention is unsafe and then deletes
what has expired in one transaction.  `EraseInvalidAPNSToken`
(`delivery_jobs.go`) removes the token and the routes of one installation.
`ReapplyDeletionTombstones` (`tombstones.go`) deletes restored rows that a
deletion fence covers.
-/

namespace NotificationServer

open Relational

structure SweepClock where
  startedAt : Time
  /-- Read when expiring leases' jobs are finalized. -/
  markedAt : Time
  completedAt : Time

/-- How a sweep that committed ends: `ErrRetentionUnsafe` leaves retention unsafe. -/
inductive SweepOutcome
  | complete
  | overdueErasure
  deriving DecidableEq

def retentionDeliveryFinalizationBatchSize : Nat := 128

namespace Db

def finalizedBatch (db : Db) : List DeliveryJobRow :=
  ((db.jobs.filter fun j => j.state = .final).insertionSort
    fun a b => a.createdAt ≤ b.createdAt).take retentionDeliveryFinalizationBatchSize

/-- An invalid-token erasure job older than fifteen minutes is stored. -/
def OverdueErasure (db : Db) (now : Time) : Prop :=
  ∃ j ∈ db.jobs, j.state.Erasure ∧ j.createdAt + 15 * minute ≤ now
  deriving Decidable

/-- A tombstone of the given kind, not expired, that covers an identity at an epoch. -/
def Fenced (db : Db) (kind : DeletionTarget) (identity : LookupDigest) (epoch : Nat)
    (now : Time) : Prop :=
  ∃ t ∈ db.deletionTombstones, t.key = (kind, identity) ∧ now < t.expiresAt ∧ epoch ≤ t.fenceEpoch
  deriving Decidable

end Db

namespace Store

variable (S : Store)

/-- The UPDATE `Sweep` commits before it deletes anything. -/
def markRetentionUnsafe (startedAt : Time) : VaultTx Unit :=
  exec fun db =>
    { db with
      retention := { db.retention with
        lastStartedAt := some startedAt, isSafe := false, outcomeComplete := false } }

def tombstoneExpiredLeases (now : Time) : VaultTx Unit := do
  let leases ← query fun db => db.leases.filter fun l => l.expiresAt ≤ now
  Tx.forEach leases (retireLeaseTx now)

def tombstoneExpiredInstallations (now : Time) : VaultTx Unit := do
  let installations ← query fun db => db.installations.filter fun i => i.expiresAt ≤ now
  Tx.forEach installations fun i =>
    upsertDeletionTombstone .installation i.installationIdentity i.encryptionKeyVersion
      i.policyEpoch now

def markExpiringAuthorityDeliveryJobs (now markedAt : Time) : VaultTx Unit := do
  let leases ← query fun db => db.leases.filter fun l => l.expiresAt ≤ now
  Tx.forEach leases fun l => markDeliveryJobsSafetyForLeaseTx markedAt l.leaseID
  let installations ← query fun db => db.installations.filter fun i => i.expiresAt ≤ now
  Tx.forEach installations fun i =>
    markDeliveryJobsSafetyForInstallationTx markedAt i.installationLookup

/-- `completeDeliveryMarkersTx`: one batch of finalized jobs is deleted.  The checks of
`completeDeliveryFinalizationTx` repeat the shape CHECK, and its aggregates are left out. -/
def completeDeliveryMarkersTx : VaultTx Unit := do
  let batch ← query fun db => db.finalizedBatch
  Tx.forEach batch fun b => exec fun db =>
    { db with jobs := deleteWhere (fun j => j.jobID = b.jobID ∧ j.state = .final) db.jobs }

/-- `finalizeDeliveryMarkers`: the batches are taken until no final marker is left. -/
def finalizeDeliveryMarkers : VaultTx Unit := do
  let marked ← query fun db => db.jobs.filter fun j => j.state = .final
  Tx.forEach marked fun b => exec fun db =>
    { db with jobs := deleteWhere (fun j => j.jobID = b.jobID ∧ j.state = .final) db.jobs }

/-- `deleteExpiredVaultRows`, on the modelled tables. -/
def deleteExpiredVaultRows (now markedAt : Time) : VaultTx Unit := do
  tombstoneExpiredLeases now
  tombstoneExpiredInstallations now
  markExpiredDeliveryJobsTx now
  markExpiringAuthorityDeliveryJobs now markedAt
  completeDeliveryMarkersTx
  exec fun db => db.deleteHistory fun h => h.expiresAt ≤ now
  exec fun db => db.deleteLeases fun l => l.expiresAt ≤ now
  exec fun db => db.deleteInstallations fun i => i.expiresAt ≤ now
  exec fun db =>
    { db with deletionTombstones := deleteWhere (fun t => t.expiresAt ≤ now) db.deletionTombstones }

def recordSweep (clock : SweepClock) (safe : Bool) : VaultTx Unit :=
  exec fun db =>
    { db with
      retention := { db.retention with
        lastCompletedAt := some clock.completedAt
        nextDeadlineAt := some (clock.completedAt + S.sweepInterval)
        isSafe := safe, outcomeComplete := safe } }

/-- The transaction of `Sweep`; it commits also when it reports an overdue erasure. -/
def sweepTx (clock : SweepClock) : VaultTx SweepOutcome :=
  Tx.mapError (fun _ => .retentionUnavailable) do
    S.requireLookupKeyBoundTx
    deleteExpiredVaultRows clock.startedAt clock.markedAt
    let overdue ← query fun db => decide (db.OverdueErasure clock.completedAt)
    S.recordSweep clock (!overdue)
    pure (if overdue = true then .overdueErasure else .complete)

/-- `Sweep`, holding the advisory lock: two transactions, of which the first stays committed when
the second fails. -/
def sweep (clock : SweepClock) (s : Session) : Session × Except VaultError SweepOutcome :=
  match markRetentionUnsafe clock.startedAt s with
  | .error _ => (s, .error .retentionUnavailable)
  | .ok ((), s₁) =>
    match S.sweepTx clock s₁ with
    | .error e => (s₁, .error e)
    | .ok (outcome, s₂) => (s₂, .ok outcome)

end Store

def InstallationRow.erased (now : Time) (i : InstallationRow) : InstallationRow :=
  { i with
    encryptedAPNSToken := none, state := .blocked, revokedAt := some (i.revokedAt.getD now)
    expiresAt := min i.expiresAt now, controlExpiresAt := min i.controlExpiresAt now }

namespace Store

variable (S : Store)

/-- The part of `EraseInvalidAPNSToken` that runs once the failed token is the stored one. -/
def eraseInstallationTx (now : Time) (i : InstallationRow) : VaultTx Unit := do
  let leases ← query fun db => db.leases.filter fun l => l.installationLookup = i.installationLookup
  Tx.forEach leases (retireLeaseTx now)
  exec fun db => db.updateInstallation i.installationLookup (.erased now)
  markDeliveryJobsSafetyForInstallationTx now i.installationLookup
  exec fun db => db.deleteLeases fun l => l.installationLookup = i.installationLookup
  upsertDeletionTombstone .installation i.installationIdentity i.encryptionKeyVersion
    i.policyEpoch now

/-- The transaction of `EraseInvalidAPNSToken`; `none` if there is nothing to erase. -/
def eraseInvalidAPNSTokenTx (now : Time) (lookup : LookupDigest) (failedToken : Bytes) :
    VaultTx (Option Unit) := do
  S.requireLookupKeyBoundTx
  match ← query fun db => db.installations.find? fun i => i.installationLookup = lookup with
  | none => pure none
  | some i =>
    match i.encryptedAPNSToken with
    | none => pure none
    | some stored => do
      let current ← expect (S.encryption.openValue (.installation lookup .apnsToken) stored)
        .deliveryQueueUnavailable
      if current ≠ failedToken then pure none
      else do
        eraseInstallationTx now i
        pure (some ())

/-- `EraseInvalidAPNSToken`; it returns nil without a commit when there is nothing to erase. -/
def eraseInvalidAPNSToken (now : Time) (lookup : LookupDigest) (failedToken : Bytes) :
    VaultTx (Option Unit) := do
  Tx.require (failedToken.length = 32) .deliveryJobInvalid
  Tx.mapError (fun _ => .deliveryQueueUnavailable)
    (Tx.orRollback (S.eraseInvalidAPNSTokenTx now lookup failedToken))

def reapplyDeletionTombstones (now : Time) : VaultTx Unit :=
  Tx.mapError (fun _ => .storeUnavailable) do
    S.requireLookupKeyBoundTx
    exec fun db =>
      { db with
        deletionTombstones := deleteWhere (fun t => t.expiresAt ≤ now) db.deletionTombstones }
    let leases ← query fun db =>
      db.leases.filter fun l => db.Fenced .route l.routeIdentity l.routeKeyEpoch now
    Tx.forEach leases fun l => markDeliveryJobsSafetyForLeaseTx now l.leaseID
    let installations ← query fun db =>
      db.installations.filter fun i => db.Fenced .installation i.installationIdentity i.policyEpoch now
    Tx.forEach installations fun i =>
      markDeliveryJobsSafetyForInstallationTx now i.installationLookup
    exec fun db => db.deleteLeases fun l => db.Fenced .route l.routeIdentity l.routeKeyEpoch now
    exec fun db => db.deleteInstallations fun i =>
      db.Fenced .installation i.installationIdentity i.policyEpoch now

end Store

end NotificationServer
