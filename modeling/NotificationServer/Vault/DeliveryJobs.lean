import NotificationServer.Vault.Store

/-!
# Making delivery jobs non-sendable

Every deletion and revocation path turns the live jobs it affects into
payload-free final markers with one UPDATE; the paths differ only in which jobs
they select and which reason they leave.
-/

namespace NotificationServer

open Relational

/-- The columns every finalizing UPDATE on `delivery_jobs` sets. -/
def DeliveryJobRow.finalized (now : Time) (reason : DeliveryFinalReason) (j : DeliveryJobRow) :
    DeliveryJobRow :=
  { j with
    leaseID := none, installationLookup := none, encryptedJob := [0], state := .final
    retryExponent := 0, availableAt := now
    trafficClass := some (j.trafficClass.getD .unknown)
    finalReason := some reason, a9 := none }

namespace Db

/-- Finalizes the live jobs that `p` selects. -/
def finalizeJobs (p : DeliveryJobRow → Prop) [DecidablePred p] (now : Time)
    (reason : DeliveryJobRow → DeliveryFinalReason) (db : Db) : Db :=
  { db with
    jobs := updateWhere (fun j => p j ∧ j.state.Live) (fun j => j.finalized now (reason j)) db.jobs }

def JobOnLease (leaseID : Bytes16) (j : DeliveryJobRow) : Prop := j.leaseID = some leaseID
  deriving Decidable

def JobOnInstallation (db : Db) (lookup : LookupDigest) (j : DeliveryJobRow) : Prop :=
  ∃ l ∈ db.leases, j.leaseID = some l.leaseID ∧ l.installationLookup = lookup
  deriving Decidable

end Db

namespace Store

def markDeliveryJobsSafetyForLeaseTx (now : Time) (leaseID : Bytes16) : VaultTx Unit :=
  exec fun db => db.finalizeJobs (Db.JobOnLease leaseID) now fun _ => .safetyInvalidated

/-- `markDeliveryJobsSafetyForInstallationTx`, without an excepted job. -/
def markDeliveryJobsSafetyForInstallationTx (now : Time) (lookup : LookupDigest) : VaultTx Unit :=
  exec fun db => db.finalizeJobs (db.JobOnInstallation lookup) now fun _ => .safetyInvalidated

/-- The reason `markExpiredDeliveryJobsTx` leaves: an expired job of unknown class is malformed. -/
def expiredJobReason (j : DeliveryJobRow) : DeliveryFinalReason :=
  if j.trafficClass = some .conversation ∨ j.trafficClass = some .welcome
  then .ttlExpired else .materialInvalid

def markExpiredDeliveryJobsTx (now : Time) : VaultTx Unit := do
  Tx.require (now ≠ zeroTime) .deliveryJobInvalid
  exec fun db => db.finalizeJobs (fun j => j.expiresAt ≤ now) now expiredJobReason

end Store

end NotificationServer
