import NotificationServer.Gate6.Refresh

/-!
# Policy controls

`AdvancePolicy` (`policy.go`).  A REVOKED control deletes the installation's
leases and token and leaves a fence; an ACTIVE one only blocks existing routes
until the next refresh.  Revocation needs no safe retention state.
-/

namespace NotificationServer

open Relational

namespace Db

/-- An UPDATE of the installation row stored under a lookup. -/
def updateInstallation (lookup : LookupDigest) (f : InstallationRow → InstallationRow) (db : Db) :
    Db :=
  { db with
    installations := updateWhere (fun i => i.installationLookup = lookup) f db.installations }

end Db

def InstallationRow.revoking (control : PolicyControl) (controlExpiresAt now : Time)
    (i : InstallationRow) : InstallationRow :=
  { i with
    encryptedAPNSToken := none, agePolicy := control.agePolicy, policyEpoch := control.policyEpoch
    state := .revoking, controlEventDigest := ⟨control⟩, controlExpiresAt := controlExpiresAt
    revokedAt := some now, refreshedAt := now }

def InstallationRow.awaiting (control : PolicyControl) (controlExpiresAt now : Time)
    (i : InstallationRow) : InstallationRow :=
  { i with
    agePolicy := control.agePolicy, policyEpoch := control.policyEpoch, state := .awaitingRefresh
    controlEventDigest := ⟨control⟩, controlExpiresAt := controlExpiresAt, refreshedAt := now }

/-- The columns a newer ACTIVE control sets on every lease. -/
def LeaseRow.awaiting (control : PolicyControl) (controlExpiresAt now : Time) (l : LeaseRow) :
    LeaseRow :=
  { l with
    state := .awaitingRefresh, policyEpoch := control.policyEpoch
    controlExpiresAt := controlExpiresAt, refreshedAt := now }

namespace Store

variable (S : Store)

/-- The fence row a REVOKED control of an unknown installation inserts. -/
def fenceRow (control : PolicyControl) (controlExpiresAt now : Time) : InstallationRow :=
  { installationLookup := S.installationLookup (lookupEpoch now) control.installationID
    installationIdentity := S.installationDeletionIdentity control.installationID
    incarnationLookup := S.incarnationLookup (lookupEpoch now) control.accountIncarnationID
    lookupKeyEpoch := lookupEpoch now
    generation := 0
    idempotencyDigest := ⟨.control control⟩
    controlEventDigest := ⟨control⟩
    encryptedAPNSToken := none
    agePolicy := control.agePolicy
    policyEpoch := control.policyEpoch
    state := .revoking
    encryptionKeyVersion := S.encryption.activeVersionColumn
    refreshedAt := now
    expiresAt := now + S.leaseTTL
    controlExpiresAt := controlExpiresAt
    revokedAt := some now }

def revokeAllLeases (lookup : LookupDigest) (now : Time) : VaultTx Unit := do
  markDeliveryJobsSafetyForInstallationTx now lookup
  let leases ← query fun db => db.leases.filter fun l => l.installationLookup = lookup
  Tx.forEach leases (retireLeaseTx now)
  exec fun db => db.deleteLeases fun l => l.installationLookup = lookup

/-- `AdvancePolicy` for a control of an unknown installation. -/
def advanceUnknownPolicyTx (control : PolicyControl) (controlExpiresAt now : Time) : VaultTx Unit :=
  match control.state with
  | .active => pure ()
  | .revoked => do
    exec fun db =>
      { db with installations := S.fenceRow control controlExpiresAt now :: db.installations }
    upsertDeletionTombstone .installation (S.installationDeletionIdentity control.installationID)
      S.encryption.activeVersion control.policyEpoch now

/-- `AdvancePolicy` for a control above the stored epoch. -/
def advanceStoredPolicyTx (control : PolicyControl) (controlExpiresAt now : Time)
    (existing : InstallationRow) : VaultTx Unit :=
  match control.state with
  | .revoked => do
    revokeAllLeases existing.installationLookup now
    upsertDeletionTombstone .installation existing.installationIdentity
      existing.encryptionKeyVersion control.policyEpoch now
    exec fun db => db.updateInstallation existing.installationLookup
      (.revoking control controlExpiresAt now)
  | .active => do
    Tx.require (existing.state ≠ .revoking ∧ existing.state ≠ .expired) .refreshConflict
    exec fun db => db.updateInstallation existing.installationLookup
      (.awaiting control controlExpiresAt now)
    exec fun db =>
      { db with
        leases := updateWhere (fun l => l.installationLookup = existing.installationLookup)
          (.awaiting control controlExpiresAt now) db.leases }

/-- The retention guard of `AdvancePolicy`, which a revocation does not have. -/
def policyGuardTx (control : PolicyControl) (now : Time) : VaultTx Unit :=
  match control.state with
  | .active => S.requireRetentionSafeTx now
  | .revoked => S.requireLookupKeyBoundTx

/-- `AdvancePolicy` once it has looked for the row. -/
def advanceFoundPolicyTx (control : PolicyControl) (controlExpiresAt now : Time)
    (existing : Option InstallationRow) : VaultTx Unit :=
  match existing with
  | none => S.advanceUnknownPolicyTx control controlExpiresAt now
  | some row => do
    Tx.require (S.incarnationLookup row.lookupKeyEpoch control.accountIncarnationID =
      row.incarnationLookup) .refreshConflict
    if control.policyEpoch < row.policyEpoch then Tx.fail .refreshConflict
    else if control.policyEpoch = row.policyEpoch then
      Tx.require (row.controlEventDigest = ⟨control⟩) .refreshConflict
    else advanceStoredPolicyTx control controlExpiresAt now row

/-- The transaction of `AdvancePolicy`. -/
def advancePolicyTx (now : Time) (control : PolicyControl) (controlExpiresAt : Time) :
    VaultTx Unit := do
  Tx.mapError (fun _ => .storeUnavailable) (S.policyGuardTx control now)
  let existing ← S.findInstallation control.installationID now
  S.advanceFoundPolicyTx control controlExpiresAt now existing

def advancePolicy (now : Time) (control : PolicyControl) : VaultTx Unit :=
  Tx.mapError VaultError.orStoreUnavailable do
    Tx.require (S.verifyPolicyControl control now control.installationID
      control.accountIncarnationID) .refreshInvalid
    Tx.require (control.state = .active → control.agePolicy = .teen →
      S.teenConversationEnabled = true) .refreshInvalid
    let expires ← expect control.expiresAt .refreshInvalid
    S.advancePolicyTx now control (controlExpiry control now expires)

end Store

end NotificationServer
