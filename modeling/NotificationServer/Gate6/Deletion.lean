import NotificationServer.Gate6.Authority
import NotificationServer.Vault.DeliveryJobs

/-!
# Deleting Gate-6 rows

Deletes with their cascades, the deletion tombstones that fence a deleted
installation or route (`tombstones.go`), and the retirement of a route's key
history (`store.go`) that revocation, erasure and the sweep perform for each
lease before they delete it.
-/

namespace NotificationServer

open Relational

namespace Db

/-- `DELETE FROM subscription_leases`; delivery jobs cascade, A9 routes do not. -/
def deleteLeases (p : LeaseRow → Prop) [DecidablePred p] (db : Db) : Db :=
  { db with
    leases := deleteWhere p db.leases
    jobs := deleteWhere (fun j => ∃ l ∈ db.leases, p l ∧ j.leaseID = some l.leaseID) db.jobs }

/-- The lease refers to an installation row that `p` selects. -/
def LeaseOfInstallation (db : Db) (p : InstallationRow → Prop) (l : LeaseRow) : Prop :=
  ∃ i ∈ db.installations, p i ∧
    (l.installationLookup = i.installationLookup ∨ l.installationIdentity = i.installationIdentity)

instance (db : Db) (p : InstallationRow → Prop) [DecidablePred p] :
    DecidablePred (db.LeaseOfInstallation p) := fun _ =>
  inferInstanceAs (Decidable (∃ i ∈ db.installations, _))

/-- `DELETE FROM installation_states`; leases and delivery jobs cascade. -/
def deleteInstallations (p : InstallationRow → Prop) [DecidablePred p] (db : Db) : Db :=
  let db' := db.deleteLeases (db.LeaseOfInstallation p)
  { db' with
    installations := deleteWhere p db.installations
    jobs := deleteWhere
      (fun j => ∃ i ∈ db.installations, p i ∧ j.installationLookup = some i.installationLookup)
      db'.jobs }

/-- `DELETE FROM route_key_history`. -/
def deleteHistory (p : RouteKeyHistoryRow → Prop) [DecidablePred p] (db : Db) : Db :=
  { db with routeKeyHistory := deleteWhere p db.routeKeyHistory }

/-- `UPDATE route_key_history SET updated_at, expires_at` for every row of one route. -/
def extendHistory (routeIdentity : LookupDigest) (now expiresAt : Time) (db : Db) : Db :=
  { db with
    routeKeyHistory := updateWhere (fun h => h.routeIdentity = routeIdentity)
      (fun h => { h with updatedAt := now, expiresAt := expiresAt }) db.routeKeyHistory }

/-- A history row of the route and epoch that has not expired. -/
def HistoryCurrent (db : Db) (routeIdentity : LookupDigest) (routeKeyEpoch : Nat) (now : Time) :
    Prop :=
  ∃ h ∈ db.routeKeyHistory, h.key = (routeIdentity, routeKeyEpoch) ∧ now < h.expiresAt
  deriving Decidable

end Db

/-- What an existing tombstone keeps and takes over: the row with the larger fence wins, the new
one on a tie. -/
def DeletionTombstoneRow.merge (old new : DeletionTombstoneRow) : DeletionTombstoneRow :=
  if old.fenceEpoch ≤ new.fenceEpoch then
    { old with
      keyVersion := new.keyVersion, fenceEpoch := new.fenceEpoch
      createdAt := new.createdAt, expiresAt := new.expiresAt }
  else old

/-- The row `upsertDeletionTombstone` proposes. -/
def DeletionTombstoneRow.proposed (targetKind : DeletionTarget) (targetIdentity : LookupDigest)
    (keyVersion : Int) (fenceEpoch : Nat) (now : Time) : DeletionTombstoneRow :=
  { targetKind := targetKind, targetIdentity := targetIdentity, keyVersion := keyVersion
    fenceEpoch := fenceEpoch, createdAt := now, expiresAt := now + deletionHorizon }

/-- `INSERT INTO deletion_tombstones … ON CONFLICT DO UPDATE`. -/
def Db.upsertTombstone (t : DeletionTombstoneRow) (db : Db) : Db :=
  { db with
    deletionTombstones :=
      upsert DeletionTombstoneRow.key DeletionTombstoneRow.merge t db.deletionTombstones }

namespace Store

def upsertDeletionTombstone (targetKind : DeletionTarget) (targetIdentity : LookupDigest)
    (keyVersion : Int) (fenceEpoch : Nat) (now : Time) : VaultTx Unit := do
  Tx.require (ValidKeyVersion keyVersion ∧ validDeletionTombstoneFence targetKind fenceEpoch)
    .storeUnavailable
  exec fun db => db.upsertTombstone (.proposed targetKind targetIdentity keyVersion fenceEpoch now)

def requireTombstoneAdvance (targetKind : DeletionTarget) (targetIdentity : LookupDigest)
    (proposedEpoch : Nat) (now : Time) : VaultTx Unit := do
  Tx.require (validDeletionTombstoneFence targetKind proposedEpoch) .storeUnavailable
  match ← query fun db => db.deletionTombstones.find? fun t =>
      t.key = (targetKind, targetIdentity) ∧ now < t.expiresAt with
  | none => pure ()
  | some t => Tx.require (t.fenceEpoch < proposedEpoch) .refreshConflict

def retireRouteKeyHistory (routeIdentity : LookupDigest) (routeKeyEpoch : Nat) (now : Time) :
    VaultTx Unit := do
  Tx.require (routeKeyEpoch ≠ 0) .storeUnavailable
  let current ← query fun db => decide (db.HistoryCurrent routeIdentity routeKeyEpoch now)
  Tx.require (current = true) .storeUnavailable
  -- At least the current row is updated, so the affected-row check cannot fail here.
  exec fun db => db.extendHistory routeIdentity now (now + deletionHorizon)

/-- The body of the loops in `revokeAllLeases`, `tombstoneExpiredLeases` and
`EraseInvalidAPNSToken`: one lease's key history is retired and its route fenced.  The last two
repeat the key version check of `upsertDeletionTombstone`. -/
def retireLeaseTx (now : Time) (lease : LeaseRow) : VaultTx Unit := do
  Tx.require (Between 1 maxUint32 lease.routeKeyEpoch) .storeUnavailable
  retireRouteKeyHistory lease.routeIdentity lease.routeKeyEpoch now
  upsertDeletionTombstone .route lease.routeIdentity lease.encryptionKeyVersion
    lease.routeKeyEpoch now

end Store

/-- Statement failures reach the callers of the Gate-6 operations as `ErrStoreUnavailable`. -/
def VaultError.orStoreUnavailable : VaultError → VaultError
  | .database => .storeUnavailable
  | e => e

end NotificationServer
