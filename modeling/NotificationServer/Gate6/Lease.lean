import Mathlib.Data.List.MinMax
import NotificationServer.Gate6.Deletion

/-!
# Installation rows, leases and route-key history

The primitives `Refresh`, `AdvancePolicy` and the A9 replacement share
(`store.go`): finding an installation by its rotating lookup, the nonce-lineage
fence of a route and writing or erasing one lease.
-/

namespace NotificationServer

open Relational

def maxRouteKeyHistoryRows : Nat := 64

/-- `normalizedSubscription`, without the topic kind that is always a conversation. -/
structure NormalizedSubscription where
  topic : Bytes
  routeKey : Bytes
  routeKeyEpoch : Nat
  hmacKeys : List HMACKey
  capability : ReceiveCapability
  issuedAt : Time
  capExpiresAt : Time
  deriving DecidableEq

/-- `existingLease` with the topic its key opens to. -/
structure ExistingLease where
  topic : Bytes
  lease : LeaseRow
  deriving DecidableEq

/-- What `upsertLease` reads from `s.random` for one route. -/
structure LeaseDraw where
  leaseID : Bytes16
  noncePrefix : BitVec 32

structure LeaseTerms where
  installationID : Bytes32
  installationLookup : LookupDigest
  lookupEpoch : Nat
  generation : Nat
  policyEpoch : Nat
  now : Time
  expiresAt : Time
  controlExpiresAt : Time

namespace Db

def historyOf (db : Db) (routeIdentity : LookupDigest) : List RouteKeyHistoryRow :=
  db.routeKeyHistory.filter fun h => h.routeIdentity = routeIdentity

/-- `INSERT INTO route_key_history … ON CONFLICT DO UPDATE SET updated_at, expires_at`. -/
def upsertHistory (h : RouteKeyHistoryRow) (db : Db) : Db :=
  { db with
    routeKeyHistory := upsert RouteKeyHistoryRow.key
      (fun old new => { old with updatedAt := new.updatedAt, expiresAt := new.expiresAt })
      h db.routeKeyHistory }

/-- `INSERT INTO subscription_leases … ON CONFLICT DO UPDATE` of every column. -/
def upsertLease (l : LeaseRow) (db : Db) : Db :=
  { db with leases := upsert (fun l => l.leaseID) (fun _ new => new) l db.leases }

end Db

namespace Store

variable (S : Store)

/-- `findInstallation`: the row stored under a lookup of the current or the previous period. -/
def findInstallation (installationID : Bytes32) (now : Time) :
    VaultTx (Option InstallationRow) := do
  let row ← query fun db => (candidateEpochs now).findSome? fun epoch =>
    db.installations.find? fun i => i.installationLookup = S.installationLookup epoch installationID
  match row with
  | none => pure none
  | some i =>
    Tx.require (i.installationIdentity = S.installationDeletionIdentity installationID)
      .storeUnavailable
    pure (some i)

/-- `loadExistingLeases`; of two rows with one topic the map keeps the later. -/
def loadExistingLeases (lookup : LookupDigest) : VaultTx (List ExistingLease) := do
  let rows ← query fun db => db.leases.filter fun l => l.installationLookup = lookup
  let opened ← Tx.collect rows fun l => do
    Tx.require (Between 1 maxUint32 l.routeKeyEpoch) .storeUnavailable
    let topic ← expect (S.encryption.openValue (.lease l.leaseID .topic) l.encryptedTopic)
      .storeUnavailable
    pure { topic := topic, lease := l }
  pure (upsertAll (fun e => e.topic) opened [])

/-- The switch of `recordRouteKeyHistory` on the retained epochs of the route. -/
def historyAdmits (history : List RouteKeyHistoryRow) (routeKeyCommitment : LookupDigest)
    (routeKeyEpoch : Nat) (allowSameEpoch : Bool) : Prop :=
  match history.argmax fun h => h.routeKeyEpoch with
  | none => True
  | some latest =>
    if routeKeyEpoch < latest.routeKeyEpoch then False
    else if routeKeyEpoch = latest.routeKeyEpoch then
      allowSameEpoch = true ∧ latest.routeKeyCommitment = routeKeyCommitment
    else history.length < maxRouteKeyHistoryRows

instance (history : List RouteKeyHistoryRow) (routeKeyCommitment : LookupDigest)
    (routeKeyEpoch : Nat) (allowSameEpoch : Bool) :
    Decidable (historyAdmits history routeKeyCommitment routeKeyEpoch allowSameEpoch) := by
  unfold historyAdmits
  cases history.argmax fun h => h.routeKeyEpoch <;> infer_instance

def recordRouteKeyHistory (routeIdentity routeKeyCommitment : LookupDigest) (routeKeyEpoch : Nat)
    (allowSameEpoch : Bool) (now expiresAt : Time) : VaultTx Unit := do
  Tx.require (routeKeyEpoch ≠ 0 ∧ now < expiresAt ∧ expiresAt ≤ now + 15 * day) .storeUnavailable
  exec fun db => db.deleteHistory fun h => h.expiresAt ≤ now ∧
    (h.routeIdentity = routeIdentity ∨ h.routeKeyCommitment = routeKeyCommitment)
  let history ← query fun db => db.historyOf routeIdentity
  Tx.require (∀ h ∈ history, Between 1 maxUint32 h.routeKeyEpoch) .storeUnavailable
  Tx.require (historyAdmits history routeKeyCommitment routeKeyEpoch allowSameEpoch)
    .refreshConflict
  let committed ← query fun db =>
    db.routeKeyHistory.find? fun h => h.routeKeyCommitment = routeKeyCommitment
  Tx.require (∀ h ∈ committed, h.key = (routeIdentity, routeKeyEpoch)) .refreshConflict
  exec fun db => db.extendHistory routeIdentity now expiresAt
  exec fun db => db.upsertHistory
    { routeIdentity := routeIdentity, routeKeyEpoch := routeKeyEpoch
      routeKeyCommitment := routeKeyCommitment, updatedAt := now, expiresAt := expiresAt }

/-- The lease row `upsertLease` writes. -/
def leaseRow (terms : LeaseTerms) (sub : NormalizedSubscription) (leaseID : Bytes16)
    (nonce : NonceState) : LeaseRow :=
  { leaseID := leaseID
    installationLookup := terms.installationLookup
    installationIdentity := S.installationDeletionIdentity terms.installationID
    routeIdentity := S.routeHistoryIdentity terms.installationID sub.topic
    topicLookup := S.topicLookup terms.lookupEpoch sub.topic
    lookupKeyEpoch := terms.lookupEpoch
    encryptedTopic := S.encryption.sealValue (.lease leaseID .topic) sub.topic
    encryptedRouteKey := S.encryption.sealValue (.lease leaseID .routeKey) sub.routeKey
    encryptedHMACKeys := S.encryption.sealValue (.lease leaseID .hmacKeys) sub.hmacKeys
    encryptedReceiveCapability :=
      S.encryption.sealValue (.lease leaseID .capability) sub.capability
    alertAllowed := sub.capability.alertAllowed
    state := if sub.capability.alertAllowed then .active else .suppressed
    generation := terms.generation
    policyEpoch := terms.policyEpoch
    routeKeyEpoch := sub.routeKeyEpoch
    encryptedNonceState := S.encryption.sealValue (.lease leaseID .nonceState) nonce
    encryptionKeyVersion := S.encryption.activeVersionColumn
    issuedAt := sub.issuedAt
    refreshedAt := terms.now
    expiresAt := terms.expiresAt
    controlExpiresAt := min terms.controlExpiresAt sub.capExpiresAt
    revokedAt := none }

/-- The nonce lineage `upsertLease` continues an existing lease with: an unchanged epoch needs the
unchanged key and keeps the sequence, a higher epoch needs a new key and starts a new one. -/
def continueLeaseTx (markedAt : Time) (draw : LeaseDraw) (sub : NormalizedSubscription)
    (existing : LeaseRow) : VaultTx NonceState := do
  Tx.require (existing.routeKeyEpoch ≤ sub.routeKeyEpoch) .refreshConflict
  let oldRouteKey ← expect (S.encryption.openValue (.lease existing.leaseID .routeKey)
    existing.encryptedRouteKey) .storeUnavailable
  if sub.routeKeyEpoch = existing.routeKeyEpoch then
    Tx.require (oldRouteKey = sub.routeKey) .refreshConflict
    expect (S.encryption.openValue (.lease existing.leaseID .nonceState)
      existing.encryptedNonceState) .storeUnavailable
  else
    Tx.require (oldRouteKey ≠ sub.routeKey) .refreshConflict
    markDeliveryJobsSafetyForLeaseTx markedAt existing.leaseID
    pure { noncePrefix := draw.noncePrefix, nextSequence := 0 }

/-- The nonce state `upsertLease` writes. -/
def leaseNonceTx (markedAt : Time) (draw : LeaseDraw) (sub : NormalizedSubscription)
    (existing : Option LeaseRow) : VaultTx NonceState :=
  match existing with
  | none => pure { noncePrefix := draw.noncePrefix, nextSequence := 0 }
  | some l => S.continueLeaseTx markedAt draw sub l

/-- `upsertLease`; `markedAt` is the host clock that finalized jobs carry. -/
def upsertLease (terms : LeaseTerms) (markedAt : Time) (draw : LeaseDraw)
    (sub : NormalizedSubscription) (existing : Option LeaseRow) : VaultTx Unit := do
  let routeIdentity := S.routeHistoryIdentity terms.installationID sub.topic
  requireTombstoneAdvance .route routeIdentity sub.routeKeyEpoch terms.now
  Tx.require (∀ l ∈ existing, l.routeIdentity = routeIdentity) .storeUnavailable
  let leaseID := (existing.map fun l => l.leaseID).getD draw.leaseID
  let nonce ← S.leaseNonceTx markedAt draw sub existing
  recordRouteKeyHistory routeIdentity (S.routeKeyCommitment sub.routeKey) sub.routeKeyEpoch
    existing.isSome terms.now (terms.expiresAt + deletionHorizon)
  exec fun db => db.upsertLease (S.leaseRow terms sub leaseID nonce)

def eraseLease (now markedAt : Time) (lease : LeaseRow) : VaultTx Unit := do
  markDeliveryJobsSafetyForLeaseTx markedAt lease.leaseID
  let currentRouteKey ← expect (S.encryption.openValue (.lease lease.leaseID .routeKey)
    lease.encryptedRouteKey) .storeUnavailable
  recordRouteKeyHistory lease.routeIdentity (S.routeKeyCommitment currentRouteKey)
    lease.routeKeyEpoch true now (now + deletionHorizon)
  upsertDeletionTombstone .route lease.routeIdentity lease.encryptionKeyVersion
    lease.routeKeyEpoch now
  exec fun db => db.deleteLeases fun l => l.leaseID = lease.leaseID

end Store

end NotificationServer
