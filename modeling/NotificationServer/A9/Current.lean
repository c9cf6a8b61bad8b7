import NotificationServer.A9.Authority

/-!
# The current-route check

`requireA9CurrentRouteTx` (`a9_current.go`): the check every fetch, enqueue and
send of an A9 route makes in its own transaction.  It is a conjunction of exact
matches between a route snapshot and the stored keyset, authority, binding,
tombstones, route, assertion and key descriptors.
-/

namespace NotificationServer

structure A9CurrentRouteState where
  databaseNow : Time
  keysetExpiresAt : Time
  keysetFreshUntil : Time
  watermarkExpiresAt : Time
  assertionExpiresAt : Time
  installationIdentity : LookupDigest
  deriving DecidableEq

namespace A9RouteSnapshot

/-- `validA9RouteSnapshot`; `requireA9CurrentRouteTx` passes the snapshot's own route-key epoch
and the zero time. -/
def Valid (s : A9RouteSnapshot) (routeKeyEpoch : Nat) (now : Time) : Prop :=
  Between 1 maxSafeInteger s.subscriptionGeneration ∧
  Between 1 maxSafeInteger s.bindingVersion ∧
  Between 1 maxSafeInteger s.assertionStreamSequence ∧
  0 < s.topicKeyEpoch ∧ 0 < s.routeKeyEpoch ∧ s.routeKeyEpoch = routeKeyEpoch ∧
  Between 1 maxSafeInteger s.keyset.sequence ∧
  Between 1 maxSafeInteger s.watermarkSequence ∧
  s.assertionExpiresAt ≠ zeroTime ∧ now < s.assertionExpiresAt
  deriving Decidable

/-- The columns a binding and an assertion must have to match the snapshot. -/
def assertionKey (s : A9RouteSnapshot) : AssertionKey :=
  { installationBindingID := s.installationBindingID, sequencerEpoch := s.sequencerEpoch
    bindingID := s.bindingID, bindingVersion := s.bindingVersion
    assertion :=
      { assertionHash := s.assertionHash, assertionStreamSequence := s.assertionStreamSequence
        topicKeyEpoch := s.topicKeyEpoch, topicBinding := s.topicBinding, keyset := s.keyset } }

def columns (s : A9RouteSnapshot) : RouteColumns :=
  { installationBindingID := s.installationBindingID, sequencerEpoch := s.sequencerEpoch
    subscriptionGeneration := s.subscriptionGeneration, bindingID := s.bindingID
    bindingVersion := s.bindingVersion, assertion := s.assertionKey.assertion
    routeKeyEpoch := s.routeKeyEpoch, watermarkSequence := s.watermarkSequence }

/-- The condition of `lockA9CurrentKeysetReceiptTx`. -/
def KeysetMatches (s : A9RouteSnapshot) (dbNow : Time) (row : KeysetStateRow)
    (expiresAt : Time) : Prop :=
  row.accepted = some (s.keyset, expiresAt) ∧ row.current = true ∧ row.uncertaintyReason = 0 ∧
  dbNow < expiresAt ∧ row.refreshedAt ≤ dbNow ∧ dbNow - 6 * hour < row.refreshedAt
  deriving Decidable

/-- The condition of `lockA9CurrentAuthorityTx`. -/
def AuthorityMatches (s : A9RouteSnapshot) (now : Time) (a : AuthorityRow)
    (w : WatermarkColumns) : Prop :=
  a.sequencerEpoch = s.sequencerEpoch ∧ a.contiguousStreamSequence ≤ maxSafeInteger ∧
  0 < a.subscriptionGeneration ∧ a.subscriptionGeneration = s.subscriptionGeneration ∧
  s.assertionStreamSequence ≤ a.contiguousStreamSequence ∧
  a.state = .active ∧ a.uncertaintyReason = .none ∧
  Between 1 maxSafeInteger w.watermarkSequence ∧ s.watermarkSequence ≤ w.watermarkSequence ∧
  w.committedThrough ≤ maxSafeInteger ∧ w.committedThrough ≤ a.contiguousStreamSequence ∧
  s.assertionStreamSequence ≤ w.committedThrough ∧
  w.status = .current ∧ w.uncertaintyReason = .none ∧
  w.issuedAt ≤ now ∧ w.issuedAt < w.expiresAt ∧ w.expiresAt - w.issuedAt ≤ artifactTTL ∧
  now < w.expiresAt ∧ w.keyset = s.keyset
  deriving Decidable

/-- The condition of `loadA9CurrentAssertionTx`, which leaves `lease_id` unconstrained. -/
def AssertionMatches (s : A9RouteSnapshot) (now : Time) (a : VerifiedAssertion) : Prop :=
  a.key = s.assertionKey ∧ a.issuedAt ≤ now ∧ a.issuedAt < a.expiresAt ∧
  a.expiresAt - a.issuedAt ≤ artifactTTL ∧ now < a.expiresAt ∧ a.expiresAt = s.assertionExpiresAt
  deriving Decidable

end A9RouteSnapshot

/-- A descriptor window covers an artifact and the present. -/
def DescriptorCovers (notBefore notAfter issuedAt expiresAt now : Time) : Prop :=
  notBefore ≤ issuedAt ∧ notBefore ≤ now ∧ expiresAt ≤ notAfter ∧ now < notAfter
  deriving Decidable

namespace Db

/-- An artifact signing key of the keyset is usable for an artifact. -/
def OnlineKeyUsable (db : Db) (sequence : Nat) (keyID : Bytes32) (issuedAt expiresAt now : Time) :
    Prop :=
  ∃ k ∈ db.onlineKeys, k.key = (sequence, .artifact, keyID) ∧
    DescriptorCovers k.notBefore k.notAfter issuedAt expiresAt now
  deriving Decidable

/-- A commitment key of the keyset is usable for an artifact. -/
def CommitmentKeyUsable (db : Db) (sequence : Nat) (purpose : CommitmentPurpose)
    (keyID : Bytes32) (topicKeyEpoch : Option Nat) (issuedAt expiresAt now : Time) : Prop :=
  ∃ k ∈ db.commitmentKeys, k.key = (sequence, purpose, keyID) ∧ k.topicKeyEpoch = topicKeyEpoch ∧
    DescriptorCovers k.notBefore k.notAfter issuedAt expiresAt now
  deriving Decidable

/-- The condition of `requireA9CurrentDescriptorsTx`. -/
def DescriptorsCurrent (db : Db) (s : A9RouteSnapshot) (now : Time) (w : WatermarkColumns)
    (a : VerifiedAssertion) : Prop :=
  db.OnlineKeyUsable s.keyset.sequence a.signingKeyID a.issuedAt a.expiresAt now ∧
  db.OnlineKeyUsable s.keyset.sequence w.signingKeyID w.issuedAt w.expiresAt now ∧
  db.CommitmentKeyUsable s.keyset.sequence .roster a.rosterCommitmentKeyID none
    a.issuedAt a.expiresAt now ∧
  db.CommitmentKeyUsable s.keyset.sequence .tuple a.tupleCommitmentKeyID none
    a.issuedAt a.expiresAt now ∧
  db.CommitmentKeyUsable s.keyset.sequence .topic a.topicCommitmentKeyID (some s.topicKeyEpoch)
    a.issuedAt a.expiresAt now
  deriving Decidable

/-- A tombstone at the snapshot's version or above (`requireNoWinningA9TombstoneTx`). -/
def WinningTombstone (db : Db) (s : A9RouteSnapshot) : Prop :=
  ∃ t ∈ db.tombstones, t.installationBindingID = s.installationBindingID ∧
    t.bindingID = s.bindingID ∧ s.bindingVersion ≤ t.bindingVersion
  deriving Decidable

end Db

namespace Store

variable (S : Store)

/-- The part of `requireA9CurrentRouteTx` that only reads, after the keyset and retention guards;
`none` is `current = false`. -/
def a9CurrentRoute (db : Db) (leaseID : Bytes16) (s : A9RouteSnapshot) (dbNow keysetExpiresAt
    refreshedAt : Time) : Option A9CurrentRouteState := do
  let authority ← db.authority s.installationBindingID
  let watermark ← authority.watermark
  guard (s.AuthorityMatches dbNow authority watermark)
  guard (some s.assertionKey ∈ db.bindings.map BindingRow.activeKey)
  guard (¬ db.WinningTombstone s)
  let route ← db.routes.find? fun r => r.leaseID = leaseID ∧ r.columns = s.columns
  let assertion ← db.assertions.find? fun a => a.key = s.assertionKey
  guard (s.AssertionMatches dbNow assertion)
  guard (db.DescriptorsCurrent s dbNow watermark assertion)
  pure
    { databaseNow := dbNow, keysetExpiresAt := keysetExpiresAt
      keysetFreshUntil := refreshedAt + 6 * hour, watermarkExpiresAt := watermark.expiresAt
      assertionExpiresAt := assertion.expiresAt, installationIdentity := route.installationIdentity }

def requireA9CurrentRouteTx (clock : Clock) (leaseID : Bytes16) (s : A9RouteSnapshot) :
    VaultTx (Option A9CurrentRouteState) := do
  if ¬ (S.a9Enabled = true ∧ s.Valid s.routeKeyEpoch zeroTime) then
    pure none
  else
    match ← query fun db => db.keysetState with
    | none => pure none
    | some row =>
      match row.accepted with
      | none => pure none
      | some (_, expiresAt) =>
        if s.KeysetMatches clock.db row expiresAt then do
          S.requireRetentionSafeTx clock.host
          query fun db => a9CurrentRoute db leaseID s clock.db expiresAt row.refreshedAt
        else
          pure none

end Store

end NotificationServer
