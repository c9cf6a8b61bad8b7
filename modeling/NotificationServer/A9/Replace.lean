import Mathlib.Data.List.Sort
import NotificationServer.A9.Authority
import NotificationServer.Gate6.Refresh

/-!
# Complete subscription replacement

`Replace` (`a9_replace.go`): one transaction that checks the A9 authority of
every listed route, runs the Gate-6 refresh, publishes the new routes and makes
the authority row ACTIVE.  It is the only operation that ever does the last.
-/

namespace NotificationServer

open Relational

def bytesOf (n : Nat) (x : Nat) : Bytes :=
  (List.range n).map fun i => UInt8.ofNat (x >>> (8 * (n - 1 - i)) % 256)

def hexDigit (d : Nat) : UInt8 := UInt8.ofNat (if d < 10 then 48 + d else 87 + d)

/-- The hexadecimal text of `n` nibbles of `x`, from nibble `start` down. -/
def hexText (x start n : Nat) : Bytes :=
  (List.range n).map fun i => hexDigit (x >>> (4 * (start - i)) % 16)

def canonicalA9UUID (value : Bytes16) : Bytes :=
  let x := value.toNat
  hexText x 31 8 ++ 45 :: hexText x 23 4 ++ 45 :: hexText x 19 4 ++ 45 :: hexText x 15 4 ++
    45 :: hexText x 11 12

namespace ReplaceSubscription

def topicBytes (sub : ReplaceSubscription) : Bytes := bytesOf 33 sub.topic.toNat

def refresh (sub : ReplaceSubscription) : SubscriptionRefresh :=
  { topic := sub.topicBytes, routeKey := bytesOf 32 sub.routeKey.toNat
    routeKeyEpoch := sub.routeKeyEpoch, hmacKeys := sub.hmacKeys
    capability := sub.receiveCapability }

end ReplaceSubscription

/-- `a9RefreshRequest`, the canonical JSON objects being decoded already. -/
def ReplaceRequest.refresh (request : ReplaceRequest) : RefreshRequest :=
  { environment := request.environment, installationID := request.legacyInstallationID
    accountIncarnationID := request.accountIncarnationID
    generation := request.subscriptionGeneration
    idempotencyKey := canonicalA9UUID request.idempotencyKey
    apnsToken := bytesOf 32 request.apnsToken.toNat, payloadSchema := request.payloadSchema
    subscriptions := request.subscriptions.map ReplaceSubscription.refresh
    policyControl := request.policyControl }

/-- The three ways `validateA9SubscriptionsTx` ends without an error. -/
inductive SubscriptionCheck
  | valid (routes : List RouteColumns)
  | missing
  | revoked
  deriving DecidableEq

namespace Db

/-- The assertion joined to the active binding a subscription names: unexpired, covered by the
watermark and verified under the presented keyset. -/
def NamesAssertion (db : Db) (request : ReplaceRequest) (keyset : KeysetReceipt)
    (committedThrough : Nat) (now : Time) (sub : ReplaceSubscription) (a : VerifiedAssertion) :
    Prop :=
  some a.key ∈ db.bindings.map BindingRow.activeKey ∧
  a.installationBindingID = request.installationBindingID ∧
  a.sequencerEpoch = request.sequencerEpoch ∧ a.bindingID = sub.bindingID ∧
  a.bindingVersion = sub.bindingVersion ∧ a.hash = sub.assertionHash ∧
  a.topicKeyEpoch = sub.topicKeyEpoch ∧ a.topicBinding = sub.topicBinding ∧
  now < a.expiresAt ∧ a.streamSequence ≤ committedThrough ∧ a.keyset = keyset
  deriving Decidable

/-- The row the query of `validateA9SubscriptionsTx` returns for a subscription. -/
def namedAssertion (db : Db) (request : ReplaceRequest) (keyset : KeysetReceipt)
    (committedThrough : Nat) (now : Time) (sub : ReplaceSubscription) :
    Option VerifiedAssertion :=
  db.assertions.find? fun a => db.NamesAssertion request keyset committedThrough now sub a

/-- `a9SubscriptionRevokedTx`. -/
def SubscriptionRevoked (db : Db) (request : ReplaceRequest) (sub : ReplaceSubscription) : Prop :=
  ∃ t ∈ db.tombstones, t.installationBindingID = request.installationBindingID ∧
    t.bindingID = sub.bindingID ∧ sub.bindingVersion ≤ t.bindingVersion
  deriving Decidable

def routeColumns (request : ReplaceRequest) (watermarkSequence : Nat)
    (sub : ReplaceSubscription) (a : VerifiedAssertion) : RouteColumns :=
  { installationBindingID := request.installationBindingID
    sequencerEpoch := request.sequencerEpoch
    subscriptionGeneration := request.subscriptionGeneration
    bindingID := sub.bindingID, bindingVersion := sub.bindingVersion
    assertion :=
      { assertionHash := sub.assertionHash, assertionStreamSequence := a.streamSequence
        topicKeyEpoch := sub.topicKeyEpoch, topicBinding := sub.topicBinding, keyset := a.keyset }
    routeKeyEpoch := sub.routeKeyEpoch, watermarkSequence := watermarkSequence }

/-- `validateA9SubscriptionsTx`: in the order of the binding ids, the first subscription without a
usable assertion decides how the request is refused. -/
def validateA9Subscriptions (db : Db) (request : ReplaceRequest) (keyset : KeysetReceipt)
    (watermark : WatermarkColumns) (now : Time) : SubscriptionCheck :=
  let named := db.namedAssertion request keyset watermark.committedThrough now
  let order := request.subscriptions.insertionSort fun a b => a.bindingID ≤ b.bindingID
  match order.find? fun sub => named sub = none with
  | some sub => if db.SubscriptionRevoked request sub then .revoked else .missing
  | none =>
    .valid (request.subscriptions.filterMap fun sub =>
      (named sub).map (routeColumns request watermark.watermarkSequence sub))

end Db

namespace Store

variable (S : Store)

def validA9Replace (request : ReplaceRequest) (keyset : KeysetReceipt) : Prop :=
  request.environment = S.environment ∧
  Between 1 maxSafeInteger request.subscriptionGeneration ∧
  request.expectedSubscriptionGeneration < maxSafeInteger ∧
  request.subscriptionGeneration = request.expectedSubscriptionGeneration + 1 ∧
  Between 1 maxSafeInteger keyset.sequence ∧
  request.payloadSchema = .hytchPushWrapperV1 ∧
  request.subscriptions.length ≤ maxRefreshTopics
  deriving Decidable

/-- The closure `negative`; a latch makes the result UNCERTAIN. -/
def refuseA9ReplaceTx (request : ReplaceRequest) (authority : AuthorityRow) (state : ResultState)
    (outcome : ResultOutcome) (latch : Option UncertaintyReason) (now : Time) :
    VaultTx A9Result := do
  latchIfTx request.installationBindingID latch now
  let result := S.a9Result request.installationBindingID request.sequencerEpoch
    authority.subscriptionGeneration (if latch.isSome then .uncertain else state) outcome
    authority.contiguousStreamSequence
  insertA9ReceiptTx request.idempotencyKey .replace request.installationBindingID
    request.sequencerEpoch request.requestHash result
  pure result

def bindA9InstallationToGate6Tx (installation : Bytes16) (identity : LookupDigest) :
    VaultTx Unit := do
  exec fun db =>
    { db with
      gate6Bindings := upsert (fun b => b.installationBindingID) (fun old _ => old)
        { installationBindingID := installation, installationIdentity := identity }
        db.gate6Bindings }
  let stored ← query fun db => db.gate6Bindings.find? fun b => b.installationBindingID = installation
  Tx.require (∃ b ∈ stored, b.installationIdentity = identity) .storeUnavailable

def publishA9RouteTx (request : ReplaceRequest) (identity : LookupDigest)
    (leases : List ExistingLease) (route : Bytes × RouteColumns) : VaultTx Unit := do
  let lease ← expect (leases.find? fun e => e.topic = route.1) .storeUnavailable
  exec fun db =>
    { db with
      routes :=
        { leaseID := lease.lease.leaseID, installationIdentity := identity
          replacementIdempotencyKey := request.idempotencyKey, columns := route.2 } :: db.routes }

def activateA9AuthorityTx (request : ReplaceRequest) (now : Time) : VaultTx Unit := do
  exec fun db => db.updateAuthority request.installationBindingID fun a =>
    { a with
      subscriptionGeneration := request.subscriptionGeneration, state := .active
      uncertaintyReason := .none, updatedAt := now }
  noteWrite request.installationBindingID .replaced

/-- The end of `replaceA9Once`: every check has passed. -/
def publishA9ReplaceTx (clock : Clock) (random : Bytes → LeaseDraw) (request : ReplaceRequest)
    (normalized : List NormalizedSubscription) (routes : List RouteColumns)
    (authority : AuthorityRow) : VaultTx A9Result := do
  let identity := S.installationDeletionIdentity request.legacyInstallationID
  let result := S.a9Result request.installationBindingID request.sequencerEpoch
    request.subscriptionGeneration .active .applied authority.contiguousStreamSequence
  insertA9ReceiptTx request.idempotencyKey .replace request.installationBindingID
    request.sequencerEpoch request.requestHash result
  cancelA9RoutesTx request.installationBindingID none clock.db
  exec fun db => db.deleteRoutes request.installationBindingID none
  let leases ← S.applyGate6RefreshTx clock random request.refresh normalized
    request.expectedSubscriptionGeneration
  bindA9InstallationToGate6Tx request.installationBindingID identity
  Tx.forEach ((request.subscriptions.map ReplaceSubscription.topicBytes).zip routes)
    (publishA9RouteTx request identity leases)
  activateA9AuthorityTx request clock.db
  pure result

/-- The identity check and what follows it in `replaceA9Once`. -/
def replaceValidatedA9Tx (clock : Clock) (random : Bytes → LeaseDraw) (request : ReplaceRequest)
    (normalized : List NormalizedSubscription) (routes : List RouteColumns)
    (authority : AuthorityRow) : VaultTx A9Result := do
  let bound ← query fun db =>
    db.gate6Bindings.find? fun b => b.installationBindingID = request.installationBindingID
  if ∃ b ∈ bound,
      b.installationIdentity ≠ S.installationDeletionIdentity request.legacyInstallationID then
    S.refuseA9ReplaceTx request authority .uncertain .conflict (some .authorityReference) clock.db
  else
    S.publishA9ReplaceTx clock random request normalized routes authority

/-- The watermark of the row, if it is CURRENT, unexpired and of the presented keyset. -/
def replacementWatermark (authority : AuthorityRow) (keyset : KeysetReceipt) (now : Time) :
    Option WatermarkColumns :=
  authority.watermark.filter fun w => w.status = .current ∧ now < w.expiresAt ∧ w.keyset = keyset

/-- `replaceA9Once` from the generation check on. -/
def replaceInEpochA9Tx (clock : Clock) (random : Bytes → LeaseDraw) (request : ReplaceRequest)
    (keyset : KeysetReceipt) (authority : AuthorityRow) : VaultTx A9Result := do
  if request.expectedSubscriptionGeneration ≠ authority.subscriptionGeneration ∨
      request.subscriptionGeneration ≠ authority.subscriptionGeneration + 1 then
    S.refuseA9ReplaceTx request authority
      (match authority.state with | .uncertain => .uncertain | .active => .active)
      .stale none clock.db
  else
    match replacementWatermark authority keyset clock.db with
    | none =>
      S.refuseA9ReplaceTx request authority .uncertain .inconclusive (some .artifactExpired)
        clock.db
    | some watermark => do
      let normalized ← expect (S.validateRefresh request.refresh clock.db) .storeUnavailable
      match ← query fun db => db.validateA9Subscriptions request keyset watermark clock.db with
      | .revoked => S.refuseA9ReplaceTx request authority .revoked .stale none clock.db
      | .missing =>
        S.refuseA9ReplaceTx request authority .uncertain .gap (some .authorityReference) clock.db
      | .valid routes => S.replaceValidatedA9Tx clock random request normalized routes authority

def replaceA9Once (clock : Clock) (random : Bytes → LeaseDraw) (request : ReplaceRequest)
    (keyset : KeysetReceipt) : VaultTx A9Result := do
  let dbNow := clock.db
  requireA9KeysetTx dbNow keyset
  S.requireRetentionSafeTx clock.host
  let authority ← loadOrInsertA9AuthorityTx request.installationBindingID request.sequencerEpoch
    .uncertain .authorityReference dbNow
  match ← S.a9ReceiptResultTx request.idempotencyKey .replace request.installationBindingID
      request.sequencerEpoch request.requestHash authority dbNow with
  | some replay => pure replay
  | none =>
    if authority.sequencerEpoch ≠ request.sequencerEpoch then
      S.refuseA9ReplaceTx request authority .uncertain .conflict (some .epoch) dbNow
    else if authority.state = .uncertain ∧ authority.uncertaintyReason ≠ .epoch then
      S.refuseA9ReplaceTx request authority .uncertain .inconclusive none dbNow
    else
      S.replaceInEpochA9Tx clock random request keyset authority

def replace (clock : Clock) (random : Bytes → LeaseDraw) (request : ReplaceRequest)
    (keyset : KeysetReceipt) : VaultTx A9Result :=
  Tx.mapError (fun _ => .storeUnavailable) do
    Tx.require (S.validA9Replace request keyset) .storeUnavailable
    S.replaceA9Once clock random request keyset

end Store

end NotificationServer
