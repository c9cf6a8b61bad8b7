import NotificationServer.A9.Authority

/-!
# The A9 control stream

`ApplyControl` (`a9_store.go`) as one serializable transaction: an UPSERT makes
one version of a binding active, a REVOKE tombstones it.  Only the event at the
contiguous cursor plus one that also names the version it replaces is applied in
order; a REVOKE of a higher version is kept across a gap.
-/

namespace NotificationServer

open Relational

namespace VerifiedControl

def Expired (event : VerifiedControl) (now : Time) : Prop :=
  event.expiresAt ≤ now ∨ ∃ a ∈ event.assertion, a.expiresAt ≤ now
  deriving Decidable

/-- The row `insertA9ControlEventTx` inserts. -/
def row (event : VerifiedControl) (contiguous : Bool) : ControlEventRow :=
  { installationBindingID := event.installationBindingID, sequencerEpoch := event.sequencerEpoch
    streamSequence := event.streamSequence
    expectedPreviousSequence := event.expectedPreviousSequence
    bindingID := event.bindingID, bindingVersion := event.bindingVersion
    expectedBindingVersion := event.expectedBindingVersion, action := event.action
    assertionHash := event.assertionHash, reasonCode := event.reason
    idempotencyKey := event.idempotencyKey, signedEventHash := event.signedObjectHash
    streamIsContiguous := contiguous, issuedAt := event.issuedAt, expiresAt := event.expiresAt
    signingKeyID := event.signingKeyID, keyset := event.keyset }

def binding (event : VerifiedControl) (state : BindingState) : BindingRow :=
  { installationBindingID := event.installationBindingID, bindingID := event.bindingID
    sequencerEpoch := event.sequencerEpoch, bindingVersion := event.bindingVersion, state := state }

def tombstone (event : VerifiedControl) : BindingTombstoneRow :=
  { installationBindingID := event.installationBindingID, bindingID := event.bindingID
    bindingVersion := event.bindingVersion, assertionHash := event.assertionHash
    sequencerEpoch := event.sequencerEpoch, controlStreamSequence := event.streamSequence
    reasonCode := event.reason }

end VerifiedControl

namespace Db

def binding (db : Db) (installation bindingID : Bytes16) : Option BindingRow :=
  db.bindings.find? fun b => b.installationBindingID = installation ∧ b.bindingID = bindingID

/-- `highestVersion`: the stored or tombstoned version of a binding, 0 if it has neither. -/
def highestVersion (db : Db) (installation bindingID : Bytes16) : Nat :=
  max (((db.binding installation bindingID).map fun b => b.bindingVersion).getD 0)
    (db.highestTombstoneVersion installation bindingID)

/-- `INSERT INTO a9_bindings … ON CONFLICT DO UPDATE`, which keeps no column of the old row. -/
def upsertBinding (b : BindingRow) (db : Db) : Db :=
  { db with bindings := upsert BindingRow.key (fun _ new => new) b db.bindings }

end Db

namespace Store

variable (S : Store)

def validA9Control (event : VerifiedControl) : Prop :=
  event.environment = S.environment ∧
  Between 1 maxSafeInteger event.streamSequence ∧
  event.expectedPreviousSequence ≤ maxSafeInteger ∧
  event.streamSequence = event.expectedPreviousSequence + 1 ∧
  Between 1 maxSafeInteger event.bindingVersion ∧
  event.expectedBindingVersion ≤ maxSafeInteger ∧
  event.bindingVersion = event.expectedBindingVersion + 1 ∧
  Between 1 maxSafeInteger event.keyset.sequence ∧
  event.expiresAt ≠ zeroTime ∧
  event.issuedAt < event.expiresAt ∧
  event.expiresAt - event.issuedAt ≤ artifactTTL ∧
  match event.action with
  | .upsert => event.reason = .none ∧ ∃ a ∈ event.assertion,
      a.hash = event.assertionHash ∧ a.installationBindingID = event.installationBindingID ∧
      a.sequencerEpoch = event.sequencerEpoch ∧ a.streamSequence = event.streamSequence ∧
      a.bindingID = event.bindingID ∧ a.bindingVersion = event.bindingVersion ∧
      a.keyset = event.keyset ∧ a.issuedAt < a.expiresAt ∧
      a.expiresAt - a.issuedAt ≤ artifactTTL
  | .revoke => event.assertion = none ∧ event.reason ≠ .none

instance (event : VerifiedControl) : Decidable (S.validA9Control event) := by
  unfold validA9Control
  cases event.action <;> infer_instance

def insertA9ControlEventTx (event : VerifiedControl) (contiguous : Bool) : VaultTx Unit :=
  exec fun db => { db with controlEvents := event.row contiguous :: db.controlEvents }

def persistA9UpsertTx (event : VerifiedControl) : VaultTx Unit := do
  let assertion ← expect event.assertion .storeUnavailable
  insertA9ControlEventTx event true
  exec fun db => { db with assertions := assertion :: db.assertions }
  exec fun db => db.upsertBinding (event.binding (.active (.ofAssertion assertion)))

def persistA9RevokeTx (event : VerifiedControl) (contiguous : Bool) (now : Time) :
    VaultTx Unit := do
  insertA9ControlEventTx event contiguous
  exec fun db => { db with tombstones := event.tombstone :: db.tombstones }
  cancelA9RoutesTx event.installationBindingID (some event.bindingID) now
  exec fun db => db.deleteRoutes event.installationBindingID (some event.bindingID)
  exec fun db => db.upsertBinding (event.binding .revoked)

/-- Latches if a reason is given, then stores a receipt for a result that leaves the cursor where
it is: the shape of every branch of `applyA9ControlOnce` that does not apply the event in order. -/
def settleA9ControlTx (event : VerifiedControl) (authority : AuthorityRow)
    (latch : Option UncertaintyReason) (state : ResultState) (outcome : ResultOutcome)
    (now : Time) : VaultTx A9Result := do
  latchIfTx event.installationBindingID latch now
  let result := S.a9Result event.installationBindingID event.sequencerEpoch
    authority.subscriptionGeneration state outcome authority.contiguousStreamSequence
  insertA9ReceiptTx event.idempotencyKey .control event.installationBindingID
    event.sequencerEpoch event.signedObjectHash result
  pure result

def persistNextA9Tx (event : VerifiedControl) (now : Time) : VaultTx Unit :=
  match event.action with
  | .upsert => persistA9UpsertTx event
  | .revoke => persistA9RevokeTx event true now

/-- The end of `applyA9ControlOnce`: the event is next in its stream and names its version. -/
def applyNextA9ControlTx (event : VerifiedControl) (authority : AuthorityRow) (now : Time) :
    VaultTx A9Result := do
  let resultState : ResultState :=
    match authority.state, event.action with
    | .uncertain, _ => .uncertain
    | .active, .revoke => .revoked
    | .active, .upsert => .active
  let result := S.a9Result event.installationBindingID event.sequencerEpoch
    authority.subscriptionGeneration resultState .applied event.streamSequence
  insertA9ReceiptTx event.idempotencyKey .control event.installationBindingID
    event.sequencerEpoch event.signedObjectHash result
  persistNextA9Tx event now
  exec fun db => db.updateAuthority event.installationBindingID fun a =>
    { a with contiguousStreamSequence := event.streamSequence, updatedAt := now }
  noteWrite event.installationBindingID .cursorAdvanced
  pure result

/-- `applyA9ControlOnce` from the expiry check on: the row and the event are of one epoch. -/
def applyA9ControlInEpochTx (event : VerifiedControl) (authority : AuthorityRow) (now : Time) :
    VaultTx A9Result := do
  if event.Expired now then
    S.settleA9ControlTx event authority (some .artifactExpired) .uncertain .inconclusive now
  else
  let highestVersion ← query fun db =>
    db.highestVersion event.installationBindingID event.bindingID
  let tombstoneVersion ← query fun db =>
    db.highestTombstoneVersion event.installationBindingID event.bindingID
  -- A terminal denial cannot be reversed by an equal or older UPSERT.
  if event.action = .upsert ∧ event.bindingVersion ≤ tombstoneVersion then
    S.settleA9ControlTx event authority none .revoked .stale now
  else if event.streamSequence ≤ authority.contiguousStreamSequence then
    S.settleA9ControlTx event authority (some .controlRegression) .uncertain .conflict now
  else if authority.contiguousStreamSequence + 1 < event.streamSequence then
    if event.action = .revoke ∧ highestVersion < event.bindingVersion then do
      let result ← S.settleA9ControlTx event authority (some .controlGap) .uncertain .applied now
      persistA9RevokeTx event false now
      pure result
    else
      S.settleA9ControlTx event authority (some .controlGap) .uncertain .gap now
  else if event.expectedPreviousSequence ≠ authority.contiguousStreamSequence ∨
      event.expectedBindingVersion ≠ highestVersion then
    S.settleA9ControlTx event authority (some .bindingConflict) .uncertain .gap now
  else
    S.applyNextA9ControlTx event authority now

/-- `applyA9ControlOnce` from the epoch check on: no receipt answers the event. -/
def applyFirstA9ControlTx (event : VerifiedControl) (authority : AuthorityRow) (now : Time) :
    VaultTx A9Result := do
  if authority.sequencerEpoch ≠ event.sequencerEpoch then
    if event.streamSequence ≠ 1 ∨ event.expectedPreviousSequence ≠ 0 then
      S.settleA9ControlTx event authority (some .epoch) .uncertain .inconclusive now
    else if ← query fun db =>
        decide (db.EpochObserved event.installationBindingID event.sequencerEpoch) then
      S.settleA9ControlTx event authority (some .epoch) .uncertain .conflict now
    else
      resetA9EpochTx event.installationBindingID event.sequencerEpoch now
      S.applyA9ControlInEpochTx event (authority.reset event.sequencerEpoch now) now
  else
    S.applyA9ControlInEpochTx event authority now

def applyA9ControlOnce (clock : Clock) (event : VerifiedControl) : VaultTx A9Result := do
  let dbNow := clock.db
  requireA9KeysetTx dbNow event.keyset
  S.requireRetentionSafeTx clock.host
  let authority ← loadOrInsertA9AuthorityTx event.installationBindingID event.sequencerEpoch
    (if event.streamSequence = 1 then .active else .uncertain)
    (if event.streamSequence = 1 then .none else .controlGap) dbNow
  match ← S.a9ReceiptResultTx event.idempotencyKey .control event.installationBindingID
      event.sequencerEpoch event.signedObjectHash authority dbNow with
  | some replay =>
    if replay.outcome = .replay ∧ event.Expired dbNow then Tx.fail .storeUnavailable
    else pure replay
  | none => S.applyFirstA9ControlTx event authority dbNow

/-- `ApplyControl`: every failure is reported as `ErrStoreUnavailable`. -/
def applyControl (clock : Clock) (event : VerifiedControl) : VaultTx A9Result :=
  Tx.mapError (fun _ => .storeUnavailable) do
    Tx.require (S.validA9Control event) .storeUnavailable
    S.applyA9ControlOnce clock event

end Store

end NotificationServer
