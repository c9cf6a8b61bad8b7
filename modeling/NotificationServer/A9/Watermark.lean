import NotificationServer.A9.Authority

/-!
# A9 watermarks

`ApplyWatermark` (`a9_store.go`).  Accepted watermarks are kept in an append-only
history; the authority row repeats the latest one until a latch clears it.  A
CURRENT watermark never makes a row ACTIVE by itself: after an epoch reset it
only prepares the row for the replacement that does.
-/

namespace NotificationServer

open Relational

namespace VerifiedWatermark

def columns (w : VerifiedWatermark) : WatermarkColumns :=
  { watermarkSequence := w.watermarkSequence, signedHash := w.signedObjectHash
    committedThrough := w.committedThroughStreamSequence, status := w.status
    uncertaintyReason := w.uncertaintyReason, issuedAt := w.issuedAt, expiresAt := w.expiresAt
    signingKeyID := w.signingKeyID, keyset := w.keyset }

/-- The row `appendA9WatermarkTx` inserts. -/
def row (w : VerifiedWatermark) : WatermarkRow :=
  { installationBindingID := w.installationBindingID, sequencerEpoch := w.sequencerEpoch
    columns := w.columns }

end VerifiedWatermark

namespace AuthorityRow

/-- `currentSequence`: the sequence of the row's watermark, 0 if it has none. -/
def currentWatermarkSequence (a : AuthorityRow) : Nat :=
  (a.watermark.map fun w => w.watermarkSequence).getD 0

/-- The columns a stored watermark sets; only a signed UNCERTAIN one changes the state. -/
def withWatermark (w : VerifiedWatermark) (now : Time) (a : AuthorityRow) : AuthorityRow :=
  match w.status with
  | .uncertain =>
    { a with
      state := .uncertain, uncertaintyReason := .signedWatermark
      watermark := some w.columns, updatedAt := now }
  | .current => { a with watermark := some w.columns, updatedAt := now }

end AuthorityRow

namespace Store

variable (S : Store)

def validA9Watermark (w : VerifiedWatermark) : Prop :=
  w.environment = S.environment ∧
  Between 1 maxSafeInteger w.watermarkSequence ∧
  w.committedThroughStreamSequence ≤ maxSafeInteger ∧
  Between 1 maxSafeInteger w.keyset.sequence ∧
  w.expiresAt ≠ zeroTime ∧
  w.issuedAt < w.expiresAt ∧
  w.expiresAt - w.issuedAt ≤ artifactTTL ∧
  (w.status = .current ↔ w.uncertaintyReason = .none)
  deriving Decidable

def appendA9WatermarkTx (w : VerifiedWatermark) : VaultTx Unit :=
  exec fun db => { db with watermarks := w.row :: db.watermarks }

def a9WatermarkAlreadyAcceptedTx (w : VerifiedWatermark) : VaultTx Bool := do
  match ← query fun db => db.watermarks.find? fun r => r.columns.signedHash = w.signedObjectHash with
  | none => pure false
  | some stored =>
    Tx.require (stored.key = w.row.key) .storeUnavailable
    pure true

/-- The closure `resultFor`. -/
def a9WatermarkResult (w : VerifiedWatermark) (authority : AuthorityRow) (state : ResultState)
    (outcome : ResultOutcome) : A9Result :=
  S.a9Result w.installationBindingID w.sequencerEpoch authority.subscriptionGeneration state
    outcome authority.contiguousStreamSequence

/-- The closure `latch`. -/
def latchA9WatermarkTx (w : VerifiedWatermark) (authority : AuthorityRow)
    (reason : UncertaintyReason) (outcome : ResultOutcome) (now : Time) : VaultTx A9Result := do
  latchA9UncertaintyTx w.installationBindingID reason now
  pure (S.a9WatermarkResult w authority .uncertain outcome)

/-- The end of `applyA9WatermarkOnce`: the watermark is the next one of its epoch. -/
def storeA9WatermarkTx (w : VerifiedWatermark) (authority : AuthorityRow) (now : Time) :
    VaultTx A9Result := do
  appendA9WatermarkTx w
  exec fun db => db.updateAuthority w.installationBindingID fun a =>
    { a with
      state := (authority.withWatermark w now).state
      uncertaintyReason := (authority.withWatermark w now).uncertaintyReason
      watermark := some w.columns, updatedAt := now }
  noteWrite w.installationBindingID (.watermarkStored w.status)
  if w.status = .uncertain ∨ authority.state = .uncertain then
    pure (S.a9WatermarkResult w authority .uncertain .inconclusive)
  else
    pure (S.a9WatermarkResult w authority .active .applied)

/-- `applyA9WatermarkOnce` from the replay check on. -/
def applyNewA9WatermarkTx (w : VerifiedWatermark) (authority : AuthorityRow) (now : Time) :
    VaultTx A9Result := do
  if authority.sequencerEpoch ≠ w.sequencerEpoch then
    S.latchA9WatermarkTx w authority .epoch .inconclusive now
  else if w.expiresAt ≤ now then
    S.latchA9WatermarkTx w authority .artifactExpired .inconclusive now
  else if w.watermarkSequence ≤ authority.currentWatermarkSequence then
    S.latchA9WatermarkTx w authority .watermarkRollback .conflict now
  -- The cases of a missing and of a stored watermark ask for the same successor.
  else if w.watermarkSequence ≠ authority.currentWatermarkSequence + 1 then
    S.latchA9WatermarkTx w authority .watermarkGap .gap now
  else if w.status = .current ∧
      authority.contiguousStreamSequence < w.committedThroughStreamSequence then
    S.latchA9WatermarkTx w authority .watermarkGap .gap now
  else if w.status = .current ∧ authority.state = .uncertain ∧
      authority.uncertaintyReason ≠ .epoch then
    pure (S.a9WatermarkResult w authority .uncertain .inconclusive)
  else
    S.storeA9WatermarkTx w authority now

def applyA9WatermarkOnce (clock : Clock) (w : VerifiedWatermark) : VaultTx A9Result := do
  let dbNow := clock.db
  requireA9KeysetTx dbNow w.keyset
  S.requireRetentionSafeTx clock.host
  let authority ← loadOrInsertA9AuthorityTx w.installationBindingID w.sequencerEpoch
    .uncertain .watermarkGap dbNow
  if ← a9WatermarkAlreadyAcceptedTx w then
    if w.expiresAt ≤ dbNow then Tx.fail .storeUnavailable
    else if authority.state = .uncertain then
      pure (S.a9WatermarkResult w authority .uncertain .inconclusive)
    else
      pure (S.a9WatermarkResult w authority .active .replay)
  else
    S.applyNewA9WatermarkTx w authority dbNow

def applyWatermark (clock : Clock) (w : VerifiedWatermark) : VaultTx A9Result :=
  Tx.mapError (fun _ => .storeUnavailable) do
    Tx.require (S.validA9Watermark w) .storeUnavailable
    S.applyA9WatermarkOnce clock w

end Store

end NotificationServer
