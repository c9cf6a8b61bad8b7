import NotificationServer.Vault.DeliveryJobs

/-!
# The A9 authority row, its receipts and its routes

The statements `ApplyControl`, `ApplyWatermark` and `Replace` share
(`a9_store.go`): loading and creating the authority row, the uncertainty latch,
the idempotency receipt, the epoch reset and the cancellation of routed jobs.
-/

namespace NotificationServer

open Relational

/-- `a9api.Result`. -/
structure A9Result where
  environment : Environment
  installationBindingID : Bytes16
  sequencerEpoch : Bytes16
  subscriptionGeneration : Nat
  state : ResultState
  outcome : ResultOutcome
  acceptedStreamSequence : Nat
  deriving DecidableEq

/-- The row `insertA9AuthorityTx` inserts. -/
def AuthorityRow.created (installation epoch : Bytes16) (state : AuthorityState)
    (reason : UncertaintyReason) (now : Time) : AuthorityRow :=
  { installationBindingID := installation, sequencerEpoch := epoch
    contiguousStreamSequence := 0, subscriptionGeneration := 0
    state := state, uncertaintyReason := reason, watermark := none
    createdAt := now, updatedAt := now }

/-- The columns `latchA9UncertaintyTx` sets. -/
def AuthorityRow.latched (reason : UncertaintyReason) (now : Time) (a : AuthorityRow) :
    AuthorityRow :=
  { a with state := .uncertain, uncertaintyReason := reason, watermark := none, updatedAt := now }

/-- The columns `resetA9EpochTx` sets. -/
def AuthorityRow.reset (epoch : Bytes16) (now : Time) (a : AuthorityRow) : AuthorityRow :=
  { a with
    sequencerEpoch := epoch, contiguousStreamSequence := 0
    state := .uncertain, uncertaintyReason := .epoch, watermark := none, updatedAt := now }

namespace Db

def authority (db : Db) (installation : Bytes16) : Option AuthorityRow :=
  db.authorities.find? fun a => a.installationBindingID = installation

def updateAuthority (installation : Bytes16) (f : AuthorityRow → AuthorityRow) (db : Db) : Db :=
  { db with
    authorities := updateWhere (fun a => a.installationBindingID = installation) f db.authorities }

/-- A control event, an accepted watermark or a receipt of the epoch is stored. -/
def EpochObserved (db : Db) (installation epoch : Bytes16) : Prop :=
  (∃ e ∈ db.controlEvents, e.installationBindingID = installation ∧ e.sequencerEpoch = epoch) ∨
  (∃ w ∈ db.watermarks, w.installationBindingID = installation ∧ w.sequencerEpoch = epoch) ∨
  (∃ r ∈ db.receipts, r.installationBindingID = installation ∧ r.sequencerEpoch = epoch)
  deriving Decidable

/-- The job carries a route of the installation, and of the binding if one is given. -/
def JobRouted (installation : Bytes16) (binding : Option Bytes16) (j : DeliveryJobRow) : Prop :=
  ∃ c ∈ j.a9, c.installationBindingID = installation ∧ ∀ b ∈ binding, c.bindingID = b

-- The columns are compared one by one: a search over all bindings would not end.
instance (installation : Bytes16) (binding : Option Bytes16) :
    DecidablePred (JobRouted installation binding) := fun j =>
  match binding with
  | none => decidable_of_iff (∃ c ∈ j.a9, c.installationBindingID = installation)
      (by simp [JobRouted])
  | some b => decidable_of_iff
      (∃ c ∈ j.a9, c.installationBindingID = installation ∧ c.bindingID = b)
      (by simp [JobRouted])

/-- The route is of the installation, and of the binding if one is given. -/
def RouteOf (installation : Bytes16) (binding : Option Bytes16) (r : RouteRow) : Prop :=
  r.columns.installationBindingID = installation ∧ ∀ b ∈ binding, r.columns.bindingID = b

instance (installation : Bytes16) (binding : Option Bytes16) :
    DecidablePred (RouteOf installation binding) := fun r =>
  match binding with
  | none => decidable_of_iff (r.columns.installationBindingID = installation) (by simp [RouteOf])
  | some b => decidable_of_iff
      (r.columns.installationBindingID = installation ∧ r.columns.bindingID = b)
      (by simp [RouteOf])

def deleteRoutes (installation : Bytes16) (binding : Option Bytes16) (db : Db) : Db :=
  { db with routes := deleteWhere (RouteOf installation binding) db.routes }

/-- The largest tombstoned version of a binding, 0 if there is none. -/
def highestTombstoneVersion (db : Db) (installation binding : Bytes16) : Nat :=
  ((db.tombstones.filter fun t => t.installationBindingID = installation ∧ t.bindingID = binding).map
    fun t => t.bindingVersion).foldr max 0

end Db

namespace Store

variable (S : Store)

def a9Result (installation epoch : Bytes16) (generation : Nat) (state : ResultState)
    (outcome : ResultOutcome) (sequence : Nat) : A9Result :=
  { environment := S.environment, installationBindingID := installation, sequencerEpoch := epoch
    subscriptionGeneration := generation, state := state, outcome := outcome
    acceptedStreamSequence := sequence }

def loadA9AuthorityTx (installation : Bytes16) : VaultTx (Option AuthorityRow) :=
  query fun db => db.authority installation

def insertA9AuthorityTx (installation epoch : Bytes16) (state : AuthorityState)
    (reason : UncertaintyReason) (now : Time) : VaultTx Unit := do
  exec fun db =>
    { db with authorities := .created installation epoch state reason now :: db.authorities }
  noteWrite installation (.created state reason)

/-- Loads the authority row, or creates it as each of the three operations does. -/
def loadOrInsertA9AuthorityTx (installation epoch : Bytes16) (state : AuthorityState)
    (reason : UncertaintyReason) (now : Time) : VaultTx AuthorityRow := do
  match ← loadA9AuthorityTx installation with
  | some a => pure a
  | none =>
    insertA9AuthorityTx installation epoch state reason now
    pure (.created installation epoch state reason now)

/-- `latchA9UncertaintyTx`; it fails unless exactly one row is updated. -/
def latchA9UncertaintyTx (installation : Bytes16) (reason : UncertaintyReason) (now : Time) :
    VaultTx Unit := do
  exec fun db => db.updateAuthority installation (.latched reason now)
  let affected ← query fun db =>
    (db.authorities.filter fun a => a.installationBindingID = installation).length
  Tx.require (affected = 1) .storeUnavailable
  noteWrite installation (.latched reason)

def latchIfTx (installation : Bytes16) (reason : Option UncertaintyReason) (now : Time) :
    VaultTx Unit :=
  match reason with
  | some r => latchA9UncertaintyTx installation r now
  | none => pure ()

def insertA9ReceiptTx (idempotencyKey : Bytes16) (operation : Operation)
    (installation epoch : Bytes16) (hash : Bytes32) (result : A9Result) : VaultTx Unit :=
  exec fun db =>
    { db with
      receipts :=
        { idempotencyKey := idempotencyKey, operationKind := operation
          installationBindingID := installation, sequencerEpoch := epoch
          signedRequestHash := hash, resultOutcome := result.outcome, resultState := result.state
          subscriptionGeneration := result.subscriptionGeneration
          acceptedStreamSequence := result.acceptedStreamSequence } :: db.receipts }

/-- `a9ReceiptResultTx`: an exact repetition replays the stored result, any other use of a stored
key latches the installation. -/
def a9ReceiptResultTx (idempotencyKey : Bytes16) (operation : Operation)
    (installation epoch : Bytes16) (hash : Bytes32) (authority : AuthorityRow) (now : Time) :
    VaultTx (Option A9Result) := do
  match ← query fun db => db.receipts.find? fun r => r.idempotencyKey = idempotencyKey with
  | none => pure none
  | some receipt =>
    if receipt.operationKind = operation ∧ receipt.installationBindingID = installation ∧
        receipt.sequencerEpoch = epoch ∧ receipt.signedRequestHash = hash then
      pure (some (S.a9Result installation epoch receipt.subscriptionGeneration receipt.resultState
        .replay receipt.acceptedStreamSequence))
    else do
      latchA9UncertaintyTx installation .idempotency now
      pure (some (S.a9Result installation epoch authority.subscriptionGeneration .uncertain
        .conflict authority.contiguousStreamSequence))

/-- `cancelA9RoutesTx`; its row locks have no effect in a serial model. -/
def cancelA9RoutesTx (installation : Bytes16) (binding : Option Bytes16) (now : Time) :
    VaultTx Unit := do
  Tx.require (now ≠ zeroTime) .storeUnavailable
  exec fun db =>
    db.finalizeJobs (Db.JobRouted installation binding) now fun _ => .safetyInvalidated

def resetA9EpochTx (installation epoch : Bytes16) (now : Time) : VaultTx Unit := do
  cancelA9RoutesTx installation none now
  exec fun db => db.deleteRoutes installation none
  exec fun db =>
    { db with
      bindings := deleteWhere (fun b => b.installationBindingID = installation) db.bindings }
  exec fun db => db.updateAuthority installation (.reset epoch now)
  noteWrite installation (.reset epoch)

end Store

end NotificationServer
