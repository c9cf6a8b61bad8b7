import NotificationServer.Gate6.Lease

/-!
# The Gate-6 refresh

`Refresh` (`store.go`) and `applyGate6RefreshTx` (`a9_replace.go`), the form an
A9 replacement runs inside its own transaction.  They agree on validation, on
the policy fence of an existing row and on everything after it; they differ in
how they treat the generation and in whether an unknown row is acceptable.
-/

namespace NotificationServer

open Relational

def maxRefreshTopics : Nat := 2048
def maxHMACKeys : Nat := 3

/-- The readings of the host clock in `Refresh`: the first, and that for the markers it leaves. -/
structure RefreshClock where
  now : Time
  markedAt : Time

structure RefreshResult where
  acceptedGeneration : Nat
  activeLeaseCount : Nat
  leaseExpiresAt : Time
  deriving DecidableEq

def validateHMACKeys (keys : List HMACKey) : Prop :=
  Between 1 maxHMACKeys keys.length ∧ (∀ k ∈ keys, k.key.length = 32) ∧
  (keys.map fun k => k.thirtyDayPeriodsSinceEpoch).Nodup
  deriving Decidable

namespace Db

/-- `UPDATE installation_states SET installation_lookup, …`; leases and jobs cascade. -/
def rekeyInstallation (old new incarnation : LookupDigest) (epoch : Nat) (db : Db) : Db :=
  { db with
    installations := updateWhere (fun i => i.installationLookup = old)
      (fun i => { i with
        installationLookup := new, incarnationLookup := incarnation, lookupKeyEpoch := epoch })
      db.installations
    leases := updateWhere (fun l => l.installationLookup = old)
      (fun l => { l with installationLookup := new }) db.leases
    jobs := updateWhere (fun j => j.installationLookup = some old)
      (fun j => { j with installationLookup := some new }) db.jobs }

/-- `INSERT INTO installation_states … ON CONFLICT (installation_lookup) DO UPDATE`. -/
def upsertInstallation (i : InstallationRow) (db : Db) : Db :=
  { db with
    installations := upsert (fun i => i.installationLookup) (fun _ new => new) i db.installations }

/-- The rows `countActiveLeases` counts. -/
def activeLeaseCount (db : Db) (lookup : LookupDigest) : Nat :=
  (db.leases.filter fun l =>
    l.installationLookup = lookup ∧ (l.state = .active ∨ l.state = .suppressed)).length

end Db

namespace Store

variable (S : Store)

/-- One round of the loop of `validateRefresh`. -/
def normalizeSubscription (request : RefreshRequest) (now : Time) (sub : SubscriptionRefresh) :
    Option NormalizedSubscription := do
  let kind ← S.parseTopic sub.topic
  guard (sub.routeKey.length = 32 ∧ sub.routeKeyEpoch ≠ 0)
  -- Welcome routes are closed in this build, other kinds were never open.
  guard (kind = .groupMessagesV1 ∧ validateHMACKeys sub.hmacKeys)
  guard (sub.capability.policyEpoch = request.policyControl.policyEpoch)
  guard (S.capabilityMatchesRoute sub.capability sub.routeKey sub.topic now)
  let maxTTL := request.policyControl.agePolicy.controlTTL
  guard (S.verifyReceiveCapability sub.capability now maxTTL request.installationID
    request.accountIncarnationID ⟨sub.topic⟩)
  let issuedAt ← sub.capability.issuedAt
  let expiresAt ← sub.capability.expiresAt
  pure
    { topic := sub.topic, routeKey := sub.routeKey, routeKeyEpoch := sub.routeKeyEpoch
      hmacKeys := sub.hmacKeys, capability := sub.capability, issuedAt := issuedAt
      capExpiresAt := min expiresAt (now + maxTTL) }

/-- `validateRefresh`; every failure is `ErrRefreshInvalid`. -/
def validateRefresh (request : RefreshRequest) (now : Time) :
    Option (List NormalizedSubscription) := do
  guard (request.environment = S.environment)
  guard (Between 1 maxSafeInteger request.generation)
  guard (request.payloadSchema = .hytchPushWrapperV1)
  guard (Between 16 128 request.idempotencyKey.length)
  guard (request.apnsToken.length = 32 ∧ request.subscriptions.length ≤ maxRefreshTopics)
  guard (request.policyControl.agePolicy = .teen → S.teenConversationEnabled = true)
  guard (request.policyControl.state = .active)
  guard (S.verifyPolicyControl request.policyControl now request.installationID
    request.accountIncarnationID)
  guard (request.subscriptions.map fun sub => sub.topic).Nodup
  request.subscriptions.mapM (S.normalizeSubscription request now)

/-- The policy fence of an existing row: which refreshes it rejects as `ErrRefreshConflict`. -/
def policyConflict (request : RefreshRequest) (existing : InstallationRow) : Prop :=
  let epoch := request.policyControl.policyEpoch
  let incarnationChanged :=
    S.incarnationLookup existing.lookupKeyEpoch request.accountIncarnationID ≠
      existing.incarnationLookup
  epoch < existing.policyEpoch ∨
  (incarnationChanged ∧ epoch ≤ existing.policyEpoch) ∨
  (epoch = existing.policyEpoch ∧ existing.controlEventDigest ≠ ⟨request.policyControl⟩) ∨
  (epoch = existing.policyEpoch ∧ existing.state ≠ .active ∧ existing.state ≠ .awaitingRefresh) ∨
  existing.state = .blockedRekeyNeeded
  deriving Decidable

def apnsTokenChanged (token : Bytes) (existing : InstallationRow) : VaultTx Bool :=
  match existing.encryptedAPNSToken with
  | none => pure true
  | some stored => do
    let current ← expect (S.encryption.openValue
      (.installation existing.installationLookup .apnsToken) stored) .storeUnavailable
    pure (decide (current ≠ token))

/-- What both refreshes do to an existing row before they overwrite it: jobs built on another token
are finalized and the row moves to the lookup of the current period. -/
def prepareInstallationTx (request : RefreshRequest) (now markedAt : Time)
    (existing : InstallationRow) : VaultTx Unit := do
  let changed ← S.apnsTokenChanged request.apnsToken existing
  Tx.when (changed = true)
    (markDeliveryJobsSafetyForInstallationTx markedAt existing.installationLookup)
  let lookup := S.installationLookup (lookupEpoch now) request.installationID
  Tx.when (existing.installationLookup ≠ lookup) <|
    exec fun db => db.rekeyInstallation existing.installationLookup lookup
      (S.incarnationLookup (lookupEpoch now) request.accountIncarnationID) (lookupEpoch now)

/-- The control expiry a row gets: that of the control, at most its longest life from now. -/
def controlExpiry (control : PolicyControl) (now expiresAt : Time) : Time :=
  min expiresAt (now + control.agePolicy.controlTTL)

def installationRow (request : RefreshRequest) (now controlExpiresAt : Time) : InstallationRow :=
  let lookup := S.installationLookup (lookupEpoch now) request.installationID
  { installationLookup := lookup
    installationIdentity := S.installationDeletionIdentity request.installationID
    incarnationLookup := S.incarnationLookup (lookupEpoch now) request.accountIncarnationID
    lookupKeyEpoch := lookupEpoch now
    generation := request.generation
    idempotencyDigest := ⟨.refresh request⟩
    controlEventDigest := ⟨request.policyControl⟩
    encryptedAPNSToken :=
      some (S.encryption.sealValue (.installation lookup .apnsToken) request.apnsToken)
    agePolicy := request.policyControl.agePolicy
    policyEpoch := request.policyControl.policyEpoch
    state := .active
    encryptionKeyVersion := S.encryption.activeVersionColumn
    refreshedAt := now
    expiresAt := now + S.leaseTTL
    controlExpiresAt := controlExpiresAt
    revokedAt := none }

/-- What both refreshes do last: write the row, upsert a lease per subscription and erase the
leases of topics that are not listed any more. -/
def writeRefreshTx (request : RefreshRequest) (normalized : List NormalizedSubscription)
    (random : Bytes → LeaseDraw) (now markedAt : Time) : VaultTx Unit := do
  let expires ← expect request.policyControl.expiresAt .refreshInvalid
  let controlExpiresAt := controlExpiry request.policyControl now expires
  let row := S.installationRow request now controlExpiresAt
  exec fun db => db.upsertInstallation row
  let existing ← S.loadExistingLeases row.installationLookup
  let terms : LeaseTerms :=
    { installationID := request.installationID, installationLookup := row.installationLookup
      lookupEpoch := lookupEpoch now, generation := request.generation
      policyEpoch := request.policyControl.policyEpoch, now := now, expiresAt := now + S.leaseTTL
      controlExpiresAt := controlExpiresAt }
  Tx.forEach normalized fun sub =>
    S.upsertLease terms markedAt (random sub.topic) sub
      ((existing.find? fun e => e.topic = sub.topic).map fun e => e.lease)
  Tx.forEach (existing.filter fun e => e.topic ∉ normalized.map fun sub => sub.topic) fun e =>
    S.eraseLease now markedAt e.lease

/-- The transaction of `Refresh`.  The retention check that precedes it in a transaction of its own
makes the same reads and the same idempotent binding as the one inside. -/
def refreshTx (clock : RefreshClock) (random : Bytes → LeaseDraw) (request : RefreshRequest)
    (normalized : List NormalizedSubscription) : VaultTx RefreshResult := do
  let now := clock.now
  Tx.mapError (fun _ => .storeUnavailable) (S.requireRetentionSafeTx now)
  requireTombstoneAdvance .installation (S.installationDeletionIdentity request.installationID)
    request.policyControl.policyEpoch now
  let accepted : RefreshResult :=
    { acceptedGeneration := request.generation, activeLeaseCount := normalized.length
      leaseExpiresAt := now + S.leaseTTL }
  match ← S.findInstallation request.installationID now with
  | none =>
    S.writeRefreshTx request normalized random now clock.markedAt
    pure accepted
  | some existing =>
    if request.generation < existing.generation then Tx.fail .refreshConflict
    else if request.generation = existing.generation then
      -- An exact repetition ends here without a commit; nothing was written since the guard.
      Tx.require (existing.idempotencyDigest = ⟨.refresh request⟩) .refreshConflict
      let count ← query fun db => db.activeLeaseCount existing.installationLookup
      pure
        { acceptedGeneration := request.generation, activeLeaseCount := count
          leaseExpiresAt := existing.expiresAt }
    else
      Tx.require (¬ S.policyConflict request existing) .refreshConflict
      S.prepareInstallationTx request now clock.markedAt existing
      S.writeRefreshTx request normalized random now clock.markedAt
      pure accepted

def refresh (clock : RefreshClock) (random : Bytes → LeaseDraw) (request : RefreshRequest) :
    VaultTx RefreshResult :=
  Tx.mapError VaultError.orStoreUnavailable do
    Tx.require (S.a9Enabled = false) .storeUnavailable
    let normalized ← expect (S.validateRefresh request clock.now) .refreshInvalid
    S.refreshTx clock random request normalized

/-- The generation and policy checks of `applyGate6RefreshTx`. -/
def admitReplacementTx (clock : Clock) (request : RefreshRequest) (expectedGeneration : Nat)
    (existing : Option InstallationRow) : VaultTx Unit :=
  match existing with
  | none => Tx.require (expectedGeneration = 0) .refreshConflict
  | some row => do
    Tx.require (row.generation = expectedGeneration) .refreshConflict
    Tx.require (¬ S.policyConflict request row) .refreshConflict
    S.prepareInstallationTx request clock.db clock.host row

/-- `applyGate6RefreshTx`; returns the topic and lease of every route it leaves. -/
def applyGate6RefreshTx (clock : Clock) (random : Bytes → LeaseDraw) (request : RefreshRequest)
    (normalized : List NormalizedSubscription) (expectedGeneration : Nat) :
    VaultTx (List ExistingLease) := do
  let now := clock.db
  requireTombstoneAdvance .installation (S.installationDeletionIdentity request.installationID)
    request.policyControl.policyEpoch now
  let existing ← S.findInstallation request.installationID now
  S.admitReplacementTx clock request expectedGeneration existing
  S.writeRefreshTx request normalized random now clock.host
  S.loadExistingLeases (S.installationLookup (lookupEpoch now) request.installationID)

end Store

end NotificationServer
