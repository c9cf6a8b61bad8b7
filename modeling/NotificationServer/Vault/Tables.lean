import NotificationServer.Vault.Crypto

/-!
# The tables of the vault

One record type per table of migrations 00006, 00010 and 00012, restricted to
the rows of one environment.  Columns that a CHECK makes null together are one
optional record, and a GENERATED column is not repeated.  Audit timestamps that
no statement and no CHECK reads are left out.
-/

namespace NotificationServer

structure AcceptedKeysetRow where
  keyset : KeysetReceipt
  issuedAt : Time
  expiresAt : Time
  deriving DecidableEq

/-- `key_use`: 1 signs A9 artifacts, 2 signs service tokens. -/
inductive OnlineKeyUse
  | artifact
  | service
  deriving DecidableEq

structure OnlineKeyRow where
  keysetSequence : Nat
  keyUse : OnlineKeyUse
  keyID : Bytes32
  notBefore : Time
  notAfter : Time
  deriving DecidableEq

inductive CommitmentPurpose
  | roster
  | tuple
  | topic
  deriving DecidableEq

structure CommitmentKeyRow where
  keysetSequence : Nat
  purpose : CommitmentPurpose
  keyID : Bytes32
  topicKeyEpoch : Option Nat
  notBefore : Time
  notAfter : Time
  deriving DecidableEq

/-- The single row of `a9_keyset_state`; `none` is the stored `(0, NULL, NULL)`. -/
structure KeysetStateRow where
  accepted : Option (KeysetReceipt × Time)
  current : Bool
  uncertaintyReason : Nat
  refreshedAt : Time
  deriving DecidableEq

structure IdempotencyReceiptRow where
  idempotencyKey : Bytes16
  operationKind : Operation
  installationBindingID : Bytes16
  sequencerEpoch : Bytes16
  signedRequestHash : Bytes32
  resultOutcome : ResultOutcome
  resultState : ResultState
  subscriptionGeneration : Nat
  acceptedStreamSequence : Nat
  deriving DecidableEq

/-- The watermark columns shared by `a9_watermarks` and `a9_installation_authority`. -/
structure WatermarkColumns where
  watermarkSequence : Nat
  signedHash : Bytes32
  committedThrough : Nat
  status : WatermarkStatus
  uncertaintyReason : WatermarkUncertaintyReason
  issuedAt : Time
  expiresAt : Time
  signingKeyID : Bytes32
  keyset : KeysetReceipt
  deriving DecidableEq

structure WatermarkRow where
  installationBindingID : Bytes16
  sequencerEpoch : Bytes16
  columns : WatermarkColumns
  deriving DecidableEq

structure AuthorityRow where
  installationBindingID : Bytes16
  sequencerEpoch : Bytes16
  contiguousStreamSequence : Nat
  subscriptionGeneration : Nat
  state : AuthorityState
  uncertaintyReason : UncertaintyReason
  watermark : Option WatermarkColumns
  createdAt : Time
  updatedAt : Time
  deriving DecidableEq

structure Gate6BindingRow where
  installationBindingID : Bytes16
  installationIdentity : LookupDigest
  deriving DecidableEq

structure ControlEventRow where
  installationBindingID : Bytes16
  sequencerEpoch : Bytes16
  streamSequence : Nat
  expectedPreviousSequence : Nat
  bindingID : Bytes16
  bindingVersion : Nat
  expectedBindingVersion : Nat
  action : ControlAction
  assertionHash : Bytes32
  reasonCode : ControlReason
  idempotencyKey : Bytes16
  signedEventHash : Bytes32
  streamIsContiguous : Bool
  issuedAt : Time
  expiresAt : Time
  signingKeyID : Bytes32
  keyset : KeysetReceipt
  deriving DecidableEq

/-- The columns of a positive assertion that bindings and routes repeat. -/
structure AssertionReference where
  assertionHash : Bytes32
  assertionStreamSequence : Nat
  topicKeyEpoch : Nat
  topicBinding : Bytes32
  keyset : KeysetReceipt
  deriving DecidableEq

/-- `state` of `a9_bindings` with the active columns its CHECK ties to it. -/
inductive BindingState
  | active (assertion : AssertionReference)
  | revoked
  deriving DecidableEq

structure BindingRow where
  installationBindingID : Bytes16
  bindingID : Bytes16
  sequencerEpoch : Bytes16
  bindingVersion : Nat
  state : BindingState
  deriving DecidableEq

structure BindingTombstoneRow where
  installationBindingID : Bytes16
  bindingID : Bytes16
  bindingVersion : Nat
  assertionHash : Bytes32
  sequencerEpoch : Bytes16
  controlStreamSequence : Nat
  reasonCode : ControlReason
  deriving DecidableEq

/-- The columns a route shares with the delivery jobs enqueued on it. -/
structure RouteColumns where
  installationBindingID : Bytes16
  sequencerEpoch : Bytes16
  subscriptionGeneration : Nat
  bindingID : Bytes16
  bindingVersion : Nat
  assertion : AssertionReference
  routeKeyEpoch : Nat
  watermarkSequence : Nat
  deriving DecidableEq

structure RouteRow where
  leaseID : Bytes16
  installationIdentity : LookupDigest
  replacementIdempotencyKey : Bytes16
  columns : RouteColumns
  deriving DecidableEq

/-- `state` of `installation_states` and `subscription_leases`, as far as the code stores it. -/
inductive VaultState
  | active
  | suppressed
  | revoking
  | expired
  | blocked
  | blockedRekeyNeeded
  | awaitingRefresh
  deriving DecidableEq

/-- What `idempotency_digest` is a hash of: a refresh, or the control of a fence row. -/
inductive IdempotencyInput
  | refresh (request : RefreshRequest)
  | control (control : PolicyControl)
  deriving DecidableEq

structure InstallationRow where
  installationLookup : LookupDigest
  installationIdentity : LookupDigest
  incarnationLookup : LookupDigest
  lookupKeyEpoch : Nat
  generation : Nat
  idempotencyDigest : Sha256 IdempotencyInput
  controlEventDigest : Sha256 PolicyControl
  encryptedAPNSToken : Option (Sealed Bytes)
  agePolicy : AgePolicy
  policyEpoch : Nat
  state : VaultState
  encryptionKeyVersion : Int
  refreshedAt : Time
  expiresAt : Time
  controlExpiresAt : Time
  revokedAt : Option Time
  deriving DecidableEq

structure RouteKeyHistoryRow where
  routeIdentity : LookupDigest
  routeKeyEpoch : Nat
  routeKeyCommitment : LookupDigest
  updatedAt : Time
  expiresAt : Time
  deriving DecidableEq

structure LeaseRow where
  leaseID : Bytes16
  installationLookup : LookupDigest
  installationIdentity : LookupDigest
  routeIdentity : LookupDigest
  topicLookup : LookupDigest
  lookupKeyEpoch : Nat
  encryptedTopic : Sealed Bytes
  encryptedRouteKey : Sealed Bytes
  encryptedHMACKeys : Sealed (List HMACKey)
  encryptedReceiveCapability : Sealed ReceiveCapability
  alertAllowed : Bool
  state : VaultState
  generation : Nat
  policyEpoch : Nat
  routeKeyEpoch : Nat
  encryptedNonceState : Sealed NonceState
  encryptionKeyVersion : Int
  issuedAt : Time
  refreshedAt : Time
  expiresAt : Time
  controlExpiresAt : Time
  revokedAt : Option Time
  deriving DecidableEq

inductive DeletionTarget
  | installation
  | route
  deriving DecidableEq

structure DeletionTombstoneRow where
  targetKind : DeletionTarget
  targetIdentity : LookupDigest
  keyVersion : Int
  fenceEpoch : Nat
  createdAt : Time
  expiresAt : Time
  deriving DecidableEq

inductive JobState
  | pending
  | claimed
  | erasurePending
  | erasureClaimed
  | final
  deriving DecidableEq

inductive DeliveryTrafficClass
  | unknown
  | conversation
  | welcome
  deriving DecidableEq

inductive DeliveryFinalReason
  | terminalRejected
  | retryExhausted
  | ttlExpired
  | safetyInvalidated
  | materialInvalid
  deriving DecidableEq

structure DeliveryJobRow where
  jobID : Bytes16
  leaseID : Option Bytes16
  installationLookup : Option LookupDigest
  encryptedJob : Bytes
  state : JobState
  attempts : Nat
  retryExponent : Nat
  availableAt : Time
  expiresAt : Time
  createdAt : Time
  trafficClass : Option DeliveryTrafficClass
  finalReason : Option DeliveryFinalReason
  a9 : Option RouteColumns
  deriving DecidableEq

structure RetentionStateRow where
  lastStartedAt : Option Time
  lastCompletedAt : Option Time
  nextDeadlineAt : Option Time
  isSafe : Bool
  /-- `fixed_outcome` is `retentionOutcomeComplete`. -/
  outcomeComplete : Bool
  deriving DecidableEq

structure Db where
  acceptedKeysets : List AcceptedKeysetRow
  onlineKeys : List OnlineKeyRow
  commitmentKeys : List CommitmentKeyRow
  keysetState : Option KeysetStateRow
  receipts : List IdempotencyReceiptRow
  authorities : List AuthorityRow
  watermarks : List WatermarkRow
  gate6Bindings : List Gate6BindingRow
  controlEvents : List ControlEventRow
  assertions : List VerifiedAssertion
  bindings : List BindingRow
  tombstones : List BindingTombstoneRow
  routes : List RouteRow
  keyBinding : Option LookupDigest
  installations : List InstallationRow
  routeKeyHistory : List RouteKeyHistoryRow
  leases : List LeaseRow
  deletionTombstones : List DeletionTombstoneRow
  jobs : List DeliveryJobRow
  retention : RetentionStateRow

end NotificationServer
