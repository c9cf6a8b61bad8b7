import NotificationServer.Vault.Basic

/-!
# Verified artifacts and requests

The values the vault receives: A9 control events and watermarks after their
signatures were checked, complete-replacement requests after decoding, and the
Gate-6 policy controls, receive capabilities and refresh requests.  Texts whose
canonical spelling the decoders force are kept as what they spell: an
installation id is its 32 bytes, a UUID its 16, an RFC 3339 text the time it
parses to (`none` when it does not parse).
-/

namespace NotificationServer

/-- `keyset_sequence` and `keyset_hash` of the keyset an artifact was verified under. -/
structure KeysetReceipt where
  sequence : Nat
  hash : Bytes32
  deriving DecidableEq

structure VerifiedAssertion where
  hash : Bytes32
  installationBindingID : Bytes16
  sequencerEpoch : Bytes16
  streamSequence : Nat
  bindingID : Bytes16
  bindingVersion : Nat
  leaseID : Bytes16
  tupleCommitment : Bytes32
  tupleCommitmentKeyID : Bytes32
  rosterCommitment : Bytes32
  rosterCommitmentKeyID : Bytes32
  topicBinding : Bytes32
  topicKeyEpoch : Nat
  topicCommitmentKeyID : Bytes32
  conversationGeneration : Nat
  rosterVersion : Nat
  issuedAt : Time
  expiresAt : Time
  signingKeyID : Bytes32
  keyset : KeysetReceipt
  deriving DecidableEq

structure VerifiedControl where
  environment : Environment
  idempotencyKey : Bytes16
  installationBindingID : Bytes16
  sequencerEpoch : Bytes16
  streamSequence : Nat
  expectedPreviousSequence : Nat
  bindingID : Bytes16
  bindingVersion : Nat
  expectedBindingVersion : Nat
  action : ControlAction
  assertionHash : Bytes32
  reason : ControlReason
  issuedAt : Time
  expiresAt : Time
  signingKeyID : Bytes32
  signedObjectHash : Bytes32
  keyset : KeysetReceipt
  assertion : Option VerifiedAssertion
  deriving DecidableEq

structure VerifiedWatermark where
  environment : Environment
  installationBindingID : Bytes16
  sequencerEpoch : Bytes16
  watermarkSequence : Nat
  committedThroughStreamSequence : Nat
  status : WatermarkStatus
  uncertaintyReason : WatermarkUncertaintyReason
  issuedAt : Time
  expiresAt : Time
  signingKeyID : Bytes32
  signedObjectHash : Bytes32
  keyset : KeysetReceipt
  deriving DecidableEq

/-- A SHA-256 value, idealised: two hashes are equal only if what was hashed is. -/
structure Sha256 (α : Type) where
  preimage : α
  deriving DecidableEq

inductive PolicyState
  | active
  | revoked
  deriving DecidableEq

inductive AgePolicy
  | adult
  | teen
  deriving DecidableEq

/-- `push_mode` of a capability; every unknown text is `other`. -/
inductive PushMode
  | alertAllowed
  | suppressed
  | other
  deriving DecidableEq

structure PolicyControl where
  schemaVersion : Nat
  environment : Environment
  installationID : Bytes32
  accountIncarnationID : Bytes16
  policyEpoch : Nat
  state : PolicyState
  agePolicy : AgePolicy
  issuedAt : Option Time
  expiresAt : Option Time
  signingKeyID : Bytes
  signature : Bytes
  deriving DecidableEq

structure ReceiveCapability where
  schemaVersion : Nat
  environment : Environment
  installationID : Bytes32
  accountIncarnationID : Bytes16
  topicDigest : Sha256 Bytes
  /-- The UTC day the alias was derived for, in days since the Unix epoch. -/
  aliasDay : Int
  routeAlias : Bytes16
  policyEpoch : Nat
  conversationGrantVersion : Nat
  rosterVersion : Nat
  pushMode : PushMode
  issuedAt : Option Time
  expiresAt : Option Time
  nonce : Bytes
  signingKeyID : Bytes
  signature : Bytes
  deriving DecidableEq

structure HMACKey where
  thirtyDayPeriodsSinceEpoch : Nat
  key : Bytes
  deriving DecidableEq

structure SubscriptionRefresh where
  topic : Bytes
  routeKey : Bytes
  routeKeyEpoch : Nat
  hmacKeys : List HMACKey
  capability : ReceiveCapability
  deriving DecidableEq

inductive PayloadSchema
  | hytchPushWrapperV1
  | other
  deriving DecidableEq

structure RefreshRequest where
  environment : Environment
  installationID : Bytes32
  accountIncarnationID : Bytes16
  generation : Nat
  idempotencyKey : Bytes
  apnsToken : Bytes
  payloadSchema : PayloadSchema
  subscriptions : List SubscriptionRefresh
  policyControl : PolicyControl
  deriving DecidableEq

structure ReplaceSubscription where
  bindingID : Bytes16
  bindingVersion : Nat
  assertionHash : Bytes32
  topicBinding : Bytes32
  topicKeyEpoch : Nat
  routeKeyEpoch : Nat
  topic : BitVec 264
  routeKey : Bytes32
  hmacKeys : List HMACKey
  receiveCapability : ReceiveCapability
  deriving DecidableEq

structure ReplaceRequest where
  environment : Environment
  installationBindingID : Bytes16
  sequencerEpoch : Bytes16
  subscriptionGeneration : Nat
  expectedSubscriptionGeneration : Nat
  idempotencyKey : Bytes16
  legacyInstallationID : Bytes32
  accountIncarnationID : Bytes16
  apnsToken : Bytes32
  payloadSchema : PayloadSchema
  policyControl : PolicyControl
  subscriptions : List ReplaceSubscription
  requestHash : Bytes32
  deriving DecidableEq

/-- The authority a route was published under, as a delivery job carries it. -/
structure A9RouteSnapshot where
  installationBindingID : Bytes16
  sequencerEpoch : Bytes16
  subscriptionGeneration : Nat
  bindingID : Bytes16
  bindingVersion : Nat
  assertionHash : Bytes32
  assertionStreamSequence : Nat
  assertionExpiresAt : Time
  topicKeyEpoch : Nat
  topicBinding : Bytes32
  routeKeyEpoch : Nat
  keyset : KeysetReceipt
  watermarkSequence : Nat
  deriving DecidableEq

end NotificationServer
