import NotificationServer.Vault.Session

/-!
# The store and the guards every transaction starts with

A `Store` is what `NewStore` and `NewRetentionSweeper` accept.  Signature
verification, XMTP topic parsing and the keyed alias derivation are parameters:
the model depends on which artifacts verify, not on how.
-/

namespace NotificationServer

/-- The kinds `topic.ParseTopic` distinguishes here. -/
inductive TopicKind
  | groupMessagesV1
  | welcomeMessagesV1
  | other
  deriving DecidableEq

structure Store where
  environment : Environment
  leaseTTL : Int
  encryption : Keyring
  lookupRoot : Bytes32
  teenConversationEnabled : Bool
  a9Enabled : Bool
  sweepInterval : Int
  /-- Field shapes, signing key, canonical encoding and Ed25519 signature of a policy control. -/
  policySignatureValid : PolicyControl → Bool
  /-- The same for a receive capability. -/
  capabilitySignatureValid : ReceiveCapability → Bool
  parseTopic : Bytes → Option TopicKind
  /-- `gate8wrapper.DeriveRouteAlias` on a route key, a topic and a UTC day. -/
  deriveRouteAlias : Bytes → Bytes → Int → Option Bytes16
  leaseTTL_pos : 0 < leaseTTL
  leaseTTL_le : leaseTTL ≤ maxLeaseTTL
  /-- The bounds of `NewRetentionSweeper`. -/
  sweepInterval_range : minute ≤ sweepInterval ∧ sweepInterval ≤ hour
  parseTopic_nil : parseTopic [] = none

/-- The clock readings of one call: `s.now()` and PostgreSQL's `clock_timestamp()`. -/
structure Clock where
  host : Time
  db : Time

namespace Store

variable (S : Store)

def installationLookup (epoch : Nat) (installationID : Bytes32) : LookupDigest :=
  ⟨S.lookupRoot, .installation S.environment epoch installationID⟩

def incarnationLookup (epoch : Nat) (accountIncarnationID : Bytes16) : LookupDigest :=
  ⟨S.lookupRoot, .incarnation S.environment epoch accountIncarnationID⟩

def topicLookup (epoch : Nat) (topic : Bytes) : LookupDigest :=
  ⟨S.lookupRoot, .topic S.environment epoch topic⟩

def installationDeletionIdentity (installationID : Bytes32) : LookupDigest :=
  ⟨S.lookupRoot, .installationDeletion S.environment installationID⟩

def routeHistoryIdentity (installationID : Bytes32) (topic : Bytes) : LookupDigest :=
  ⟨S.lookupRoot, .routeHistory S.environment installationID topic⟩

def routeKeyCommitment (routeKey : Bytes) : LookupDigest :=
  ⟨S.lookupRoot, .routeKeyCommitment S.environment routeKey⟩

def rootCommitment : LookupDigest := ⟨S.lookupRoot, .rootBinding⟩

/-- `requireLookupKeyBoundTx`: binds the lookup root on first use, then insists on it. -/
def requireLookupKeyBoundTx : VaultTx Unit := do
  exec fun db => { db with keyBinding := some (db.keyBinding.getD S.rootCommitment) }
  let stored ← query fun db => db.keyBinding
  Tx.require (stored = some S.rootCommitment) .lookupUnavailable

/-- `retentionHealthFromState(…).Safe`. -/
def retentionHealth (now : Time) (r : RetentionStateRow) : Prop :=
  r.isSafe = true ∧
  (∃ completed ∈ r.lastCompletedAt, ∀ started ∈ r.lastStartedAt, started ≤ completed) ∧
  (∃ deadline ∈ r.nextDeadlineAt, now < deadline) ∧
  r.outcomeComplete = true
  deriving Decidable

def requireRetentionSafeTx (now : Time) : VaultTx Unit := do
  S.requireLookupKeyBoundTx
  let retention ← query fun db => db.retention
  Tx.require (retentionHealth now retention) .retentionUnsafe

/-- The condition `requireA9KeysetTx` checks on the row of `a9_keyset_state`. -/
def keysetCurrent (dbNow : Time) (keyset : KeysetReceipt) (row : KeysetStateRow) : Prop :=
  row.current = true ∧ row.uncertaintyReason = 0 ∧
  (∃ a ∈ row.accepted, a.1 = keyset ∧ dbNow < a.2) ∧
  dbNow - 6 * hour < row.refreshedAt
  deriving Decidable

/-- `requireA9KeysetTx`; the database time it returns is `dbNow`. -/
def requireA9KeysetTx (dbNow : Time) (keyset : KeysetReceipt) : VaultTx Unit := do
  Tx.require (keyset.sequence ≠ 0 ∧ keyset.sequence ≤ maxSafeInteger) .storeUnavailable
  let row ← query fun db => db.keysetState
  let row ← expect row .database
  Tx.require (keysetCurrent dbNow keyset row) .storeUnavailable

end Store

end NotificationServer
