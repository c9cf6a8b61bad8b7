import NotificationServer.Vault.Store

/-!
# Policy controls and receive capabilities

`VerifyPolicyControl` (`authority/control.go`) and `VerifyReceiveCapability`
(`authority/capability.go`) as conditions.  Shapes of texts, key lookup and the
Ed25519 check are the store's signature predicates; ranges, windows and the
expected identities are written out.
-/

namespace NotificationServer

/-- The longest life of Gate-6 authority, shorter for teen installations. -/
def AgePolicy.controlTTL : AgePolicy → Int
  | .adult => minute
  | .teen => 30 * second

/-- `gate8wrapper.UTCDay`, in days since the Unix epoch. -/
def utcDay (now : Time) : Int := now / day

def AuthorityWindow (ttl : Int) (now : Time) (issuedAt expiresAt : Option Time) : Prop :=
  ∃ issued ∈ issuedAt, ∃ expires ∈ expiresAt,
    now < expires ∧ 0 < expires - issued ∧ expires - issued ≤ ttl ∧ issued ≤ now + 5 * second
  deriving Decidable

namespace Store

variable (S : Store)

/-- `VerifyPolicyControl` with the options the vault passes. -/
def verifyPolicyControl (control : PolicyControl) (now : Time) (installationID : Bytes32)
    (accountIncarnationID : Bytes16) : Prop :=
  control.schemaVersion = 1 ∧ Between 1 maxSafeInteger control.policyEpoch ∧
  S.policySignatureValid control = true ∧
  AuthorityWindow control.agePolicy.controlTTL now control.issuedAt control.expiresAt ∧
  control.environment = S.environment ∧ control.installationID = installationID ∧
  control.accountIncarnationID = accountIncarnationID
  deriving Decidable

/-- `VerifyReceiveCapability` with the options `validateRefresh` passes. -/
def verifyReceiveCapability (c : ReceiveCapability) (now : Time) (maxTTL : Int)
    (installationID : Bytes32) (accountIncarnationID : Bytes16) (topicDigest : Sha256 Bytes) :
    Prop :=
  c.schemaVersion = 1 ∧ Between 1 maxSafeInteger c.policyEpoch ∧
  Between 1 maxSafeInteger c.conversationGrantVersion ∧ Between 1 maxSafeInteger c.rosterVersion ∧
  16 ≤ c.nonce.length ∧ c.nonce.length ≤ 64 ∧ S.capabilitySignatureValid c = true ∧
  AuthorityWindow maxTTL now c.issuedAt c.expiresAt ∧
  c.environment = S.environment ∧ c.installationID = installationID ∧
  c.accountIncarnationID = accountIncarnationID ∧ c.topicDigest = topicDigest
  deriving Decidable

def capabilityMatchesRoute (c : ReceiveCapability) (routeKey topic : Bytes) (now : Time) : Prop :=
  c.aliasDay = utcDay now ∧ S.deriveRouteAlias routeKey topic c.aliasDay = some c.routeAlias
  deriving Decidable

end Store

/-- `EffectivePushMode() == PushModeAlertAllowed`. -/
def ReceiveCapability.alertAllowed (c : ReceiveCapability) : Bool :=
  match c.pushMode with
  | .alertAllowed => true
  | .suppressed | .other => false

end NotificationServer
