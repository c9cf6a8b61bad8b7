import NotificationServer.A9.Current
import NotificationServer.Gate6.Retention

/-!
# Delivery jobs

The request a job carries and the checks on it (`delivery_jobs.go`), with the
clock rules of the A9 route check (`a9_current.go`, `a9trust/primitives.go`).
AES-GCM with JSON encoding and the topic binding that the trust manager
recomputes are parameters.
-/

namespace NotificationServer

def maxDeliveryAttempts : Nat := 3

/-- `SerializedDeliveryJob`, what is sealed in `encrypted_job`. -/
structure SerializedDeliveryJob where
  /-- The bytes the hexadecimal token spells; `none` if it is not hexadecimal. -/
  deviceToken : Option Bytes
  topic : Bytes
  providerTopic : Bytes
  payload : Bytes
  pushType : String
  priority : Int
  expiration : Time
  trafficClass : DeliveryTrafficClass
  policyEpoch : Nat
  routeKeyEpoch : Nat
  noncePrefix : BitVec 32
  deliverySequence : Nat
  /-- The UTC day the alias belongs to. -/
  aliasDay : Int
  routeAlias : Bytes
  welcomeAuthorizationID : Bytes
  welcomeEnvelopeDigest : Bytes
  a9 : Option A9RouteSnapshot
  eraseOnly : Bool
  deriving DecidableEq

/-- `ClaimedDeliveryJob`, as `ClaimDeliveryJobs` fills it. -/
structure ClaimedDeliveryJob where
  jobID : Bytes16
  leaseID : Bytes16
  job : SerializedDeliveryJob
  attempts : Nat
  expiresAt : Time
  deriving DecidableEq

/-- Sealing and opening of `encrypted_job` under `deliveryJobContext`, with the JSON encoding. -/
structure JobCodec where
  sealJob : Bytes16 → SerializedDeliveryJob → Bytes
  openJob : Bytes16 → Bytes → Option SerializedDeliveryJob

/-- The checks of `validateSerializedDeliveryJob` that depend on the traffic class. -/
def SerializedDeliveryJob.ClassValid (j : SerializedDeliveryJob) : Prop :=
  match j.trafficClass with
  | .conversation =>
    j.pushType = "alert" ∧ j.priority = 10 ∧ j.welcomeAuthorizationID = [] ∧
      j.welcomeEnvelopeDigest = []
  | .welcome =>
    j.pushType = "background" ∧ j.priority = 5 ∧ j.welcomeAuthorizationID.length = 16 ∧
      j.welcomeEnvelopeDigest.length = 32
  | .unknown => False

instance (j : SerializedDeliveryJob) : Decidable j.ClassValid := by
  unfold SerializedDeliveryJob.ClassValid
  cases j.trafficClass <;> infer_instance

def validateSerializedDeliveryJob (j : SerializedDeliveryJob) (now : Time) : Prop :=
  j.eraseOnly = false ∧ (∃ token ∈ j.deviceToken, token.length = 32) ∧
  Between 1 256 j.topic.length ∧ Between 1 4095 j.payload.length ∧
  Between 1 maxSafeInteger j.policyEpoch ∧ j.routeKeyEpoch ≠ 0 ∧
  j.deliverySequence ≤ maxSafeInteger ∧ j.aliasDay = utcDay now ∧ j.routeAlias.length = 16 ∧
  j.expiration ≠ zeroTime ∧ now < j.expiration ∧
  (j.providerTopic = [] ↔ j.a9 = none) ∧
  (∀ s ∈ j.a9, j.providerTopic.length = 33 ∧ j.trafficClass = .conversation ∧
    j.expiration ≤ s.assertionExpiresAt ∧ s.Valid j.routeKeyEpoch now) ∧
  j.ClassValid
  deriving Decidable

/-- `a9DeliverySnapshotRow.complete` on the columns that are not null. -/
def RouteColumns.Complete (c : RouteColumns) : Prop :=
  Between 1 maxSafeInteger c.subscriptionGeneration ∧ Between 1 maxSafeInteger c.bindingVersion ∧
  Between 1 maxSafeInteger c.assertion.assertionStreamSequence ∧
  Between 1 maxUint32 c.assertion.topicKeyEpoch ∧ Between 1 maxUint32 c.routeKeyEpoch ∧
  Between 1 maxSafeInteger c.assertion.keyset.sequence ∧
  Between 1 maxSafeInteger c.watermarkSequence
  deriving Decidable

/-- `a9DeliverySnapshotRow.complete`. -/
def SnapshotComplete (row : Option RouteColumns) : Prop := ∃ c ∈ row, c.Complete
  deriving Decidable

/-- `a9DeliverySnapshotRow.matches`. -/
def SnapshotMatches (row : Option RouteColumns) (s : A9RouteSnapshot) : Prop :=
  ∃ c ∈ row, c.Complete ∧ c = s.columns
  deriving Decidable

/-- The readings of one attempt: `s.now()` and `clock_timestamp()`, at its start and at its end. -/
structure AttemptClock where
  host : Time
  db : Time
  hostAfter : Time
  dbAfter : Time
  deriving DecidableEq

def topicPeriodSeconds : Int := 30 * 24 * 60 * 60

/-- `TopicEpoch`; the conversion to `uint32` wraps. -/
def topicEpoch (t : Time) : Nat :=
  if t / second < 0 then 0 else (t / second / topicPeriodSeconds % 2 ^ 32).toNat

def topicEpochBoundary (epoch : Nat) : Time := epoch * topicPeriodSeconds * second

def topicEpochUsable (epoch : Nat) (t : Time) (forIssuance : Bool) : Prop :=
  epoch = topicEpoch t ∨ (forIssuance = false ∧ topicEpoch t ≠ 0 ∧ epoch = topicEpoch t - 1 ∧
      t < topicEpochBoundary (topicEpoch t) + 60 * second)
  deriving Decidable

def previousTopicEpochVerificationUsable (epoch : Nat) (t assertionExpiry : Time)
    (alreadyAccepted : Bool) : Prop :=
  alreadyAccepted = true ∧ t < assertionExpiry ∧ topicEpochUsable epoch t false
  deriving Decidable

def a9TrustClockAligned (managerNow databaseNow : Time) : Prop :=
  managerNow ≠ zeroTime ∧ databaseNow ≠ zeroTime ∧
  topicEpoch managerNow = topicEpoch databaseNow ∧ utcDay managerNow = utcDay databaseNow ∧
  managerNow - databaseNow ≤ 5 * second ∧ databaseNow - managerNow ≤ 5 * second
  deriving Decidable

def a9CurrentReferenceTime (evaluationTime hostNow databaseNow : Time) : Option Time :=
  if hostNow < evaluationTime ∨ ¬ a9TrustClockAligned evaluationTime databaseNow ∨
      ¬ a9TrustClockAligned hostNow databaseNow then none
  else some (max (max databaseNow hostNow) evaluationTime)

namespace A9CurrentRouteState

/-- The step of the loop in `authorityExpiresAt`. -/
def earlier (result candidate : Time) : Time :=
  if result = zeroTime ∨ candidate < result then candidate else result

def authorityExpiresAt (r : A9CurrentRouteState) : Time :=
  [r.keysetFreshUntil, r.watermarkExpiresAt, r.assertionExpiresAt].foldl earlier r.keysetExpiresAt

end A9CurrentRouteState

/-- `a9RouteStillCurrentAt`; the reference time if the route is current. -/
def a9RouteStillCurrentAt (k : AttemptClock) (route : A9CurrentRouteState)
    (s : A9RouteSnapshot) : Option Time := do
  let reference ← a9CurrentReferenceTime k.host k.hostAfter k.dbAfter
  guard (reference < route.authorityExpiresAt)
  guard (s.topicKeyEpoch = topicEpoch reference ∨
    previousTopicEpochVerificationUsable s.topicKeyEpoch reference s.assertionExpiresAt true)
  pure reference

def a9DeliveryStillCurrent (k : AttemptClock) (jobExpiresAt gate6ExpiresAt : Time)
    (route : A9CurrentRouteState) (s : A9RouteSnapshot) : Prop :=
  ∃ reference ∈ a9RouteStillCurrentAt k route s,
    reference < jobExpiresAt ∧ reference < gate6ExpiresAt
  deriving Decidable

/-- The verdict of `TopicBindingForEpoch`. -/
inductive TopicBinding
  | eligible (binding : Bytes32)
  | inconclusive
  | ineligible
  deriving DecidableEq

structure TopicTrust where
  /-- `AcquireTopicBindingLease` succeeds for a keyset at a time. -/
  leases : Time → KeysetReceipt → Bool
  /-- `TopicBindingForEpoch` of a topic and epoch, for an assertion already accepted. -/
  bindingForEpoch : KeysetReceipt → Time → Bytes → Nat → Time → TopicBinding

structure DeliveryStore extends Store where
  welcomeEnabled : Bool
  codec : JobCodec

end NotificationServer
