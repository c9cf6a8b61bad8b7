import NotificationServer.Delivery.Queue

/-!
# Enqueueing

`EnqueueDeliveryJob` (`delivery_jobs.go`).  The dedupe table is one flag, since
no other function reads it.  A Welcome job never passes the authority query,
because no lease is a Welcome lease, so what follows it for Welcome jobs is left
out, with the observations and the retries after serialization failures.
-/

namespace NotificationServer

open Relational

def maxDeliveryJobLifetime : Int := 15 * minute

/-- The rows the authority query of `EnqueueDeliveryJob` joins; expiry is checked later. -/
def Db.enqueueAuthority (db : Db) (leaseID : Bytes16) (lane : Lane) : Option DeliveryAuthority := do
  let lease ← db.leases.find? fun l => l.leaseID = leaseID
  let installation ← db.installations.find? fun i => i.installationLookup = lease.installationLookup
  let encryptedToken ← installation.encryptedAPNSToken
  guard (installation.state = .active ∧ installation.policyEpoch = lease.policyEpoch ∧
    lease.topicKind = lane.topicKind ∧ lease.alertAllowed = lane.alertAllowed ∧
    lease.state = lane.leaseState)
  pure { lease := lease, installation := installation, encryptedToken := encryptedToken }

/-- The readings of one call: `s.now()` where the job is checked, the pair of the A9 checks, and
those of the retention guards and of `RecoverDeliveryJobs`. -/
structure EnqueueClock where
  attempt : AttemptClock
  checkedAt : Time
  recoveredAt : Time
  markedAt : Time
  checkedAgainAt : Time

inductive EnqueueResult
  | accepted (jobID : Bytes16)
  /-- The source event is known: nil without an error. -/
  | duplicate
  /-- `ErrDeliveryQueueFull`. -/
  | full
  deriving DecidableEq

/-- The arguments of a call, with the id drawn for the job and whether the dedupe table has the
source event. -/
structure EnqueueRequest where
  leaseID : Bytes16
  job : SerializedDeliveryJob
  sourceEventID : Bytes
  maxQueued : Int
  jobID : Bytes16
  seen : Bool

namespace DeliveryStore

variable (S : DeliveryStore)

def pendingRow (now : Time) (r : EnqueueRequest) (expiresAt : Time) : DeliveryJobRow :=
  { jobID := r.jobID, leaseID := some r.leaseID, installationLookup := none
    encryptedJob := S.codec.sealJob r.jobID { r.job with expiration := expiresAt }
    state := .pending, attempts := 0, retryExponent := 0, availableAt := now
    expiresAt := expiresAt, createdAt := now, trafficClass := some r.job.trafficClass
    finalReason := none, a9 := r.job.a9.map fun s => s.columns }

def enqueueRouteTx (trust : TopicTrust) (k : AttemptClock) (r : EnqueueRequest)
    (s : A9RouteSnapshot) : VaultTx A9CurrentRouteState := do
  Tx.require (trust.leases k.host s.keyset = true) .deliveryQueueUnavailable
  let current ← Tx.mapError (fun _ => .deliveryQueueUnavailable)
    (S.requireA9CurrentRouteTx ⟨k.host, k.db⟩ r.leaseID s)
  let route ← expect current .deliveryJobInvalid
  Tx.require (a9TrustClockAligned k.host route.databaseNow) .deliveryQueueUnavailable
  Tx.require (trust.bindingForEpoch s.keyset k.host r.job.providerTopic s.topicKeyEpoch
    s.assertionExpiresAt = .eligible s.topicBinding) .deliveryJobInvalid
  pure route

def enqueueTopicTx (r : EnqueueRequest) (a : DeliveryAuthority) :
    Option (A9RouteSnapshot × A9CurrentRouteState) → VaultTx Unit
  | none => pure ()
  | some (_, route) => do
    Tx.require (a.lease.installationIdentity = route.installationIdentity) .deliveryJobInvalid
    let topic ← expect (S.encryption.openValue (.lease r.leaseID .topic) a.lease.encryptedTopic)
      .deliveryQueueUnavailable
    Tx.require (topic = r.job.providerTopic) .deliveryJobInvalid

/-- The expiry of the job: what it asks for, the longest lifetime, and the authority. -/
def jobExpiry (now : Time) (job : SerializedDeliveryJob) (a : DeliveryAuthority)
    (route : Option A9CurrentRouteState) : Time :=
  let requested := min (min job.expiration (now + maxDeliveryJobLifetime)) a.expiresAt
  match route with
  | none => requested
  | some current => min requested current.authorityExpiresAt

def expiryReference (now : Time) (route : Option A9CurrentRouteState) : Time :=
  match route with
  | none => now
  | some current => max now current.databaseNow

/-- The route has not expired while the job was prepared. -/
def RouteStillCurrent (k : AttemptClock) (expiresAt authorityExpiresAt : Time) :
    Option (A9RouteSnapshot × A9CurrentRouteState) → Prop
  | none => True
  | some (s, route) => a9DeliveryStillCurrent k expiresAt authorityExpiresAt route s

instance (k : AttemptClock) (expiresAt authorityExpiresAt : Time)
    (route : Option (A9RouteSnapshot × A9CurrentRouteState)) :
    Decidable (RouteStillCurrent k expiresAt authorityExpiresAt route) := by
  cases route <;> unfold RouteStillCurrent <;> infer_instance

def storeJobTx (k : AttemptClock) (r : EnqueueRequest) (expiresAt authorityExpiresAt : Time)
    (route : Option (A9RouteSnapshot × A9CurrentRouteState)) : VaultTx EnqueueResult := do
  if r.seen = true then pure .duplicate
  else do
    let queued ← query fun db => db.jobs.length
    if r.maxQueued ≤ queued then pure .full
    else do
      Tx.require (RouteStillCurrent k expiresAt authorityExpiresAt route) .deliveryQueueUnavailable
      exec fun db => { db with jobs := db.jobs ++ [S.pendingRow k.host r expiresAt] }
      pure (.accepted r.jobID)

/-- The transaction of `enqueueDeliveryJobOnce`, after the route was checked. -/
def insertJobTx (k : AttemptClock) (r : EnqueueRequest)
    (route : Option (A9RouteSnapshot × A9CurrentRouteState)) : VaultTx EnqueueResult := do
  Tx.require (r.job.trafficClass = .welcome → S.welcomeEnabled = true) .deliveryQueueUnavailable
  let authority ← query fun db => db.enqueueAuthority r.leaseID r.job.trafficClass.lane
  let a ← expect authority .deliveryJobInvalid
  let matching ← S.deliveryAuthorityMatches r.job a
  Tx.require (matching = true) .deliveryJobInvalid
  S.enqueueTopicTx r a route
  Tx.require (expiryReference k.host (route.map Prod.snd) <
    jobExpiry k.host r.job a (route.map Prod.snd)) .deliveryJobInvalid
  S.storeJobTx k r (jobExpiry k.host r.job a (route.map Prod.snd)) a.expiresAt route

/-- `EnqueueDeliveryJob`; `full` is returned after a rollback. -/
def enqueueDeliveryJob (trust : TopicTrust) (k : EnqueueClock) (r : EnqueueRequest) :
    VaultTx EnqueueResult := do
  Tx.require (Between 1 512 r.sourceEventID.length ∧ 0 < r.maxQueued) .deliveryJobInvalid
  Tx.require (validateSerializedDeliveryJob r.job k.attempt.host) .deliveryJobInvalid
  Tx.require (S.a9Enabled = r.job.a9.isSome) .deliveryJobInvalid
  Tx.mapError (fun _ => .deliveryQueueUnavailable) (S.requireRetentionSafeTx k.checkedAt)
  Tx.mapError (fun _ => .deliveryQueueUnavailable) (S.recoverDeliveryJobsTx k.recoveredAt k.markedAt)
  match r.job.a9 with
  | none => do
    Tx.mapError (fun _ => .deliveryQueueUnavailable) (S.requireRetentionSafeTx k.checkedAgainAt)
    S.insertJobTx k.attempt r none
  | some s => do
    let route ← S.enqueueRouteTx trust k.attempt r s
    S.insertJobTx k.attempt r (some (s, route))

end DeliveryStore

end NotificationServer
