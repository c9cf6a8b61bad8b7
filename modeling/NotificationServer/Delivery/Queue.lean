import NotificationServer.Delivery.Attempt

/-!
# The queue transactions

Claiming, recovering, finalizing, releasing and completing jobs
(`delivery_jobs.go`).  `FinalizeDeliveryJob` and `ReleaseDeliveryJob` know a job
by its id alone.  `markedAt` is the host clock that markers carry, and the
aggregates of `completeDeliveryFinalizationTx` are left out.
-/

namespace NotificationServer

open Relational

namespace DeliveryStore

variable (S : DeliveryStore)

/-- The traffic class a marker keeps: the column, else the class the sealed job names. -/
def finalTrafficClass (j : DeliveryJobRow) : DeliveryTrafficClass :=
  match j.trafficClass with
  | some .conversation => .conversation
  | some .welcome => .welcome
  | _ => ((S.codec.openJob j.jobID j.encryptedJob).map fun job => job.trafficClass).getD .unknown

/-- A job of unknown class is malformed unless it was finalized for safety. -/
def finalReason (trafficClass : DeliveryTrafficClass) (reason : DeliveryFinalReason) :
    DeliveryFinalReason :=
  if trafficClass = .unknown ∧ reason ≠ .safetyInvalidated then .materialInvalid else reason

/-- The marker `markDeliveryJobFinalTx` leaves of a row. -/
def marker (now : Time) (reason : DeliveryFinalReason) (j : DeliveryJobRow) : DeliveryJobRow :=
  { j.finalized now (finalReason (S.finalTrafficClass j) reason) with
    trafficClass := some (S.finalTrafficClass j) }

/-- `markDeliveryJobFinalTx`; whether a marker is stored afterwards. -/
def markDeliveryJobFinalTx (now : Time) (jobID : Bytes16) (reason : DeliveryFinalReason) :
    VaultTx Bool := do
  match ← query fun db => db.jobs.find? fun j => j.jobID = jobID with
  | none => pure false
  | some j =>
    if j.state = .final then pure true
    else if ¬ j.state.Live then pure false
    else do
      exec fun db =>
        { db with
          jobs := updateWhere (fun j => j.jobID = jobID ∧ j.state.Live) (S.marker now reason)
            db.jobs }
      pure true

/-- `completeDeliveryFinalizationTx`, for a stored marker. -/
def completeDeliveryFinalizationTx (jobID : Bytes16) : VaultTx Unit :=
  exec fun db =>
    { db with jobs := deleteWhere (fun j => j.jobID = jobID ∧ j.state = .final) db.jobs }

def Unrecoverable (db : Db) (now : Time) (j : DeliveryJobRow) : Prop :=
  j.state.Live ∧ (j.expiresAt ≤ now ∨ (j.state = .claimed ∧ j.availableAt ≤ now ∧
    maxDeliveryAttempts ≤ j.attempts) ∨ ¬ ∃ l ∈ db.leases, j.leaseID = some l.leaseID)
  deriving Decidable

def recoveryReason (now : Time) (j : DeliveryJobRow) : DeliveryFinalReason :=
  if maxDeliveryAttempts ≤ j.attempts then .retryExhausted
  else if j.expiresAt ≤ now then .ttlExpired
  else .safetyInvalidated

/-- The claim on the row has run out and another attempt is left. -/
def Lapsed (now : Time) (j : DeliveryJobRow) : Prop :=
  j.state = .claimed ∧ j.availableAt ≤ now ∧ j.attempts < maxDeliveryAttempts ∧ now < j.expiresAt
  deriving Decidable

def markOverdueErasureUnsafe (now : Time) : VaultTx Unit :=
  exec fun db =>
    if db.OverdueErasure now
    then { db with retention := { db.retention with isSafe := false, outcomeComplete := false } }
    else db

/-- The transaction of `RecoverDeliveryJobs`. -/
def recoverDeliveryJobsTx (now markedAt : Time) : VaultTx Unit := do
  let candidates ← query fun db => db.jobs.filter fun j => Unrecoverable db now j
  Tx.forEach candidates fun j => do
    let _ ← S.markDeliveryJobFinalTx markedAt j.jobID (recoveryReason now j)
  exec fun db =>
    { db with
      jobs := updateWhere (Lapsed now) (fun j => { j with state := .pending, availableAt := now })
        db.jobs }
  markOverdueErasureUnsafe now

def Claimable (db : Db) (now : Time) (j : DeliveryJobRow) : Prop :=
  j.state = .pending ∧ j.availableAt ≤ now ∧ now < j.expiresAt ∧ j.attempts < maxDeliveryAttempts ∧
  ∃ l ∈ db.leases, j.leaseID = some l.leaseID ∧ (l.state = .active ∨
      (l.state = .suppressed ∧ l.topicKind = .welcome ∧ l.alertAllowed = false)) ∧
    ∃ i ∈ db.installations, i.installationLookup = l.installationLookup ∧ i.state = .active
  deriving Decidable

def ClaimedBefore (a b : DeliveryJobRow) : Prop :=
  a.availableAt < b.availableAt ∨ (a.availableAt = b.availableAt ∧ a.createdAt ≤ b.createdAt)
  deriving Decidable

def claimOf (j : DeliveryJobRow) : Option ClaimedDeliveryJob := do
  let leaseID ← j.leaseID
  let job ← S.codec.openJob j.jobID j.encryptedJob
  pure
    { jobID := j.jobID, leaseID := leaseID, job := job, attempts := j.attempts + 1
      expiresAt := j.expiresAt }

/-- What a claim needs besides the mode: the job opens, is valid and agrees with its columns. -/
def MaterialValid (now : Time) (j : DeliveryJobRow) (job : SerializedDeliveryJob) : Prop :=
  validateSerializedDeliveryJob job now ∧ job.expiration = j.expiresAt ∧
  (j.a9 = none ∨ SnapshotComplete j.a9) ∧
  ((j.a9 = none ∧ job.a9 = none) ∨ ∃ s ∈ job.a9, SnapshotMatches j.a9 s) ∧
  (∀ c ∈ j.trafficClass, c = job.trafficClass)
  deriving Decidable

/-- The round of the loop in `ClaimDeliveryJobs` for one selected row. -/
def claimRowTx (now markedAt claimDeadline : Time) (j : DeliveryJobRow) :
    VaultTx (Option ClaimedDeliveryJob) := do
  match S.claimOf j with
  | none => do
    let _ ← S.markDeliveryJobFinalTx markedAt j.jobID .materialInvalid
    pure none
  | some c =>
    if ¬ MaterialValid now j c.job then do
      let _ ← S.markDeliveryJobFinalTx markedAt j.jobID .materialInvalid
      pure none
    else if ¬ (S.a9Enabled = true ↔ SnapshotComplete j.a9) then do
      let _ ← S.markDeliveryJobFinalTx markedAt j.jobID .safetyInvalidated
      pure none
    else do
      exec fun db =>
        { db with
          jobs := updateWhere (fun r => r.jobID = j.jobID ∧ r.attempts < maxDeliveryAttempts)
            (fun r =>
              { r with
                state := .claimed, availableAt := min claimDeadline r.expiresAt
                trafficClass := some c.job.trafficClass })
            db.jobs }
      pure (some c)

/-- The transaction of `ClaimDeliveryJobs`. -/
def claimDeliveryJobsTx (now markedAt : Time) (limit : Nat) (claimTTL : Int) :
    VaultTx (List ClaimedDeliveryJob) := do
  Tx.require (Between 1 128 limit ∧ second ≤ claimTTL ∧ claimTTL ≤ minute) .deliveryJobInvalid
  let rows ← query fun db =>
    ((db.jobs.filter fun j => Claimable db now j).insertionSort ClaimedBefore).take limit
  let claimed ← Tx.collect rows (S.claimRowTx now markedAt (now + claimTTL))
  pure (claimed.filterMap id)

def released (now : Time) (j : DeliveryJobRow) : DeliveryJobRow :=
  { j with
    state := if j.state = .claimed then .pending else .erasurePending
    availableAt := min j.availableAt now }

/-- The transaction of `ReleaseDeliveryJob`. -/
def releaseDeliveryJobTx (now : Time) (jobID : Bytes16) : VaultTx Unit := do
  let exhausted ← query fun db => decide (∃ j ∈ db.jobs, j.jobID = jobID ∧ j.state = .claimed ∧
    maxDeliveryAttempts ≤ j.attempts)
  Tx.when (exhausted = true) do
    let _ ← S.markDeliveryJobFinalTx now jobID .retryExhausted
  exec fun db =>
    { db with
      jobs := updateWhere
        (fun j => j.jobID = jobID ∧ (j.state = .claimed ∨ j.state = .erasureClaimed))
        (released now) db.jobs }

/-- The jobs of the installation other than `jobID` become markers
(`markDeliveryJobsSafetyForInstallationTx` with an excepted job). -/
def markOtherDeliveryJobsSafetyTx (now : Time) (lookup : LookupDigest) (jobID : Bytes16) :
    VaultTx Unit :=
  exec fun db => db.finalizeJobs (fun j => db.JobOnInstallation lookup j ∧ j.jobID ≠ jobID) now
    fun _ => .safetyInvalidated

/-- Blocks an installation and its leases, and turns the other jobs of the installation into
markers. -/
def blockInstallationTx (now : Time) (lookup : LookupDigest) (jobID : Bytes16) : VaultTx Unit := do
  exec fun db =>
    { db with
      installations := updateWhere (fun i => i.installationLookup = lookup)
        (fun i => { i with state := .blocked, revokedAt := some (i.revokedAt.getD now) })
        db.installations }
  exec fun db =>
    { db with
      leases := updateWhere (fun l => l.installationLookup = lookup)
        (fun l => { l with state := .blocked, revokedAt := some (l.revokedAt.getD now) }) db.leases }
  markOtherDeliveryJobsSafetyTx now lookup jobID
  exec fun db =>
    { db with
      jobs := deleteWhere (fun j => j.installationLookup = some lookup ∧ j.jobID ≠ jobID) db.jobs }

def erasureMarker (deviceToken : Option Bytes) (expiration : Time)
    (trafficClass : DeliveryTrafficClass) : SerializedDeliveryJob :=
  { deviceToken := deviceToken, topic := [], providerTopic := [], payload := [], pushType := ""
    priority := 0, expiration := expiration, trafficClass := trafficClass, policyEpoch := 0
    routeKeyEpoch := 0, noncePrefix := 0, deliverySequence := 0, aliasDay := 0, routeAlias := []
    welcomeAuthorizationID := [], welcomeEnvelopeDigest := [], a9 := none, eraseOnly := true }

def erasing (lookup : LookupDigest) (encrypted : Bytes) (availableAt : Time) (j : DeliveryJobRow) :
    DeliveryJobRow :=
  { j with
    leaseID := none, installationLookup := some lookup, encryptedJob := encrypted
    state := .erasurePending, attempts := 0, retryExponent := 0, availableAt := availableAt
    a9 := none }

end DeliveryStore

/-- A claimed job joined with the installation of its lease. -/
def Db.claimedInstallation (db : Db) (jobID : Bytes16) :
    Option (DeliveryJobRow × InstallationRow) := do
  let j ← db.jobs.find? fun j => j.jobID = jobID ∧ j.state = .claimed
  let leaseID ← j.leaseID
  let lease ← db.leases.find? fun l => l.leaseID = leaseID
  let installation ← db.installations.find? fun i => i.installationLookup = lease.installationLookup
  pure (j, installation)

namespace DeliveryStore

variable (S : DeliveryStore)

/-- The transaction of `ConvertInvalidTokenToErasure`; `none` if no such claim is stored or another
token is. -/
def convertInvalidTokenToErasureTx (now : Time) (jobID : Bytes16) (failedDeviceToken : Option Bytes)
    (trafficClass : DeliveryTrafficClass) (availableAt : Time) : VaultTx (Option LookupDigest) := do
  let failedToken ← expect failedDeviceToken .deliveryJobInvalid
  Tx.require (failedToken.length = 32 ∧ trafficClass ≠ .unknown) .deliveryJobInvalid
  match ← query fun db => db.claimedInstallation jobID with
  | none => pure none
  | some (j, i) => do
    let encryptedToken ← expect i.encryptedAPNSToken .deliveryQueueUnavailable
    let currentToken ← expect (S.encryption.openValue
      (.installation i.installationLookup .apnsToken) encryptedToken) .deliveryQueueUnavailable
    if currentToken ≠ failedToken then do
      let _ ← S.markDeliveryJobFinalTx now jobID .safetyInvalidated
      pure none
    else do
      blockInstallationTx now i.installationLookup jobID
      exec fun db =>
        { db with
          jobs := updateWhere (fun r => r.jobID = jobID)
            (erasing i.installationLookup (S.codec.sealJob jobID (erasureMarker failedDeviceToken
              j.expiresAt trafficClass)) availableAt)
            db.jobs }
      pure (some i.installationLookup)

inductive DeliveryAttemptOutcome
  | sent
  | transient
  | invalidToken
  | rejected
  deriving DecidableEq

structure DeliveryAttemptResult where
  outcome : DeliveryAttemptOutcome
  retryAt : Time

end DeliveryStore

def DeliveryAttemptGuard.Holds (g : DeliveryAttemptGuard) (j : DeliveryJobRow) : Prop :=
  j.jobID = g.jobID ∧ j.state = .claimed ∧ j.attempts = g.priorAttempts
  deriving Decidable

namespace DeliveryStore

variable (S : DeliveryStore)

/-- A statement on the row of a guard, which fails if it affects none. -/
def onGuardedRow (g : DeliveryAttemptGuard) (f : List DeliveryJobRow → List DeliveryJobRow) :
    VaultTx Unit := do
  let affected ← query fun db => decide (∃ j ∈ db.jobs, g.Holds j)
  exec fun db => { db with jobs := f db.jobs }
  Tx.require (affected = true) .deliveryQueueUnavailable

/-- `deliveryAttemptGuard.markFinal`. -/
def markFinalTx (g : DeliveryAttemptGuard) (now : Time) (reason : DeliveryFinalReason) :
    VaultTx Unit := do
  Tx.require (g.job.trafficClass ≠ .unknown) .deliveryQueueUnavailable
  onGuardedRow g (updateWhere g.Holds fun j =>
    { j.finalized now reason with
      attempts := g.nextAttempts, trafficClass := some g.job.trafficClass })

def convertInvalidTokenTx (g : DeliveryAttemptGuard) (now availableAt : Time) : VaultTx Unit := do
  blockInstallationTx now g.installationLookup g.jobID
  onGuardedRow g (updateWhere g.Holds (erasing g.installationLookup
    (S.codec.sealJob g.jobID
      (erasureMarker g.job.deviceToken g.job.expiration g.job.trafficClass)) availableAt))

/-- The reason a transient failure is final for, if it is. -/
def transientReason (g : DeliveryAttemptGuard) (retryAt : Time) : Option DeliveryFinalReason :=
  if maxDeliveryAttempts ≤ g.nextAttempts then some .retryExhausted
  else if retryAt = zeroTime ∨ g.job.expiration ≤ retryAt then some .ttlExpired
  else none

/-- The transaction of `deliveryAttemptGuard.Complete`. -/
def completeTx (g : DeliveryAttemptGuard) (now : Time) (result : DeliveryAttemptResult) :
    VaultTx Unit := do
  Tx.require (g.nextAttempts = g.priorAttempts + 1 ∧ Between 1 maxDeliveryAttempts g.nextAttempts)
    .deliveryJobInvalid
  match result.outcome with
  | .sent => onGuardedRow g (deleteWhere g.Holds)
  | .rejected => markFinalTx g now .terminalRejected
  | .transient =>
    match transientReason g result.retryAt with
    | some reason => markFinalTx g now reason
    | none => onGuardedRow g (updateWhere g.Holds fun j =>
        { j with state := .pending, attempts := g.nextAttempts, availableAt := result.retryAt })
  | .invalidToken => do
    Tx.require (result.retryAt ≠ zeroTime) .deliveryJobInvalid
    S.convertInvalidTokenTx g now result.retryAt

/-- The transaction of `deliveryAttemptGuard.RecordAttempt`. -/
def recordAttemptTx (g : DeliveryAttemptGuard) : VaultTx Unit := do
  Tx.require (g.nextAttempts = g.priorAttempts + 1 ∧ Between 1 maxDeliveryAttempts g.nextAttempts)
    .deliveryJobInvalid
  onGuardedRow g (updateWhere g.Holds fun j => { j with attempts := g.nextAttempts })

end DeliveryStore

end NotificationServer
