import NotificationServer.Delivery.Enqueue
import NotificationServer.Lib.Transition

/-!
# Enqueueing with its dedupe and Welcome tables

`EnqueueDeliveryJob` on the tables only delivery uses: the dedupe records, the Welcome grants with
their budgets, and the global Welcome circuit.  Its checks are those of `insertJobTx`; between
them and the INSERT of the job stand the purge of expired records, the record of the source event,
and for a Welcome job the consumption of its grant and budget, all in one serializable transaction.
Before it, in transactions of their own, a call runs the retention guard and `RecoverDeliveryJobs`.
Retries after serialization failures run the same again.
-/

namespace NotificationServer

open Relational

/-- The digest of `deliverySourceEventLookup`. -/
structure SourceEventLookup where
  root : Bytes32
  leaseID : Bytes16
  trafficClass : DeliveryTrafficClass
  sourceEventID : Bytes
  deriving DecidableEq

/-- A row of `delivery_dedupes`. -/
structure DedupeRow where
  leaseID : Bytes16
  sourceEventLookup : SourceEventLookup
  trafficClass : DeliveryTrafficClass
  createdAt : Time
  expiresAt : Time
  deriving DecidableEq

/-- The primary key of `delivery_dedupes`. -/
def DedupeRow.key (d : DedupeRow) : Bytes16 × SourceEventLookup × DeliveryTrafficClass :=
  (d.leaseID, d.sourceEventLookup, d.trafficClass)

/-- A row of `welcome_authorizations`, as far as an enqueue reads it. -/
structure WelcomeAuthorizationRow where
  authorizationID : Bytes
  leaseID : Bytes16
  encryptedAuthorization : Bytes
  policyEpoch : Int
  expiresAt : Time
  consumedAt : Option Time
  deriving DecidableEq

/-- The digest a budget is found by: the hour and the destination. -/
structure WelcomeBudgetLookup where
  root : Bytes32
  environment : Environment
  epoch : Nat
  destination : Bytes
  deriving DecidableEq

/-- A row of `welcome_budgets`. -/
structure WelcomeBudgetRow where
  destinationLookup : WelcomeBudgetLookup
  minuteWindowStart : Time
  minuteCount : Nat
  hourWindowStart : Time
  hourCount : Nat
  circuitOpenUntil : Option Time
  updatedAt : Time
  expiresAt : Time
  deriving DecidableEq

/-- The tables only delivery uses; `circuitOpenUntil` is the row of `welcome_global_circuit`. -/
structure DeliveryTables where
  dedupes : List DedupeRow
  authorizations : List WelcomeAuthorizationRow
  budgets : List WelcomeBudgetRow
  circuitOpenUntil : Option Time
  deriving DecidableEq

/-- The vault in a transaction, with the tables of delivery. -/
structure DeliveryDb where
  session : Session
  tables : DeliveryTables

inductive EnqueueError
  | invalid
  | full
  | unavailable
  deriving DecidableEq

/-- `ErrDeliveryJobInvalid`, and everything else as `ErrDeliveryQueueUnavailable`. -/
def EnqueueError.ofVault : VaultError → EnqueueError
  | .deliveryJobInvalid => .invalid
  | _ => .unavailable

abbrev DeliveryTx := Tx DeliveryDb EnqueueError

def onVault {α : Type} (x : VaultTx α) : DeliveryTx α := fun d =>
  match x d.session with
  | .ok (a, s) => .ok (a, { d with session := s })
  | .error e => .error (.ofVault e)

def onTables (f : DeliveryTables → DeliveryTables) : DeliveryTx Unit := fun d =>
  .ok ((), { d with tables := f d.tables })

def welcomeMinuteLimit : Nat := 1
def welcomeHourLimit : Nat := 5
def welcomeCircuitTTL : Int := 30 * minute
def welcomeBudgetRetention : Int := hour

/-- What an enqueue takes from an opened `WelcomeAuthorizationV1`: the installation, and whether
`VerifyWelcomeAuthorization` accepts it at a time for an envelope digest and a policy epoch. -/
structure WelcomeAuthorization where
  installationID : Bytes
  verifies : Time → Bytes → Nat → Bool

/-- The server's Welcome lane: opening and decoding of `encrypted_authorization`. -/
abbrev WelcomeCodec := Bytes → Bytes → Option WelcomeAuthorization

def CircuitOpen (until_ : Option Time) (now : Time) : Prop := ∃ t ∈ until_, now < t
  deriving Decidable

/-- `now.Truncate(window)`. -/
def truncate (window now : Int) : Int := now - now % window

/-- The budget with its windows moved to `now`. -/
def WelcomeBudgetRow.rolled (now : Time) (b : WelcomeBudgetRow) : WelcomeBudgetRow :=
  { b with
    minuteWindowStart := truncate minute now
    minuteCount := if b.minuteWindowStart = truncate minute now then b.minuteCount else 0
    hourWindowStart := truncate hour now
    hourCount := if b.hourWindowStart = truncate hour now then b.hourCount else 0
    updatedAt := now
    expiresAt := now + welcomeBudgetRetention }

def WelcomeBudgetRow.first (lookup : WelcomeBudgetLookup) (now : Time) : WelcomeBudgetRow :=
  { destinationLookup := lookup, minuteWindowStart := truncate minute now, minuteCount := 1
    hourWindowStart := truncate hour now, hourCount := 1, circuitOpenUntil := none
    updatedAt := now, expiresAt := now + welcomeBudgetRetention }

namespace DeliveryStore

variable (S : DeliveryStore)

def setBudget (lookup : WelcomeBudgetLookup) (row : WelcomeBudgetRow) : DeliveryTx Unit :=
  onTables fun t =>
    { t with
      budgets := updateWhere (fun b => b.destinationLookup = lookup) (fun _ => row) t.budgets }

def consumeWelcomeBudget (destination : Bytes) (now : Time) : DeliveryTx Bool := do
  let circuit ← Tx.read fun d => d.tables.circuitOpenUntil
  if CircuitOpen circuit now then pure false
  else do
    Tx.require (0 ≤ now / second) .unavailable
    let lookup : WelcomeBudgetLookup :=
      ⟨S.lookupRoot, S.environment, (now / second / 3600).toNat, destination⟩
    match ← Tx.read fun d => d.tables.budgets.find? fun b => b.destinationLookup = lookup with
    | none => do
      onTables fun t => { t with budgets := .first lookup now :: t.budgets }
      pure true
    | some b =>
      if CircuitOpen b.circuitOpenUntil now then pure false
      else if welcomeMinuteLimit ≤ (b.rolled now).minuteCount ∨
          welcomeHourLimit ≤ (b.rolled now).hourCount then do
        onTables fun t => { t with circuitOpenUntil := some (now + welcomeCircuitTTL) }
        setBudget lookup
          { b.rolled now with circuitOpenUntil := some (now + welcomeCircuitTTL) }
        pure false
      else do
        setBudget lookup
          { b.rolled now with
            minuteCount := (b.rolled now).minuteCount + 1
            hourCount := (b.rolled now).hourCount + 1
            circuitOpenUntil := none }
        pure true

/-- `finalizeWelcomeEnqueue`: whether the job may be stored.  A caller commits a refusal. -/
def finalizeWelcomeEnqueue (codec : WelcomeCodec) (leaseID : Bytes16) (job : SerializedDeliveryJob)
    (now : Time) : DeliveryTx Bool := do
  Tx.require (S.welcomeEnabled = true ∧ job.welcomeAuthorizationID.length = 16 ∧
    job.welcomeEnvelopeDigest.length = 32) .invalid
  match ← Tx.read fun d => d.tables.authorizations.find? fun a =>
      a.authorizationID = job.welcomeAuthorizationID ∧ a.leaseID = leaseID with
  | none => pure false
  | some row =>
    if row.consumedAt.isSome ∨ row.policyEpoch ≤ 0 ∨ row.policyEpoch ≠ job.policyEpoch ∨
        row.expiresAt ≤ now then pure false
    else
      match codec row.authorizationID row.encryptedAuthorization with
      | none => Tx.fail .unavailable
      | some authorization =>
        if authorization.verifies now job.welcomeEnvelopeDigest job.policyEpoch = false then
          pure false
        else do
          onTables fun t =>
            { t with
              authorizations := updateWhere
                (fun a => a.authorizationID = row.authorizationID ∧ a.leaseID = leaseID ∧
                  a.consumedAt = none)
                (fun a => { a with consumedAt := some now }) t.authorizations }
          S.consumeWelcomeBudget authorization.installationID now

/-- The guard of a server without A9, or the route check of one with A9. -/
def enqueueGuardTx (trust : TopicTrust) (k : AttemptClock) (checkedAgainAt : Time)
    (r : EnqueueRequest) : VaultTx (Option (A9RouteSnapshot × A9CurrentRouteState)) :=
  match r.job.a9 with
  | none => do
    Tx.mapError (fun _ => .deliveryQueueUnavailable) (S.requireRetentionSafeTx checkedAgainAt)
    pure none
  | some snapshot => do
    let route ← S.enqueueRouteTx trust k r snapshot
    pure (some (snapshot, route))

/-- The checks on the authority of the job: its expiry and that of the authority row. -/
def admitJobTx (k : AttemptClock) (r : EnqueueRequest)
    (route : Option (A9RouteSnapshot × A9CurrentRouteState)) : VaultTx (Time × Time) := do
  Tx.require (r.job.trafficClass = .welcome → S.welcomeEnabled = true) .deliveryQueueUnavailable
  let authority ← query fun db => db.enqueueAuthority r.leaseID r.job.trafficClass.lane
  let a ← expect authority .deliveryJobInvalid
  let matching ← S.deliveryAuthorityMatches r.job a
  Tx.require (matching = true) .deliveryJobInvalid
  S.enqueueTopicTx r a route
  Tx.require (expiryReference k.host (route.map Prod.snd) <
    jobExpiry k.host r.job a (route.map Prod.snd)) .deliveryJobInvalid
  pure (jobExpiry k.host r.job a (route.map Prod.snd), a.expiresAt)

def dedupeRow (r : EnqueueRequest) (now : Time) : DedupeRow where
  leaseID := r.leaseID
  sourceEventLookup := ⟨S.lookupRoot, r.leaseID, r.job.trafficClass, r.sourceEventID⟩
  trafficClass := r.job.trafficClass
  createdAt := now
  expiresAt := now + maxDeliveryJobLifetime

/-- `DELETE FROM delivery_dedupes WHERE expires_at <= now`. -/
def purgeDedupes (now : Time) (t : DeliveryTables) : DeliveryTables :=
  { t with dedupes := deleteWhere (fun d => d.expiresAt ≤ now) t.dedupes }

/-- `INSERT INTO delivery_dedupes … ON CONFLICT DO NOTHING`; whether a row was inserted. -/
def insertDedupe (row : DedupeRow) : DeliveryTx Bool := do
  if ← Tx.read fun d => decide (row.key ∈ d.tables.dedupes.map DedupeRow.key) then pure false
  else do
    onTables fun t => { t with dedupes := row :: t.dedupes }
    pure true

/-- The Welcome part of an enqueue; a conversation job needs no grant. -/
def consumeWelcomeTx (codec : WelcomeCodec) (r : EnqueueRequest) (now : Time) : DeliveryTx Bool :=
  if r.job.trafficClass = .welcome then S.finalizeWelcomeEnqueue codec r.leaseID r.job now
  else pure true

inductive EnqueueOutcome
  | accepted (jobID : Bytes16)
  /-- The source event is known: nil without an error. -/
  | duplicate
  /-- The Welcome grant or its budget does not allow the job: nil without an error. -/
  | suppressed
  deriving DecidableEq

/-- The serializable transaction of `enqueueDeliveryJobOnce`, evaluated at `k.host`.  It commits
when the source event is known and when a Welcome job is refused; every error rolls it back. -/
def enqueueTx (codec : WelcomeCodec) (trust : TopicTrust) (k : AttemptClock) (checkedAgainAt : Time)
    (r : EnqueueRequest) : DeliveryTx EnqueueOutcome := do
  let route ← onVault (S.enqueueGuardTx trust k checkedAgainAt r)
  let expiry ← onVault (S.admitJobTx k r route)
  onTables (purgeDedupes k.host)
  let inserted ← insertDedupe (S.dedupeRow r k.host)
  if inserted = false then pure .duplicate
  else do
    let allowed ← S.consumeWelcomeTx codec r k.host
    if allowed = false then pure .suppressed
    else do
      let stored ← onVault (S.storeJobTx k { r with seen := false } expiry.1 expiry.2 route)
      if stored = .full then Tx.fail .full else pure (.accepted r.jobID)

/-- What a call does before its transaction, in three others; a failure keeps what was committed. -/
def prepareEnqueue (k : EnqueueClock) (s : Session) : Session × Bool :=
  match S.requireRetentionSafeTx k.checkedAt s with
  | .error _ => (s, false)
  | .ok ((), s₁) =>
    match S.recoverDeliveryJobsTx k.recoveredAt k.markedAt s₁ with
    | .error _ => (s₁, false)
    | .ok ((), s₂) =>
      match Store.finalizeDeliveryMarkers s₂ with
      | .error _ => (s₂, false)
      | .ok ((), s₃) => (s₃, true)

def EnqueueArguments (now : Time) (r : EnqueueRequest) : Prop :=
  Between 1 512 r.sourceEventID.length ∧ 0 < r.maxQueued ∧
    validateSerializedDeliveryJob r.job now ∧ S.a9Enabled = r.job.a9.isSome
  deriving Decidable

/-- `enqueueDeliveryJobOnce`: the tables afterwards and the result. -/
def enqueueDeliveryJobOnce (codec : WelcomeCodec) (trust : TopicTrust) (k : EnqueueClock)
    (r : EnqueueRequest) (d : DeliveryDb) : DeliveryDb × Except EnqueueError EnqueueOutcome :=
  if ¬ S.EnqueueArguments k.attempt.host r then (d, .error .invalid)
  else
    let prepared := S.prepareEnqueue k d.session
    let d₁ : DeliveryDb := { d with session := prepared.1 }
    if prepared.2 = false then (d₁, .error .unavailable)
    else
      match S.enqueueTx codec trust k.attempt k.checkedAgainAt r d₁ with
      | .error e => (d₁, .error e)
      | .ok (outcome, d₂) => (d₂, .ok outcome)

def Deleted (before after : List LeaseRow) (leaseID : Bytes16) : Prop :=
  leaseID ∈ (before.map fun l => l.leaseID) ∧ leaseID ∉ after.map fun l => l.leaseID
  deriving Decidable

def cascade (before after : List LeaseRow) (t : DeliveryTables) : DeliveryTables :=
  { t with
    dedupes := deleteWhere (fun d => Deleted before after d.leaseID) t.dedupes
    authorizations := deleteWhere (fun a => Deleted before after a.leaseID) t.authorizations }

/-- The DELETEs of `deleteExpiredVaultRows` on the tables of delivery. -/
def purgeTables (now : Time) (t : DeliveryTables) : DeliveryTables :=
  { purgeDedupes now t with
    authorizations := deleteWhere (fun a => a.expiresAt ≤ now) t.authorizations
    budgets := deleteWhere (fun b => b.expiresAt ≤ now) t.budgets }

/-- The transaction of `Sweep`. -/
def sweepDeliveryTx (clock : SweepClock) : DeliveryTx SweepOutcome := do
  let before ← Tx.read fun d => d.session.db.leases
  let outcome ← onVault (S.sweepTx clock)
  let after ← Tx.read fun d => d.session.db.leases
  onTables (purgeTables clock.startedAt)
  onTables (cascade before after)
  pure outcome

end DeliveryStore

/-- A job that was committed, and when its call was evaluated. -/
structure AcceptedJob where
  leaseID : Bytes16
  trafficClass : DeliveryTrafficClass
  sourceEventID : Bytes
  evaluatedAt : Time
  deriving DecidableEq

def AcceptedJob.event (j : AcceptedJob) : Bytes16 × DeliveryTrafficClass × Bytes :=
  (j.leaseID, j.trafficClass, j.sourceEventID)

/-- The committed tables, the jobs that were committed, the latest first, and the evaluation time
and the start of the last enqueue and of the latest sweep that committed. -/
structure DeliveryState where
  vault : Vault
  tables : DeliveryTables
  accepted : List AcceptedJob
  enqueuedAt : Option Time
  sweptAt : Option Time

/-- Committed transactions: an enqueue, a sweep, or any other, of which the guards and
`RecoverDeliveryJobs` of a call are examples. -/
inductive DeliveryEvent
  | enqueue (trust : TopicTrust) (k : AttemptClock) (checkedAgainAt : Time) (r : EnqueueRequest)
  | sweep (clock : SweepClock)
  | vault (after : Vault)

namespace DeliveryState

def enqueued (s : DeliveryState) (r : EnqueueRequest) (now : Time)
    (outcome : DeliveryStore.EnqueueOutcome) (d : DeliveryDb) : DeliveryState where
  vault := d.session.vault
  tables := d.tables
  accepted :=
    match outcome with
    | .accepted _ => ⟨r.leaseID, r.job.trafficClass, r.sourceEventID, now⟩ :: s.accepted
    | _ => s.accepted
  enqueuedAt := some now
  sweptAt := s.sweptAt

def swept (s : DeliveryState) (startedAt : Time) (d : DeliveryDb) : DeliveryState where
  vault := d.session.vault
  tables := d.tables
  accepted := s.accepted
  enqueuedAt := s.enqueuedAt
  sweptAt := some (s.sweptAt.elim startedAt fun t => max t startedAt)

def changed (s : DeliveryState) (after : Vault) : DeliveryState :=
  { s with
    vault := after
    tables := DeliveryStore.cascade s.vault.db.leases after.db.leases s.tables }

/-- Lease ids are random: the id of a deleted lease that had a job is not drawn again. -/
def Fresh (s : DeliveryState) (after : Vault) : Prop :=
  ∀ l ∈ after.db.leases, l.leaseID ∈ (s.vault.db.leases.map fun l => l.leaseID) ∨
    ∀ j ∈ s.accepted, j.leaseID ≠ l.leaseID
  deriving Decidable

end DeliveryState

/-- The transition system of enqueues and sweeps, from any tables. -/
def DeliveryStore.deliveries (S : DeliveryStore) (codec : WelcomeCodec) :
    Machine DeliveryState DeliveryEvent where
  init s := s.accepted = [] ∧ s.enqueuedAt = none ∧ s.sweptAt = none
  step s e s' :=
    match e with
    | .enqueue trust k checkedAgainAt r => ∃ writes outcome d,
      S.enqueueTx codec trust k checkedAgainAt r ⟨⟨s.vault, writes⟩, s.tables⟩ = .ok (outcome, d) ∧
        s' = s.enqueued r k.host outcome d
    | .sweep clock => ∃ writes outcome d,
      S.sweepDeliveryTx clock ⟨⟨s.vault, writes⟩, s.tables⟩ = .ok (outcome, d) ∧
        s' = s.swept clock.startedAt d
    | .vault after => s.Fresh after ∧ s' = s.changed after

/-- Enqueues commit in the order of their evaluation times. -/
def EnqueuesOrdered (s : DeliveryState) (e : DeliveryEvent) (_ : DeliveryState) : Prop :=
  match e with
  | .enqueue _ k _ _ => ∀ t ∈ s.enqueuedAt, t ≤ k.host
  | _ => True

instance (s : DeliveryState) (e : DeliveryEvent) (s' : DeliveryState) :
    Decidable (EnqueuesOrdered s e s') := by
  cases e <;> unfold EnqueuesOrdered <;> infer_instance

/-- Enqueues commit in the order of their evaluation times, and none after a sweep that started
later than it was evaluated. -/
def SweepsOrdered (s : DeliveryState) (e : DeliveryEvent) (s' : DeliveryState) : Prop :=
  EnqueuesOrdered s e s' ∧ match e with
    | .enqueue _ k _ _ => ∀ t ∈ s.sweptAt, t ≤ k.host
    | _ => True

instance (s : DeliveryState) (e : DeliveryEvent) (s' : DeliveryState) :
    Decidable (SweepsOrdered s e s') := by
  cases e <;> unfold SweepsOrdered <;> infer_instance

end NotificationServer
