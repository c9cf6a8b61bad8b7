import NotificationServer.Delivery.Job

/-!
# Attempts

`AcquireDeliveryAttempt` (`delivery_jobs.go`) checks a claimed job against the
authority it was queued under and keeps the rows locked while the request to
APNS is made; `Complete` and `RecordAttempt` then end the transaction.
-/

namespace NotificationServer

open Relational

/-- `topic_kind` of a lease: the only INSERT writes `topicConversation`. -/
def LeaseRow.topicKind (_ : LeaseRow) : DeliveryTrafficClass := .conversation

structure Lane where
  topicKind : DeliveryTrafficClass
  alertAllowed : Bool
  leaseState : VaultState

/-- `expectedTopicKind`, `expectedPushMode` and `expectedLeaseState`. -/
def DeliveryTrafficClass.lane : DeliveryTrafficClass → Lane
  | .welcome => { topicKind := .welcome, alertAllowed := false, leaseState := .suppressed }
  | _ => { topicKind := .conversation, alertAllowed := true, leaseState := .active }

structure DeliveryAuthority where
  lease : LeaseRow
  installation : InstallationRow
  encryptedToken : Sealed Bytes

/-- `LEAST` of the four expiry columns. -/
def DeliveryAuthority.expiresAt (a : DeliveryAuthority) : Time :=
  min (min a.lease.expiresAt a.lease.controlExpiresAt)
    (min a.installation.expiresAt a.installation.controlExpiresAt)

/-- The WHERE clause of the authority query on a lease and its installation. -/
def AuthorityOpen (lane : Lane) (reference : Time) (l : LeaseRow) (i : InstallationRow) : Prop :=
  reference < l.expiresAt ∧ reference < l.controlExpiresAt ∧ reference < i.expiresAt ∧
  reference < i.controlExpiresAt ∧ i.state = .active ∧ i.policyEpoch = l.policyEpoch ∧
  l.state = lane.leaseState ∧ l.topicKind = lane.topicKind ∧ l.alertAllowed = lane.alertAllowed
  deriving Decidable

namespace Db

def deliveryAuthority (db : Db) (leaseID : Bytes16) (lane : Lane) (reference : Time) :
    Option DeliveryAuthority := do
  let lease ← db.leases.find? fun l => l.leaseID = leaseID
  let installation ← db.installations.find? fun i => i.installationLookup = lease.installationLookup
  let encryptedToken ← installation.encryptedAPNSToken
  guard (AuthorityOpen lane reference lease installation)
  pure { lease := lease, installation := installation, encryptedToken := encryptedToken }

/-- The row of a claim, while it is claimed at the attempt the claim was made for. -/
def claimedRow (db : Db) (c : ClaimedDeliveryJob) (reference : Time) : Option DeliveryJobRow :=
  db.jobs.find? fun j => j.jobID = c.jobID ∧ j.leaseID = some c.leaseID ∧ j.state = .claimed ∧
    j.attempts = c.attempts - 1 ∧ reference < j.expiresAt

end Db

structure DeliveryAttemptGuard where
  jobID : Bytes16
  leaseID : Bytes16
  job : SerializedDeliveryJob
  installationLookup : LookupDigest
  priorAttempts : Nat
  nextAttempts : Nat
  deriving DecidableEq

def ClaimedDeliveryJob.guarded (c : ClaimedDeliveryJob) (lookup : LookupDigest) :
    DeliveryAttemptGuard :=
  { jobID := c.jobID, leaseID := c.leaseID, job := c.job, installationLookup := lookup
    priorAttempts := c.attempts - 1, nextAttempts := c.attempts }

namespace DeliveryStore

variable (S : DeliveryStore)

def deliveryAuthorityMatches (job : SerializedDeliveryJob) (a : DeliveryAuthority) :
    VaultTx Bool := do
  if ¬ (0 < a.lease.policyEpoch ∧ a.lease.policyEpoch = job.policyEpoch ∧
      0 < a.lease.routeKeyEpoch ∧ a.lease.routeKeyEpoch = job.routeKeyEpoch) then
    pure false
  else do
    let currentToken ← expect (S.encryption.openValue
      (.installation a.lease.installationLookup .apnsToken) a.encryptedToken)
      .deliveryQueueUnavailable
    let jobToken ← expect job.deviceToken .deliveryJobInvalid
    if currentToken ≠ jobToken then pure false
    else do
      let nonce ← expect (S.encryption.openValue (.lease a.lease.leaseID .nonceState)
        a.lease.encryptedNonceState) .deliveryQueueUnavailable
      pure (decide (nonce.noncePrefix = job.noncePrefix ∧ job.deliverySequence < nonce.nextSequence))

/-- The age check, which both modes of `AcquireDeliveryAttempt` make on the authority row. -/
def AgeAdmitted (a : DeliveryAuthority) : Prop :=
  a.installation.agePolicy = .teen → S.teenConversationEnabled = true
  deriving Decidable

/-- `AcquireDeliveryAttempt` of a server without A9, from its first statement on. -/
def acquireGate6AttemptTx (k : AttemptClock) (c : ClaimedDeliveryJob) :
    VaultTx (Option DeliveryAttemptGuard) := do
  Tx.mapError (fun _ => .deliveryQueueUnavailable) (S.requireRetentionSafeTx k.host)
  let row ← query fun db => db.claimedRow c k.host
  let authority ← query fun db => db.deliveryAuthority c.leaseID c.job.trafficClass.lane k.host
  match row, authority with
  | some r, some a =>
    if r.a9 ≠ none ∨ ¬ S.AgeAdmitted a then pure none
    else do
      let matching ← S.deliveryAuthorityMatches c.job a
      pure (if matching = true then some (c.guarded a.lease.installationLookup) else none)
  | _, _ => pure none

/-- The part of the A9 attempt after the route and the topic binding were checked. -/
def acquireRoutedAttemptTx (k : AttemptClock) (c : ClaimedDeliveryJob) (s : A9RouteSnapshot)
    (route : A9CurrentRouteState) : VaultTx (Option DeliveryAttemptGuard) := do
  -- `a9DeliveryReferenceTime`
  let reference := max k.host route.databaseNow
  match ← query fun db => db.claimedRow c reference with
  | none => pure none
  | some r =>
    if ¬ (r.expiresAt = c.expiresAt ∧ SnapshotMatches r.a9 s) then pure none
    else
      match ← query fun db => db.deliveryAuthority c.leaseID c.job.trafficClass.lane reference with
      | none => pure none
      | some a =>
        if ¬ S.AgeAdmitted a ∨ a.lease.installationIdentity ≠ route.installationIdentity then
          pure none
        else do
          let topic ← expect (S.encryption.openValue (.lease c.leaseID .topic)
            a.lease.encryptedTopic) .deliveryQueueUnavailable
          if topic ≠ c.job.providerTopic then pure none
          else do
            let matching ← S.deliveryAuthorityMatches c.job a
            pure (if matching = true ∧ a9DeliveryStillCurrent k r.expiresAt a.expiresAt route s
              then some (c.guarded a.lease.installationLookup) else none)

/-- `AcquireDeliveryAttempt` of an A9 server, from the topic binding lease on. -/
def acquireA9AttemptTx (trust : TopicTrust) (k : AttemptClock) (c : ClaimedDeliveryJob)
    (s : A9RouteSnapshot) : VaultTx (Option DeliveryAttemptGuard) := do
  Tx.require (trust.leases k.host s.keyset = true) .deliveryQueueUnavailable
  let current ← Tx.mapError (fun _ => .deliveryQueueUnavailable)
    (S.requireA9CurrentRouteTx ⟨k.host, k.db⟩ c.leaseID s)
  match current with
  | none => pure none
  | some route => do
    Tx.require (a9TrustClockAligned k.host route.databaseNow) .deliveryQueueUnavailable
    match trust.bindingForEpoch s.keyset k.host c.job.providerTopic s.topicKeyEpoch
        s.assertionExpiresAt with
    | .inconclusive => Tx.fail .deliveryQueueUnavailable
    | .ineligible => pure none
    | .eligible binding =>
      if binding ≠ s.topicBinding then pure none
      else S.acquireRoutedAttemptTx k c s route

/-- The checks on the claim that `AcquireDeliveryAttempt` makes first. -/
def ClaimValid (now : Time) (c : ClaimedDeliveryJob) : Prop :=
  Between 1 maxDeliveryAttempts c.attempts ∧ validateSerializedDeliveryJob c.job now ∧
  c.expiresAt = c.job.expiration ∧ S.a9Enabled = c.job.a9.isSome
  deriving Decidable

/-- `AcquireDeliveryAttempt`; `none` is a refusal, which spends no attempt.  What the transaction
writes before it is granted is the lookup key binding only. -/
def acquireDeliveryAttempt (trust : TopicTrust) (k : AttemptClock) (c : ClaimedDeliveryJob) :
    VaultTx (Option DeliveryAttemptGuard) := do
  Tx.require (S.ClaimValid k.host c) .deliveryJobInvalid
  if c.job.trafficClass = .welcome ∧ S.welcomeEnabled = false then pure none
  else
    match c.job.a9 with
    | none => S.acquireGate6AttemptTx k c
    | some s => S.acquireA9AttemptTx trust k c s

end DeliveryStore

/-- The readings `a9RouteStillCurrentAt` is given: evaluation, host and database time. -/
def AttemptClock.readings (k : AttemptClock) : List Time := [k.host, k.hostAfter, k.dbAfter]

structure A9CurrentRouteState.Stored (r : A9CurrentRouteState) : Prop where
  keyset : r.keysetExpiresAt ≠ zeroTime
  fresh : r.keysetFreshUntil ≠ zeroTime
  watermark : r.watermarkExpiresAt ≠ zeroTime
  assertion : r.assertionExpiresAt ≠ zeroTime

theorem A9CurrentRouteState.earlier_eq_min {a b : Time} (ha : a ≠ zeroTime) :
    earlier a b = min a b := by
  unfold earlier
  by_cases hlt : b < a
  · rw [if_pos (.inr hlt), min_eq_right (Int.le_of_lt hlt)]
  · rw [if_neg (not_or.mpr ⟨ha, hlt⟩), min_eq_left (Int.not_lt.mp hlt)]

theorem A9CurrentRouteState.Stored.authorityExpiresAt_eq {r : A9CurrentRouteState}
    (h : r.Stored) :
    r.authorityExpiresAt = min (min (min r.keysetExpiresAt r.keysetFreshUntil)
      r.watermarkExpiresAt) r.assertionExpiresAt := by
  have hmin : ∀ {a b : Time}, a ≠ zeroTime → b ≠ zeroTime → min a b ≠ zeroTime := by
    intro a b ha hb
    rcases min_choice a b with he | he
    · rwa [he]
    · rwa [he]
  have h1 := hmin h.keyset h.fresh
  show earlier (earlier (earlier _ _) _) _ = _
  rw [earlier_eq_min h.keyset, earlier_eq_min h1, earlier_eq_min (hmin h1 h.watermark)]

/-- The reference time is no earlier than any reading, and in the topic epoch of each. -/
theorem AttemptClock.reading_of_reference {k : AttemptClock} {reference t : Time}
    (h : a9CurrentReferenceTime k.host k.hostAfter k.dbAfter = some reference)
    (ht : t ∈ k.readings) : t ≤ reference ∧ topicEpoch t = topicEpoch reference := by
  unfold a9CurrentReferenceTime at h
  split at h
  · cases h
  next hok =>
  obtain ⟨-, hhost, hafter⟩ : _ ∧ _ ∧ _ := by simpa only [not_or, not_not] using hok
  cases h
  have hmax : topicEpoch (max (max k.dbAfter k.hostAfter) k.host) = topicEpoch k.dbAfter := by
    rcases max_choice (max k.dbAfter k.hostAfter) k.host with he | he
    · rw [he]
      rcases max_choice k.dbAfter k.hostAfter with hd | hd
      · rw [hd]
      · rw [hd, hafter.2.2.1]
    · rw [he, hhost.2.2.1]
  simp only [readings, List.mem_cons, List.not_mem_nil, or_false] at ht
  rcases ht with rfl | rfl | rfl
  · exact ⟨le_max_right _ _, hhost.2.2.1.trans hmax.symm⟩
  · exact ⟨(le_max_right _ _).trans (le_max_left _ _), hafter.2.2.1.trans hmax.symm⟩
  · exact ⟨(le_max_left _ _).trans (le_max_left _ _), hmax.symm⟩

/-- Verification stays possible towards the past while the topic epoch is the same. -/
theorem topicEpochUsable_of_le {epoch : Nat} {t reference : Time}
    (h : topicEpochUsable epoch reference false) (hle : t ≤ reference)
    (he : topicEpoch t = topicEpoch reference) : topicEpochUsable epoch t false := by
  unfold topicEpochUsable at h ⊢
  rw [he]
  rcases h with h | ⟨hv, h0, hprev, hlt⟩
  · exact .inl h
  · exact .inr ⟨hv, h0, hprev, Int.lt_of_le_of_lt hle hlt⟩

theorem a9RouteStillCurrentAt_eq_some {k : AttemptClock} {route : A9CurrentRouteState}
    {s : A9RouteSnapshot} {reference : Time} (h : a9RouteStillCurrentAt k route s = some reference) :
    a9CurrentReferenceTime k.host k.hostAfter k.dbAfter = some reference ∧
      reference < route.authorityExpiresAt ∧
      topicEpochUsable s.topicKeyEpoch reference false := by
  simp only [a9RouteStillCurrentAt, Option.bind_eq_bind, Option.bind_eq_some_iff,
    Option.guard_eq_some', Option.pure_def, Option.some.injEq] at h
  obtain ⟨_, href, _, hlt, _, husable, rfl⟩ := h
  refine ⟨href, hlt, ?_⟩
  rcases husable with he | ⟨-, -, hu⟩
  · exact .inl he
  · exact hu

/-- Every reading an accepted route was judged by is before every expiry of the route, and the
route's topic key epoch is usable for verification at it; for a delivery, every reading is also
before the expiry of the job and the expiries of the lease, the installation and their controls. -/
theorem a9_current_by_every_clock (k : AttemptClock) (route : A9CurrentRouteState)
    (hr : route.Stored) (s : A9RouteSnapshot) :
    (a9RouteStillCurrentAt k route s ≠ none → ∀ t ∈ k.readings,
      t < route.keysetExpiresAt ∧ t < route.keysetFreshUntil ∧ t < route.watermarkExpiresAt ∧
      t < route.assertionExpiresAt ∧ topicEpochUsable s.topicKeyEpoch t false) ∧
    ∀ (jobExpiresAt : Time) (a : DeliveryAuthority),
      a9DeliveryStillCurrent k jobExpiresAt a.expiresAt route s →
      a9RouteStillCurrentAt k route s ≠ none ∧ ∀ t ∈ k.readings,
        t < jobExpiresAt ∧ t < a.lease.expiresAt ∧ t < a.lease.controlExpiresAt ∧
        t < a.installation.expiresAt ∧ t < a.installation.controlExpiresAt := by
  constructor
  · intro h t ht
    obtain ⟨reference, h⟩ := Option.ne_none_iff_exists'.mp h
    obtain ⟨href, hlt, hu⟩ := a9RouteStillCurrentAt_eq_some h
    obtain ⟨hle, he⟩ := AttemptClock.reading_of_reference href ht
    have hlt' := Int.lt_of_le_of_lt hle hlt
    rw [hr.authorityExpiresAt_eq] at hlt'
    simp only [lt_min_iff] at hlt'
    obtain ⟨⟨⟨hkeyset, hfresh⟩, hmark⟩, hassert⟩ := hlt'
    exact ⟨hkeyset, hfresh, hmark, hassert, topicEpochUsable_of_le hu hle he⟩
  · rintro jobExpiresAt a ⟨reference, h, hjob, hgate⟩
    refine ⟨Option.ne_none_iff_exists'.mpr ⟨reference, h⟩, fun t ht => ?_⟩
    obtain ⟨hle, -⟩ := AttemptClock.reading_of_reference (a9RouteStillCurrentAt_eq_some h).1 ht
    have hgate' := Int.lt_of_le_of_lt hle hgate
    simp only [DeliveryAuthority.expiresAt, lt_min_iff] at hgate'
    obtain ⟨⟨hlease, hctl⟩, hinst, hictl⟩ := hgate'
    exact ⟨Int.lt_of_le_of_lt hle hjob, hlease, hctl, hinst, hictl⟩

/-- Shortly after a topic epoch began, with three different readings, a route of the epoch before
is still accepted. -/
theorem a9_current_by_every_clock_sample :
    ∃ k route s, A9CurrentRouteState.Stored route ∧ a9RouteStillCurrentAt k route s ≠ none ∧
      ∀ t ∈ AttemptClock.readings k, t < route.keysetExpiresAt := by
  let start := topicEpochBoundary 3
  let route : A9CurrentRouteState :=
    { databaseNow := start, keysetExpiresAt := start + hour, keysetFreshUntil := start + hour
      watermarkExpiresAt := start + minute, assertionExpiresAt := start + minute
      installationIdentity := ⟨0, .rootBinding⟩ }
  let s : A9RouteSnapshot :=
    { installationBindingID := 9, sequencerEpoch := 70, subscriptionGeneration := 1
      bindingID := 50, bindingVersion := 1, assertionHash := 70002, assertionStreamSequence := 1
      assertionExpiresAt := start + minute, topicKeyEpoch := 2, topicBinding := 77
      routeKeyEpoch := 1, keyset := ⟨1, 0⟩, watermarkSequence := 1 }
  let k : AttemptClock :=
    { host := start + 10 * second, db := start
      hostAfter := start + 12 * second, dbAfter := start + 14 * second }
  have hr : route.Stored := ⟨by decide, by decide, by decide, by decide⟩
  have hcur : a9RouteStillCurrentAt k route s ≠ none := by decide
  exact ⟨k, route, s, hr, hcur, fun t ht => ((a9_current_by_every_clock k route hr s).1 hcur t ht).1⟩

end NotificationServer
