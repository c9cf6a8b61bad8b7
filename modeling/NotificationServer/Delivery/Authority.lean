import NotificationServer.A9.Simulation
import NotificationServer.Delivery.Workers

/-!
# When an attempt is granted

`Intact` says, without the order of the code, that nothing a job was queued
under has expired or changed: its lease, installation, token, policy epoch and,
on an A9 server, its route.  A9 also asks that the readings of the attempt lie
close together; a job is `Deliverable` if it is intact and they do.  An attempt
on a job that is still claimed as the claim says is granted only if the job is
deliverable, and refused only if it is not.
-/

namespace NotificationServer

open Relational DeliveryStore Tx

variable {S : DeliveryStore} {trust : TopicTrust} {k : AttemptClock} {c : ClaimedDeliveryJob}
  {db : Db} {s t : Session} {j : DeliveryJobRow} {leaseID : Bytes16} {snap : A9RouteSnapshot}
  {g : DeliveryAttemptGuard} {route : A9CurrentRouteState} {db' : Db}

def AttemptClock.reference (k : AttemptClock) (c : ClaimedDeliveryJob) : Time :=
  if c.job.a9.isSome then max k.host k.db else k.host

/-- The latest of the readings that `a9DeliveryStillCurrent` is given. -/
def AttemptClock.latest (k : AttemptClock) : Time := max (max k.dbAfter k.hostAfter) k.host

/-- The readings of an attempt on an A9 job are as `a9CurrentReferenceTime` asks: in order, at most
five seconds apart and on one day. -/
def AttemptClock.Aligned (k : AttemptClock) (c : ClaimedDeliveryJob) : Prop :=
  c.job.a9.isSome → (a9CurrentReferenceTime k.host k.hostAfter k.dbAfter).isSome
  deriving Decidable

/-- What `a9DeliveryStillCurrent` asks at its reference time. -/
def UnexpiredAt (reference jobExpiresAt gate6ExpiresAt : Time) (route : A9CurrentRouteState)
    (s : A9RouteSnapshot) : Prop :=
  reference < route.authorityExpiresAt ∧
  (s.topicKeyEpoch = topicEpoch reference ∨
    previousTopicEpochVerificationUsable s.topicKeyEpoch reference s.assertionExpiresAt true) ∧
  reference < jobExpiresAt ∧ reference < gate6ExpiresAt

theorem a9DeliveryStillCurrent_iff {jobExpiresAt gate6ExpiresAt : Time} :
    a9DeliveryStillCurrent k jobExpiresAt gate6ExpiresAt route snap ↔
      (a9CurrentReferenceTime k.host k.hostAfter k.dbAfter).isSome ∧
        UnexpiredAt k.latest jobExpiresAt gate6ExpiresAt route snap := by
  have href : ∀ {reference}, a9CurrentReferenceTime k.host k.hostAfter k.dbAfter = some reference →
      reference = k.latest := by
    intro reference h
    unfold a9CurrentReferenceTime at h
    split at h
    · cases h
    · exact (Option.some.inj h).symm
  simp only [a9DeliveryStillCurrent, a9RouteStillCurrentAt, Option.mem_def, Option.bind_eq_bind,
    Option.bind_eq_some_iff, Option.guard_eq_some', Option.pure_def, Option.some.injEq,
    exists_const, UnexpiredAt]
  constructor
  · rintro ⟨_, ⟨reference, hsome, hauth, hepoch, rfl⟩, hjob, hgate6⟩
    rw [hsome, ← href hsome]
    exact ⟨rfl, hauth, hepoch, hjob, hgate6⟩
  · rintro ⟨hsome, hauth, hepoch, hjob, hgate6⟩
    obtain ⟨reference, hsome⟩ := Option.isSome_iff_exists.mp hsome
    obtain rfl := href hsome
    exact ⟨_, ⟨_, hsome, hauth, hepoch, rfl⟩, hjob, hgate6⟩

/-- The value of `requireA9CurrentRouteTx`. -/
def Store.currentRoute (S : Store) (clock : Clock) (db : Db) (leaseID : Bytes16)
    (s : A9RouteSnapshot) : Option A9CurrentRouteState :=
  if ¬ (S.a9Enabled = true ∧ s.Valid s.routeKeyEpoch zeroTime) then none
  else db.keysetState.bind fun row => row.accepted.bind fun accepted =>
    if s.KeysetMatches clock.db row accepted.2
    then Store.a9CurrentRoute db leaseID s clock.db accepted.2 row.refreshedAt else none

/-- The policy epoch, the route key epoch, the token and the nonce lineage are those of the job. -/
structure DeliveryStore.AuthorityMatches (S : DeliveryStore) (job : SerializedDeliveryJob)
    (a : DeliveryAuthority) : Prop where
  policyEpoch : 0 < a.lease.policyEpoch ∧ a.lease.policyEpoch = job.policyEpoch
  routeKeyEpoch : 0 < a.lease.routeKeyEpoch ∧ a.lease.routeKeyEpoch = job.routeKeyEpoch
  token : ∃ token ∈ job.deviceToken,
    S.encryption.openValue (.installation a.lease.installationLookup .apnsToken) a.encryptedToken =
      some token
  lineage : ∃ nonce : NonceState, S.encryption.openValue (.lease a.lease.leaseID .nonceState)
    a.lease.encryptedNonceState = some nonce ∧ nonce.noncePrefix = job.noncePrefix ∧
      job.deliverySequence < nonce.nextSequence

/-- The A9 route is current and unexpired at every reading, and its topic and installation are those
of the job. -/
structure DeliveryStore.RouteMatches (S : DeliveryStore) (trust : TopicTrust) (k : AttemptClock)
    (db : Db) (c : ClaimedDeliveryJob) (s : A9RouteSnapshot) (a : DeliveryAuthority) : Prop where
  binding : trust.bindingForEpoch s.keyset k.host c.job.providerTopic s.topicKeyEpoch
    s.assertionExpiresAt = .eligible s.topicBinding
  topic : S.encryption.openValue (.lease c.leaseID .topic) a.lease.encryptedTopic =
    some c.job.providerTopic
  current : ∃ route ∈ S.currentRoute ⟨k.host, k.db⟩ db c.leaseID s,
    a.lease.installationIdentity = route.installationIdentity ∧
      UnexpiredAt k.latest c.expiresAt a.expiresAt route s

/-- Nothing the job was queued under has expired or changed. -/
def DeliveryStore.Intact (S : DeliveryStore) (trust : TopicTrust) (k : AttemptClock) (db : Db)
    (c : ClaimedDeliveryJob) : Prop :=
  k.reference c < c.expiresAt ∧
  ∃ a ∈ db.deliveryAuthority c.leaseID c.job.trafficClass.lane (k.reference c),
    S.AgeAdmitted a ∧ S.AuthorityMatches c.job a ∧ ∀ s ∈ c.job.a9, S.RouteMatches trust k db c s a

/-- The job is intact, and the readings of an A9 attempt lie close together. -/
def DeliveryStore.Deliverable (S : DeliveryStore) (trust : TopicTrust) (k : AttemptClock) (db : Db)
    (c : ClaimedDeliveryJob) : Prop :=
  S.Intact trust k db c ∧ k.Aligned c

/-- The A9 columns of a row are those of the job sealed in it. -/
def SnapshotAgrees (j : DeliveryJobRow) (job : SerializedDeliveryJob) : Prop :=
  (j.a9 = none ∧ job.a9 = none) ∨ ∃ s ∈ job.a9, SnapshotMatches j.a9 s

structure DeliveryStore.Claimed (S : DeliveryStore) (j : DeliveryJobRow) (c : ClaimedDeliveryJob) :
    Prop where
  state : j.state = .claimed
  claim : S.claimOf j = some c
  snapshot : SnapshotAgrees j c.job

theorem claimOf_eq_some (h : S.claimOf j = some c) :
    j.jobID = c.jobID ∧ j.leaseID = some c.leaseID ∧
      S.codec.openJob j.jobID j.encryptedJob = some c.job ∧ c.attempts = j.attempts + 1 ∧
      j.expiresAt = c.expiresAt := by
  simp only [claimOf, Option.bind_eq_bind, Option.bind_eq_some_iff, Option.pure_def,
    Option.some.injEq] at h
  obtain ⟨leaseID, hls, job, hopen, rfl⟩ := h
  exact ⟨rfl, hls, hopen, rfl, rfl⟩

theorem deliveryAuthorityMatches_ok {job : SerializedDeliveryJob} {a : DeliveryAuthority} {b : Bool}
    (h : S.deliveryAuthorityMatches job a s = .ok (b, t)) :
    t = s ∧ (b = true ↔ S.AuthorityMatches job a) := by
  simp only [deliveryAuthorityMatches, ite_ok, bind_ok, expect_ok, pure_ok] at h
  rcases h with ⟨hep, rfl, rfl⟩ | ⟨hep, token, _, ⟨htok, rfl⟩, jobToken, _, ⟨hjob, rfl⟩, h⟩
  · refine ⟨rfl, by simp, fun hm => absurd ?_ hep⟩
    exact ⟨hm.policyEpoch.1, hm.policyEpoch.2, hm.routeKeyEpoch⟩
  obtain ⟨hpolicy, hpoli, hrt, hrouteEq⟩ := Decidable.not_not.mp hep
  rcases h with ⟨hne, rfl, rfl⟩ | ⟨heq, nonce, _, ⟨hnonce, rfl⟩, rfl, rfl⟩
  · refine ⟨rfl, by simp, fun hm => absurd ?_ hne⟩
    obtain ⟨token', hmem, hopen⟩ := hm.token
    have hjobT : jobToken = token' := Option.mem_unique hjob hmem
    rw [hjobT]
    exact Option.mem_unique htok hopen
  · have htokens : token = jobToken := Decidable.not_not.mp heq
    refine ⟨rfl, fun hb => ?_, fun hm => ?_⟩
    · exact ⟨⟨hpolicy, hpoli⟩, ⟨hrt, hrouteEq⟩, ⟨jobToken, hjob, htokens ▸ htok⟩,
        nonce, hnonce, of_decide_eq_true hb⟩
    · obtain ⟨nonce', hopen, hlineage⟩ := hm.lineage
      obtain rfl : nonce = nonce' := Option.mem_unique hnonce hopen
      exact decide_eq_true hlineage

theorem requireA9CurrentRouteTx_value {clock : Clock} {r : Option A9CurrentRouteState}
    (h : S.toStore.requireA9CurrentRouteTx clock leaseID snap s = .ok (r, t)) :
    r = S.currentRoute clock s.db leaseID snap ∧
      t.db = { s.db with keyBinding := t.db.keyBinding } := by
  simp only [Store.requireA9CurrentRouteTx, ite_ok, bind_ok, query_ok, pure_ok] at h
  unfold Store.currentRoute
  rcases h with ⟨hval, rfl, rfl⟩ | ⟨hval, state, _, ⟨hst, rfl⟩, h⟩
  · rw [if_pos hval]
    exact ⟨rfl, rfl⟩
  rw [if_neg hval, hst]
  cases state with
  | none =>
    obtain ⟨rfl, rfl⟩ := pure_ok.mp h
    exact ⟨rfl, rfl⟩
  | some row =>
    cases hacc : row.accepted with
    | none =>
      simp only [hacc, pure_ok] at h
      obtain ⟨rfl, rfl⟩ := h
      simp [hacc]
    | some accepted =>
      simp only [hacc, ite_ok, bind_ok, query_ok, pure_ok] at h
      simp only [Option.bind_some, hacc]
      rcases h with ⟨hmat, _, s1, hsafe, hrt, rfl⟩ | ⟨hmat, rfl, rfl⟩
      · obtain ⟨-, hdb, -⟩ := Store.requireRetentionSafeTx_ok.mp hsafe
        rw [if_pos hmat, ← hrt, hdb]
        exact ⟨rfl, rfl⟩
      · rw [if_neg hmat]
        exact ⟨rfl, rfl⟩

theorem claimedRow_eq_some {reference : Time} (h : db.claimedRow c reference = some j) :
    j ∈ db.jobs ∧ j.jobID = c.jobID ∧ j.leaseID = some c.leaseID ∧ j.state = .claimed ∧
      j.attempts = c.attempts - 1 ∧ reference < j.expiresAt :=
  found h

/-- An attempt finds the row that is claimed as the claim says, unless the job has expired. -/
theorem claimedRow_of_claimed {reference : Time}
    (huniq : Unique (fun j : DeliveryJobRow => j.jobID) db.jobs) (hj : j ∈ db.jobs)
    (hc : S.Claimed j c) (href : reference < c.expiresAt) : db.claimedRow c reference = some j := by
  obtain ⟨hid, hls, -, hatt, hexp⟩ := claimOf_eq_some hc.claim
  have hfits : j.jobID = c.jobID ∧ j.leaseID = some c.leaseID ∧ j.state = .claimed ∧
      j.attempts = c.attempts - 1 ∧ reference < j.expiresAt :=
    ⟨hid, hls, hc.state, by omega, hexp ▸ href⟩
  cases hfind : db.claimedRow c reference with
  | none => exact absurd hfits (by simpa using List.find?_eq_none.mp hfind j hj)
  | some r =>
    obtain ⟨hr, hrid, -⟩ := claimedRow_eq_some hfind
    rw [huniq.eq_of_key_eq hr hj (hrid.trans hid.symm)]

theorem deliveryAuthority_lease {lane : Lane} {reference : Time} {a : DeliveryAuthority}
    (h : db.deliveryAuthority leaseID lane reference = some a) :
    (db.leases.find? fun l => l.leaseID = leaseID) = some a.lease ∧
      (db.installations.find? fun i => i.installationLookup = a.lease.installationLookup) =
        some a.installation ∧
      a.installation.encryptedAPNSToken = some a.encryptedToken ∧
      AuthorityOpen lane reference a.lease a.installation := by
  simp only [Db.deliveryAuthority, Option.bind_eq_bind, Option.bind_eq_some_iff,
    Option.guard_eq_some', exists_const, Option.pure_def, Option.some.injEq] at h
  obtain ⟨lease, hls, installation, hinst, token, htok, hopen, rfl⟩ := h
  exact ⟨hls, hinst, htok, hopen⟩

/-- What a granted attempt says about the database it was granted in. -/
structure DeliveryStore.Granted (S : DeliveryStore) (trust : TopicTrust) (k : AttemptClock)
    (db : Db) (c : ClaimedDeliveryJob) (g : DeliveryAttemptGuard) : Prop where
  deliverable : S.Deliverable trust k db c
  row : ∃ j ∈ db.jobs, j.jobID = c.jobID ∧ j.leaseID = some c.leaseID ∧ j.state = .claimed ∧
    j.attempts = c.attempts - 1
  held : ∃ lookup, g = c.guarded lookup

theorem claimValid_unexpired (h : S.ClaimValid k.host c) : k.host < c.expiresAt := by
  obtain ⟨-, hjob, hexp, -⟩ := h
  rw [hexp]
  exact hjob.2.2.2.2.2.2.2.2.2.2.1

theorem AttemptClock.reference_of_none (h : c.job.a9 = none) : k.reference c = k.host := by
  simp [AttemptClock.reference, h]

theorem AttemptClock.reference_of_some (h : c.job.a9 = some snap) :
    k.reference c = max k.host k.db := by
  simp [AttemptClock.reference, h]

theorem acquireGate6AttemptTx_granted (hmode : c.job.a9 = none) (hval : S.ClaimValid k.host c)
    (h : S.acquireGate6AttemptTx k c s = .ok (some g, t)) : S.Granted trust k s.db c g := by
  simp only [acquireGate6AttemptTx, bind_ok, mapError_ok, query_ok] at h
  obtain ⟨_, s1, hsafe, row, _, ⟨hrow, rfl⟩, authority, _, ⟨hauth, rfl⟩, h⟩ := h
  obtain ⟨-, hdb, -⟩ := Store.requireRetentionSafeTx_ok.mp hsafe
  have href : k.reference c = k.host := AttemptClock.reference_of_none hmode
  rw [hdb] at hrow hauth
  cases row with
  | none => simp at h
  | some r =>
    cases authority with
    | none => simp at h
    | some a =>
      simp only [ite_ok, bind_ok, pure_ok] at h
      rcases h with ⟨-, hnone, -⟩ | ⟨hadm, matching, _, hmatc, hg, rfl⟩
      · cases hnone
      obtain ⟨rfl, hiff⟩ := deliveryAuthorityMatches_ok hmatc
      obtain ⟨hr, hid, hls, hst, hatt, -⟩ := claimedRow_eq_some hrow
      push Not at hadm
      cases matching with
      | false => simp at hg
      | true =>
        refine ⟨⟨⟨?_, a, ?_, hadm.2, hiff.mp rfl, ?_⟩, ?_⟩, ⟨r, hr, hid, hls, hst, hatt⟩,
          _, (Option.some.inj hg).symm⟩
        · rw [href]
          exact claimValid_unexpired hval
        · rw [href]
          exact hauth
        · simp [hmode]
        · simp [AttemptClock.Aligned, hmode]

theorem acquireGate6AttemptTx_refused (hmode : c.job.a9 = none) (hj : j ∈ s.db.jobs)
    (hc : S.Claimed j c) (h : S.acquireGate6AttemptTx k c s = .ok (none, t)) :
    ¬ S.Deliverable trust k s.db c := by
  rintro ⟨⟨hunexp, a, hauth', hage, hmat, -⟩, -⟩
  simp only [acquireGate6AttemptTx, bind_ok, mapError_ok, query_ok] at h
  obtain ⟨_, s1, hsafe, row, _, ⟨hrow, rfl⟩, authority, _, ⟨hauth, rfl⟩, h⟩ := h
  obtain ⟨-, hdb, -⟩ := Store.requireRetentionSafeTx_ok.mp hsafe
  rw [AttemptClock.reference_of_none hmode] at hunexp hauth'
  have hfd := claimedRow_of_claimed s.valid.jobs.key hj hc hunexp
  rw [hdb] at hrow hauth
  obtain rfl : row = some j := hrow.symm.trans hfd
  obtain rfl : authority = some a := hauth.symm.trans hauth'
  have hnone : j.a9 = none := by
    rcases hc.snapshot with ⟨hnone, -⟩ | ⟨snap, hsnap, -⟩
    · exact hnone
    · rw [hmode] at hsnap
      cases hsnap
  simp only [ite_ok, bind_ok, pure_ok] at h
  rcases h with ⟨hor, -⟩ | ⟨-, matching, _, hmatc, hg, -⟩
  · rcases hor with hne | hteen
    · exact hne hnone
    · exact hteen hage
  · obtain ⟨-, hiff⟩ := deliveryAuthorityMatches_ok hmatc
    rw [if_pos (hiff.mpr hmat)] at hg
    cases hg

theorem acquireRoutedAttemptTx_granted (hmode : c.job.a9 = some snap)
    (hrt : S.currentRoute ⟨k.host, k.db⟩ s.db c.leaseID snap = some route)
    (hnow : route.databaseNow = k.db)
    (hbind : trust.bindingForEpoch snap.keyset k.host c.job.providerTopic snap.topicKeyEpoch
      snap.assertionExpiresAt = .eligible snap.topicBinding)
    (h : S.acquireRoutedAttemptTx k c snap route s = .ok (some g, t)) :
    S.Granted trust k s.db c g := by
  have href : k.reference c = max k.host k.db := AttemptClock.reference_of_some hmode
  simp only [acquireRoutedAttemptTx, bind_ok, query_ok, hnow] at h
  obtain ⟨row, _, ⟨hrow, rfl⟩, h⟩ := h
  cases row with
  | none => simp at h
  | some r =>
    simp only [ite_ok, bind_ok, query_ok, pure_ok] at h
    rcases h with ⟨-, hnone, -⟩ | ⟨hsnap, authority, _, ⟨hauth, rfl⟩, h⟩
    · cases hnone
    obtain ⟨hexp, hcols⟩ := Decidable.not_not.mp hsnap
    cases authority with
    | none => simp at h
    | some a =>
      simp only [ite_ok, bind_ok, expect_ok, pure_ok] at h
      rcases h with ⟨-, hnone, -⟩ | ⟨hadm, topic, _, ⟨htop, rfl⟩, h⟩
      · cases hnone
      rcases h with ⟨-, hnone, -⟩ | ⟨hsame, matching, _, hmatc, hg, rfl⟩
      · cases hnone
      obtain ⟨rfl, hiff⟩ := deliveryAuthorityMatches_ok hmatc
      obtain ⟨hr, hid, hls, hst, hatt, hlt⟩ := claimedRow_eq_some hrow
      push Not at hadm
      by_cases hcur : matching = true ∧ a9DeliveryStillCurrent k r.expiresAt a.expiresAt route snap
      · rw [if_pos hcur] at hg
        obtain ⟨haligned, hunexp⟩ := a9DeliveryStillCurrent_iff.mp hcur.2
        refine ⟨⟨⟨?_, a, ?_, hadm.1, hiff.mp hcur.1, ?_⟩, fun _ => haligned⟩,
          ⟨r, hr, hid, hls, hst, hatt⟩, _, (Option.some.inj hg).symm⟩
        · rw [href, ← hexp]
          exact hlt
        · rw [href]
          exact hauth
        · intro snap' hsnap'
          obtain rfl : snap = snap' := Option.mem_unique hmode hsnap'
          refine ⟨hbind, ?_, route, hrt, hadm.2, hexp ▸ hunexp⟩
          rw [htop, Decidable.not_not.mp hsame]
      · rw [if_neg hcur] at hg
        cases hg

theorem acquireRoutedAttemptTx_refused (hmode : c.job.a9 = some snap) (hj : j ∈ s.db.jobs)
    (hc : S.Claimed j c) (hrt : S.currentRoute ⟨k.host, k.db⟩ s.db c.leaseID snap = some route)
    (hnow : route.databaseNow = k.db)
    (h : S.acquireRoutedAttemptTx k c snap route s = .ok (none, t)) :
    ¬ S.Deliverable trust k s.db c := by
  rintro ⟨⟨hunexp, a, hauth', hage, hmat, hsnaps⟩, haligned⟩
  obtain ⟨-, htop, route', hrt', hid, hcur⟩ := hsnaps snap hmode
  obtain rfl : route = route' := Option.mem_unique hrt hrt'
  have hcur := a9DeliveryStillCurrent_iff.mpr ⟨haligned (by rw [hmode]; rfl), hcur⟩
  rw [AttemptClock.reference_of_some hmode] at hunexp hauth'
  have hfd := claimedRow_of_claimed s.valid.jobs.key hj hc hunexp
  have hexp : j.expiresAt = c.expiresAt := (claimOf_eq_some hc.claim).2.2.2.2
  have hcols : SnapshotMatches j.a9 snap := by
    rcases hc.snapshot with ⟨-, hnone⟩ | ⟨snap', hsnap', hcols⟩
    · rw [hmode] at hnone
      cases hnone
    · obtain rfl : snap = snap' := Option.mem_unique hmode hsnap'
      exact hcols
  simp only [acquireRoutedAttemptTx, bind_ok, query_ok, hnow] at h
  obtain ⟨row, _, ⟨hrow, rfl⟩, h⟩ := h
  obtain rfl : row = some j := hrow.symm.trans hfd
  simp only [ite_ok, bind_ok, query_ok, pure_ok] at h
  rcases h with ⟨hne, -⟩ | ⟨-, authority, _, ⟨hauth, rfl⟩, h⟩
  · exact hne ⟨hexp, hcols⟩
  obtain rfl : authority = some a := hauth.symm.trans hauth'
  simp only [ite_ok, bind_ok, expect_ok, pure_ok] at h
  rcases h with ⟨hor, -⟩ | ⟨-, topic, _, ⟨hopen, rfl⟩, h⟩
  · rcases hor with hteen | hne
    · exact hteen hage
    · exact hne hid
  rcases h with ⟨hne, -⟩ | ⟨-, matching, _, hmatc, hg, -⟩
  · exact hne (Option.mem_unique hopen htop)
  · obtain ⟨-, hiff⟩ := deliveryAuthorityMatches_ok hmatc
    rw [if_pos ⟨hiff.mpr hmat, hexp ▸ hcur⟩] at hg
    cases hg

theorem currentRoute_databaseNow {clock : Clock}
    (h : S.currentRoute clock db leaseID snap = some route) : route.databaseNow = clock.db := by
  unfold Store.currentRoute at h
  split at h
  · cases h
  simp only [Option.bind_eq_some_iff] at h
  obtain ⟨row, -, accepted, -, h⟩ := h
  split at h
  · simp only [Store.a9CurrentRoute, Option.bind_eq_bind, Option.bind_eq_some_iff,
      Option.guard_eq_some', exists_const, Option.pure_def, Option.some.injEq] at h
    obtain ⟨_, _, _, _, _, _, _, _, _, _, _, _, _, rfl⟩ := h
    rfl
  · cases h

/-- The readings and answers of an A9 attempt up to the topic binding. -/
theorem acquireA9AttemptTx_ok {r : Option DeliveryAttemptGuard}
    (h : S.acquireA9AttemptTx trust k c snap s = .ok (r, t)) :
    (r = none ∧ S.currentRoute ⟨k.host, k.db⟩ s.db c.leaseID snap = none) ∨
    (r = none ∧ trust.bindingForEpoch snap.keyset k.host c.job.providerTopic snap.topicKeyEpoch
      snap.assertionExpiresAt ≠ .eligible snap.topicBinding) ∨
    (trust.bindingForEpoch snap.keyset k.host c.job.providerTopic snap.topicKeyEpoch
      snap.assertionExpiresAt = .eligible snap.topicBinding ∧
      ∃ route s1, S.currentRoute ⟨k.host, k.db⟩ s.db c.leaseID snap = some route ∧
        s1.db = { s.db with keyBinding := s1.db.keyBinding } ∧
        S.acquireRoutedAttemptTx k c snap route s1 = .ok (r, t)) := by
  simp only [acquireA9AttemptTx, bind_ok, require_ok, mapError_ok] at h
  obtain ⟨_, _, ⟨-, rfl⟩, current, s1, hcur, h⟩ := h
  obtain ⟨hval, hdb⟩ := requireA9CurrentRouteTx_value hcur
  cases current with
  | none =>
    obtain ⟨rfl, -⟩ := pure_ok.mp h
    exact .inl ⟨rfl, hval.symm⟩
  | some route =>
    simp only [bind_ok, require_ok] at h
    obtain ⟨_, _, ⟨-, rfl⟩, h⟩ := h
    cases hbind : trust.bindingForEpoch snap.keyset k.host c.job.providerTopic
        snap.topicKeyEpoch snap.assertionExpiresAt with
    | inconclusive =>
      simp only [hbind] at h
      cases h
    | ineligible =>
      simp only [hbind] at h
      obtain ⟨rfl, -⟩ := pure_ok.mp h
      exact .inr (.inl ⟨rfl, by simp⟩)
    | eligible binding =>
      simp only [hbind] at h
      rcases ite_ok.mp h with ⟨hne, h⟩ | ⟨heq, h⟩
      · obtain ⟨rfl, -⟩ := pure_ok.mp h
        exact .inr (.inl ⟨rfl, by simpa using hne⟩)
      · rw [Decidable.not_not.mp heq]
        exact .inr (.inr ⟨rfl, route, s1, hval.symm, hdb, h⟩)

structure SameAuthority (db db' : Db) : Prop where
  leases : db'.leases = db.leases
  installations : db'.installations = db.installations
  keysetState : db'.keysetState = db.keysetState
  onlineKeys : db'.onlineKeys = db.onlineKeys
  commitmentKeys : db'.commitmentKeys = db.commitmentKeys
  authorities : db'.authorities = db.authorities
  assertions : db'.assertions = db.assertions
  bindings : db'.bindings = db.bindings
  tombstones : db'.tombstones = db.tombstones
  routes : db'.routes = db.routes

theorem SameAuthority.symm (h : SameAuthority db db') : SameAuthority db' db :=
  ⟨h.leases.symm, h.installations.symm, h.keysetState.symm, h.onlineKeys.symm,
    h.commitmentKeys.symm, h.authorities.symm, h.assertions.symm, h.bindings.symm,
    h.tombstones.symm, h.routes.symm⟩

theorem SameAuthority.trans {db'' : Db} (h : SameAuthority db db') (h' : SameAuthority db' db'') :
    SameAuthority db db'' :=
  ⟨h'.leases.trans h.leases, h'.installations.trans h.installations, h'.keysetState.trans
    h.keysetState, h'.onlineKeys.trans h.onlineKeys, h'.commitmentKeys.trans h.commitmentKeys,
    h'.authorities.trans h.authorities, h'.assertions.trans h.assertions, h'.bindings.trans
    h.bindings, h'.tombstones.trans h.tombstones, h'.routes.trans h.routes⟩

theorem SameAuthority.of_keyBinding (h : db' = { db with keyBinding := db'.keyBinding }) :
    SameAuthority db db' := by
  rw [h]
  exact ⟨rfl, rfl, rfl, rfl, rfl, rfl, rfl, rfl, rfl, rfl⟩

theorem SameAuthority.deliveryAuthority (h : SameAuthority db db') (leaseID : Bytes16) (lane : Lane)
    (reference : Time) :
    db'.deliveryAuthority leaseID lane reference = db.deliveryAuthority leaseID lane reference := by
  unfold Db.deliveryAuthority
  rw [h.leases, h.installations]

theorem SameAuthority.currentRoute (h : SameAuthority db db') (clock : Clock) (leaseID : Bytes16)
    (snap : A9RouteSnapshot) :
    S.currentRoute clock db' leaseID snap = S.currentRoute clock db leaseID snap := by
  cases db
  cases db'
  obtain ⟨_, _, hks, honl, hcomm, hauths, hasse, hbinds, htomb, hrts⟩ := h
  simp only at hks honl hcomm hauths hasse hbinds htomb hrts
  subst hks honl hcomm hauths hasse hbinds htomb hrts
  rfl

theorem SameAuthority.intact (h : SameAuthority db db') (hd : S.Intact trust k db c) :
    S.Intact trust k db' c := by
  obtain ⟨hunexp, a, hauth, hage, hmat, hrts⟩ := hd
  refine ⟨hunexp, a, ?_, hage, hmat, fun snap hsnap => ?_⟩
  · rw [h.deliveryAuthority]
    exact hauth
  · obtain ⟨hbind, htop, route, hrt, hcur⟩ := hrts snap hsnap
    refine ⟨hbind, htop, route, ?_, hcur⟩
    rw [h.currentRoute]
    exact hrt

theorem SameAuthority.deliverable (h : SameAuthority db db') (hd : S.Deliverable trust k db c) :
    S.Deliverable trust k db' c :=
  ⟨h.intact hd.1, hd.2⟩

/-- A granted attempt is on a deliverable job that is claimed. -/
theorem acquireDeliveryAttempt_granted
    (h : S.acquireDeliveryAttempt trust k c s = .ok (some g, t)) : S.Granted trust k s.db c g := by
  simp only [acquireDeliveryAttempt, bind_ok, require_ok, ite_ok, pure_ok] at h
  obtain ⟨_, _, ⟨hval, rfl⟩, h⟩ := h
  rcases h with ⟨-, hnone, -⟩ | ⟨-, h⟩
  · cases hnone
  cases hmode : c.job.a9 with
  | none =>
    simp only [hmode] at h
    exact acquireGate6AttemptTx_granted hmode hval h
  | some snap =>
    simp only [hmode] at h
    rcases acquireA9AttemptTx_ok h with ⟨hnone, -⟩ | ⟨hnone, -⟩ |
      ⟨hbind, route, s1, hrt, hdb, h⟩
    · cases hnone
    · cases hnone
    have hsame : SameAuthority s.db s1.db := .of_keyBinding hdb
    have hrt1 : S.currentRoute ⟨k.host, k.db⟩ s1.db c.leaseID snap = some route :=
      (hsame.currentRoute _ _ _).trans hrt
    obtain ⟨hdeli, hrow, hheld⟩ := acquireRoutedAttemptTx_granted hmode hrt1
      (currentRoute_databaseNow hrt) hbind h
    refine ⟨hsame.symm.deliverable hdeli, ?_, hheld⟩
    rw [hdb] at hrow
    exact hrow

/-- An attempt on a job claimed as the claim says is refused only if the job is not deliverable. -/
theorem acquireDeliveryAttempt_refused (hj : j ∈ s.db.jobs) (hc : S.Claimed j c)
    (h : S.acquireDeliveryAttempt trust k c s = .ok (none, t)) :
    ¬ S.Deliverable trust k s.db c := by
  simp only [acquireDeliveryAttempt, bind_ok, require_ok, ite_ok, pure_ok] at h
  obtain ⟨_, _, ⟨hval, rfl⟩, h⟩ := h
  rcases h with ⟨⟨hwelcome, -⟩, -⟩ | ⟨-, h⟩
  · -- no lease is a Welcome lease
    rintro ⟨⟨-, a, hauth, -⟩, -⟩
    obtain ⟨-, -, -, hopen⟩ := deliveryAuthority_lease hauth
    have hkind := hopen.2.2.2.2.2.2.2.1
    rw [hwelcome] at hkind
    cases hkind
  cases hmode : c.job.a9 with
  | none =>
    simp only [hmode] at h
    exact acquireGate6AttemptTx_refused hmode hj hc h
  | some snap =>
    simp only [hmode] at h
    rcases acquireA9AttemptTx_ok h with ⟨-, hnone⟩ | ⟨-, hne⟩ | ⟨-, route, s1, hrt, hdb, h⟩
    · rintro ⟨⟨-, a, -, -, -, hrts⟩, -⟩
      obtain ⟨route, hrt, -⟩ := (hrts snap hmode).current
      rw [hnone] at hrt
      cases hrt
    · rintro ⟨⟨-, a, -, -, -, hrts⟩, -⟩
      exact hne (hrts snap hmode).binding
    · have hsame : SameAuthority s.db s1.db := .of_keyBinding hdb
      have hrt1 : S.currentRoute ⟨k.host, k.db⟩ s1.db c.leaseID snap = some route :=
        (hsame.currentRoute _ _ _).trans hrt
      have hj1 : j ∈ s1.db.jobs := by
        rw [hdb]
        exact hj
      have hnot : ¬ S.Deliverable trust k s1.db c :=
        acquireRoutedAttemptTx_refused hmode hj1 hc hrt1 (currentRoute_databaseNow hrt) h
      exact fun hd => hnot (hsame.deliverable hd)

end NotificationServer
