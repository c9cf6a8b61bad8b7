import NotificationServer.Delivery.Enqueue
import NotificationServer.Delivery.Changes
import NotificationServer.Gate6.Progress

/-!
# Queue statements that succeed

A statement of the queue fails only if a row it leaves does not meet the
constraints.  `Fits` lists those on one row; markers, released rows, erasure
jobs and new jobs meet them, so recovery, conversion and enqueueing commit.
-/

namespace NotificationServer

open Relational DeliveryStore Tx

variable {j : DeliveryJobRow} {availableAt : Time}

structure DeliveryJobRow.Fits (db : Db) (j : DeliveryJobRow) : Prop where
  attempts : j.attempts ≤ 3
  retry : j.retryExponent ≤ 16
  expiry : j.expiresAt ≤ j.createdAt + 15 * minute
  shape : j.Shape
  snapshot : j.a9.isSome → j.state.Live ∧ j.leaseID.isSome
  lease : ∀ l ∈ j.leaseID, l ∈ db.leases.map fun r => r.leaseID
  installation : ∀ i ∈ j.installationLookup, i ∈ db.installations.map fun r => r.installationLookup
  route : ∀ k ∈ j.routeKey, k ∈ db.routes.map fun r => (r.leaseID, r.columns)

namespace Db.Constraints

variable {db : Db} (h : db.Constraints)

include h

theorem fits {j : DeliveryJobRow} (hj : j ∈ db.jobs) : j.Fits db where
  attempts := h.jobs.attempts_range j hj
  retry := h.jobs.retry_range j hj
  expiry := h.jobs.expiry j hj
  shape := h.jobs.shape j hj
  snapshot := h.jobs.snapshot_shape j hj
  lease := h.jobs.lease j hj
  installation := h.jobs.installation j hj
  route := h.jobs.route j hj

theorem setJobs {jobs : List DeliveryJobRow} (hkey : Unique (fun j => j.jobID) jobs)
    (hfits : ∀ j ∈ jobs, j.Fits db) : ({ db with jobs := jobs } : Db).Constraints :=
  { h with
    jobs :=
      { key := hkey
        attempts_range := fun j hj => (hfits j hj).attempts
        retry_range := fun j hj => (hfits j hj).retry
        expiry := fun j hj => (hfits j hj).expiry
        shape := fun j hj => (hfits j hj).shape
        snapshot_shape := fun j hj => (hfits j hj).snapshot
        lease := fun j hj => (hfits j hj).lease
        installation := fun j hj => (hfits j hj).installation
        route := fun j hj => (hfits j hj).route } }

theorem updateJobs {p : DeliveryJobRow → Prop} [DecidablePred p]
    {f : DeliveryJobRow → DeliveryJobRow} (hid : ∀ j, (f j).jobID = j.jobID)
    (hfits : ∀ j ∈ db.jobs, p j → (f j).Fits db) :
    ({ db with jobs := updateWhere p f db.jobs } : Db).Constraints := by
  refine h.setJobs (h.jobs.key.updateWhere fun j _ _ => hid j) fun j hj => ?_
  rcases mem_updateWhere.mp hj with ⟨r, hr, hp, rfl⟩ | ⟨hj, -⟩
  · exact hfits r hr hp
  · exact h.fits hj

theorem insertJob {j : DeliveryJobRow} (hfr : ∀ r ∈ db.jobs, r.jobID ≠ j.jobID)
    (hfits : j.Fits db) : ({ db with jobs := db.jobs ++ [j] } : Db).Constraints := by
  refine h.setJobs ?_ fun r hr => ?_
  · show ((db.jobs ++ [j]).map fun r => r.jobID).Nodup
    rw [List.map_append, List.nodup_append]
    refine ⟨h.jobs.key, by simp, ?_⟩
    intro a ha b hb
    obtain ⟨r, hr, rfl⟩ := List.mem_map.mp ha
    obtain rfl : b = j.jobID := by simpa using hb
    exact hfr r hr
  · rcases List.mem_append.mp hr with hr | hr
    · exact h.fits hr
    · rw [List.mem_singleton.mp hr]
      exact hfits

theorem updateLeases {p : LeaseRow → Prop} [DecidablePred p] {f : LeaseRow → LeaseRow}
    (hf : ∀ l, ∃ state revokedAt, f l = { l with state := state, revokedAt := revokedAt }) :
    ({ db with leases := updateWhere p f db.leases } : Db).Constraints := by
  have hkeys : ∀ l, (f l).leaseID = l.leaseID ∧
      (f l).installationIdentity = l.installationIdentity := by
    intro l
    obtain ⟨state, revokedAt, hl⟩ := hf l
    rw [hl]
    exact ⟨rfl, rfl⟩
  have hstay : ∀ l ∈ db.leases, ∃ l' ∈ updateWhere p f db.leases, l'.leaseID = l.leaseID ∧
      l'.installationIdentity = l.installationIdentity := by
    intro l hl
    by_cases hp : p l
    · exact ⟨f l, mem_updateWhere.mpr (.inl ⟨l, hl, hp, rfl⟩), hkeys l⟩
    · exact ⟨l, mem_updateWhere.mpr (.inr ⟨hl, hp⟩), rfl, rfl⟩
  have hrow : ∀ {P : LeaseRow → Prop}, (∀ l ∈ db.leases, P l) →
      (∀ (l : LeaseRow) state revokedAt, P l →
        P { l with state := state, revokedAt := revokedAt }) →
      ∀ l ∈ updateWhere p f db.leases, P l := by
    intro P hall hmove
    refine forall_mem_updateWhere hall fun l _ _ hl => ?_
    obtain ⟨state, revokedAt, heq⟩ := hf l
    rw [heq]
    exact hmove l state revokedAt hl
  exact
    { h with
      leases :=
        { key := h.leases.key.updateWhere fun l _ _ => (hkeys l).1
          topic_key := h.leases.topic_key.updateWhere fun l _ _ => by
            obtain ⟨state, revokedAt, heq⟩ := hf l
            rw [heq]
          generation_pos := hrow h.leases.generation_pos fun _ _ _ hl => hl
          policy_epoch_pos := hrow h.leases.policy_epoch_pos fun _ _ _ hl => hl
          route_epoch_range := hrow h.leases.route_epoch_range fun _ _ _ hl => hl
          key_version := hrow h.leases.key_version fun _ _ _ hl => hl
          expiry := hrow h.leases.expiry fun _ _ _ hl => hl
          control_expiry := hrow h.leases.control_expiry fun _ _ _ hl => hl
          installation := h.leases.installation.updateWhere fun l _ _ => by
            obtain ⟨state, revokedAt, heq⟩ := hf l
            rw [heq]
            exact .inl rfl
          identity := h.leases.identity.updateWhere fun l _ _ => by
            obtain ⟨state, revokedAt, heq⟩ := hf l
            rw [heq]
            exact .inl rfl }
      routes :=
        { h.routes with
          lease := h.routes.lease.of_parents fun _ _ l hl _ => by
            obtain ⟨l', hl', hid, hidentity⟩ := hstay l hl
            exact ⟨l', hl', by rw [hid, hidentity]⟩ }
      jobs :=
        { h.jobs with
          lease := h.jobs.lease.of_parents fun _ _ l hl _ => by
            obtain ⟨l', hl', hid, -⟩ := hstay l hl
            exact ⟨l', hl', hid⟩ } }

end Db.Constraints

variable {S : DeliveryStore} {s : Session} {now markedAt : Time} {jobID : Bytes16}

theorem DeliveryJobRow.Fits.live_shape {db : Db} (h : j.Fits db) (hlive : j.state.Live) :
    j.leaseID.isSome ∧ j.installationLookup = none ∧ j.retryExponent = 0 ∧
      j.trafficClass ≠ some .unknown ∧ j.finalReason = none := by
  rcases h.shape with ⟨-, hshape⟩ | ⟨hera, -⟩ | ⟨hfin, -⟩
  · exact hshape
  · rcases hlive with h | h <;> rcases hera with h' | h' <;> cases h.symm.trans h'
  · rcases hlive with h | h <;> cases h.symm.trans hfin

/-- A claimed row that becomes an erasure job of a stored installation. -/
theorem erasing_fits {db : Db} {lookup : LookupDigest} {encrypted : Bytes} (h : j.Fits db)
    (hlive : j.state.Live) (hlook : lookup ∈ db.installations.map fun i => i.installationLookup) :
    (erasing lookup encrypted availableAt j).Fits db where
  attempts := Nat.zero_le _
  retry := Nat.zero_le _
  expiry := h.expiry
  shape := .inr (.inl ⟨.inl rfl, rfl, rfl, (h.live_shape hlive).2.2.2.1, (h.live_shape hlive).2.2.2.2⟩)
  snapshot hsome := by cases hsome
  lease _ hl := by cases hl
  installation i hi := by
    obtain rfl : lookup = i := Option.some.inj hi
    exact hlook
  route _ hk := by cases hk

theorem blockInstallationTx_succeeds (lookup : LookupDigest) :
    Succeeds (blockInstallationTx now lookup jobID) s := by
  unfold blockInstallationTx
  refine .bind (exec_succeeds (s.valid.updateInstallation (fun _ => rfl) (fun _ => rfl) (fun i hi _
    => s.valid.installations.policy_epoch_pos i hi) (fun i hi _ => s.valid.installations.key_version
    i hi) (fun i hi _ => s.valid.installations.expiry i hi) fun i hi _ =>
    s.valid.installations.control_expiry i hi)) fun _ s1 _ => ?_
  refine .bind (exec_succeeds (s1.valid.updateLeases fun l => ⟨_, _, rfl⟩)) fun _ s2 _ => ?_
  refine .bind (exec_succeeds (s2.valid.finalizeJobs fun _ _ => .inl rfl)) fun _ s3 _ => ?_
  exact exec_succeeds (s3.valid.deleteJobs _)

/-- The conversion of a claimed job whose installation has the failed token commits. -/
theorem convertInvalidTokenToErasureTx_succeeds {i : InstallationRow} {encrypted : Sealed Bytes}
    {token : Bytes} {trafficClass : DeliveryTrafficClass} (hlen : token.length = 32)
    (hcls : trafficClass ≠ .unknown) (hfd : s.db.claimedInstallation jobID = some (j, i))
    (hsto : i.encryptedAPNSToken = some encrypted)
    (hopen : S.encryption.openValue (.installation i.installationLookup .apnsToken) encrypted =
      some token) :
    ∃ s', S.convertInvalidTokenToErasureTx now jobID (some token) trafficClass availableAt s =
      .ok (some i.installationLookup, s') ∧
      ∀ r ∈ s'.db.jobs, r.jobID = jobID → r.state = .erasurePending := by
  obtain ⟨hj, hjid, hcl, l, -, -, hfind⟩ := claimedInstallation_eq_some hfd
  have hi : i ∈ s.db.installations := List.mem_of_find?_eq_some hfind
  have hcommits : Succeeds (blockInstallationTx now i.installationLookup jobID) s :=
    blockInstallationTx_succeeds _
  obtain ⟨⟨⟩, s1, hblock⟩ := hcommits
  obtain ⟨hblocks, hspared⟩ := blockInstallationTx_blocks hblock
  obtain ⟨blockedAt, hfr⟩ := hblocks.frame
  have hlook : i.installationLookup ∈ s1.db.installations.map fun i => i.installationLookup := by
    rw [hfr]
    exact List.mem_map.mpr ⟨_, mem_updateWhere.mpr (.inl ⟨i, hi, rfl, rfl⟩), rfl⟩
  have hrow : ∀ r ∈ s1.db.jobs, r.jobID = jobID → r.state.Live := by
    intro r hr hrid
    rw [s.valid.jobs.key.eq_of_key_eq (hspared r hr hrid) hj (hrid.trans hjid.symm)]
    exact .inr hcl
  have hconv : Succeeds (exec fun db =>
      { db with
        jobs := updateWhere (fun r => r.jobID = jobID)
          (erasing i.installationLookup (S.codec.sealJob jobID (erasureMarker (some token)
            j.expiresAt trafficClass)) availableAt)
          db.jobs }) s1 :=
    exec_succeeds (s1.valid.updateJobs (fun _ => rfl) fun r hr hrid =>
      erasing_fits (s1.valid.fits hr) (hrow r hr hrid) hlook)
  obtain ⟨⟨⟩, s2, hera⟩ := hconv
  refine ⟨s2, ?_, fun r hr hrid => ?_⟩
  · unfold convertInvalidTokenToErasureTx
    rw [bind_of_ok (expect_ok.mpr ⟨rfl, rfl⟩), require_bind_of ⟨hlen, hcls⟩,
      bind_of_ok (query_ok.mpr ⟨hfd, rfl⟩)]
    simp only
    rw [bind_of_ok (expect_ok.mpr ⟨hsto, rfl⟩), bind_of_ok (expect_ok.mpr ⟨hopen, rfl⟩),
      if_neg (not_not.mpr rfl), bind_of_ok hblock, bind_of_ok hera]
    rfl
  · obtain ⟨hdb, -⟩ := exec_ok.mp hera
    rw [hdb] at hr
    rcases mem_updateWhere.mp hr with ⟨r0, -, -, rfl⟩ | ⟨-, hoth⟩
    · rfl
    · exact absurd hrid hoth

theorem requireRetentionSafeTx_succeeds {S : Store} {at_ : Time}
    (hbd : ∀ k ∈ s.db.keyBinding, k = S.rootCommitment)
    (hhealth : Store.retentionHealth at_ s.db.retention) :
    Succeeds (S.requireRetentionSafeTx at_) s := by
  obtain ⟨⟨⟩, s1, h1⟩ := Store.requireLookupKeyBoundTx_succeeds hbd
  obtain ⟨-, hdb, hwr⟩ := Store.requireLookupKeyBoundTx_ok.mp h1
  exact ⟨(), s1, Store.requireRetentionSafeTx_ok.mpr ⟨⟨hbd, hhealth⟩, hdb, hwr⟩⟩

theorem deliveryAuthorityMatches_true {job : SerializedDeliveryJob} {a : DeliveryAuthority}
    (h : S.AuthorityMatches job a) : S.deliveryAuthorityMatches job a s = .ok (true, s) := by
  obtain ⟨token, hjob, htok⟩ := h.token
  obtain ⟨nonce, hnonce, hlineage⟩ := h.lineage
  unfold deliveryAuthorityMatches
  rw [if_neg (not_not.mpr ⟨h.policyEpoch.1, h.policyEpoch.2, h.routeKeyEpoch⟩),
    bind_of_ok (expect_ok.mpr ⟨htok, rfl⟩), bind_of_ok (expect_ok.mpr ⟨hjob, rfl⟩),
    if_neg (not_not.mpr rfl), bind_of_ok (expect_ok.mpr ⟨hnonce, rfl⟩), decide_eq_true hlineage]
  rfl

/-- The services an attempt or a new job needs besides its authority: the lookup root is bound,
retention is safe and, for a job with an A9 route, the trust manager leases the keyset and its clock
agrees with that of the database. -/
structure ServicesReady (S : Store) (trust : TopicTrust) (k : AttemptClock)
    (snapshot : Option A9RouteSnapshot) (db : Db) : Prop where
  bound : ∀ r ∈ db.keyBinding, r = S.rootCommitment
  retention : Store.retentionHealth k.host db.retention
  trust : ∀ snap ∈ snapshot, trust.leases k.host snap.keyset = true
  aligned : snapshot.isSome → a9TrustClockAligned k.host k.db

section Grants

variable {trust : TopicTrust} {k : AttemptClock} {c : ClaimedDeliveryJob}

theorem currentRoute_succeeds {S : Store} {leaseID : Bytes16} {snap : A9RouteSnapshot}
    {route : A9CurrentRouteState} (clock : Clock)
    (hbd : ∀ r ∈ s.db.keyBinding, r = S.rootCommitment)
    (hrete : Store.retentionHealth clock.host s.db.retention)
    (hrt : S.currentRoute clock s.db leaseID snap = some route) :
    ∃ t, S.requireA9CurrentRouteTx clock leaseID snap s = .ok (some route, t) ∧
      t.db = { s.db with keyBinding := t.db.keyBinding } := by
  unfold Store.currentRoute at hrt
  split at hrt
  · cases hrt
  rename_i hval
  obtain ⟨row, hrow, hacc⟩ := Option.bind_eq_some_iff.mp hrt
  obtain ⟨accepted, hacc, hrt⟩ := Option.bind_eq_some_iff.mp hacc
  split at hrt
  · rename_i hmat
    obtain ⟨⟨⟩, t, ht⟩ := requireRetentionSafeTx_succeeds hbd hrete
    obtain ⟨-, hdb, -⟩ := Store.requireRetentionSafeTx_ok.mp ht
    refine ⟨t, ?_, by rw [hdb]⟩
    unfold Store.requireA9CurrentRouteTx
    rw [if_neg hval, bind_of_ok (query_ok.mpr ⟨hrow, rfl⟩)]
    simp only [hacc]
    rw [if_pos hmat, bind_of_ok ht, query_ok, hdb]
    exact ⟨hrt, rfl⟩
  · cases hrt

theorem acquireGate6AttemptTx_succeeds (hmode : c.job.a9 = none)
    (hrdy : ServicesReady S.toStore trust k c.job.a9 s.db) (hd : S.Intact trust k s.db c) :
    Succeeds (S.acquireGate6AttemptTx k c) s := by
  obtain ⟨-, a, ha, -, hmat, -⟩ := hd
  rw [AttemptClock.reference_of_none hmode] at ha
  unfold acquireGate6AttemptTx
  refine .bind (.mapError (requireRetentionSafeTx_succeeds hrdy.bound hrdy.retention))
    fun _ s1 h1 => ?_
  obtain ⟨-, hdb, -⟩ := Store.requireRetentionSafeTx_ok.mp (mapError_ok.mp h1)
  refine .bind (Store.query_succeeds _) fun row s2 h2 => ?_
  obtain ⟨-, rfl⟩ := query_ok.mp h2
  refine .bind (Store.query_succeeds _) fun authority s3 h3 => ?_
  obtain ⟨hauth, rfl⟩ := query_ok.mp h3
  rw [hdb] at hauth
  obtain rfl : authority = some a := hauth.symm.trans ha
  cases row with
  | none => exact .pure _
  | some r =>
    refine .ite (fun _ => .pure _) fun _ => ?_
    exact .bind ⟨true, _, deliveryAuthorityMatches_true hmat⟩ fun _ _ _ => .pure _

theorem acquireRoutedAttemptTx_succeeds {snap : A9RouteSnapshot} {route : A9CurrentRouteState}
    (hmode : c.job.a9 = some snap) (hnow : route.databaseNow = k.db)
    (hd : S.Intact trust k s.db c) : Succeeds (S.acquireRoutedAttemptTx k c snap route) s := by
  obtain ⟨-, a, ha, -, hmat, hrts⟩ := hd
  rw [AttemptClock.reference_of_some hmode] at ha
  unfold acquireRoutedAttemptTx
  rw [hnow]
  refine .bind (Store.query_succeeds _) fun row s2 h2 => ?_
  obtain ⟨-, rfl⟩ := query_ok.mp h2
  cases row with
  | none => exact .pure _
  | some r =>
    refine .ite (fun _ => .pure _) fun _ => ?_
    refine .bind (Store.query_succeeds _) fun authority s3 h3 => ?_
    obtain ⟨hauth, rfl⟩ := query_ok.mp h3
    obtain rfl : authority = some a := hauth.symm.trans ha
    refine .ite (fun _ => .pure _) fun _ => ?_
    refine .bind ⟨_, _, expect_ok.mpr ⟨(hrts snap hmode).topic, rfl⟩⟩ fun topic s4 h4 => ?_
    refine .ite (fun _ => .pure _) fun _ => ?_
    exact .bind ⟨true, _, deliveryAuthorityMatches_true hmat⟩ fun _ _ _ => .pure _

/-- A deliverable job that is claimed as the claim says is granted its attempt. -/
theorem acquireDeliveryAttempt_grants {j : DeliveryJobRow} (hj : j ∈ s.db.jobs) (hc : S.Claimed j c)
    (hval : S.ClaimValid k.host c) (hrdy : ServicesReady S.toStore trust k c.job.a9 s.db)
    (hd : S.Deliverable trust k s.db c) :
    ∃ g t, S.acquireDeliveryAttempt trust k c s = .ok (some g, t) := by
  have hsucc : Succeeds (S.acquireDeliveryAttempt trust k c) s := by
    unfold acquireDeliveryAttempt
    refine .bind (.require hval _) fun _ s0 h0 => ?_
    obtain ⟨-, rfl⟩ := require_ok.mp h0
    refine .ite (fun _ => .pure _) fun _ => ?_
    cases hmode : c.job.a9 with
    | none => exact acquireGate6AttemptTx_succeeds hmode hrdy hd.1
    | some snap =>
      have ⟨⟨_, _, _, _, _, hrts⟩, _⟩ := hd
      obtain ⟨hbind, -, route, hrt, -⟩ := hrts snap hmode
      obtain ⟨t, ht, hdb⟩ := currentRoute_succeeds ⟨k.host, k.db⟩ hrdy.bound
        hrdy.retention hrt
      have hnow : route.databaseNow = k.db := currentRoute_databaseNow hrt
      have hsame : SameAuthority s.db t.db := .of_keyBinding hdb
      show Succeeds (S.acquireA9AttemptTx trust k c snap) s
      unfold acquireA9AttemptTx
      refine .bind (.require (hrdy.trust snap hmode) _) fun _ s1 h1 => ?_
      obtain ⟨-, rfl⟩ := require_ok.mp h1
      refine .bind (.mapError ⟨_, _, ht⟩) fun current s2 h2 => ?_
      have heq := ht.symm.trans (mapError_ok.mp h2)
      cases heq
      have haligned : a9TrustClockAligned k.host route.databaseNow := by
        rw [hnow]
        exact hrdy.aligned (by rw [hmode]; rfl)
      refine .bind (.require haligned _) fun _ s3 h3 => ?_
      obtain ⟨-, rfl⟩ := require_ok.mp h3
      rw [hbind]
      exact .ite (fun _ => .pure _) fun _ =>
        acquireRoutedAttemptTx_succeeds hmode hnow (hsame.intact hd.1)
  obtain ⟨r, t, ht⟩ := hsucc
  cases r with
  | none => exact absurd hd (acquireDeliveryAttempt_refused hj hc ht)
  | some g => exact ⟨g, t, ht⟩

end Grants

section Enqueue

variable {trust : TopicTrust} {k : AttemptClock} {r : EnqueueRequest} {a : DeliveryAuthority}
  {route : Option A9CurrentRouteState}

/-- The authority of a new job is current, and a current route of an A9 server belongs to it. -/
structure EnqueueAuthority (S : DeliveryStore) (trust : TopicTrust) (k : AttemptClock)
    (r : EnqueueRequest) (db : Db) (a : DeliveryAuthority) (route : Option A9CurrentRouteState) :
    Prop where
  found : db.enqueueAuthority r.leaseID r.job.trafficClass.lane = some a
  matches_ : S.AuthorityMatches r.job a
  unexpired : expiryReference k.host route < jobExpiry k.host r.job a route
  gate6 : r.job.a9 = none → route = none
  routed : ∀ snap ∈ r.job.a9, ∃ current ∈ route,
    S.currentRoute ⟨k.host, k.db⟩ db r.leaseID snap = some current ∧
    trust.bindingForEpoch snap.keyset k.host r.job.providerTopic snap.topicKeyEpoch
      snap.assertionExpiresAt = .eligible snap.topicBinding ∧
    a.lease.installationIdentity = current.installationIdentity ∧
    S.encryption.openValue (.lease r.leaseID .topic) a.lease.encryptedTopic =
      some r.job.providerTopic ∧
    a9DeliveryStillCurrent k (jobExpiry k.host r.job a route) a.expiresAt current snap

/-- The queue takes the job: it is not full, the event was not seen and the id drawn is new. -/
structure EnqueueRoom (r : EnqueueRequest) (db : Db) : Prop where
  unseen : r.seen = false
  room : (db.jobs.length : Int) < r.maxQueued
  fresh : ∀ j ∈ db.jobs, j.jobID ≠ r.jobID

theorem enqueueAuthority_eq_some {db : Db} {leaseID : Bytes16} {lane : Lane}
    (h : db.enqueueAuthority leaseID lane = some a) :
    a.lease ∈ db.leases ∧ a.lease.leaseID = leaseID ∧ a.lease.topicKind = lane.topicKind := by
  simp only [Db.enqueueAuthority, Option.bind_eq_bind, Option.bind_eq_some_iff,
    Option.guard_eq_some', exists_const, Option.pure_def, Option.some.injEq] at h
  obtain ⟨lease, hls, installation, -, token, -, hopen, rfl⟩ := h
  exact ⟨(found hls).1, (found hls).2, hopen.2.2.1⟩

theorem route_of_currentRoute {S : Store} {clock : Clock} {db : Db} {leaseID : Bytes16}
    {snap : A9RouteSnapshot} {route : A9CurrentRouteState}
    (h : S.currentRoute clock db leaseID snap = some route) :
    (leaseID, snap.columns) ∈ db.routes.map fun r => (r.leaseID, r.columns) := by
  unfold Store.currentRoute at h
  split at h
  · cases h
  obtain ⟨row, -, h⟩ := Option.bind_eq_some_iff.mp h
  obtain ⟨accepted, -, h⟩ := Option.bind_eq_some_iff.mp h
  split at h
  · simp only [Store.a9CurrentRoute, Option.bind_eq_bind, Option.bind_eq_some_iff,
      Option.guard_eq_some', exists_const, Option.pure_def, Option.some.injEq] at h
    obtain ⟨authority, -, watermark, -, -, -, -, row, hrow, -⟩ := h
    have hfits : row.leaseID = leaseID ∧ row.columns = snap.columns := by
      simpa using List.find?_some hrow
    refine List.mem_map.mpr ⟨row, List.mem_of_find?_eq_some hrow, ?_⟩
    rw [hfits.1, hfits.2]
  · cases h

theorem pendingRow_fits {db : Db} (hcls : r.job.trafficClass ≠ .unknown)
    (h : EnqueueAuthority S trust k r db a route) :
    (S.pendingRow k.host r (jobExpiry k.host r.job a route)).Fits db where
  attempts := Nat.zero_le _
  retry := Nat.zero_le _
  expiry := by
    have hle : jobExpiry k.host r.job a route ≤ k.host + maxDeliveryJobLifetime := by
      unfold jobExpiry
      have hrequ : min (min r.job.expiration (k.host + maxDeliveryJobLifetime)) a.expiresAt ≤
          k.host + maxDeliveryJobLifetime := (min_le_left _ _).trans (min_le_right _ _)
      cases route with
      | none => exact hrequ
      | some current => exact (min_le_left _ _).trans hrequ
    exact hle
  shape := .inl ⟨.inl rfl, rfl, rfl, rfl, fun h => hcls (Option.some.inj h), rfl⟩
  snapshot _ := ⟨.inl rfl, rfl⟩
  lease l hl := by
    obtain rfl : r.leaseID = l := Option.some.inj hl
    obtain ⟨hmem, hid, -⟩ := enqueueAuthority_eq_some h.found
    exact List.mem_map.mpr ⟨a.lease, hmem, hid⟩
  installation _ hi := by cases hi
  route key hkey := by
    cases hsnap : r.job.a9 with
    | none =>
      simp only [pendingRow, DeliveryJobRow.routeKey, hsnap, Option.map_none] at hkey
      cases hkey
    | some snap =>
      simp only [pendingRow, DeliveryJobRow.routeKey, hsnap, Option.map_some] at hkey
      obtain rfl : (r.leaseID, snap.columns) = key := Option.some.inj hkey
      obtain ⟨current, -, hcur, -⟩ := h.routed snap hsnap
      exact route_of_currentRoute hcur

/-- The insertion of a job with current authority commits. -/
theorem insertJobTx_accepts {checked : Option (A9RouteSnapshot × A9CurrentRouteState)}
    (hcls : r.job.trafficClass ≠ .unknown) (h : EnqueueAuthority S trust k r s.db a route)
    (hrt : checked.map Prod.snd = route) (hsnap : checked.map Prod.fst = r.job.a9)
    (hroom : EnqueueRoom r s.db) :
    ∃ s', S.insertJobTx k r checked s = .ok (.accepted r.jobID, s') := by
  have hwelcome : r.job.trafficClass = .welcome → S.welcomeEnabled = true := by
    intro hwelcome
    obtain ⟨-, -, hkind⟩ := enqueueAuthority_eq_some h.found
    rw [hwelcome] at hkind
    cases hkind
  have hinsert : Succeeds (exec fun db =>
      { db with jobs := db.jobs ++ [S.pendingRow k.host r (jobExpiry k.host r.job a route)] }) s :=
    exec_succeeds (s.valid.insertJob hroom.fresh (pendingRow_fits hcls h))
  obtain ⟨⟨⟩, s', hs'⟩ := hinsert
  have hcur : RouteStillCurrent k (jobExpiry k.host r.job a route) a.expiresAt checked := by
    cases checked with
    | none => trivial
    | some pair =>
      obtain ⟨current, hmem, -, -, -, -, hstill⟩ := h.routed pair.1 hsnap.symm
      obtain rfl : pair.2 = current := Option.some.inj (hrt.trans hmem)
      exact hstill
  refine ⟨s', ?_⟩
  unfold insertJobTx
  rw [require_bind_of hwelcome, bind_of_ok (query_ok.mpr ⟨rfl, rfl⟩), bind_of_ok (expect_ok.mpr
    ⟨h.found, rfl⟩), bind_of_ok (deliveryAuthorityMatches_true h.matches_), require_bind_of rfl]
  have htop : S.enqueueTopicTx r a checked s = .ok ((), s) := by
    cases checked with
    | none => rfl
    | some pair =>
      obtain ⟨current, hmem, -, -, hid, hopen, -⟩ := h.routed pair.1 hsnap.symm
      obtain rfl : pair.2 = current := Option.some.inj (hrt.trans hmem)
      simp only [enqueueTopicTx]
      rw [require_bind_of hid, bind_of_ok (expect_ok.mpr ⟨hopen, rfl⟩)]
      exact require_ok.mpr ⟨rfl, rfl⟩
  rw [bind_of_ok htop, hrt, require_bind_of h.unexpired]
  unfold storeJobTx
  rw [if_neg (by simp [hroom.unseen]), bind_of_ok (query_ok.mpr ⟨rfl, rfl⟩),
    if_neg (not_le.mpr hroom.room), require_bind_of hcur, bind_of_ok hs']
  rfl

/-- `EnqueueDeliveryJob` accepts a valid job whose authority is current, once its guards pass and
the recovery it starts with has run. -/
theorem enqueueDeliveryJob_accepts {readings : EnqueueClock} {s1 s2 : Session}
    (hargu : Between 1 512 r.sourceEventID.length ∧ 0 < r.maxQueued)
    (hval : validateSerializedDeliveryJob r.job readings.attempt.host)
    (hmode : S.a9Enabled = r.job.a9.isSome)
    (hsafe : S.requireRetentionSafeTx readings.checkedAt s = .ok ((), s1))
    (hrecover : S.recoverDeliveryJobsTx readings.recoveredAt readings.markedAt s1 = .ok ((), s2))
    (hagain : Store.retentionHealth readings.checkedAgainAt s2.db.retention)
    (hrdy : ServicesReady S.toStore trust readings.attempt r.job.a9 s2.db)
    (hauth : EnqueueAuthority S trust readings.attempt r s2.db a route)
    (hroom : EnqueueRoom r s2.db) :
    ∃ s', S.enqueueDeliveryJob trust readings r s = .ok (.accepted r.jobID, s') := by
  have hcls : r.job.trafficClass ≠ .unknown := by
    intro hunknown
    have hclas := hval.2.2.2.2.2.2.2.2.2.2.2.2.2
    rw [SerializedDeliveryJob.ClassValid, hunknown] at hclas
    exact hclas
  unfold enqueueDeliveryJob
  rw [require_bind_of hargu, require_bind_of hval, require_bind_of hmode,
    bind_of_ok (mapError_ok.mpr hsafe), bind_of_ok (mapError_ok.mpr hrecover)]
  -- the last guard changes the lookup root binding only
  have hlast : ∀ t : Session, t.db = { s2.db with keyBinding := t.db.keyBinding } →
      EnqueueAuthority S trust readings.attempt r t.db a route ∧ EnqueueRoom r t.db := by
    intro t hdb
    rw [hdb]
    exact ⟨⟨hauth.found, hauth.matches_, hauth.unexpired, hauth.gate6,
      hauth.routed⟩, ⟨hroom.unseen, hroom.room, hroom.fresh⟩⟩
  cases hsnap : r.job.a9 with
  | none =>
    obtain ⟨⟨⟩, t, ht⟩ := requireRetentionSafeTx_succeeds hrdy.bound hagain
    obtain ⟨-, hdb, -⟩ := Store.requireRetentionSafeTx_ok.mp ht
    obtain ⟨hauth', hroom'⟩ := hlast t (by rw [hdb])
    show ∃ s', (do
      Tx.mapError (fun _ => .deliveryQueueUnavailable)
        (S.requireRetentionSafeTx readings.checkedAgainAt)
      S.insertJobTx readings.attempt r none : VaultTx EnqueueResult) s2 = .ok (_, s')
    rw [bind_of_ok (mapError_ok.mpr ht)]
    exact insertJobTx_accepts hcls hauth' (hauth.gate6 hsnap).symm hsnap.symm hroom'
  | some snap =>
    obtain ⟨current, hmem, hcur, hbind, -⟩ := hauth.routed snap hsnap
    obtain ⟨t, ht, hdb⟩ := currentRoute_succeeds ⟨readings.attempt.host, readings.attempt.db⟩
      hrdy.bound hrdy.retention hcur
    obtain ⟨hauth', hroom'⟩ := hlast t hdb
    have hnow : current.databaseNow = readings.attempt.db := currentRoute_databaseNow hcur
    have haligned : a9TrustClockAligned readings.attempt.host current.databaseNow := by
      rw [hnow]
      exact hrdy.aligned (by rw [hsnap]; rfl)
    have hrt : S.enqueueRouteTx trust readings.attempt r snap s2 = .ok (current, t) := by
      unfold enqueueRouteTx
      rw [require_bind_of (hrdy.trust snap hsnap), bind_of_ok (mapError_ok.mpr ht), bind_of_ok
        (expect_ok.mpr ⟨rfl, rfl⟩), require_bind_of haligned, require_bind_of hbind]
      rfl
    show ∃ s', (do
      let route ← S.enqueueRouteTx trust readings.attempt r snap
      S.insertJobTx readings.attempt r (some (snap, route)) : VaultTx EnqueueResult) s2 =
        .ok (_, s')
    rw [bind_of_ok hrt]
    exact insertJobTx_accepts hcls hauth' hmem.symm hsnap.symm hroom'

end Enqueue

end NotificationServer
