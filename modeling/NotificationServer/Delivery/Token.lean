import NotificationServer.Delivery.Attempts
import NotificationServer.Delivery.Progress
import NotificationServer.Routing.Installations
import NotificationServer.Gate6.Completion

/-!
# The token along the pipeline

`RegisterVerified` stores tokens of 1 to 256 bytes.  The steps after it are
listed in `TokenAccepted`: routing, enqueueing, the attempt, the conversion to
an erasure and the erasure.  The checks on a job and both erasure steps ask for
32 bytes, so the stored token passes them all only at that length.
-/

namespace NotificationServer

open Relational DeliveryStore Tx

variable {S : DeliveryStore} {s : Session} {now : Time} {i : InstallationRow} {token : Bytes}

/-- The job passes every check but that on the length of its token. -/
def SerializedDeliveryJob.OtherwiseValid (j : SerializedDeliveryJob) (now : Time) : Prop :=
  validateSerializedDeliveryJob { j with deviceToken := some (List.replicate 32 0) } now

theorem SerializedDeliveryJob.OtherwiseValid.valid {j : SerializedDeliveryJob}
    (h : j.OtherwiseValid now) (htok : j.deviceToken = some token) (hlen : token.length = 32) :
    validateSerializedDeliveryJob j now := by
  obtain ⟨hera, -, hrest⟩ := h
  exact ⟨hera, ⟨token, htok, hlen⟩, hrest⟩

def Store.TokenOpens (S : Store) (i : InstallationRow) : Prop :=
  ∃ stored token, i.encryptedAPNSToken = some stored ∧
    S.encryption.openValue (.installation i.installationLookup .apnsToken) stored = some token

/-- The ids decode, and the rows they are routed to have tokens that open. -/
def Store.RoutesOpen (S : Store) (now : Time) (db : Db) (ids : List (Option Bytes16)) : Prop :=
  ∀ id ∈ ids, ∃ leaseID, id = some leaseID ∧
    ∀ i, db.routedInstallation leaseID now = some i → S.TokenOpens i

theorem getInstallation_of_none {S : Store} {leaseID : Bytes16}
    (hrow : s.db.routedInstallation leaseID now = none) :
    S.getInstallation now (some leaseID) s = .ok (none, s) := by
  unfold Store.getInstallation
  rw [bind_of_ok (expect_ok.mpr ⟨rfl, rfl⟩), bind_of_ok (query_ok.mpr ⟨hrow, rfl⟩)]
  rfl

theorem getInstallation_of_some {S : Store} {leaseID : Bytes16} {stored : Sealed Bytes}
    (hrow : s.db.routedInstallation leaseID now = some i)
    (hsto : i.encryptedAPNSToken = some stored)
    (hopen : S.encryption.openValue (.installation i.installationLookup .apnsToken) stored =
      some token) :
    S.getInstallation now (some leaseID) s = .ok (some ⟨leaseID, token, i.refreshedAt⟩, s) := by
  unfold Store.getInstallation
  rw [bind_of_ok (expect_ok.mpr ⟨rfl, rfl⟩), bind_of_ok (query_ok.mpr ⟨hrow, rfl⟩)]
  simp only
  rw [bind_of_ok (expect_ok.mpr ⟨hsto, rfl⟩), bind_of_ok (expect_ok.mpr ⟨hopen, rfl⟩)]
  rfl

/-- The loop over the ids returns one answer for each. -/
theorem collect_getInstallation {S : Store} {ids : List (Option Bytes16)}
    (hids : S.RoutesOpen now s.db ids) :
    ∃ found, Tx.collect ids (S.getInstallation now) s = .ok (found, s) ∧
      ∀ id ∈ ids, ∃ answer ∈ found, S.getInstallation now id s = .ok (answer, s) := by
  induction ids with
  | nil => exact ⟨[], rfl, by simp⟩
  | cons id ids ih =>
    obtain ⟨found, hfd, hcovers⟩ := ih fun id hid => hids id (.tail _ hid)
    have hrd : ∃ answer, S.getInstallation now id s = .ok (answer, s) := by
      obtain ⟨leaseID, rfl, hopens⟩ := hids id (.head _)
      cases hrow : s.db.routedInstallation leaseID now with
      | none => exact ⟨none, getInstallation_of_none hrow⟩
      | some i =>
        obtain ⟨stored, token, hsto, hopen⟩ := hopens i hrow
        exact ⟨_, getInstallation_of_some hrow hsto hopen⟩
    obtain ⟨answer, hans⟩ := hrd
    refine ⟨answer :: found, ?_, ?_⟩
    · unfold Tx.collect
      rw [bind_of_ok hans, bind_of_ok hfd]
      rfl
    · intro id' hid'
      rcases List.mem_cons.mp hid' with rfl | hid'
      · exact ⟨answer, .head _, hans⟩
      · obtain ⟨answer', hmem, hans'⟩ := hcovers id' hid'
        exact ⟨answer', .tail _ hmem, hans'⟩

/-- `GetInstallations` returns the stored token of every row it is routed to. -/
theorem getInstallations_returns {S : Store} {clock : RoutingClock} {ids : List (Option Bytes16)}
    {leaseID : Bytes16} {stored : Sealed Bytes}
    (hbd : ∀ k ∈ s.db.keyBinding, k = S.rootCommitment)
    (hchecked : Store.retentionHealth clock.checkedAt s.db.retention)
    (hagain : Store.retentionHealth clock.checkedAgainAt s.db.retention)
    (hids : S.RoutesOpen clock.now s.db ids) (hmem : some leaseID ∈ ids)
    (hrow : s.db.routedInstallation leaseID clock.now = some i)
    (hsto : i.encryptedAPNSToken = some stored)
    (hopen : S.encryption.openValue (.installation i.installationLookup .apnsToken) stored =
      some token) :
    ∃ found t, S.getInstallations clock ids s = .ok (found, t) ∧
      ⟨leaseID, token, i.refreshedAt⟩ ∈ found := by
  obtain ⟨⟨⟩, s₁, h1⟩ := requireRetentionSafeTx_succeeds hbd hchecked
  obtain ⟨-, hdb1, -⟩ := Store.requireRetentionSafeTx_ok.mp h1
  have hbd1 : ∀ k ∈ s₁.db.keyBinding, k = S.rootCommitment := by
    rw [hdb1]
    intro k hk
    exact (Option.some.inj hk).symm
  obtain ⟨⟨⟩, s₂, h2⟩ := requireRetentionSafeTx_succeeds hbd1
    (show Store.retentionHealth clock.checkedAgainAt s₁.db.retention by rw [hdb1]; exact hagain)
  obtain ⟨-, hdb2, -⟩ := Store.requireRetentionSafeTx_ok.mp h2
  -- the two guards leave the tables that routing reads
  have hrouted : ∀ id, s₂.db.routedInstallation id clock.now =
      s.db.routedInstallation id clock.now := by
    intro id
    rw [hdb2, hdb1]
    rfl
  have hids2 : S.RoutesOpen clock.now s₂.db ids := by
    intro id hid
    obtain ⟨leaseID, hid, hopens⟩ := hids id hid
    exact ⟨leaseID, hid, fun r hr => hopens r (hrouted leaseID ▸ hr)⟩
  obtain ⟨found, hfd, hcovers⟩ := collect_getInstallation hids2
  obtain ⟨answer, hans, hrd⟩ := hcovers _ hmem
  have hval := getInstallation_of_some ((hrouted leaseID).trans hrow) hsto hopen
  obtain ⟨rfl, -⟩ := Prod.mk.inj (Except.ok.inj (hval.symm.trans hrd))
  refine ⟨found.filterMap id, s₂, ?_, List.mem_filterMap.mpr ⟨_, hans, rfl⟩⟩
  unfold Store.getInstallations
  rw [if_neg (List.ne_nil_of_mem hmem), mapError_ok, bind_of_ok h1, bind_of_ok h2, bind_of_ok hfd]
  rfl

/-- The steps up to the erasure accept the token stored in a row. -/
structure TokenDelivered (S : DeliveryStore) (i : InstallationRow) (token : Bytes) (s : Session) :
    Prop where
  /-- Routing by a current lease of the row returns the token. -/
  routed : ∀ (clock : RoutingClock) ids leaseID,
    Store.retentionHealth clock.checkedAt s.db.retention →
    Store.retentionHealth clock.checkedAgainAt s.db.retention →
    S.RoutesOpen clock.now s.db ids → some leaseID ∈ ids →
    s.db.routedInstallation leaseID clock.now = some i →
    ∃ found t, S.getInstallations clock ids s = .ok (found, t) ∧
      ⟨leaseID, token, i.refreshedAt⟩ ∈ found
  /-- A job for the token, valid but for its length, is queued if its authority is current. -/
  enqueued : ∀ trust (readings : EnqueueClock) r s₁ s₂ a route,
    Between 1 512 r.sourceEventID.length ∧ 0 < r.maxQueued →
    r.job.deviceToken = some token → r.job.OtherwiseValid readings.attempt.host →
    S.a9Enabled = r.job.a9.isSome →
    S.requireRetentionSafeTx readings.checkedAt s = .ok ((), s₁) →
    S.recoverDeliveryJobsTx readings.recoveredAt readings.markedAt s₁ = .ok ((), s₂) →
    Store.retentionHealth readings.checkedAgainAt s₂.db.retention →
    ServicesReady S.toStore trust readings.attempt r.job.a9 s₂.db →
    EnqueueAuthority S trust readings.attempt r s₂.db a route → EnqueueRoom r s₂.db →
    ∃ s', S.enqueueDeliveryJob trust readings r s = .ok (.accepted r.jobID, s')
  /-- A claimed job for the token is granted its attempt if its authority is current. -/
  granted : ∀ trust k c, ∀ j ∈ s.db.jobs, S.Claimed j c →
    Between 1 maxDeliveryAttempts c.attempts → c.expiresAt = c.job.expiration →
    c.job.deviceToken = some token → c.job.OtherwiseValid k.host →
    S.a9Enabled = c.job.a9.isSome → ServicesReady S.toStore trust k c.job.a9 s.db →
    S.Deliverable trust k s.db c →
    ∃ g t, S.acquireDeliveryAttempt trust k c s = .ok (some g, t)
  /-- A claimed job whose provider call rejected the token becomes an erasure job. -/
  converted : ∀ t jobID j trafficClass availableAt, trafficClass ≠ .unknown →
    s.db.claimedInstallation jobID = some (j, i) →
    ∃ s', S.convertInvalidTokenToErasureTx t jobID (some token) trafficClass availableAt s =
      .ok (some i.installationLookup, s') ∧
      ∀ r ∈ s'.db.jobs, r.jobID = jobID → r.state = .erasurePending

/-- Every later step accepts the token stored in a row, and the two erasure steps erase it. -/
structure TokenAccepted (S : DeliveryStore) (now : Time) (i : InstallationRow) (token : Bytes)
    (s : Session) : Prop extends TokenDelivered S i token s where
  erased : S.ErasureCompletes now i.installationLookup token s

/-- Up to the erasure the length of the stored token is all that counts. -/
theorem stored_token_delivered {s : Sys} {stored : Sealed Bytes}
    (h : S.toStore.system.Reachable s) (hstored : i.encryptedAPNSToken = some stored)
    (hopen : S.encryption.openValue (.installation i.installationLookup .apnsToken) stored =
      some token) (hlen : token.length = 32) :
    TokenDelivered S i token s.session := by
  have hbd : ∀ k ∈ s.session.db.keyBinding, k = S.rootCommitment := (Store.reachable_kept h).bound
  refine ⟨?_, ?_, ?_, ?_⟩
  · intro clock ids leaseID hchecked hagain hids hmem hrow
    exact getInstallations_returns hbd hchecked hagain hids hmem hrow hstored hopen
  · intro trust readings r s₁ s₂ a route hargu htok hval hmode hsafe hrecover hagain
      hrdy hauth hroom
    exact enqueueDeliveryJob_accepts hargu (hval.valid htok hlen) hmode hsafe hrecover
      hagain hrdy hauth hroom
  · intro trust k c j hj hcl hatt hexp htok hval hmode hrdy hdeli
    exact acquireDeliveryAttempt_grants hj hcl
      ⟨hatt, hval.valid htok hlen, hexp, hmode⟩ hrdy hdeli
  · intro t jobID j trafficClass availableAt hcls hfd
    exact convertInvalidTokenToErasureTx_succeeds hlen hcls hfd hstored hopen

/-- The token that a row stores is accepted by the whole pipeline exactly if it has 32 bytes and
the erasure of the row can delete its leases: none has a route, and none has outlived its key
history. -/
theorem stored_token_accepted_iff {s : Sys} {stored : Sealed Bytes}
    (h : S.toStore.system.Reachable s) (hlater : s.clock ≤ now) (hi : i ∈ s.db.installations)
    (hstored : i.encryptedAPNSToken = some stored)
    (hopen : S.encryption.openValue (.installation i.installationLookup .apnsToken) stored =
      some token) :
    TokenAccepted S now i token s.session ↔ token.length = 32 ∧
      s.db.Unrouted (fun l => l.installationLookup = i.installationLookup) ∧
      ∀ l ∈ s.db.leases, l.installationLookup = i.installationLookup →
        now < l.expiresAt + deletionHorizon := by
  rw [← Store.erasureCompletes_iff h hlater hi hstored hopen]
  constructor
  · exact fun hacc => hacc.erased
  · intro herased
    obtain ⟨hlen, -⟩ := (Store.erasureCompletes_iff h hlater hi hstored hopen).mp herased
    exact ⟨stored_token_delivered h hstored hopen hlen, herased⟩

namespace DeliverySample

def routedStore : DeliveryStore :=
  { Sample.store with
    welcomeEnabled := false
    codec := { sealJob := fun _ _ => [1], openJob := fun _ _ => some job } }

/-- An installation without subscriptions that registers a token. -/
def registered (token : Bytes) : List Op :=
  Sample.boot ++ [.applyControl Sample.clock (Sample.control 70 1 1 .upsert), .applyWatermark
    Sample.clock (Sample.watermark 70 1 1), .replace Sample.clock Sample.random (Sample.replacement
    70 1 []) Sample.keyset, .register Sample.clock 9 8 token]

/-- An installation with a subscription whose binding is revoked: its route is gone, its lease is
left, and a job is queued on it. -/
def unrouted (token : Bytes) : List Op :=
  Sample.routed ++ [.register Sample.clock 9 8 token, .applyControl Sample.clock (Sample.control
    70 2 2 .revoke), .worker Sample.start ⟨[row], fun _ => none, fun _ => false, fun _ => none,
    false⟩]

/-- The installation row whose token column opens to a token. -/
def Stores (S : Store) (token : Bytes) (s : Sys) : Prop :=
  ∃ i ∈ s.db.installations, ∃ stored ∈ i.encryptedAPNSToken,
    S.encryption.openValue (.installation i.installationLookup .apnsToken) stored = some token
  deriving Decidable

end DeliverySample

open DeliverySample in
/-- A token of one byte is registered and stored, and the pipeline does not accept it. -/
theorem one_byte_token_rejected :
    ∃ s, routedStore.performAll (registered [1]) .fresh = some s ∧
      ∃ i ∈ s.db.installations,
        (∃ stored ∈ i.encryptedAPNSToken,
          routedStore.encryption.openValue (.installation i.installationLookup .apnsToken) stored =
            some [1]) ∧
        ¬ TokenAccepted routedStore Sample.start i [1] s.session := by
  obtain ⟨s, hs, ⟨i, hi, stored, hsto, hopen⟩, hclk⟩ :
      ∃ s ∈ routedStore.performAll (registered [1]) .fresh,
        Stores routedStore.toStore [1] s ∧ s.clock ≤ Sample.start := by
    decide +kernel
  refine ⟨s, hs, i, hi, ⟨stored, hsto, hopen⟩, fun hacc => ?_⟩
  have hlen := (Store.erasureCompletes_iff (Store.performAll_reachable hs) hclk hi hsto
    hopen).mp hacc.erased
  exact absurd hlen.1 (by decide)

open DeliverySample in
/-- A token of 32 bytes of an installation with a lease and a job, but no route. -/
theorem stored_token_accepted_sample :
    ∃ s, routedStore.system.Reachable s ∧ s.db.jobs.length = 1 ∧ ∃ i ∈ s.db.installations,
      (∃ l ∈ s.db.leases, l.installationLookup = i.installationLookup) ∧
      TokenAccepted routedStore Sample.start i (List.replicate 32 7) s.session := by
  obtain ⟨s, hs, ⟨i, hi, ⟨stored, hsto, hopen⟩, hlease⟩, hclk, hjobs, hrts, hls⟩ :=
    Store.exists_reachable (S := routedStore.toStore) (unrouted (List.replicate 32 7))
      (P := fun s => (∃ i ∈ s.db.installations, (∃ stored ∈ i.encryptedAPNSToken,
          routedStore.encryption.openValue (.installation i.installationLookup .apnsToken) stored =
            some (List.replicate 32 7)) ∧
          ∃ l ∈ s.db.leases, l.installationLookup = i.installationLookup) ∧
        s.clock ≤ Sample.start ∧ s.db.jobs.length = 1 ∧ s.db.routes = [] ∧
        ∀ l ∈ s.db.leases, Sample.start < l.expiresAt + deletionHorizon) (by decide +kernel)
  refine ⟨s, hs, hjobs, i, hi, hlease, ?_⟩
  refine (stored_token_accepted_iff hs hclk hi hsto hopen).mpr ⟨by decide, ?_, ?_⟩
  · exact Store.unrouted_of_nil hrts _
  · exact fun l hl _ => hls l hl

end NotificationServer
