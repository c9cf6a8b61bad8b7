import NotificationServer.Gate6.Progress
import NotificationServer.Run

/-!
# When a sweep and a revocation complete

The exact conditions, in every reachable state and at every time from its latest
clock reading on.  Both operations retire the key history of the leases they
delete.  A history row outlives its lease by the deletion horizon, so a lease
that stays behind for longer makes every later attempt fail.
-/

namespace NotificationServer

open Relational Tx Sample

namespace Store

variable {S : Store} {clock now : Time} {s : Session} {db : Db} {control : PolicyControl}
  {expires controlExpiresAt : Time} {i : InstallationRow}

theorem reachable_clock {s : Sys} (h : S.system.Reachable s) : zeroTime < s.clock := by
  refine h.invariant (P := fun s => zeroTime < s.clock) ?_ ?_
  · rintro s ⟨-, hclk⟩
    exact hclk
  · rintro s e s' - hlt ⟨-, -, hclk⟩
    rw [hclk]
    exact lt_of_lt_of_le hlt (le_max_left _ _)

theorem reachable_routes {s : Sys} (ha9 : S.a9Enabled = false) (h : S.system.Reachable s) :
    s.db.routes = [] := by
  refine h.invariant (P := fun s => s.db.ledger.routes = []) (fun s hs => ?_) ?_
  · rw [hs.1]
    rfl
  · rintro s e s' - hrts ⟨hop, ⟨t, hbody, hvault, -⟩, -⟩
    have hnot : ¬ e.op.OfA9 := fun h => absurd (hop h) (by rw [ha9]; decide)
    have hdb : s'.db = t.db := congrArg Vault.db hvault.symm
    have hled := (body_keeps_ledger hbody (fun c e he => hnot (he ▸ trivial))
      (fun c w he => hnot (he ▸ trivial)) fun c random r k he => hnot (he ▸ trivial)).1
    rw [hdb, hled]
    exact hrts

/-- The key history of a kept lease is current until the deletion horizon after its expiry. -/
theorem retirable_iff {p : LeaseRow → Prop} (hk : db.Kept S clock) (hdb : db.Constraints)
    (hnow : clock ≤ now) :
    db.Retirable p now ↔ ∀ l ∈ db.leases, p l → now < l.expiresAt + deletionHorizon := by
  refine forall₂_congr fun l hl => imp_congr_right fun _ => ?_
  obtain ⟨_, _, _, _, _, _, hh⟩ := hk.leases l hl
  exact hh.current_iff hdb.routeKeyHistory.key hnow

theorem unrouted_of_deleted {db' : Db} {p : LeaseRow → Prop} (hdb : db.Constraints)
    (hdb' : db'.Constraints) (hrts : db'.routes = db.routes)
    (hls : ∀ l ∈ db'.leases, l ∈ db.leases ∧ ¬ p l) : db.Unrouted p := by
  intro r hr l hl hid hp
  rw [← hrts] at hr
  obtain ⟨l', hl', hkey⟩ := hdb'.routes.lease.exists_parent hr rfl
  obtain ⟨hl', hp'⟩ := hls l' hl'
  have hsame : l' = l := hdb.leases.key.eq_of_key_eq hl' hl
    ((congrArg Prod.fst hkey).trans hid.symm)
  exact hp' (hsame ▸ hp)

theorem sweepTx_succeeds_iff {readings : SweepClock} (hk : s.db.Kept S clock)
    (hclk : clock ≤ readings.startedAt) (hzero : zeroTime < readings.startedAt) :
    Succeeds (S.sweepTx readings) s ↔ s.db.Unrouted (fun l => l.expiresAt ≤ readings.startedAt) ∧
      ∀ l ∈ s.db.leases, l.expiresAt ≤ readings.startedAt →
        readings.startedAt < l.expiresAt + deletionHorizon := by
  rw [← retirable_iff hk s.valid hclk]
  constructor
  · rintro ⟨outcome, s', h⟩
    have hswept := (sweepTx_ok h).1
    have hfr := (sweepTx_keeps _ _ _ h).frame
    refine ⟨unrouted_of_deleted s.valid s'.valid (Session.routes_of_frame hfr) fun l hl => ?_, ?_⟩
    · obtain ⟨hl, hlive, -⟩ := (hswept.leases l).mp hl
      exact ⟨hl, by lia⟩
    · simp only [sweepTx, deleteExpiredVaultRows, tombstoneExpiredLeases, mapError_ok,
        bind_ok, query_ok] at h
      obtain ⟨_, s0, hbd, _, _, ⟨_, s1, ⟨_, _, ⟨rfl, rfl⟩, hretire⟩, -⟩, -⟩ := h
      have hk0 := (requireLookupKeyBoundTx_rests _ _ _ hbd).preserves le_rfl hk
      have hret := retirable_of_retired S hk0 hretire
      rwa [(requireLookupKeyBoundTx_ok.mp hbd).2.1] at hret
  · rintro ⟨hrts, hret⟩
    refine .mapError (.bind (requireLookupKeyBoundTx_succeeds hk.bound) fun _ s0 h0 => ?_)
    have hk0 := (requireLookupKeyBoundTx_rests _ _ _ h0).preserves le_rfl hk
    obtain ⟨-, hdb0, -⟩ := requireLookupKeyBoundTx_ok.mp h0
    refine .bind (deleteExpiredVaultRows_succeeds hk0 (ne_of_gt hzero) ?_ ?_) fun _ s1 _ =>
      .bind (query_succeeds _) fun _ s2 _ => .bind (exec_succeeds (s2.valid.retention _))
      fun _ _ _ => .pure _
    · rw [hdb0]
      exact hret
    · rw [hdb0]
      exact hrts

/-- A sweep commits and leaves nothing that had expired at its start; retention is safe afterwards
unless an erasure is overdue. -/
def SweepCompletes (S : Store) (readings : SweepClock) (s : Session) : Prop :=
  ∃ outcome s', S.sweep readings s = (s', .ok outcome) ∧
    (∀ l ∈ s'.db.leases, readings.startedAt < l.expiresAt) ∧
    (∀ i ∈ s'.db.installations, readings.startedAt < i.expiresAt) ∧
    (s'.db.retention.isSafe = true ↔ ¬ s'.db.OverdueErasure readings.completedAt)

theorem sweepCompletes_iff {s : Sys} (h : S.system.Reachable s) {readings : SweepClock}
    (hlat : s.clock ≤ readings.startedAt) :
    S.SweepCompletes readings s.session ↔
      s.db.Unrouted (fun l => l.expiresAt ≤ readings.startedAt) ∧
      ∀ l ∈ s.db.leases, l.expiresAt ≤ readings.startedAt →
        readings.startedAt < l.expiresAt + deletionHorizon := by
  -- The first transaction always commits and touches only the retention row.
  obtain ⟨_, s1, h1⟩ : Succeeds (markRetentionUnsafe readings.startedAt) s.session :=
    exec_succeeds (s.session.valid.retention _)
  obtain ⟨hdb1, -⟩ := exec_ok.mp h1
  have hk1 : s1.db.Kept S s.clock :=
    (markRetentionUnsafe_rests _ _ _ h1).preserves le_rfl (reachable_kept h)
  have hzero : zeroTime < readings.startedAt := lt_of_lt_of_le (reachable_clock h) hlat
  have hiff := sweepTx_succeeds_iff hk1 hlat hzero
  rw [hdb1] at hiff
  refine Iff.trans ?_ hiff
  constructor
  · rintro ⟨outcome, s', hs', -⟩
    cases htx : S.sweepTx readings s1 with
    | error e =>
      simp only [Store.sweep, h1, htx] at hs'
      cases congrArg Prod.snd hs'
    | ok r => exact ⟨r.1, r.2, htx⟩
  · rintro ⟨outcome, s', htx⟩
    obtain ⟨hswept, hsafe⟩ := sweepTx_ok htx
    refine ⟨outcome, s', by simp only [Store.sweep, h1, htx], fun l hl => ((hswept.leases l).mp hl).2.1,
      fun i hi => ?_, hsafe⟩
    rw [hswept.installations, mem_deleteWhere] at hi
    exact not_le.mp hi.2

/-- Of the rows as transactions leave them, the one of `id` is found while its lookup period is the
current or the previous one. -/
theorem findInstallation_kept (hk : s.db.Kept S clock) (id : Bytes32) (now : Time) :
    ∃ r, S.findInstallation id now s = .ok (r, s) ∧ ∀ i, r = some i ↔
      i ∈ s.db.installations ∧ i.installationIdentity = S.installationDeletionIdentity id ∧
        i.lookupKeyEpoch ∈ candidateEpochs now := by
  have hlook : ∀ i ∈ s.db.installations, ∀ epoch,
      i.installationLookup = S.installationLookup epoch id ↔
        i.installationIdentity = S.installationDeletionIdentity id ∧ i.lookupKeyEpoch = epoch := by
    intro i hi epoch
    obtain ⟨id', h⟩ := hk.installations i hi
    constructor
    · intro he
      obtain ⟨rfl, hep⟩ := h.eq_of_lookup he
      exact ⟨h.identity, hep⟩
    · rintro ⟨he, rfl⟩
      obtain rfl := h.eq_of_identity he
      exact h.lookup
  cases hrow : (candidateEpochs now).findSome? fun epoch => s.db.installations.find? fun i =>
      i.installationLookup = S.installationLookup epoch id with
  | none =>
    refine ⟨none, bind_ok.mpr ⟨none, s, query_ok.mpr ⟨hrow, rfl⟩, rfl⟩, fun i => ?_⟩
    constructor
    · exact fun h => absurd h (by simp)
    · rintro ⟨hi, hid, hep⟩
      have hnone := List.findSome?_eq_none_iff.mp hrow _ hep
      have hne := List.find?_eq_none.mp hnone i hi
      exact absurd ((hlook i hi _).mpr ⟨hid, rfl⟩) (by simpa using hne)
  | some r =>
    obtain ⟨epoch, hep, hfind⟩ := List.exists_of_findSome?_eq_some hrow
    obtain ⟨hr, hfd⟩ := found hfind
    obtain ⟨hid, rfl⟩ := (hlook r hr epoch).mp hfd
    refine ⟨some r, bind_ok.mpr ⟨some r, s, query_ok.mpr ⟨hrow, rfl⟩, bind_ok.mpr
      ⟨(), s, require_ok.mpr ⟨hid, rfl⟩, rfl⟩⟩, fun i => ?_⟩
    constructor
    · intro h
      cases h
      exact ⟨hr, hid, hep⟩
    · rintro ⟨hi, hid', -⟩
      rw [s.valid.installations.identity_key.eq_of_key_eq hi hr (hid'.trans hid.symm)]

/-- A verified REVOKED control above the stored epoch of its installation and for the stored
incarnation, if a row is stored. -/
structure RevokesStored (S : Store) (now : Time) (control : PolicyControl) (db : Db) : Prop where
  revoked : control.state = .revoked
  verified : S.verifyPolicyControl control now control.installationID control.accountIncarnationID
  above : ∀ i ∈ db.installations,
    i.installationIdentity = S.installationDeletionIdentity control.installationID →
      i.policyEpoch < control.policyEpoch ∧
      S.incarnationLookup i.lookupKeyEpoch control.accountIncarnationID = i.incarnationLookup

/-- A revocation comes down to what it does once it has looked for the row. -/
theorem advancePolicy_revoked {s0 : Session} {r : Option InstallationRow} {t : Unit × Session}
    (hrev : control.state = .revoked)
    (hveri : S.verifyPolicyControl control now control.installationID
      control.accountIncarnationID) (hexp : control.expiresAt = some expires)
    (hbd : S.requireLookupKeyBoundTx s = .ok ((), s0))
    (hfind : S.findInstallation control.installationID now s0 = .ok (r, s0)) :
    S.advancePolicy now control s = .ok t ↔
      S.advanceFoundPolicyTx control (controlExpiry control now expires) now r s0 = .ok t := by
  have hguard : Tx.mapError (fun _ => VaultError.storeUnavailable) (S.policyGuardTx control now) s =
      .ok ((), s0) := by
    rw [mapError_ok]
    simp only [policyGuardTx, hrev]
    exact hbd
  have hteen : control.state = .active → control.agePolicy = .teen →
      S.teenConversationEnabled = true := fun h => absurd (hrev.symm.trans h) (by decide)
  unfold advancePolicy advancePolicyTx
  rw [mapError_ok, require_bind_of hveri, require_bind_of hteen,
    bind_of_ok (expect_ok.mpr ⟨hexp, rfl⟩), bind_of_ok hguard, bind_of_ok hfind]

/-- The two ways a revocation above the stored epoch goes on. -/
theorem advanceFoundPolicyTx_revoked {t : Unit × Session}
    (hinca : S.incarnationLookup i.lookupKeyEpoch control.accountIncarnationID =
      i.incarnationLookup) (habv : i.policyEpoch < control.policyEpoch) :
    S.advanceFoundPolicyTx control controlExpiresAt now (some i) s = .ok t ↔
      advanceStoredPolicyTx control controlExpiresAt now i s = .ok t := by
  have hnot : ¬ control.policyEpoch < i.policyEpoch := by omega
  have hne : ¬ control.policyEpoch = i.policyEpoch := by omega
  simp only [advanceFoundPolicyTx]
  rw [require_bind_of hinca]
  simp only [hnot, hne, if_false]

theorem controlExpiry_le (control : PolicyControl) (now expires : Time) :
    controlExpiry control now expires ≤ now + minute := by
  have httl : control.agePolicy.controlTTL ≤ minute := by
    cases control.agePolicy <;> decide
  have := min_le_right expires (now + control.agePolicy.controlTTL)
  unfold controlExpiry
  lia

/-- The INTEGER column holds the active key version unless its conversion wraps. -/
theorem validKeyVersion_iff (k : Keyring) :
    ValidKeyVersion k.activeVersionColumn ↔ k.activeVersion ≤ 2147483647 := by
  have hpos := k.active_pos
  have hlt := k.active_lt
  unfold ValidKeyVersion Keyring.activeVersionColumn
  rw [BitVec.toInt_eq_toNat_cond, BitVec.toNat_ofNat, Nat.mod_eq_of_lt hlt]
  split <;> omega

/-- When the revocation of a row that was found commits. -/
theorem advanceStoredPolicyTx_succeeds_iff (hk : s.db.Kept S clock) (hclk : clock ≤ now)
    (hi : i ∈ s.db.installations) (hrev : control.state = .revoked)
    (hep : Between 1 maxSafeInteger control.policyEpoch) :
    Succeeds (advanceStoredPolicyTx control (controlExpiry control now expires) now i) s ↔
      s.db.Unrouted (fun l => l.installationLookup = i.installationLookup) ∧
      ∀ l ∈ s.db.leases, l.installationLookup = i.installationLookup →
        now < l.expiresAt + deletionHorizon := by
  rw [← retirable_iff hk s.valid hclk]
  simp only [advanceStoredPolicyTx, hrev]
  constructor
  · rintro ⟨_, s', h⟩
    simp only [bind_ok] at h
    obtain ⟨_, s1, hrevoke, -⟩ := h
    obtain ⟨t, hrest, hdb1⟩ := revokeAllLeases_ok S hrevoke
    refine ⟨unrouted_of_deleted s.valid s1.valid
      (Session.routes_of_frame (revokeAllLeases_keeps _ _ _ hrevoke).frame) fun l hl => ?_, ?_⟩
    · rw [hdb1] at hl
      obtain ⟨hl, hne⟩ := mem_deleteWhere.mp hl
      exact ⟨hrest.leases ▸ hl, hne⟩
    · simp only [revokeAllLeases, bind_ok, query_ok] at hrevoke
      obtain ⟨_, s2, hmark, _, _, ⟨rfl, rfl⟩, _, _, hretire, -⟩ := hrevoke
      have hk2 := (markDeliveryJobsSafetyForInstallationTx_rests _ _ _ hmark).preserves
        le_rfl hk
      have hret := retirable_of_retired S hk2 hretire
      rwa [(exec_ok.mp hmark).1] at hret
  · rintro ⟨hrts, hret⟩
    refine .bind (revokeAllLeases_succeeds S hret hrts) fun _ s1 h1 =>
      .bind (upsertDeletionTombstone_succeeds (s.valid.installations.key_version i hi) hep)
      fun _ s2 h2 => ?_
    obtain ⟨t, hrest, hdb1⟩ := revokeAllLeases_ok S h1
    have hrows : s2.db.installations = s.db.installations := by
      have hrest2 : s1.Rests S (fun _ => True) now s2 :=
        upsertDeletionTombstone_rests _ _ _ h2
      rw [hrest2.installations, hdb1]
      exact hrest.installations
    refine exec_succeeds (s2.valid.updateInstallation (fun _ => rfl) (fun _ => rfl)
      (fun _ _ _ => hep.1) (fun r hr _ => s2.valid.installations.key_version r hr)
      (fun r hr _ => ?_) fun _ _ _ => controlExpiry_le control now expires)
    have hexp := s2.valid.installations.expiry r hr
    obtain ⟨_, hkept⟩ := hk.installations r (hrows ▸ hr)
    have hrefr := hkept.refreshed
    change r.expiresAt ≤ now + maxLeaseTTL
    lia

/-- When the revocation of an installation that was not found commits. -/
theorem advanceUnknownPolicyTx_succeeds_iff (hk : s.db.Kept S clock)
    (hrev : control.state = .revoked) (hep : Between 1 maxSafeInteger control.policyEpoch) :
    Succeeds (S.advanceUnknownPolicyTx control (controlExpiry control now expires) now) s ↔
      (∀ i ∈ s.db.installations,
        i.installationIdentity ≠ S.installationDeletionIdentity control.installationID) ∧
      S.encryption.activeVersion ≤ 2147483647 := by
  simp only [advanceUnknownPolicyTx, hrev]
  constructor
  · rintro ⟨_, s', h⟩
    simp only [bind_ok] at h
    obtain ⟨_, s1, hinsert, -⟩ := h
    have hval := s1.valid
    rw [(exec_ok.mp hinsert).1] at hval
    refine ⟨(unique_cons.mp hval.installations.identity_key).1, ?_⟩
    rw [← validKeyVersion_iff]
    exact hval.installations.key_version _ (.head _)
  · rintro ⟨hnone, hver⟩
    have hcolumn := (validKeyVersion_iff S.encryption).mpr hver
    have hpos := S.encryption.active_pos
    have httl := S.leaseTTL_le
    refine .bind (exec_succeeds (s.valid.insertInstallation (fun r hr he => ?_) hnone hep.1
      hcolumn ?_ (controlExpiry_le control now expires))) fun _ s1 _ =>
      upsertDeletionTombstone_succeeds ⟨by omega, by omega⟩ hep
    · obtain ⟨id, hkept⟩ := hk.installations r hr
      obtain ⟨rfl, -⟩ := hkept.eq_of_lookup he
      exact hnone r hr hkept.identity
    · change now + S.leaseTTL ≤ now + maxLeaseTTL
      lia

/-- The installation `id` has no token, no lease and none of the jobs of its former leases. -/
structure Cleared (S : Store) (id : Bytes32) (db db' : Db) : Prop where
  token : ∀ i ∈ db'.installations, i.installationIdentity = S.installationDeletionIdentity id →
    i.encryptedAPNSToken = none
  lease : ∀ l ∈ db'.leases, l.installationIdentity ≠ S.installationDeletionIdentity id
  job : ∀ j ∈ db'.jobs, ∀ l ∈ db.leases,
    l.installationIdentity = S.installationDeletionIdentity id → j.leaseID ≠ some l.leaseID

/-- Jobs go with the leases they are enqueued on. -/
theorem Cleared.of_leases {id : Bytes32} {db' : Db} (hdb : db.Constraints) (hdb' : db'.Constraints)
    (hsub : ∀ l ∈ db'.leases, l ∈ db.leases) (htok : ∀ i ∈ db'.installations,
      i.installationIdentity = S.installationDeletionIdentity id → i.encryptedAPNSToken = none)
    (hls : ∀ l ∈ db'.leases, l.installationIdentity ≠ S.installationDeletionIdentity id) :
    Cleared S id db db' := by
  refine ⟨htok, hls, fun j hj l hl hidentity hjob => ?_⟩
  obtain ⟨l', hl', hid⟩ := hdb'.jobs.lease.exists_parent hj hjob
  have hsame : l' = l := hdb.leases.key.eq_of_key_eq (hsub l' hl') hl hid
  exact hls l' hl' (hsame ▸ hidentity)

/-- The leases of an installation are those stored under the lookup of its row. -/
theorem Kept.identity_iff {l : LeaseRow} (hk : db.Kept S clock) (hdb : db.Constraints)
    (hi : i ∈ db.installations) (hl : l ∈ db.leases) :
    l.installationIdentity = i.installationIdentity ↔
      l.installationLookup = i.installationLookup := by
  obtain ⟨i', hi', hlook, hid, -⟩ := hk.installation_of_lease hl
  rw [← hlook, ← hid]
  constructor
  · intro he
    rw [hdb.installations.identity_key.eq_of_key_eq hi' hi he]
  · intro he
    rw [hdb.installations.key.eq_of_key_eq hi' hi he]

theorem advanceStoredPolicyTx_cleared {s' : Session} {id : Bytes32} {u : Unit}
    (hk : s.db.Kept S clock) (hi : i ∈ s.db.installations)
    (hid : i.installationIdentity = S.installationDeletionIdentity id)
    (hrev : control.state = .revoked)
    (h : advanceStoredPolicyTx control controlExpiresAt now i s = .ok (u, s')) :
    Cleared S id s.db s'.db := by
  simp only [advanceStoredPolicyTx, hrev, bind_ok] at h
  obtain ⟨_, s1, hrevoke, _, s2, hfence, hupdate⟩ := h
  obtain ⟨t, hrest, hdb1⟩ := revokeAllLeases_ok S hrevoke
  have hrest2 : s1.Rests S (fun _ => True) now s2 :=
    upsertDeletionTombstone_rests _ _ _ hfence
  obtain ⟨hdb, -⟩ := exec_ok.mp hupdate
  have hls : s'.db.leases =
      deleteWhere (fun l => l.installationLookup = i.installationLookup) s.db.leases := by
    rw [hdb]
    change s2.db.leases = _
    rw [hrest2.leases, hdb1]
    simp only [Db.deleteLeases, hrest.leases]
  have hrows : s'.db.installations = updateWhere
      (fun r => r.installationLookup = i.installationLookup)
      (.revoking control controlExpiresAt now) s.db.installations := by
    rw [hdb]
    simp only [Db.updateInstallation, hrest2.installations, hdb1, Db.deleteLeases,
      hrest.installations]
  refine .of_leases s.valid s'.valid (fun l hl => ?_) (fun r hr he => ?_) fun l hl he => ?_
  · rw [hls] at hl
    exact (mem_deleteWhere.mp hl).1
  · rw [hrows] at hr
    rcases mem_updateWhere.mp hr with ⟨_, -, -, rfl⟩ | ⟨hr, hne⟩
    · rfl
    · have hsame := s.valid.installations.identity_key.eq_of_key_eq hr hi
        (he.trans hid.symm)
      exact absurd (congrArg _ hsame) hne
  · rw [hls] at hl
    obtain ⟨hl, hne⟩ := mem_deleteWhere.mp hl
    exact hne ((Kept.identity_iff hk s.valid hi hl).mp (he.trans hid.symm))

theorem advanceUnknownPolicyTx_cleared {s' : Session} {u : Unit} (hk : s.db.Kept S clock)
    (hrev : control.state = .revoked)
    (h : S.advanceUnknownPolicyTx control controlExpiresAt now s = .ok (u, s')) :
    Cleared S control.installationID s.db s'.db := by
  simp only [advanceUnknownPolicyTx, hrev, bind_ok] at h
  obtain ⟨_, s1, hinsert, hfence⟩ := h
  have hrest : s1.Rests S (fun _ => True) now s' :=
    upsertDeletionTombstone_rests _ _ _ hfence
  obtain ⟨hdb1, -⟩ := exec_ok.mp hinsert
  have hval := s1.valid
  rw [hdb1] at hval
  have hnone := (unique_cons.mp hval.installations.identity_key).1
  have hls : s'.db.leases = s.db.leases := by
    rw [hrest.leases, hdb1]
  refine .of_leases s.valid s'.valid (fun l hl => hls ▸ hl) (fun r hr he => ?_)
    fun l hl he => ?_
  · rw [hrest.installations, hdb1] at hr
    rcases List.mem_cons.mp hr with rfl | hr
    · rfl
    · exact absurd he (hnone r hr)
  · rw [hls] at hl
    obtain ⟨r, hr, -, hid, -⟩ := hk.installation_of_lease hl
    exact hnone r hr (hid.trans he)

def RevocationCompletes (S : Store) (now : Time) (control : PolicyControl) (s : Session) : Prop :=
  ∃ s', S.advancePolicy now control s = .ok ((), s') ∧ Cleared S control.installationID s.db s'.db

theorem revocationCompletes_iff {s : Sys} (h : S.system.Reachable s) (hlat : s.clock ≤ now)
    (hrev : RevokesStored S now control s.db) :
    S.RevocationCompletes now control s.session ↔ (∀ i ∈ s.db.installations,
        i.installationIdentity = S.installationDeletionIdentity control.installationID →
          i.lookupKeyEpoch ∈ candidateEpochs now) ∧
      ((∀ i ∈ s.db.installations,
        i.installationIdentity ≠ S.installationDeletionIdentity control.installationID) →
          S.encryption.activeVersion ≤ 2147483647) ∧
      s.db.Unrouted (fun l =>
        l.installationIdentity = S.installationDeletionIdentity control.installationID) ∧
      ∀ l ∈ s.db.leases,
        l.installationIdentity = S.installationDeletionIdentity control.installationID →
          now < l.expiresAt + deletionHorizon := by
  have hk : s.session.db.Kept S s.clock := reachable_kept h
  obtain ⟨-, hep, -, ⟨_, -, expires, hexp, -⟩, -⟩ := hrev.verified
  obtain ⟨_, s0, h0⟩ := requireLookupKeyBoundTx_succeeds hk.bound
  have hk0 := (requireLookupKeyBoundTx_rests _ _ _ h0).preserves le_rfl hk
  obtain ⟨-, hdb0, -⟩ := requireLookupKeyBoundTx_ok.mp h0
  have hrows : s0.db.installations = s.db.installations := by rw [hdb0]; rfl
  have hls : s0.db.leases = s.db.leases := by rw [hdb0]; rfl
  obtain ⟨r, hfind, hr⟩ := findInstallation_kept hk0 control.installationID now
  rw [hrows] at hr
  -- The revocation completes exactly when what follows the search commits.
  have hiff : ∀ x : VaultTx Unit,
      (∀ t, S.advanceFoundPolicyTx control (controlExpiry control now expires) now r s0 = .ok t ↔
        x s0 = .ok t) →
      (∀ u s', x s0 = .ok (u, s') → Cleared S control.installationID s0.db s'.db) →
      (S.RevocationCompletes now control s.session ↔ Succeeds x s0) := by
    intro x hx hcleared
    have hrun := fun s' => (advancePolicy_revoked (t := ((), s')) hrev.revoked
      hrev.verified hexp h0 hfind).trans (hx ((), s'))
    constructor
    · rintro ⟨s', hs', -⟩
      exact ⟨(), s', (hrun s').mp hs'⟩
    · rintro ⟨_, s', hs'⟩
      obtain ⟨htok, hlease, hjob⟩ := hcleared _ _ hs'
      rw [hls] at hjob
      exact ⟨s', (hrun s').mpr hs', htok, hlease, hjob⟩
  cases r with
  | none =>
    rw [hiff (S.advanceUnknownPolicyTx control (controlExpiry control now expires) now)
        (fun _ => Iff.rfl) fun _ _ hs' =>
          advanceUnknownPolicyTx_cleared hk0 hrev.revoked hs',
      advanceUnknownPolicyTx_succeeds_iff hk0 hrev.revoked hep, hrows]
    constructor
    · rintro ⟨hnone, hver⟩
      have hlease : ∀ l ∈ s.db.leases, l.installationIdentity ≠
          S.installationDeletionIdentity control.installationID := fun l hl he => by
        obtain ⟨i, hi, -, hidentity, -⟩ := hk.installation_of_lease hl
        exact hnone i hi (hidentity.trans he)
      exact ⟨fun i hi he => absurd he (hnone i hi), fun _ => hver,
        fun _ _ l hl _ => hlease l hl, fun l hl he => absurd he (hlease l hl)⟩
    · rintro ⟨hcand, hver, -, -⟩
      have hnone : ∀ i ∈ s.db.installations, i.installationIdentity ≠
          S.installationDeletionIdentity control.installationID := fun i hi he => by
        have := (hr i).mpr ⟨hi, he, hcand i hi he⟩
        cases this
      exact ⟨hnone, hver hnone⟩
  | some i =>
    obtain ⟨hi, hidentity, hcand⟩ := (hr i).mp rfl
    obtain ⟨habv, hinca⟩ := hrev.above i hi hidentity
    have hi0 : i ∈ s0.db.installations := hrows ▸ hi
    rw [hiff _ (fun _ => advanceFoundPolicyTx_revoked hinca habv) fun _ _ hs' =>
        advanceStoredPolicyTx_cleared hk0 hi0 hidentity hrev.revoked hs',
      advanceStoredPolicyTx_succeeds_iff hk0 hlat hi0 hrev.revoked hep]
    have hlease : ∀ l ∈ s.db.leases, l.installationLookup = i.installationLookup ↔
        l.installationIdentity = S.installationDeletionIdentity control.installationID := by
      intro l hl
      rw [← hidentity, Kept.identity_iff hk s.session.valid hi hl]
    have hrts : s0.db.routes = s.db.routes := by rw [hdb0]; rfl
    simp only [Db.Unrouted, hls, hrts]
    constructor
    · rintro ⟨hunro, hcur⟩
      refine ⟨fun i' hi' he => ?_, fun hnone => absurd hidentity (hnone i hi),
        fun r hr l hl hid he => hunro r hr l hl hid ((hlease l hl).mpr he),
        fun l hl he => hcur l hl ((hlease l hl).mpr he)⟩
      rw [s.session.valid.installations.identity_key.eq_of_key_eq hi' hi (he.trans hidentity.symm)]
      exact hcand
    · rintro ⟨-, -, hunro, hcur⟩
      exact ⟨fun r hr l hl hid he => hunro r hr l hl hid ((hlease l hl).mp he),
        fun l hl he => hcur l hl ((hlease l hl).mp he)⟩

theorem eraseInstallationTx_keeps (now : Time) (i : InstallationRow) :
    Moves Session.Framed (eraseInstallationTx now i) :=
  .bind query_moves fun _ => .bind (.forEach fun _ _ => retireLeaseTx_keeps) fun _ =>
    .bind (exec_keeps fun _ => rfl) fun _ =>
    .bind markDeliveryJobsSafetyForInstallationTx_keeps fun _ =>
    .bind (exec_keeps fun _ => rfl) fun _ => upsertDeletionTombstone_keeps

theorem eraseInstallationTx_succeeds_iff (hk : s.db.Kept S clock) (hclk : clock ≤ now)
    (hi : i ∈ s.db.installations) :
    Succeeds (eraseInstallationTx now i) s ↔
      s.db.Unrouted (fun l => l.installationLookup = i.installationLookup) ∧
      ∀ l ∈ s.db.leases, l.installationLookup = i.installationLookup →
        now < l.expiresAt + deletionHorizon := by
  rw [← retirable_iff hk s.valid hclk]
  constructor
  · rintro ⟨_, s', h⟩
    have he := eraseInstallationTx_ok S h
    refine ⟨unrouted_of_deleted s.valid s'.valid
      (Session.routes_of_frame (eraseInstallationTx_keeps _ _ _ _ _ h).frame) fun l hl => ?_, ?_⟩
    · rw [he.leases] at hl
      exact mem_deleteWhere.mp hl
    · simp only [eraseInstallationTx, bind_ok, query_ok] at h
      obtain ⟨_, _, ⟨rfl, rfl⟩, _, _, hretire, -⟩ := h
      exact retirable_of_retired S hk hretire
  · rintro ⟨hrts, hret⟩
    obtain ⟨_, hkept⟩ := hk.installations i hi
    refine .bind (query_succeeds _) fun leases s0 h0 => ?_
    obtain ⟨rfl, rfl⟩ := query_ok.mp h0
    refine .bind (retireSelected_succeeds hret) fun _ s1 h1 => ?_
    have hrest := retireLeases_rests (S := S) (R := fun _ => True) (fun _ _ => trivial) _ _ _ h1
    have hfr := (Moves.forEach (fun l _ => retireLeaseTx_keeps) _ _ _ h1).frame
    refine .bind (exec_succeeds (s1.valid.updateInstallation (fun _ => rfl) (fun _ => rfl)
      (fun r hr _ => s1.valid.installations.policy_epoch_pos r hr)
      (fun r hr _ => s1.valid.installations.key_version r hr)
      (fun r hr _ => le_trans (min_le_left _ _) (s1.valid.installations.expiry r hr))
      fun r hr _ => le_trans (min_le_left _ _) (s1.valid.installations.control_expiry r hr)))
      fun _ s2 h2 =>
      .bind markDeliveryJobsSafetyForInstallationTx_succeeds fun _ s3 h3 =>
      .bind (exec_succeeds (s3.valid.deleteLeases (hrts.congr ?_ ?_))) fun _ _ _ =>
      upsertDeletionTombstone_succeeds (s.valid.installations.key_version i hi)
        ⟨s.valid.installations.policy_epoch_pos i hi, hkept.policy_epoch⟩
    · rw [(exec_ok.mp h3).1, (exec_ok.mp h2).1]
      exact Session.routes_of_frame hfr
    · rw [(exec_ok.mp h3).1, (exec_ok.mp h2).1]
      exact hrest.leases

/-- The erasure of a row that stores the failed token. -/
theorem eraseInvalidAPNSTokenTx_of_erased {s0 s' : Session} {stored : Sealed Bytes} {token : Bytes}
    (hbd : S.requireLookupKeyBoundTx s = .ok ((), s0)) (hi : i ∈ s0.db.installations)
    (hsto : i.encryptedAPNSToken = some stored)
    (hopen : S.encryption.openValue (.installation i.installationLookup .apnsToken) stored =
      some token) (h : eraseInstallationTx now i s0 = .ok ((), s')) :
    S.eraseInvalidAPNSTokenTx now i.installationLookup token s = .ok (some (), s') := by
  have hfind : (s0.db.installations.find? fun r =>
      r.installationLookup = i.installationLookup) = some i :=
    s0.valid.installations.key.find?_eq_some hi
  unfold eraseInvalidAPNSTokenTx
  rw [bind_of_ok hbd, bind_of_ok (query_ok.mpr ⟨hfind, rfl⟩)]
  simp only [hsto]
  rw [bind_of_ok (expect_ok.mpr ⟨hopen, rfl⟩), if_neg (not_not.mpr rfl), bind_of_ok h]
  rfl

/-- An erasure commits and leaves neither the token nor a lease of the row. -/
def ErasureCompletes (S : Store) (now : Time) (lookup : LookupDigest) (token : Bytes)
    (s : Session) : Prop :=
  ∃ s', S.eraseInvalidAPNSToken now lookup token s = .ok (some (), s') ∧
    (∀ i ∈ s'.db.installations, i.installationLookup = lookup → i.encryptedAPNSToken = none) ∧
    ∀ l ∈ s'.db.leases, l.installationLookup ≠ lookup

theorem erasureCompletes_iff {s : Sys} {stored : Sealed Bytes} {token : Bytes}
    (h : S.system.Reachable s) (hlat : s.clock ≤ now) (hi : i ∈ s.db.installations)
    (hsto : i.encryptedAPNSToken = some stored)
    (hopen : S.encryption.openValue (.installation i.installationLookup .apnsToken) stored =
      some token) :
    S.ErasureCompletes now i.installationLookup token s.session ↔ token.length = 32 ∧
      s.db.Unrouted (fun l => l.installationLookup = i.installationLookup) ∧
      ∀ l ∈ s.db.leases, l.installationLookup = i.installationLookup →
        now < l.expiresAt + deletionHorizon := by
  have hk : s.session.db.Kept S s.clock := reachable_kept h
  obtain ⟨⟨⟩, s0, h0⟩ := requireLookupKeyBoundTx_succeeds hk.bound
  have hk0 := (requireLookupKeyBoundTx_rests _ _ _ h0).preserves le_rfl hk
  obtain ⟨-, hdb0, -⟩ := requireLookupKeyBoundTx_ok.mp h0
  have hrows : s0.db.installations = s.db.installations := by rw [hdb0]; rfl
  have hiff := eraseInstallationTx_succeeds_iff hk0 hlat (hrows ▸ hi)
  simp only [Db.Unrouted, hdb0] at hiff
  refine Iff.trans ?_ (and_congr_right fun _ => hiff)
  constructor
  · rintro ⟨s', hs', -⟩
    obtain ⟨hnone, -⟩ | ⟨-, hlen, s0', i', _, h0', hi', hlook, -, -, hera⟩ :=
      eraseInvalidAPNSToken_ok hs'
    · cases hnone
    obtain rfl : i' = i := s.session.valid.installations.key.eq_of_key_eq hi' hi hlook
    obtain rfl : s0' = s0 := by
      rw [h0] at h0'
      exact (congrArg Prod.snd (Except.ok.inj h0')).symm
    exact ⟨hlen, _, s', hera⟩
  · rintro ⟨hlen, ⟨⟩, s', hera⟩
    have he := eraseInstallationTx_ok S hera
    refine ⟨s', ?_, fun r hr hlook => ?_, fun l hl => ?_⟩
    · unfold eraseInvalidAPNSToken
      rw [require_bind_of hlen, mapError_ok, orRollback_ok]
      exact .inl ⟨rfl, eraseInvalidAPNSTokenTx_of_erased h0 (hrows ▸ hi) hsto hopen hera⟩
    · rw [he.installations] at hr
      rcases mem_updateWhere.mp hr with ⟨_, -, -, rfl⟩ | ⟨-, hne⟩
      · rfl
      · exact absurd hlook hne
    · rw [he.leases] at hl
      exact (mem_deleteWhere.mp hl).2

theorem unrouted_of_nil (h : db.routes = []) (p : LeaseRow → Prop) : db.Unrouted p := by
  intro r hr
  rw [h] at hr
  cases hr

/-- Without A9 a sweep completes exactly if no lease has stayed behind its expiry for as long as the
deletion horizon. -/
theorem sweep_completes_without_a9_iff {s : Sys} (ha9 : S.a9Enabled = false)
    (h : S.system.Reachable s) {readings : SweepClock} (hlater : s.clock ≤ readings.startedAt) :
    S.SweepCompletes readings s.session ↔ ∀ l ∈ s.db.leases, l.expiresAt ≤ readings.startedAt →
        readings.startedAt < l.expiresAt + deletionHorizon := by
  rw [sweepCompletes_iff h hlater, and_iff_right_iff_imp]
  exact fun _ => unrouted_of_nil (reachable_routes ha9 h) _

/-- Seven days after the refresh the sweep completes. -/
theorem sweep_completes_without_a9_sample :
    ∃ s, Sample.gate6.system.Reachable s ∧ s.db.leases.length = 1 ∧ Sample.gate6.SweepCompletes
        ⟨Sample.start + 7 * day, Sample.start + 7 * day, Sample.start + 7 * day⟩ s.session := by
  obtain ⟨s, hs, hlen, hexp, hclk⟩ := exists_reachable (S := gate6) refreshed
    (P := fun s => s.db.leases.length = 1 ∧
      (∀ l ∈ s.db.leases, start + 7 * day < l.expiresAt + deletionHorizon) ∧
      s.clock ≤ start + 7 * day) (by decide +kernel)
  exact ⟨s, hs, hlen, (sweep_completes_without_a9_iff rfl hs hclk).mpr fun l hl _ => hexp l hl⟩

/-- The first sweep in fifteen days fails: the key history its expired lease must be retired in is
no longer current. -/
theorem late_sweep_fails :
    ∃ s, Sample.gate6.system.Reachable s ∧ s.clock ≤ Sample.start + 15 * day ∧
      ¬ Sample.gate6.SweepCompletes
        ⟨Sample.start + 15 * day, Sample.start + 15 * day, Sample.start + 15 * day⟩ s.session := by
  obtain ⟨s, hs, hclk, e, hfails⟩ := exists_reachable (S := gate6) refreshed
    (P := fun s => s.clock ≤ start + 15 * day ∧ ∃ e, (gate6.sweep
        ⟨start + 15 * day, start + 15 * day, start + 15 * day⟩ s.session).2 = .error e)
    (by decide +kernel)
  refine ⟨s, hs, hclk, ?_⟩
  rintro ⟨outcome, s', hs', -⟩
  rw [hs'] at hfails
  cases hfails

/-- Without A9 a revocation completes exactly if the row is stored under a current lookup (or, if
there is none, its fence can be stored) and no lease is past the deletion horizon. -/
theorem revocation_completes_without_a9_iff {s : Sys} {control : PolicyControl}
    (ha9 : S.a9Enabled = false) (h : S.system.Reachable s) (hlater : s.clock ≤ now)
    (hrevokes : RevokesStored S now control s.db) :
    S.RevocationCompletes now control s.session ↔ (∀ i ∈ s.db.installations,
        i.installationIdentity = S.installationDeletionIdentity control.installationID →
          i.lookupKeyEpoch ∈ candidateEpochs now) ∧
      ((∀ i ∈ s.db.installations,
        i.installationIdentity ≠ S.installationDeletionIdentity control.installationID) →
          S.encryption.activeVersion ≤ 2147483647) ∧
      ∀ l ∈ s.db.leases,
        l.installationIdentity = S.installationDeletionIdentity control.installationID →
          now < l.expiresAt + deletionHorizon := by
  rw [revocationCompletes_iff h hlater hrevokes]
  have hrts := unrouted_of_nil (reachable_routes ha9 h) fun l =>
    l.installationIdentity = S.installationDeletionIdentity control.installationID
  constructor
  · rintro ⟨hcand, hver, -, hcur⟩
    exact ⟨hcand, hver, hcur⟩
  · rintro ⟨hcand, hver, hcur⟩
    exact ⟨hcand, hver, hrts, hcur⟩

/-- One day after the refresh the revocation completes. -/
theorem revocation_completes_without_a9_sample :
    ∃ s, Sample.gate6.system.Reachable s ∧ s.db.leases.length = 1 ∧
      Sample.gate6.RevocationCompletes (Sample.start + day)
        (Sample.policy 2 .revoked (Sample.start + day)) s.session := by
  obtain ⟨s, hs, hlen, hclk, habv, hcand, hcur⟩ :=
    exists_reachable (S := gate6) refreshed
    (P := fun s => s.db.leases.length = 1 ∧ s.clock ≤ start + day ∧
      (∀ i ∈ s.db.installations, i.policyEpoch < 2 ∧
        gate6.incarnationLookup i.lookupKeyEpoch 6 = i.incarnationLookup) ∧
      (∀ i ∈ s.db.installations, i.lookupKeyEpoch ∈ candidateEpochs (start + day)) ∧
      ∀ l ∈ s.db.leases, start + day < l.expiresAt + deletionHorizon) (by decide +kernel)
  refine ⟨s, hs, hlen, (revocation_completes_without_a9_iff rfl hs hclk
    ⟨rfl, by decide, fun i hi _ => habv i hi⟩).mpr ⟨fun i hi _ => hcand i hi, fun _ => by decide,
      fun l hl _ => hcur l hl⟩⟩

/-- Eight days after the refresh the revocation fails: the row is no longer found, and its identity
is not free for a fence. -/
theorem late_revocation_fails :
    ∃ s, Sample.gate6.system.Reachable s ∧ s.clock ≤ Sample.start + 8 * day ∧
      RevokesStored Sample.gate6 (Sample.start + 8 * day)
        (Sample.policy 2 .revoked (Sample.start + 8 * day)) s.db ∧
      ¬ Sample.gate6.RevocationCompletes (Sample.start + 8 * day)
        (Sample.policy 2 .revoked (Sample.start + 8 * day)) s.session := by
  obtain ⟨s, hs, hclk, habv, e, hfails⟩ := exists_reachable (S := gate6) refreshed
    (P := fun s => s.clock ≤ start + 8 * day ∧ (∀ i ∈ s.db.installations, i.policyEpoch < 2 ∧
        gate6.incarnationLookup i.lookupKeyEpoch 6 = i.incarnationLookup) ∧
      ∃ e, gate6.advancePolicy (start + 8 * day) (policy 2 .revoked (start + 8 * day)) s.session =
        .error e) (by decide +kernel)
  refine ⟨s, hs, hclk, ⟨rfl, by decide, fun i hi _ => habv i hi⟩, ?_⟩
  rintro ⟨s', hs', -⟩
  cases hfails.symm.trans hs'

/-- The three ways leases are deleted, in every reachable state and at every later time: each
completes exactly if no route is on a lease it deletes, the deletion horizon of those leases has not
passed, and the row is found. -/
theorem deletions_complete_iff {s : Sys} (h : S.system.Reachable s) :
    (∀ readings : SweepClock, s.clock ≤ readings.startedAt → (S.SweepCompletes readings s.session ↔
        s.db.Unrouted (fun l => l.expiresAt ≤ readings.startedAt) ∧
        ∀ l ∈ s.db.leases, l.expiresAt ≤ readings.startedAt →
          readings.startedAt < l.expiresAt + deletionHorizon)) ∧
    (∀ now control, s.clock ≤ now → RevokesStored S now control s.db →
      (S.RevocationCompletes now control s.session ↔ (∀ i ∈ s.db.installations,
          i.installationIdentity = S.installationDeletionIdentity control.installationID →
            i.lookupKeyEpoch ∈ candidateEpochs now) ∧
        ((∀ i ∈ s.db.installations,
          i.installationIdentity ≠ S.installationDeletionIdentity control.installationID) →
            S.encryption.activeVersion ≤ 2147483647) ∧
        s.db.Unrouted (fun l =>
          l.installationIdentity = S.installationDeletionIdentity control.installationID) ∧
        ∀ l ∈ s.db.leases,
          l.installationIdentity = S.installationDeletionIdentity control.installationID →
            now < l.expiresAt + deletionHorizon)) ∧
    ∀ now, ∀ i ∈ s.db.installations, ∀ stored token, s.clock ≤ now →
      i.encryptedAPNSToken = some stored →
      S.encryption.openValue (.installation i.installationLookup .apnsToken) stored = some token →
      (S.ErasureCompletes now i.installationLookup token s.session ↔ token.length = 32 ∧
        s.db.Unrouted (fun l => l.installationLookup = i.installationLookup) ∧
        ∀ l ∈ s.db.leases, l.installationLookup = i.installationLookup →
          now < l.expiresAt + deletionHorizon) :=
  ⟨fun _ hlater => sweepCompletes_iff h hlater,
    fun _ _ hlater hrevokes => revocationCompletes_iff h hlater hrevokes,
    fun _ _ hi _ _ hlater hstored hopen => erasureCompletes_iff h hlater hi hstored hopen⟩

/-- Behind a live route none of the three completes once it concerns the lease. -/
theorem deletions_complete_sample :
    ∃ s, Sample.store.system.Reachable s ∧ s.db.routes.length = 1 ∧
      ¬ Sample.store.SweepCompletes
        ⟨Sample.start + 7 * day, Sample.start + 7 * day, Sample.start + 7 * day⟩ s.session := by
  obtain ⟨s, hs, hlen, ⟨r, hr, l, hl, hid, hexp⟩, hclk⟩ :=
    exists_reachable (S := store) routed
    (P := fun s => s.db.routes.length = 1 ∧
      (∃ r ∈ s.db.routes, ∃ l ∈ s.db.leases, l.leaseID = r.leaseID ∧
        l.expiresAt ≤ start + 7 * day) ∧
      s.clock ≤ start + 7 * day) (by decide +kernel)
  refine ⟨s, hs, hlen, fun hcomp => ?_⟩
  have hunro := (((deletions_complete_iff hs).1 _ hclk).mp hcomp).1
  exact hunro r hr l hl hid hexp

/-- With a live route, on the day of the last sweep: neither the revocation above the stored epoch
nor the erasure of the stored token completes, and once the lease has expired neither does a sweep. -/
theorem routed_lease_not_deleted :
    ∃ s, Sample.store.system.Reachable s ∧ s.clock ≤ Sample.start ∧
      RevokesStored Sample.store Sample.start (Sample.policy 2 .revoked Sample.start) s.db ∧
      ¬ Sample.store.RevocationCompletes Sample.start (Sample.policy 2 .revoked Sample.start)
        s.session ∧
      (∃ i ∈ s.db.installations, ∃ stored ∈ i.encryptedAPNSToken,
        Sample.store.encryption.openValue (.installation i.installationLookup .apnsToken) stored =
          some (bytesOf 32 4) ∧
        ¬ Sample.store.ErasureCompletes Sample.start i.installationLookup (bytesOf 32 4) s.session) ∧
      ¬ Sample.store.SweepCompletes
        ⟨Sample.start + 7 * day, Sample.start + 7 * day, Sample.start + 7 * day⟩ s.session := by
  obtain ⟨s, hs, hclk, habv, ⟨e, hrevo⟩, ⟨i, hi, stored, hsto, hopen, e', hera⟩, e'', hsweep⟩ :=
    exists_reachable (S := store) routed
    (P := fun s => s.clock ≤ start ∧ (∀ i ∈ s.db.installations, i.policyEpoch < 2 ∧
        store.incarnationLookup i.lookupKeyEpoch 6 = i.incarnationLookup) ∧
      (∃ e, store.advancePolicy start (policy 2 .revoked start) s.session = .error e) ∧
      (∃ i ∈ s.db.installations, ∃ stored ∈ i.encryptedAPNSToken,
        store.encryption.openValue (.installation i.installationLookup .apnsToken) stored =
          some (bytesOf 32 4) ∧
        ∃ e, store.eraseInvalidAPNSToken start i.installationLookup (bytesOf 32 4) s.session =
          .error e) ∧
      ∃ e, (store.sweep ⟨start + 7 * day, start + 7 * day, start + 7 * day⟩ s.session).2 = .error e)
    (by decide +kernel)
  refine ⟨s, hs, hclk, ⟨rfl, by decide, fun i hi _ => habv i hi⟩, ?_,
    ⟨i, hi, stored, hsto, hopen, ?_⟩, ?_⟩
  · rintro ⟨s', hs', -⟩
    cases hrevo.symm.trans hs'
  · rintro ⟨s', hs', -⟩
    cases hera.symm.trans hs'
  · rintro ⟨outcome, s', hs', -⟩
    rw [hs'] at hsweep
    cases hsweep

end Store

end NotificationServer
