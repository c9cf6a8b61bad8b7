import NotificationServer.Gate6.Resting

/-!
# What revocation, erasure and the sweep remove

Each of the three retires the key history of the leases it is about to delete,
finalizes their jobs and deletes them; what else it does to installation rows
differs.  The lemmas say what a committed run left of the routing tables, and
that the key history of every deleted lease was still current.
-/

namespace NotificationServer

open Relational Tx

variable {at_ markedAt : Time} {clock : SweepClock} {safe : Bool}

/-- The routes of the leases `p` selects. -/
def Db.RoutesOf (db : Db) (p : LeaseRow → Prop) (r : LookupDigest) : Prop :=
  ∃ l ∈ db.leases, p l ∧ l.routeIdentity = r

theorem Db.routesOf_congr {db db' : Db} (h : db.leases = db'.leases) (p : LeaseRow → Prop) :
    db.RoutesOf p = db'.RoutesOf p := by
  unfold Db.RoutesOf
  rw [h]

namespace Store

variable {S : Store} {now : Time} {s s' : Session} {u : Unit}

theorem retireLeaseTx_ok {l : LeaseRow} (h : retireLeaseTx now l s = .ok (u, s')) :
    s.db.HistoryCurrent l.routeIdentity l.routeKeyEpoch now := by
  simp only [retireLeaseTx, retireRouteKeyHistory, bind_ok, require_ok, query_ok] at h
  obtain ⟨-, _, ⟨-, rfl⟩, -, _, ⟨-, _, ⟨-, rfl⟩, _, _, ⟨rfl, rfl⟩, -, _, ⟨hcur, -⟩, -⟩, -⟩ := h
  exact of_decide_eq_true hcur

/-- Retiring leases leaves installation rows, leases and other routes' key history alone. -/
theorem retireLeases_rests {R : LookupDigest → Prop} {leases : List LeaseRow}
    (hR : ∀ l ∈ leases, R l.routeIdentity) :
    Moves (Session.Rests S R now) (Tx.forEach leases (retireLeaseTx now)) :=
  .forEach fun l hl => retireLeaseTx_rests (hR l hl)

/-- Leases that were retired had a current key history: no two of them share a route, so that no
round could renew the history another one finds. -/
theorem retireLeases_current (S : Store) {leases : List LeaseRow}
    (hrts : (leases.map fun l => l.routeIdentity).Nodup)
    (h : Tx.forEach leases (retireLeaseTx now) s = .ok (u, s')) :
    ∀ l ∈ leases, s.db.HistoryCurrent l.routeIdentity l.routeKeyEpoch now := by
  induction leases generalizing s with
  | nil => simp
  | cons l ls ih =>
    simp only [Tx.forEach, bind_ok] at h
    obtain ⟨_, s1, hl, hls⟩ := h
    rw [List.map_cons, List.nodup_cons] at hrts
    have hcur := retireLeaseTx_ok hl
    intro l' hl'
    rcases List.mem_cons.mp hl' with rfl | hl'
    · exact hcur
    obtain ⟨r, hr, hkey, hlt⟩ := ih hrts.2 hls l' hl'
    have hrt : r.routeIdentity = l'.routeIdentity := congrArg Prod.fst hkey
    have hne : ¬ r.routeIdentity = l.routeIdentity := fun he =>
      hrts.1 (List.mem_map.mpr ⟨l', hl', hrt.symm.trans he⟩)
    have hmv := (retireLeaseTx_rests (S := S) (R := fun r => r = l.routeIdentity) rfl
      s _ s1 hl).history
    exact ⟨r, (hmv r hne).1 hr, hkey, hlt⟩

theorem routes_nodup {clock : Time} {db : Db} (hk : db.Kept S clock) (hdb : db.Constraints)
    (p : LeaseRow → Prop) [DecidablePred p] :
    ((db.leases.filter fun l => p l).map fun l => l.routeIdentity).Nodup := by
  have hnd : (db.leases.filter fun l => p l).Nodup :=
    (List.Nodup.of_map _ hdb.leases.key).filter _
  refine hnd.map_on fun l hl l' hl' hrt => ?_
  exact hk.route_unique hdb (List.mem_filter.mp hl).1 (List.mem_filter.mp hl').1 hrt

theorem revokeAllLeases_ok (S : Store) {lookup : LookupDigest}
    (h : revokeAllLeases lookup now s = .ok (u, s')) :
    ∃ t, s.Rests S (s.db.RoutesOf fun l => l.installationLookup = lookup) now t ∧
      s'.db = t.db.deleteLeases (fun l => l.installationLookup = lookup) := by
  simp only [revokeAllLeases, bind_ok, query_ok, exec_ok] at h
  obtain ⟨_, s1, hmark, _, _, ⟨rfl, rfl⟩, _, t, hloop, hdb, -⟩ := h
  have h1 : s.Rests S (s.db.RoutesOf fun l => l.installationLookup = lookup) now s1 :=
    markDeliveryJobsSafetyForInstallationTx_rests _ _ _ hmark
  refine ⟨t, h1.trans (retireLeases_rests (fun l hl => ?_) _ _ _ hloop), hdb⟩
  rw [List.mem_filter, h1.leases] at hl
  exact ⟨l, hl.1, of_decide_eq_true hl.2, rfl⟩

structure Swept (S : Store) (now : Time) (s s' : Session) : Prop where
  installations : s'.db.installations = deleteWhere (fun i => i.expiresAt ≤ now) s.db.installations
  leases : ∀ l, l ∈ s'.db.leases ↔ l ∈ s.db.leases ∧ now < l.expiresAt ∧
    ¬ s.db.LeaseOfInstallation (fun i => i.expiresAt ≤ now) l
  bound : (∀ k ∈ s.db.keyBinding, k = S.rootCommitment) →
    ∀ k ∈ s'.db.keyBinding, k = S.rootCommitment
  history : HistoryMoves (s.db.RoutesOf fun l => l.expiresAt ≤ now) now s.db.routeKeyHistory
    s'.db.routeKeyHistory

theorem tombstoneExpiredLeases_rests (S : Store) (h : tombstoneExpiredLeases now s = .ok (u, s')) :
    s.Rests S (s.db.RoutesOf fun l => l.expiresAt ≤ now) now s' := by
  simp only [tombstoneExpiredLeases, bind_ok, query_ok] at h
  obtain ⟨_, _, ⟨rfl, rfl⟩, h⟩ := h
  refine retireLeases_rests (fun l hl => ?_) _ _ _ h
  rw [List.mem_filter] at hl
  exact ⟨l, hl.1, of_decide_eq_true hl.2, rfl⟩

section

variable {R : LookupDigest → Prop}

theorem tombstoneExpiredInstallations_rests :
    Moves (Session.Rests S R now) (tombstoneExpiredInstallations at_) :=
  .bind query_moves fun _ => .forEach fun _ _ => upsertDeletionTombstone_rests

theorem markExpiredDeliveryJobsTx_rests :
    Moves (Session.Rests S R now) (markExpiredDeliveryJobsTx at_) :=
  .require_bind fun _ => exec_rests fun _ => rfl

theorem markExpiringAuthorityDeliveryJobs_rests :
    Moves (Session.Rests S R now) (markExpiringAuthorityDeliveryJobs at_ markedAt) :=
  .bind query_moves fun _ =>
    .bind (.forEach fun _ _ => markDeliveryJobsSafetyForLeaseTx_rests) fun _ =>
    .bind query_moves fun _ =>
    .forEach fun _ _ => markDeliveryJobsSafetyForInstallationTx_rests

theorem completeDeliveryMarkersTx_rests : Moves (Session.Rests S R now) completeDeliveryMarkersTx :=
  .bind query_moves fun _ => .forEach fun _ _ => exec_rests fun _ => rfl

theorem deleteExpiredHistory_rests :
    Moves (Session.Rests S R now)
      (exec fun db => db.deleteHistory fun h => h.expiresAt ≤ now) :=
  exec_rests_history (fun _ => rfl) fun _ => .deleteWhere fun _ h => h

theorem markRetentionUnsafe_rests :
    Moves (Session.Rests S R now) (markRetentionUnsafe at_) :=
  exec_rests fun _ => rfl

theorem recordSweep_rests :
    Moves (Session.Rests S R now) (S.recordSweep clock safe) :=
  exec_rests fun _ => rfl

end

theorem deleteExpiredVaultRows_ok (S : Store) {markedAt : Time}
    (h : deleteExpiredVaultRows now markedAt s = .ok (u, s')) : Swept S now s s' := by
  simp only [deleteExpiredVaultRows, bind_ok] at h
  obtain ⟨_, s1, hretire, _, s2, hfence, _, s3, hjobs, _, s4, hmark, _, s5, hcomp, _, s6,
    hhist, _, s7, hls, _, s8, hrows, hfen⟩ := h
  -- Up to the deletion of expired history no lease and no installation row is written.
  have hrest : s.Rests S (s.db.RoutesOf fun l => l.expiresAt ≤ now) now s6 :=
    (tombstoneExpiredLeases_rests S hretire).trans <|
      (tombstoneExpiredInstallations_rests _ _ _ hfence).trans <|
      (markExpiredDeliveryJobsTx_rests _ _ _ hjobs).trans <|
      (markExpiringAuthorityDeliveryJobs_rests _ _ _ hmark).trans <|
      (completeDeliveryMarkersTx_rests _ _ _ hcomp).trans <|
      deleteExpiredHistory_rests _ _ _ hhist
  simp only [exec_ok] at hls hrows hfen
  obtain ⟨hdb7, -⟩ := hls
  obtain ⟨hdb8, -⟩ := hrows
  obtain ⟨hdb', -⟩ := hfen
  refine ⟨?_, fun l => ?_, ?_, ?_⟩
  · rw [hdb', hdb8, hdb7]
    simp only [Db.deleteInstallations, Db.deleteLeases, hrest.installations]
  · rw [hdb', hdb8, hdb7]
    simp only [Db.deleteInstallations, Db.deleteLeases, mem_deleteWhere, Db.LeaseOfInstallation,
      hrest.installations, hrest.leases, and_assoc, not_le]
  · rw [hdb', hdb8, hdb7]
    exact hrest.bound
  · rw [hdb', hdb8, hdb7]
    exact hrest.history

theorem Swept.of_rests {s0 s1 : Session} (h0 : s.Rests S (fun _ => False) now s0)
    (h : Swept S now s0 s1) (h1 : s1.Rests S (fun _ => False) now s') : Swept S now s s' := by
  refine ⟨?_, fun l => ?_, h1.bound ∘ h.bound ∘ h0.bound, ?_⟩
  · rw [h1.installations, h.installations, h0.installations]
  · rw [h1.leases, h.leases, h0.leases]
    simp only [Db.LeaseOfInstallation, h0.installations]
  · have hhist := h.history
    rw [Db.routesOf_congr h0.leases] at hhist
    exact (h0.history.mono fun _ => False.elim).trans
      (hhist.trans (h1.history.mono fun _ => False.elim))

/-- A committed sweep: what it removed, and when it left retention safe. -/
theorem sweepTx_ok {clock : SweepClock} {outcome : SweepOutcome}
    (h : S.sweepTx clock s = .ok (outcome, s')) :
    Swept S clock.startedAt s s' ∧
      (s'.db.retention.isSafe = true ↔ ¬ s'.db.OverdueErasure clock.completedAt) := by
  simp only [sweepTx, mapError_ok, bind_ok, query_ok, pure_ok] at h
  obtain ⟨_, s0, hbd, _, s1, hdel, _, _, ⟨rfl, rfl⟩, _, s2, hrec, -, rfl⟩ := h
  refine ⟨.of_rests (requireLookupKeyBoundTx_rests _ _ _ hbd)
    (deleteExpiredVaultRows_ok S hdel) (recordSweep_rests _ _ _ hrec), ?_⟩
  obtain ⟨hdb, -⟩ := exec_ok.mp hrec
  have hoverdue : s2.db.OverdueErasure clock.completedAt ↔
      s1.db.OverdueErasure clock.completedAt := by
    rw [hdb]
    exact Iff.rfl
  rw [hoverdue, hdb]
  simp

structure Erased (S : Store) (now : Time) (lookup : LookupDigest) (s s' : Session) : Prop where
  installations : s'.db.installations =
    updateWhere (fun i => i.installationLookup = lookup) (.erased now) s.db.installations
  leases : s'.db.leases = deleteWhere (fun l => l.installationLookup = lookup) s.db.leases
  bound : (∀ k ∈ s.db.keyBinding, k = S.rootCommitment) →
    ∀ k ∈ s'.db.keyBinding, k = S.rootCommitment
  history : HistoryMoves (s.db.RoutesOf fun l => l.installationLookup = lookup) now
    s.db.routeKeyHistory s'.db.routeKeyHistory

theorem eraseInstallationTx_ok (S : Store) {i : InstallationRow}
    (h : eraseInstallationTx now i s = .ok (u, s')) : Erased S now i.installationLookup s s' := by
  simp only [eraseInstallationTx, bind_ok, query_ok] at h
  obtain ⟨_, _, ⟨rfl, rfl⟩, _, s1, hretire, _, s2, hrow, _, s3, hmark, _, s4, hls, hfence⟩ := h
  have h1 := retireLeases_rests (S := S)
    (R := s.db.RoutesOf fun l => l.installationLookup = i.installationLookup)
    (fun l hl => ⟨l, (List.mem_filter.mp hl).1, of_decide_eq_true (List.mem_filter.mp hl).2, rfl⟩)
    _ _ _ hretire
  have h3 : s2.Rests S (s.db.RoutesOf fun l => l.installationLookup = i.installationLookup) now
      s3 := markDeliveryJobsSafetyForInstallationTx_rests _ _ _ hmark
  have h4 : s4.Rests S (s.db.RoutesOf fun l => l.installationLookup = i.installationLookup) now
      s' := upsertDeletionTombstone_rests _ _ _ hfence
  obtain ⟨hdb2, -⟩ := exec_ok.mp hrow
  obtain ⟨hdb4, -⟩ := exec_ok.mp hls
  refine ⟨?_, ?_, fun hb => h4.bound ?_, h1.history.trans ?_⟩
  · rw [h4.installations, hdb4]
    simp only [Db.deleteLeases, h3.installations, hdb2, Db.updateInstallation, h1.installations]
  · rw [h4.leases, hdb4]
    simp only [Db.deleteLeases, h3.leases, hdb2, Db.updateInstallation, h1.leases]
  · rw [hdb4]
    refine h3.bound ?_
    rw [hdb2]
    exact h1.bound hb
  · have hhist := h3.history
    rw [hdb2] at hhist
    have h5 := h4.history
    rw [hdb4] at h5
    exact hhist.trans h5

/-- An erasure that committed found the failed token stored, one that did not left everything. -/
theorem eraseInvalidAPNSToken_ok {lookup : LookupDigest} {token : Bytes} {r : Option Unit}
    (h : S.eraseInvalidAPNSToken now lookup token s = .ok (r, s')) :
    (r = none ∧ s' = s) ∨ (r = some () ∧ token.length = 32 ∧ ∃ s0 i stored,
      S.requireLookupKeyBoundTx s = .ok ((), s0) ∧ i ∈ s.db.installations ∧
      i.installationLookup = lookup ∧ i.encryptedAPNSToken = some stored ∧
      S.encryption.openValue (.installation lookup .apnsToken) stored = some token ∧
      eraseInstallationTx now i s0 = .ok ((), s')) := by
  simp only [eraseInvalidAPNSToken, bind_ok, require_ok, mapError_ok, orRollback_ok] at h
  obtain ⟨_, _, ⟨hlen, rfl⟩, ⟨hsome, h⟩ | ⟨rfl, rfl, -⟩⟩ := h
  · refine .inr ?_
    simp only [eraseInvalidAPNSTokenTx, bind_ok, query_ok] at h
    obtain ⟨_, s0, hbd, row, _, ⟨hrow, rfl⟩, h⟩ := h
    cases row with
    | none =>
      obtain ⟨rfl, -⟩ := pure_ok.mp h
      cases hsome
    | some i =>
      cases hsto : i.encryptedAPNSToken with
      | none =>
        simp only [hsto, pure_ok] at h
        obtain ⟨rfl, -⟩ := h
        cases hsome
      | some stored =>
        simp only [hsto, bind_ok, expect_ok, ite_ok, pure_ok] at h
        obtain ⟨current, _, ⟨hopen, rfl⟩, ⟨-, rfl, -⟩ | ⟨hne, _, _, hera, rfl, rfl⟩⟩ := h
        · cases hsome
        · have hdb := (requireLookupKeyBoundTx_ok.mp hbd).2.1
          rw [hdb] at hrow
          obtain rfl : current = token := not_not.mp hne
          exact ⟨rfl, hlen, s0, i, stored, hbd, (found hrow).1, (found hrow).2, hsto, hopen, hera⟩
  · exact .inl ⟨rfl, rfl⟩

end Store

end NotificationServer
