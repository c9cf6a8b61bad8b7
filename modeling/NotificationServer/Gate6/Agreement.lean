import NotificationServer.Gate6.Written
import NotificationServer.Run

/-!
# The two refreshes agree

`applyGate6RefreshTx` repeats the transaction of `Refresh` inside an A9
replacement.  It leaves the retention guard to the replacement that runs it and
ends by reading the leases it has written.  Where both accept the generation,
these are the only differences: behind the guard the two transactions commit
from the same states, and leave the same database.
-/

namespace NotificationServer

open Relational Tx Sample

def Db.LeasesOpen (S : Store) (lookup : LookupDigest) (db : Db) : Prop :=
  ∀ l ∈ db.leases, l.installationLookup = lookup → ∃ topic,
    S.encryption.openValue (.lease l.leaseID .topic) l.encryptedTopic = some topic

namespace Store

variable {S : Store} {s s' t : Session} {request : RefreshRequest} {random : Bytes → LeaseDraw}
  {normalized : List NormalizedSubscription} {now markedAt : Time} {expectedGeneration : Nat}

theorem loadExistingLeases_of_open {lookup : LookupDigest} (h : s.db.LeasesOpen S lookup) :
    ∃ leases, S.loadExistingLeases lookup s = .ok (leases, s) := by
  have hrd : ∀ l ∈ s.db.leases.filter fun l => l.installationLookup = lookup,
      ∃ e : ExistingLease, (do
        Tx.require (Between 1 maxUint32 l.routeKeyEpoch) .storeUnavailable
        let topic ← expect (S.encryption.openValue (.lease l.leaseID .topic) l.encryptedTopic)
          .storeUnavailable
        pure { topic := topic, lease := l } : VaultTx ExistingLease) s = .ok (e, s) := by
    intro l hl
    obtain ⟨hl, hlook⟩ := List.mem_filter.mp hl
    obtain ⟨topic, htop⟩ := h l hl (of_decide_eq_true hlook)
    refine ⟨⟨topic, l⟩, ?_⟩
    simp only [bind_ok, require_ok, expect_ok, pure_ok]
    exact ⟨(), s, ⟨s.valid.leases.route_epoch_range l hl, rfl⟩, topic, s, ⟨htop, rfl⟩, rfl, rfl⟩
  obtain ⟨opened, hopen⟩ := Succeeds.collect hrd
  refine ⟨upsertAll (fun e => e.topic) opened [], ?_⟩
  simp only [loadExistingLeases, bind_ok, query_ok, pure_ok]
  exact ⟨_, s, ⟨rfl, rfl⟩, opened, s, hopen, rfl, rfl⟩

theorem upsertLease_leasesOpen {lookup : LookupDigest} {terms : LeaseTerms} {draw : LeaseDraw}
    {sub : NormalizedSubscription} {existing : Option LeaseRow} {u : Unit}
    (hs : s.db.LeasesOpen S lookup)
    (h : S.upsertLease terms markedAt draw sub existing s = .ok (u, s')) :
    s'.db.LeasesOpen S lookup := by
  obtain ⟨nonce, t, hrests, -, hdb⟩ := upsertLease_ok h
  intro l hl hlook
  simp only [hdb, Db.upsertLease, mem_upsert] at hl
  have hnew : ∀ id, ∃ topic, S.encryption.openValue (.lease (S.leaseRow terms sub id nonce).leaseID
      .topic) (S.leaseRow terms sub id nonce).encryptedTopic = some topic :=
    fun id => ⟨sub.topic, Keyring.openValue_sealValue _ _ _⟩
  rcases hl with ⟨_, -, -, rfl⟩ | ⟨hold, -⟩ | ⟨rfl, -⟩
  · exact hnew _
  · rw [hrests.leases] at hold
    exact hs l hold hlook
  · exact hnew _

theorem eraseLease_leasesOpen {lookup : LookupDigest} {lease : LeaseRow} {u : Unit}
    (hs : s.db.LeasesOpen S lookup) (h : S.eraseLease now markedAt lease s = .ok (u, s')) :
    s'.db.LeasesOpen S lookup := by
  obtain ⟨t, hrests, hdb⟩ := eraseLease_ok h
  intro l hl
  rw [hdb] at hl
  have hold := (mem_deleteWhere.mp hl).1
  rw [hrests.leases] at hold
  exact hs l hold

theorem writeRefreshTx_leasesOpen {lookup : LookupDigest} {u : Unit}
    (hlook : lookup = S.installationLookup (lookupEpoch now) request.installationID)
    (h : S.writeRefreshTx request normalized random now markedAt s = .ok (u, s')) :
    s'.db.LeasesOpen S lookup := by
  simp only [writeRefreshTx, bind_ok, expect_ok, exec_ok] at h
  obtain ⟨expires, _, ⟨-, rfl⟩, _, s1, -, existing, s2, hload, _, s3, hupsert, hera⟩ := h
  obtain ⟨rfl, hloaded⟩ := loadExistingLeases_ok hload
  have hbef : s2.db.LeasesOpen S lookup := by
    intro l hl hl'
    obtain ⟨e, -, hopen⟩ := hloaded.covers l hl (hl'.trans hlook)
    exact ⟨e.topic, hopen⟩
  have hwr := forEach_ok (I := fun _ t => t.db.LeasesOpen S lookup)
    (fun sub rest t t' ht hsub => upsertLease_leasesOpen ht hsub) hbef hupsert
  exact forEach_ok (I := fun _ t => t.db.LeasesOpen S lookup)
    (fun e rest t t' ht he => eraseLease_leasesOpen ht he) hwr hera

/-- What both refreshes do behind the retention guard, in the form of the replacement. -/
def acceptRefreshTx (S : Store) (now markedAt : Time) (random : Bytes → LeaseDraw)
    (request : RefreshRequest) (normalized : List NormalizedSubscription)
    (expectedGeneration : Nat) : VaultTx Unit := do
  requireTombstoneAdvance .installation (S.installationDeletionIdentity request.installationID)
    request.policyControl.policyEpoch now
  let existing ← S.findInstallation request.installationID now
  S.admitReplacementTx ⟨markedAt, now⟩ request expectedGeneration existing
  S.writeRefreshTx request normalized random now markedAt

theorem applyGate6RefreshTx_iff_accept :
    (∃ leases, S.applyGate6RefreshTx ⟨markedAt, now⟩ random request normalized expectedGeneration
      s = .ok (leases, s')) ↔
    S.acceptRefreshTx now markedAt random request normalized expectedGeneration s =
      .ok ((), s') := by
  simp only [applyGate6RefreshTx, acceptRefreshTx, bind_ok]
  constructor
  · rintro ⟨leases, _, s1, hadv, row, s2, hfind, _, s3, hadmit, _, s4, hwr, hload⟩
    obtain ⟨rfl, -⟩ := loadExistingLeases_ok hload
    exact ⟨(), s1, hadv, row, s2, hfind, (), s3, hadmit, hwr⟩
  · rintro ⟨_, s1, hadv, row, s2, hfind, _, s3, hadmit, hwr⟩
    obtain ⟨leases, hload⟩ := loadExistingLeases_of_open (writeRefreshTx_leasesOpen rfl hwr)
    exact ⟨leases, (), s1, hadv, row, s2, hfind, (), s3, hadmit, (), s', hwr, hload⟩

/-- Looking an installation up reads `installation_states` only. -/
theorem findInstallation_congr {installationID : Bytes32} {row : Option InstallationRow}
    (hsame : t.db.installations = s.db.installations)
    (h : S.findInstallation installationID now t = .ok (row, s')) :
    S.findInstallation installationID now s = .ok (row, s) := by
  simp only [findInstallation, bind_ok, query_ok] at h ⊢
  obtain ⟨found, _, ⟨hfd, rfl⟩, h⟩ := h
  refine ⟨found, s, ⟨by rw [← hsame]; exact hfd, rfl⟩, ?_⟩
  cases found with
  | none =>
    obtain ⟨rfl, -⟩ := pure_ok.mp h
    rfl
  | some i =>
    simp only [bind_ok, require_ok, pure_ok] at h ⊢
    obtain ⟨_, _, ⟨hid, -⟩, rfl, -⟩ := h
    exact ⟨(), s, ⟨hid, rfl⟩, rfl, rfl⟩

/-- Both refreshes take the generation: there is no row and none is expected, or the row has the
expected generation and the request the next one. -/
def NextGeneration (request : RefreshRequest) (expectedGeneration : Nat)
    (row : Option InstallationRow) : Prop :=
  (row = none → expectedGeneration = 0) ∧
  ∀ i ∈ row, i.generation = expectedGeneration ∧ request.generation = expectedGeneration + 1

theorem refreshTx_iff_accept
    (hnext : ∀ row, S.findInstallation request.installationID now s = .ok (row, s) →
      NextGeneration request expectedGeneration row) :
    (∃ result, S.refreshTx ⟨now, markedAt⟩ random request normalized s = .ok (result, s')) ↔
    ∃ t, S.requireRetentionSafeTx now s = .ok ((), t) ∧
      S.acceptRefreshTx now markedAt random request normalized expectedGeneration t =
        .ok ((), s') := by
  have hrow : ∀ {s1 s2 s3 row}, S.requireRetentionSafeTx now s = .ok ((), s1) →
      requireTombstoneAdvance .installation (S.installationDeletionIdentity request.installationID)
        request.policyControl.policyEpoch now s1 = .ok ((), s2) →
      S.findInstallation request.installationID now s2 = .ok (row, s3) →
      NextGeneration request expectedGeneration row := by
    intro s1 s2 s3 row hguard hadv hfind
    have h1 : s.Rests S (fun _ => True) now s1 := requireRetentionSafeTx_rests _ _ _ hguard
    have h2 : s1.Rests S (fun _ => True) now s2 :=
      requireTombstoneAdvance_moves _ _ _ hadv
    exact hnext row (findInstallation_congr (h1.trans h2).installations hfind)
  simp only [refreshTx, acceptRefreshTx, bind_ok, mapError_ok]
  constructor
  · rintro ⟨result, _, s1, hguard, _, s2, hadv, row, s3, hfind, h⟩
    have hgen := hrow hguard hadv hfind
    refine ⟨s1, hguard, (), s2, hadv, row, s3, hfind, ?_⟩
    cases row with
    | none =>
      simp only [bind_ok, pure_ok] at h
      obtain ⟨_, _, hwr, -, rfl⟩ := h
      exact ⟨(), s3, require_ok.mpr ⟨hgen.1 rfl, rfl⟩, hwr⟩
    | some i =>
      obtain ⟨hexp, hrequest⟩ := hgen.2 i rfl
      dsimp only at h
      rw [if_neg (by omega), if_neg (by omega)] at h
      simp only [bind_ok, require_ok, pure_ok] at h
      obtain ⟨_, _, ⟨hpolicy, rfl⟩, _, s4, hprep, _, _, hwr, -, rfl⟩ := h
      refine ⟨(), s4, ?_, hwr⟩
      simp only [admitReplacementTx, bind_ok, require_ok]
      exact ⟨(), s3, ⟨hexp, rfl⟩, (), s3, ⟨hpolicy, rfl⟩, hprep⟩
  · rintro ⟨s1, hguard, _, s2, hadv, row, s3, hfind, _, s4, hadmit, hwr⟩
    have hgen := hrow hguard hadv hfind
    cases row with
    | none =>
      obtain ⟨-, rfl⟩ := require_ok.mp hadmit
      refine ⟨⟨request.generation, normalized.length, now + S.leaseTTL⟩, (), s1, hguard, (), s2,
        hadv, none, s3, hfind, ?_⟩
      simp only [bind_ok, pure_ok]
      exact ⟨(), s', hwr, trivial, rfl⟩
    | some i =>
      obtain ⟨hexp, hrequest⟩ := hgen.2 i rfl
      simp only [admitReplacementTx, bind_ok, require_ok] at hadmit
      obtain ⟨_, _, ⟨-, rfl⟩, _, _, ⟨hpolicy, rfl⟩, hprep⟩ := hadmit
      refine ⟨⟨request.generation, normalized.length, now + S.leaseTTL⟩, (), s1, hguard, (), s2,
        hadv, some i, s3, hfind, ?_⟩
      dsimp only
      rw [if_neg (by omega), if_neg (by omega)]
      simp only [bind_ok, require_ok, pure_ok]
      exact ⟨(), s3, ⟨hpolicy, rfl⟩, (), s4, hprep, (), s', hwr, trivial, rfl⟩

/-- Behind the retention guard the replacement's refresh commits exactly from the states the
transaction of `Refresh` commits from, and with the same session, hence the same rows. -/
theorem applyGate6RefreshTx_iff_refreshTx {S : Store} {now markedAt : Time}
    {random : Bytes → LeaseDraw} {request : RefreshRequest}
    {normalized : List NormalizedSubscription} {expectedGeneration : Nat} {s s' : Session}
    (hnext : ∀ row, S.findInstallation request.installationID now s = .ok (row, s) →
      NextGeneration request expectedGeneration row) :
    (∃ leases, (do
      S.requireRetentionSafeTx now
      S.applyGate6RefreshTx ⟨markedAt, now⟩ random request normalized expectedGeneration) s =
        .ok (leases, s')) ↔
    ∃ result, S.refreshTx ⟨now, markedAt⟩ random request normalized s = .ok (result, s') := by
  rw [refreshTx_iff_accept hnext]
  simp only [bind_ok, ← applyGate6RefreshTx_iff_accept]
  constructor
  · rintro ⟨leases, _, t, hguard, happly⟩
    exact ⟨t, hguard, leases, happly⟩
  · rintro ⟨t, hguard, leases, happly⟩
    exact ⟨leases, (), t, hguard, happly⟩

end Store

namespace Sample

/-- The refresh of the sample replacement, and what validation makes of it. -/
def firstRefresh : RefreshRequest := (replacement 70 1 [subscription 70 1 1 1]).refresh

def firstNormalized : List NormalizedSubscription :=
  (gate6.validateRefresh firstRefresh start).getD []

def secondRefresh : RefreshRequest := (replacement 70 2 [subscription 70 1 1 2]).refresh

def secondNormalized : List NormalizedSubscription :=
  (gate6.validateRefresh secondRefresh start).getD []

end Sample

/-- In a store that was never swept the replacement's refresh alone is accepted, `Refresh` is not. -/
theorem applyGate6RefreshTx_accepts_unsafe :
    Sample.gate6.validateRefresh Sample.firstRefresh Sample.start = some Sample.firstNormalized ∧
    (Sample.gate6.findInstallation Sample.firstRefresh.installationID Sample.start
      Sys.fresh.session).toOption.map (·.1) = some none ∧
    (Sample.gate6.applyGate6RefreshTx Sample.clock Sample.random Sample.firstRefresh
      Sample.firstNormalized 0 Sys.fresh.session).isOk = true ∧
    (Sample.gate6.refreshTx ⟨Sample.start, Sample.start⟩ Sample.random Sample.firstRefresh
      Sample.firstNormalized Sys.fresh.session).isOk = false := by
  decide +kernel

/-- Both accept the second refresh of an installation. -/
theorem applyGate6RefreshTx_iff_refreshTx_sample :
    ∃ s s' : Session, s.db.installations.map (·.generation) = [1] ∧
      s'.db.installations.map (·.generation) = [2] ∧ (∃ leases, (do
      Sample.gate6.requireRetentionSafeTx Sample.start
      Sample.gate6.applyGate6RefreshTx ⟨Sample.start, Sample.start⟩ Sample.random
        Sample.secondRefresh Sample.secondNormalized 1) s = .ok (leases, s')) ∧
      ∃ result, Sample.gate6.refreshTx ⟨Sample.start, Sample.start⟩ Sample.random
        Sample.secondRefresh Sample.secondNormalized s = .ok (result, s') := by
  obtain ⟨s, -, hold, hfound, result, s', hrun, hnew⟩ := Store.exists_reachable (S := gate6)
    refreshed
    (P := fun s => s.db.installations.map (·.generation) = [1] ∧
      (gate6.findInstallation secondRefresh.installationID start s.session).toOption.map
        (fun r => r.1.map (·.generation)) = some (some 1) ∧ ∃ result s',
      gate6.refreshTx ⟨start, start⟩ random secondRefresh secondNormalized s.session =
        .ok (result, s') ∧ s'.db.installations.map (·.generation) = [2])
    (by decide +kernel)
  have hnext : ∀ row, gate6.findInstallation secondRefresh.installationID start
      s.session = .ok (row, s.session) → Store.NextGeneration secondRefresh 1 row := by
    intro row hrow
    rw [hrow] at hfound
    obtain ⟨i, rfl, hgen⟩ := Option.map_eq_some_iff.mp (Option.some.inj hfound)
    refine ⟨fun h => absurd h (by simp), fun i' hi' => ?_⟩
    cases hi'
    exact ⟨hgen, rfl⟩
  exact ⟨s.session, s', hold, hnew, (Store.applyGate6RefreshTx_iff_refreshTx hnext).mpr
    ⟨result, hrun⟩, result, hrun⟩

end NotificationServer
