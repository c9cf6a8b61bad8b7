import NotificationServer.Gate6.Removal

/-!
# Transactions that write no new lease keep the invariant

Revocation, erasure, the sweep, the restore gate, token registration and the
delivery worker.  Each is either at rest on the routing tables, or it updates
and deletes rows in ways `Db.Kept.next` covers.
-/

namespace NotificationServer

open Relational Tx

variable {clock : Clock} {installation : Bytes16} {installationID : Bytes32} {token : Bytes}
  {w : WorkerUpdate} {i : InstallationRow}

/-- The invariant survives, once no clock reading exceeds `c`. -/
def Session.Preserves (S : Store) (c : Time) (s s' : Session) : Prop :=
  s.db.Kept S c → s'.db.Kept S c

variable {S : Store} {c now : Time}

instance : Std.Refl (Session.Preserves S c) := ⟨fun _ => id⟩

instance : IsTrans Session (Session.Preserves S c) := ⟨fun _ _ _ h h' => h' ∘ h⟩

/-- Leases that stay are none of those whose key history was retired. -/
theorem Db.Kept.retired {db db' : Db} {p : LeaseRow → Prop} (hk : db.Kept S c)
    (hdb : db.Constraints) (hnow : now ≤ c)
    (hbd : (∀ k ∈ db.keyBinding, k = S.rootCommitment) → ∀ k ∈ db'.keyBinding, k = S.rootCommitment)
    (hrows : ∀ i' ∈ db'.installations, ∃ id, i'.Kept S c id)
    (hhist : HistoryMoves (db.RoutesOf p) now db.routeKeyHistory db'.routeKeyHistory)
    (hls : ∀ l' ∈ db'.leases, ∃ l ∈ db.leases, ¬ p l ∧ l.SameRoute l' ∧
      ∀ i ∈ db.installations, i.installationLookup = l.installationLookup →
        ∃ i' ∈ db'.installations, i.SameRow i') : db'.Kept S c := by
  refine hk.next hdb hnow le_rfl (hbd hk.bound) hrows hhist fun l' hl' => ?_
  obtain ⟨l, hl, hp, hsame, hrow⟩ := hls l' hl'
  refine ⟨l, hl, hsame, ?_, hrow⟩
  rintro ⟨r, hr, hpr, hrt⟩
  exact hp (hk.route_unique hdb hr hl hrt ▸ hpr)

/-- Statements at rest on the routing tables. -/
theorem Session.Rests.preserves {s s' : Session} (h : s.Rests S (fun _ => False) now s')
    (hnow : now ≤ c) : s.Preserves S c s' := by
  intro hk
  refine hk.next s.valid hnow le_rfl (h.bound hk.bound) ?_ h.history fun l hl => ?_
  · rw [h.installations]
    exact hk.installations
  · rw [h.leases] at hl
    rw [h.installations]
    exact ⟨l, hl, .refl l, id, fun i hi _ => ⟨i, hi, .refl i⟩⟩

theorem preserves_of_rests {α : Type} {x : VaultTx α}
    (h : ∀ now, Moves (Session.Rests S (fun _ => False) now) x) :
    Moves (Session.Preserves S c) x :=
  fun s a s' hx => (h c s a s' hx).preserves le_rfl

/-- An UPDATE of installation rows that keeps the columns their leases share with them. -/
theorem updateInstallation_preserves {lookup : LookupDigest} {f : InstallationRow → InstallationRow}
    (hsame : ∀ i : InstallationRow, i.SameRow (f i)) (hkept : ∀ (i : InstallationRow) id, i.installationLookup = lookup →
      i.Kept S c id → (f i).Kept S c id) :
    Moves (Session.Preserves S c) (exec fun db => db.updateInstallation lookup f) := by
  intro s _ s' h hk
  obtain ⟨hdb, -⟩ := exec_ok.mp h
  rw [hdb]
  refine hk.next (R := fun _ => False) s.valid le_rfl le_rfl hk.bound
    (fun i' hi' => ?_) (.refl _ _ _) fun l hl => ⟨l, hl, .refl l, id, fun i hi _ => ?_⟩
  · rcases mem_updateWhere.mp hi' with ⟨i, hi, hlook, rfl⟩ | ⟨hi, -⟩
    · obtain ⟨id, h⟩ := hk.installations i hi
      exact ⟨id, hkept i id hlook h⟩
    · exact hk.installations i' hi
  · by_cases hlook : i.installationLookup = lookup
    · exact ⟨f i, mem_updateWhere.mpr (.inl ⟨i, hi, hlook, rfl⟩), hsame i⟩
    · exact ⟨i, mem_updateWhere.mpr (.inr ⟨hi, hlook⟩), .refl i⟩

/-- An UPDATE of leases that keeps the columns of their routes. -/
theorem updateLeases_preserves {f : LeaseRow → LeaseRow} {p : LeaseRow → Prop} [DecidablePred p]
    (hsame : ∀ l : LeaseRow, l.SameRoute (f l)) :
    Moves (Session.Preserves S c)
      (exec fun db => { db with leases := updateWhere p f db.leases }) := by
  intro s _ s' h hk
  obtain ⟨hdb, -⟩ := exec_ok.mp h
  rw [hdb]
  refine hk.next (R := fun _ => False) s.valid le_rfl le_rfl hk.bound
    hk.installations (.refl _ _ _) fun l' hl' => ?_
  rcases mem_updateWhere.mp hl' with ⟨l, hl, -, rfl⟩ | ⟨hl, -⟩
  · exact ⟨l, hl, hsame l, id, fun i hi _ => ⟨i, hi, .refl i⟩⟩
  · exact ⟨l', hl, .refl l', id, fun i hi _ => ⟨i, hi, .refl i⟩⟩

namespace Store

variable {control : PolicyControl} {controlExpiresAt : Time}

theorem revokeAllLeases_preserves (hnow : now ≤ c) (lookup : LookupDigest) :
    Moves (Session.Preserves S c) (revokeAllLeases lookup now) := by
  intro s _ s' h hk
  obtain ⟨t, hrest, hdb⟩ := revokeAllLeases_ok S h
  refine hk.retired s.valid hnow (p := fun l => l.installationLookup = lookup) ?_ ?_ ?_ ?_
  · rw [hdb]
    exact hrest.bound
  · rw [hdb]
    simp only [Db.deleteLeases, hrest.installations]
    exact hk.installations
  · rw [hdb]
    exact hrest.history
  · rw [hdb]
    simp only [Db.deleteLeases, hrest.leases, hrest.installations, mem_deleteWhere]
    exact fun l hl => ⟨l, hl.1, hl.2, .refl l, fun i hi _ => ⟨i, hi, .refl i⟩⟩

/-- The row a revocation leaves, found or new. -/
theorem fenceRow_kept (hnow : now ≤ c) (hep : control.policyEpoch ≤ maxSafeInteger) :
    (S.fenceRow control controlExpiresAt now).Kept S c control.installationID where
  lookup := rfl
  identity := rfl
  policy_epoch := hep
  refreshed := hnow
  token := fun _ h => absurd h (by simp [fenceRow])
  state := by simp [fenceRow]

theorem advanceUnknownPolicyTx_preserves (hnow : now ≤ c)
    (hep : control.policyEpoch ≤ maxSafeInteger) :
    Moves (Session.Preserves S c)
      (S.advanceUnknownPolicyTx control controlExpiresAt now) := by
  unfold advanceUnknownPolicyTx
  split
  · exact .pure _
  refine .bind ?_ fun _ => preserves_of_rests fun _ => upsertDeletionTombstone_rests
  intro s _ s' h hk
  obtain ⟨hdb, -⟩ := exec_ok.mp h
  rw [hdb]
  refine hk.next (R := fun _ => False) s.valid le_rfl le_rfl
    hk.bound (fun i hi => ?_) (.refl _ _ _) fun l hl =>
      ⟨l, hl, .refl l, id, fun i hi _ => ⟨i, .tail _ hi, .refl i⟩⟩
  rcases List.mem_cons.mp hi with rfl | hi
  · exact ⟨_, fenceRow_kept hnow hep⟩
  · exact hk.installations i hi

theorem advanceStoredPolicyTx_preserves {existing : InstallationRow} (hnow : now ≤ c)
    (hep : control.policyEpoch ≤ maxSafeInteger) :
    Moves (Session.Preserves S c)
      (advanceStoredPolicyTx control controlExpiresAt now existing) := by
  unfold advanceStoredPolicyTx
  split
  · refine .bind (revokeAllLeases_preserves hnow _) fun _ =>
      .bind (preserves_of_rests fun _ => upsertDeletionTombstone_rests) fun _ =>
      updateInstallation_preserves (fun i => ⟨rfl, rfl, rfl, rfl⟩) fun i id _ h => ?_
    exact ⟨h.lookup, h.identity, hep, hnow, fun _ ht => absurd ht (by
      simp [InstallationRow.revoking]), by simp [InstallationRow.revoking]⟩
  · refine .require_bind fun _ => .bind
      (updateInstallation_preserves (fun i => ⟨rfl, rfl, rfl, rfl⟩) fun i id _ h => ?_) fun _ =>
      updateLeases_preserves fun l => ⟨rfl, rfl, rfl, rfl, rfl, rfl, rfl, rfl, rfl⟩
    exact ⟨h.lookup, h.identity, hep, hnow, h.token, by simp [InstallationRow.awaiting]⟩

theorem advancePolicy_preserves (hnow : now ≤ c) (control : PolicyControl) :
    Moves (Session.Preserves S c) (S.advancePolicy now control) := by
  refine .mapError (.require_bind fun hver => .require_bind fun _ =>
    .bind (preserves_of_rests fun _ => expect_moves) fun _ => .bind (.mapError ?_) fun _ =>
    .bind (preserves_of_rests fun _ => findInstallation_moves) fun existing => ?_)
  · unfold policyGuardTx
    split
    · exact preserves_of_rests fun _ => requireRetentionSafeTx_rests
    · exact preserves_of_rests fun _ => requireLookupKeyBoundTx_rests
  · have hep : control.policyEpoch ≤ maxSafeInteger := hver.2.1.2
    cases existing with
    | none => exact advanceUnknownPolicyTx_preserves hnow hep
    | some i =>
      exact .require_bind fun _ => .ite (.fail _) (.ite (.require _ _)
        (advanceStoredPolicyTx_preserves hnow hep))

theorem sweepTx_preserves {clock : SweepClock} (hnow : clock.startedAt ≤ c) :
    Moves (Session.Preserves S c) (S.sweepTx clock) := by
  intro s _ s' h hk
  obtain ⟨hswept, -⟩ := sweepTx_ok h
  refine hk.retired s.valid hnow (p := fun l => l.expiresAt ≤ clock.startedAt) hswept.bound ?_
    hswept.history fun l hl => ?_
  · rw [hswept.installations]
    exact fun i hi => hk.installations i (mem_deleteWhere.mp hi).1
  · obtain ⟨hl, hlive, hhome⟩ := (hswept.leases l).mp hl
    refine ⟨l, hl, by lia, .refl l, fun i hi hlook => ⟨i, ?_, .refl i⟩⟩
    rw [hswept.installations, mem_deleteWhere]
    exact ⟨hi, fun hexp => hhome ⟨i, hi, hexp, .inl hlook.symm⟩⟩

theorem eraseInvalidAPNSToken_preserves (hnow : now ≤ c) (lookup : LookupDigest) (token : Bytes) :
    Moves (Session.Preserves S c) (S.eraseInvalidAPNSToken now lookup token) := by
  intro s _ s' h hk
  obtain ⟨-, rfl⟩ | ⟨-, -, s0, i, stored, hbd, hi, rfl, -, -, hera⟩ :=
    eraseInvalidAPNSToken_ok h
  · exact hk
  have hk0 : s0.db.Kept S c := (requireLookupKeyBoundTx_rests _ _ _ hbd).preserves hnow hk
  have he := eraseInstallationTx_ok S hera
  refine hk0.retired s0.valid hnow (p := fun l => l.installationLookup = i.installationLookup)
    he.bound (fun i' hi' => ?_) he.history fun l hl => ?_
  · rw [he.installations] at hi'
    rcases mem_updateWhere.mp hi' with ⟨r, hr, -, rfl⟩ | ⟨hr, -⟩
    · obtain ⟨id, h⟩ := hk0.installations r hr
      exact ⟨id, h.lookup, h.identity, h.policy_epoch, h.refreshed,
        fun _ ht => absurd ht (by simp [InstallationRow.erased]),
        by simp [InstallationRow.erased]⟩
    · exact hk0.installations i' hr
  · rw [he.leases, mem_deleteWhere] at hl
    refine ⟨l, hl.1, hl.2, .refl l, fun r hr hlook => ⟨r, ?_, .refl r⟩⟩
    rw [he.installations]
    exact mem_updateWhere.mpr (.inr ⟨hr, fun h => hl.2 (hlook.symm.trans h)⟩)

theorem deleteLeases_preserves (p : Db → LeaseRow → Prop) [∀ db, DecidablePred (p db)] :
    Moves (Session.Preserves S c) (exec fun db => db.deleteLeases (p db)) := by
  intro s _ s' h hk
  obtain ⟨hdb, -⟩ := exec_ok.mp h
  rw [hdb]
  refine hk.next (R := fun _ => False) s.valid le_rfl le_rfl hk.bound
    hk.installations (.refl _ _ _) fun l hl => ?_
  exact ⟨l, (mem_deleteWhere.mp hl).1, .refl l, id, fun i hi _ => ⟨i, hi, .refl i⟩⟩

/-- A DELETE of installation rows takes their leases with them. -/
theorem deleteInstallations_preserves (p : Db → InstallationRow → Prop)
    [∀ db, DecidablePred (p db)] :
    Moves (Session.Preserves S c) (exec fun db => db.deleteInstallations (p db)) := by
  intro s _ s' h hk
  obtain ⟨hdb, -⟩ := exec_ok.mp h
  rw [hdb]
  refine hk.next (R := fun _ => False) s.valid le_rfl le_rfl hk.bound
    (fun i hi => hk.installations i (mem_deleteWhere.mp hi).1) (.refl _ _ _) fun l hl => ?_
  obtain ⟨hl, hhome⟩ := mem_deleteWhere.mp hl
  refine ⟨l, hl, .refl l, id, fun i hi hlook => ⟨i, mem_deleteWhere.mpr ⟨hi, fun hp => ?_⟩,
    .refl i⟩⟩
  exact hhome ⟨i, hi, hp, .inl hlook.symm⟩

theorem reapplyDeletionTombstones_preserves :
    Moves (Session.Preserves S c) (S.reapplyDeletionTombstones now) :=
  .mapError (.bind (preserves_of_rests fun _ => requireLookupKeyBoundTx_rests) fun _ =>
    .bind (preserves_of_rests fun _ => exec_rests fun _ => rfl) fun _ =>
    .bind (preserves_of_rests fun _ => query_moves) fun _ =>
    .bind (preserves_of_rests fun _ => .forEach fun _ _ =>
      markDeliveryJobsSafetyForLeaseTx_rests) fun _ =>
    .bind (preserves_of_rests fun _ => query_moves) fun _ =>
    .bind (preserves_of_rests fun _ => .forEach fun _ _ =>
      markDeliveryJobsSafetyForInstallationTx_rests) fun _ =>
    .bind (deleteLeases_preserves _) fun _ => deleteInstallations_preserves _)

theorem registerVerified_preserves :
    Moves (Session.Preserves S c) (S.registerVerified clock installation installationID token) := by
  refine .mapError (.require_bind fun _ =>
    .bind (preserves_of_rests fun _ => requireRetentionSafeTx_rests) fun _ =>
    .bind (preserves_of_rests fun _ => query_moves) fun _ =>
    .bind (preserves_of_rests fun _ => expect_moves) fun _ =>
    .bind (preserves_of_rests fun _ => query_moves) fun _ =>
    .bind (preserves_of_rests fun _ => expect_moves) fun i =>
    .bind (preserves_of_rests fun _ => query_moves) fun _ => .require_bind fun _ =>
    .bind (preserves_of_rests fun _ => apnsTokenChanged_moves) fun _ =>
    .when (.bind (preserves_of_rests fun _ => markDeliveryJobsSafetyForInstallationTx_rests)
      fun _ => updateInstallation_preserves (fun i => ⟨rfl, rfl, rfl, rfl⟩) ?_))
  intro r id hlook h
  refine ⟨h.lookup, h.identity, h.policy_epoch, h.refreshed, fun t ht => ⟨token, ?_⟩, h.state⟩
  cases ht
  dsimp only
  rw [hlook, Keyring.openValue_sealValue]

theorem worked_sameRow : i.SameRow (i.worked w) := by
  unfold InstallationRow.worked
  split <;> exact ⟨rfl, rfl, rfl, rfl⟩

theorem worked_kept {w : WorkerUpdate} {i : InstallationRow} {id : Bytes32} (h : i.Kept S c id) :
    (i.worked w).Kept S c id := by
  unfold InstallationRow.worked
  split
  · exact h
  · exact ⟨h.lookup, h.identity, h.policy_epoch, h.refreshed, h.token, by simp⟩

theorem work_preserves : Moves (Session.Preserves S c) (exec (Db.work S.encryption w)) := by
  intro s _ s' h hk
  obtain ⟨hdb, -⟩ := exec_ok.mp h
  rw [hdb]
  refine hk.next (R := fun _ => False) s.valid le_rfl le_rfl hk.bound
    (fun i' hi' => ?_) (.refl _ _ _) fun l' hl' => ?_
  · obtain ⟨i, hi, rfl⟩ := List.mem_map.mp hi'
    obtain ⟨id, h⟩ := hk.installations i hi
    exact ⟨id, worked_kept h⟩
  · obtain ⟨l, hl, rfl⟩ := List.mem_map.mp hl'
    exact ⟨l, hl, ⟨rfl, rfl, rfl, rfl, rfl, rfl, rfl, rfl, rfl⟩, id, fun i hi _ =>
      ⟨i.worked w, List.mem_map_of_mem hi, worked_sameRow⟩⟩

end Store

end NotificationServer
