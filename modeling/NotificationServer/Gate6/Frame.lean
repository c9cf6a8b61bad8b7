import NotificationServer.Gate6.Retention

/-!
# Gate-6 statements leave the A9 tables alone

No statement of a Gate-6 operation writes an A9 table, and none of the foreign
keys from A9 tables into Gate-6 tables cascades.  Every Gate-6 operation
therefore keeps all A9 tables, and runs no statement on an authority row.
-/

namespace NotificationServer

open Tx

variable {now expiresAt markedAt startedAt : Time} {leaseID : Bytes16}
  {lookup identity commitment : LookupDigest} {kind : DeletionTarget} {keyVersion : Int}
  {fence epoch expectedGeneration : Nat} {lease : LeaseRow} {installationID : Bytes32}
  {allowSameEpoch : Bool} {draw : LeaseDraw} {sub : NormalizedSubscription} {terms : LeaseTerms}
  {token failedToken : Bytes} {request : RefreshRequest} {normalized : List NormalizedSubscription}
  {random : Bytes → LeaseDraw} {control : PolicyControl}

namespace Store

variable {S : Store} {r : Session → Session → Prop} [Std.Refl r] [IsTrans Session r]

theorem requireTombstoneAdvance_moves :
    Moves r (requireTombstoneAdvance kind identity epoch now) := by
  refine .require_bind fun _ => .bind query_moves fun t => ?_
  cases t with
  | none => exact .pure _
  | some t => exact .require _ _

theorem findInstallation_moves : Moves r (S.findInstallation installationID now) := by
  refine .bind query_moves fun row => ?_
  cases row with
  | none => exact .pure _
  | some i => exact .require_bind fun _ => .pure _

theorem loadExistingLeases_moves : Moves r (S.loadExistingLeases lookup) :=
  .bind query_moves fun _ => .bind
    (.collect fun _ _ => .require_bind fun _ => .bind expect_moves fun _ => .pure _)
    fun _ => .pure _

theorem apnsTokenChanged_moves {existing : InstallationRow} :
    Moves r (S.apnsTokenChanged token existing) := by
  unfold apnsTokenChanged
  split
  · exact .pure _
  · exact .bind expect_moves fun _ => .pure _

theorem leaseNonceTx_moves {existing : Option LeaseRow}
    (hmark : ∀ leaseID, Moves r (markDeliveryJobsSafetyForLeaseTx markedAt leaseID)) :
    Moves r (S.leaseNonceTx markedAt draw sub existing) := by
  cases existing with
  | none => exact .pure _
  | some l =>
    exact .require_bind fun _ => .bind expect_moves fun _ => .ite
      (.require_bind fun _ => expect_moves)
      (.require_bind fun _ => .bind (hmark _) fun _ => .pure _)

end Store

def Db.withoutGate6 (db : Db) : Db :=
  { db with
    keyBinding := none, installations := [], routeKeyHistory := [], leases := []
    deletionTombstones := [], jobs := []
    retention := { lastStartedAt := none, lastCompletedAt := none, nextDeadlineAt := none
                   isSafe := false, outcomeComplete := false } }

/-- What no Gate-6 statement changes: the A9 tables, and which authority statements were run. -/
def Session.frame (s : Session) : Db × List (Bytes16 × AuthorityWrite) :=
  (s.db.withoutGate6, s.writes)

/-- What a Gate-6 transaction keeps: the frame, a bound lookup root, and that retention becomes safe
only under a bound root. -/
structure Session.Framed (s s' : Session) : Prop where
  frame : s'.frame = s.frame
  bound : s.db.keyBinding.isSome → s'.db.keyBinding.isSome
  safe : s'.db.retention.isSafe = true → s.db.retention.isSafe = true ∨ s'.db.keyBinding.isSome

instance : Std.Refl Session.Framed := ⟨fun _ => ⟨rfl, id, .inl⟩⟩

instance : IsTrans Session Session.Framed where
  trans s s' s'' h h' := by
    refine ⟨h'.frame.trans h.frame, h'.bound ∘ h.bound, fun hsafe => ?_⟩
    rcases h'.safe hsafe with hsafe | hbd
    · exact (h.safe hsafe).imp_right h'.bound
    · exact .inr hbd

theorem exec_keeps {f : Db → Db}
    (hf : ∀ db, ((f db).withoutGate6, (f db).keyBinding, (f db).retention) =
      (db.withoutGate6, db.keyBinding, db.retention)) :
    Moves Session.Framed (exec f) := by
  intro s u s' h
  obtain ⟨hdb, hw⟩ := exec_ok.mp h
  obtain ⟨hfr, hkey, hrete⟩ : _ ∧ _ ∧ _ := by simpa only [Prod.mk.injEq] using hf s.db
  refine ⟨by simp only [Session.frame, hdb, hw, hfr], ?_, ?_⟩
  · rw [hdb, hkey]
    exact id
  · rw [hdb, hrete]
    exact .inl

namespace Store

variable {S : Store}

theorem requireLookupKeyBoundTx_keeps : Moves Session.Framed S.requireLookupKeyBoundTx := by
  refine .bind (fun s u s' h => ?_) fun _ => .bind query_moves fun _ => .require _ _
  obtain ⟨hdb, hw⟩ := exec_ok.mp h
  refine ⟨by simp only [Session.frame, hdb, hw]; rfl, fun _ => ?_, ?_⟩
  · rw [hdb]
    rfl
  · rw [hdb]
    exact .inl

theorem requireRetentionSafeTx_keeps :
    Moves Session.Framed (S.requireRetentionSafeTx now) :=
  .bind requireLookupKeyBoundTx_keeps fun _ => .bind query_moves fun _ => .require _ _

theorem markDeliveryJobsSafetyForLeaseTx_keeps :
    Moves Session.Framed (markDeliveryJobsSafetyForLeaseTx now leaseID) :=
  exec_keeps fun _ => rfl

theorem markDeliveryJobsSafetyForInstallationTx_keeps :
    Moves Session.Framed (markDeliveryJobsSafetyForInstallationTx now lookup) :=
  exec_keeps fun _ => rfl

theorem upsertDeletionTombstone_keeps :
    Moves Session.Framed (upsertDeletionTombstone kind identity keyVersion fence now) :=
  .require_bind fun _ => exec_keeps fun _ => rfl

theorem retireLeaseTx_keeps :
    Moves Session.Framed (retireLeaseTx now lease) :=
  .require_bind fun _ => .bind
    (.require_bind fun _ => .bind query_moves fun _ => .require_bind fun _ =>
      exec_keeps fun _ => rfl) fun _ => upsertDeletionTombstone_keeps

theorem recordRouteKeyHistory_keeps :
    Moves Session.Framed
      (recordRouteKeyHistory identity commitment epoch allowSameEpoch now expiresAt) :=
  .require_bind fun _ => .bind (exec_keeps fun _ => rfl) fun _ =>
    .bind query_moves fun _ => .require_bind fun _ => .require_bind fun _ =>
    .bind query_moves fun _ => .require_bind fun _ =>
    .bind (exec_keeps fun _ => rfl) fun _ => exec_keeps fun _ => rfl

theorem upsertLease_keeps {existing : Option LeaseRow} :
    Moves Session.Framed (S.upsertLease terms markedAt draw sub existing) :=
  .bind requireTombstoneAdvance_moves fun _ => .require_bind fun _ =>
    .bind (leaseNonceTx_moves fun _ => markDeliveryJobsSafetyForLeaseTx_keeps) fun _ =>
    .bind recordRouteKeyHistory_keeps fun _ => exec_keeps fun _ => rfl

theorem eraseLease_keeps :
    Moves Session.Framed (S.eraseLease now markedAt lease) :=
  .bind markDeliveryJobsSafetyForLeaseTx_keeps fun _ => .bind expect_moves fun _ =>
    .bind recordRouteKeyHistory_keeps fun _ =>
    .bind upsertDeletionTombstone_keeps fun _ => exec_keeps fun _ => rfl

theorem prepareInstallationTx_keeps {existing : InstallationRow} :
    Moves Session.Framed (S.prepareInstallationTx request now markedAt existing) :=
  .bind apnsTokenChanged_moves fun _ =>
    .bind (.when markDeliveryJobsSafetyForInstallationTx_keeps) fun _ =>
    .when (exec_keeps fun _ => rfl)

theorem writeRefreshTx_keeps :
    Moves Session.Framed (S.writeRefreshTx request normalized random now markedAt) :=
  .bind expect_moves fun _ => .bind (exec_keeps fun _ => rfl) fun _ =>
    .bind loadExistingLeases_moves fun _ =>
    .bind (.forEach fun _ _ => upsertLease_keeps) fun _ =>
    .forEach fun _ _ => eraseLease_keeps

theorem refresh_keeps {clock : RefreshClock} :
    Moves Session.Framed (S.refresh clock random request) := by
  refine .mapError (.require_bind fun _ => .bind expect_moves fun _ => .bind (.mapError
    requireRetentionSafeTx_keeps) fun _ => .bind requireTombstoneAdvance_moves fun _
    => .bind findInstallation_moves fun existing => ?_)
  cases existing with
  | none => exact .bind writeRefreshTx_keeps fun _ => .pure _
  | some i =>
    exact .ite (.fail _) (.ite
      (.require_bind fun _ => .bind query_moves fun _ => .pure _)
      (.require_bind fun _ => .bind prepareInstallationTx_keeps fun _ =>
        .bind writeRefreshTx_keeps fun _ => .pure _))

theorem applyGate6RefreshTx_keeps {clock : Clock} :
    Moves Session.Framed
      (S.applyGate6RefreshTx clock random request normalized expectedGeneration) := by
  refine .bind requireTombstoneAdvance_moves fun _ =>
    .bind findInstallation_moves fun existing => .bind ?_ fun _ =>
    .bind writeRefreshTx_keeps fun _ => loadExistingLeases_moves
  cases existing with
  | none => exact .require _ _
  | some i =>
    exact .require_bind fun _ => .require_bind fun _ =>
      prepareInstallationTx_keeps

theorem revokeAllLeases_keeps :
    Moves Session.Framed (revokeAllLeases lookup now) :=
  .bind markDeliveryJobsSafetyForInstallationTx_keeps fun _ => .bind query_moves fun _ =>
    .bind (.forEach fun _ _ => retireLeaseTx_keeps) fun _ => exec_keeps fun _ => rfl

theorem advancePolicy_keeps : Moves Session.Framed (S.advancePolicy now control) := by
  refine .mapError (.require_bind fun _ => .require_bind fun _ =>
    .bind expect_moves fun _ => .bind (.mapError ?_) fun _ =>
    .bind findInstallation_moves fun existing => ?_)
  · unfold policyGuardTx
    split
    · exact requireRetentionSafeTx_keeps
    · exact requireLookupKeyBoundTx_keeps
  cases existing with
  | none =>
    change Moves Session.Framed (S.advanceUnknownPolicyTx _ _ _)
    unfold advanceUnknownPolicyTx
    split
    · exact .pure _
    · exact .bind (exec_keeps fun _ => rfl) fun _ => upsertDeletionTombstone_keeps
  | some i =>
    refine .require_bind fun _ => .ite (.fail _) (.ite (.require _ _) ?_)
    unfold advanceStoredPolicyTx
    split
    · exact .bind revokeAllLeases_keeps fun _ =>
        .bind upsertDeletionTombstone_keeps fun _ => exec_keeps fun _ => rfl
    · exact .require_bind fun _ => .bind (exec_keeps fun _ => rfl) fun _ =>
        exec_keeps fun _ => rfl

theorem markRetentionUnsafe_keeps : Moves Session.Framed (markRetentionUnsafe startedAt) := by
  intro s u s' h
  obtain ⟨hdb, hw⟩ := exec_ok.mp h
  refine ⟨by simp only [Session.frame, hdb, hw]; rfl, ?_, fun hsafe => ?_⟩
  · rw [hdb]
    exact id
  · rw [hdb] at hsafe
    cases hsafe

theorem tombstoneExpiredLeases_keeps :
    Moves Session.Framed (tombstoneExpiredLeases now) :=
  .bind query_moves fun _ => .forEach fun _ _ => retireLeaseTx_keeps

theorem tombstoneExpiredInstallations_keeps :
    Moves Session.Framed (tombstoneExpiredInstallations now) :=
  .bind query_moves fun _ => .forEach fun _ _ => upsertDeletionTombstone_keeps

theorem markExpiredDeliveryJobsTx_keeps :
    Moves Session.Framed (markExpiredDeliveryJobsTx now) :=
  .require_bind fun _ => exec_keeps fun _ => rfl

theorem markExpiringAuthorityDeliveryJobs_keeps :
    Moves Session.Framed (markExpiringAuthorityDeliveryJobs now markedAt) :=
  .bind query_moves fun _ =>
    .bind (.forEach fun _ _ => markDeliveryJobsSafetyForLeaseTx_keeps) fun _ =>
    .bind query_moves fun _ =>
    .forEach fun _ _ => markDeliveryJobsSafetyForInstallationTx_keeps

theorem completeDeliveryMarkersTx_keeps : Moves Session.Framed completeDeliveryMarkersTx :=
  .bind query_moves fun _ => .forEach fun _ _ => exec_keeps fun _ => rfl

theorem deleteExpiredVaultRows_keeps :
    Moves Session.Framed (deleteExpiredVaultRows now markedAt) :=
  .bind tombstoneExpiredLeases_keeps fun _ =>
    .bind tombstoneExpiredInstallations_keeps fun _ =>
    .bind markExpiredDeliveryJobsTx_keeps fun _ =>
    .bind markExpiringAuthorityDeliveryJobs_keeps fun _ =>
    .bind completeDeliveryMarkersTx_keeps fun _ =>
    .bind (exec_keeps fun _ => rfl) fun _ => .bind (exec_keeps fun _ => rfl) fun _ =>
    .bind (exec_keeps fun _ => rfl) fun _ => exec_keeps fun _ => rfl

/-- A sweep that leaves retention safe has bound the lookup root first. -/
theorem sweepTx_keeps {clock : SweepClock} : Moves Session.Framed (S.sweepTx clock) := by
  refine .mapError fun s r s' h => ?_
  simp only [bind_ok, query_ok, recordSweep, exec_ok, pure_ok] at h
  obtain ⟨_, s1, hbd, _, s2, hdel, _, _, ⟨-, rfl⟩, -, s3, ⟨hdb, hw⟩, -, rfl⟩ := h
  have hroot : s1.db.keyBinding.isSome := by
    simp only [requireLookupKeyBoundTx, bind_ok, query_ok, require_ok] at hbd
    obtain ⟨-, t, -, _, _, ⟨rfl, rfl⟩, hk, rfl⟩ := hbd
    rw [hk]
    rfl
  have hframed : s.Framed s2 :=
    IsTrans.trans _ _ _ (requireLookupKeyBoundTx_keeps _ _ _ hbd)
      (deleteExpiredVaultRows_keeps _ _ _ hdel)
  have hroot3 : s3.db.keyBinding.isSome := by
    rw [hdb]
    exact (deleteExpiredVaultRows_keeps _ _ _ hdel).bound hroot
  refine ⟨?_, fun _ => hroot3, fun _ => .inr hroot3⟩
  rw [← hframed.frame]
  simp only [Session.frame, hdb, hw]
  rfl

theorem eraseInvalidAPNSToken_keeps :
    Moves Session.Framed (S.eraseInvalidAPNSToken now lookup failedToken) := by
  refine .require_bind fun _ => .mapError (.orRollback
    (.bind requireLookupKeyBoundTx_keeps fun _ => .bind query_moves fun row => ?_))
  cases row with
  | none => exact .pure _
  | some i =>
    dsimp only
    split
    · exact .pure _
    exact .bind expect_moves fun _ => .ite (.pure _) (.bind
      (.bind query_moves fun _ => .bind (.forEach fun _ _ => retireLeaseTx_keeps) fun _ =>
        .bind (exec_keeps fun _ => rfl) fun _ =>
        .bind markDeliveryJobsSafetyForInstallationTx_keeps fun _ =>
        .bind (exec_keeps fun _ => rfl) fun _ => upsertDeletionTombstone_keeps)
      fun _ => .pure _)

theorem reapplyDeletionTombstones_keeps :
    Moves Session.Framed (S.reapplyDeletionTombstones now) :=
  .mapError (.bind requireLookupKeyBoundTx_keeps fun _ => .bind (exec_keeps fun _ => rfl) fun _ =>
    .bind query_moves fun _ => .bind (.forEach fun _ _ => markDeliveryJobsSafetyForLeaseTx_keeps)
    fun _ => .bind query_moves fun _ => .bind (.forEach fun _ _ =>
    markDeliveryJobsSafetyForInstallationTx_keeps) fun _ => .bind (exec_keeps fun _ => rfl) fun
    _ => exec_keeps fun _ => rfl)

end Store

end NotificationServer
