import NotificationServer.A9.Simulation
import NotificationServer.Gate6.Kept

/-!
# Statements that leave installation rows and leases alone

Most statements write neither `installation_states` nor `subscription_leases`:
those on the A9 tables, on delivery jobs and tombstones, the retirement and
recording of key history, and the guards.  `Session.Rests` is what all of them
do to the routing tables, `R` being the routes whose key history they may
rewrite.
-/

namespace NotificationServer

open Relational Tx

variable {at_ markedAt : Time} {keyset : KeysetReceipt} {leaseID installation key : Bytes16}
  {lookup identity : LookupDigest} {kind : DeletionTarget} {keyVersion : Int} {fence : Nat}
  {installationID hash : Bytes32} {token : Bytes} {draw : LeaseDraw} {sub : NormalizedSubscription}
  {existing : Option LeaseRow} {operation : Operation} {a : AuthorityRow} {binding : Option Bytes16}
  {event : VerifiedControl} {latch : Option UncertaintyReason} {outcome : ResultOutcome}
  {contiguous : Bool} {clock : Clock} {request : ReplaceRequest} {u : KeysetUpdate}

structure Session.Rests (S : Store) (R : LookupDigest → Prop) (now : Time) (s s' : Session) :
    Prop where
  installations : s'.db.installations = s.db.installations
  leases : s'.db.leases = s.db.leases
  bound : (∀ k ∈ s.db.keyBinding, k = S.rootCommitment) →
    ∀ k ∈ s'.db.keyBinding, k = S.rootCommitment
  history : HistoryMoves R now s.db.routeKeyHistory s'.db.routeKeyHistory

namespace Session.Rests

variable {S : Store} {R : LookupDigest → Prop} {now : Time}

instance : Std.Refl (Session.Rests S R now) := ⟨fun _ => ⟨rfl, rfl, id, .refl _ _ _⟩⟩

theorem trans {s1 s2 s3 : Session} (h : s1.Rests S R now s2) (h' : s2.Rests S R now s3) :
    s1.Rests S R now s3 :=
  ⟨h'.installations.trans h.installations, h'.leases.trans h.leases, h'.bound ∘ h.bound,
    h.history.trans h'.history⟩

instance : IsTrans Session (Session.Rests S R now) := ⟨fun _ _ _ h h' => h.trans h'⟩

end Session.Rests

variable {S : Store} {R : LookupDigest → Prop} {now : Time}

/-- A statement that writes, of the routing tables, at most the key history. -/
theorem exec_rests_history {f : Db → Db}
    (hf : ∀ db, ((f db).installations, (f db).leases, (f db).keyBinding) =
      (db.installations, db.leases, db.keyBinding))
    (hh : ∀ db, HistoryMoves R now db.routeKeyHistory (f db).routeKeyHistory) :
    Moves (Session.Rests S R now) (exec f) := by
  intro s u s' h
  obtain ⟨hdb, -⟩ := exec_ok.mp h
  have he := hf s.db
  simp only [Prod.mk.injEq] at he
  exact ⟨by rw [hdb, he.1], by rw [hdb, he.2.1], by rw [hdb, he.2.2]; exact id, by
    rw [hdb]; exact hh s.db⟩

/-- A statement that writes no routing table. -/
theorem exec_rests {f : Db → Db}
    (hf : ∀ db, ((f db).installations, (f db).leases, (f db).keyBinding, (f db).routeKeyHistory) =
      (db.installations, db.leases, db.keyBinding, db.routeKeyHistory)) :
    Moves (Session.Rests S R now) (exec f) := by
  refine exec_rests_history (fun db => ?_) fun db => ?_
  · have he := hf db
    simp only [Prod.mk.injEq] at he ⊢
    exact ⟨he.1, he.2.1, he.2.2.1⟩
  · have he := hf db
    simp only [Prod.mk.injEq] at he
    rw [he.2.2.2]
    exact .refl _ _ _

theorem noteWrite_rests {i : Bytes16} {w : AuthorityWrite} :
    Moves (Session.Rests S R now) (noteWrite i w) := by
  intro s u s' h
  obtain ⟨hdb, -⟩ := noteWrite_ok.mp h
  exact ⟨by rw [hdb], by rw [hdb], by rw [hdb]; exact id, by rw [hdb]; exact .refl _ _ _⟩

namespace Store

theorem requireLookupKeyBoundTx_rests :
    Moves (Session.Rests S R now) S.requireLookupKeyBoundTx := by
  intro s u s' h
  obtain ⟨-, hdb, -⟩ := requireLookupKeyBoundTx_ok.mp h
  exact ⟨by rw [hdb], by rw [hdb], by simp [hdb], by rw [hdb]; exact .refl _ _ _⟩

theorem requireRetentionSafeTx_rests :
    Moves (Session.Rests S R now) (S.requireRetentionSafeTx at_) :=
  .bind requireLookupKeyBoundTx_rests fun _ => .bind query_moves fun _ => .require _ _

theorem requireA9KeysetTx_rests :
    Moves (Session.Rests S R now) (requireA9KeysetTx at_ keyset) :=
  .require_bind fun _ => .bind query_moves fun _ => .bind expect_moves fun _ =>
    .require _ _

theorem markDeliveryJobsSafetyForLeaseTx_rests :
    Moves (Session.Rests S R now) (markDeliveryJobsSafetyForLeaseTx at_ leaseID) :=
  exec_rests fun _ => rfl

theorem markDeliveryJobsSafetyForInstallationTx_rests :
    Moves (Session.Rests S R now) (markDeliveryJobsSafetyForInstallationTx at_ lookup) :=
  exec_rests fun _ => rfl

theorem upsertDeletionTombstone_rests :
    Moves (Session.Rests S R now)
      (upsertDeletionTombstone kind identity keyVersion fence at_) :=
  .require_bind fun _ => exec_rests fun _ => rfl

theorem retireLeaseTx_rests {lease : LeaseRow} (hR : R lease.routeIdentity) :
    Moves (Session.Rests S R now) (retireLeaseTx now lease) := by
  refine .require_bind fun _ => .bind (.require_bind fun _ =>
    .bind query_moves fun _ => .require_bind fun _ =>
    exec_rests_history (fun _ => rfl) fun db => .updateWhere ?_ fun _ => rfl)
    fun _ => upsertDeletionTombstone_rests
  intro h hh
  rw [hh]
  exact hR

theorem upsertHistory_moves {h : RouteKeyHistoryRow} (hR : R h.routeIdentity) (db : Db) :
    HistoryMoves R now db.routeKeyHistory (db.upsertHistory h).routeKeyHistory := by
  unfold Db.upsertHistory
  apply HistoryMoves.upsert hR
  · exact fun r hr => congrArg Prod.fst hr
  · exact fun _ => rfl

theorem recordRouteKeyHistory_rests {identity commitment : LookupDigest} {epoch : Nat}
    {allowSameEpoch : Bool} {expiresAt : Time} (hR : R identity) :
    Moves (Session.Rests S R now)
      (recordRouteKeyHistory identity commitment epoch allowSameEpoch now expiresAt) := by
  refine .require_bind fun _ =>
    .bind (exec_rests_history (fun _ => rfl) fun db => .deleteWhere fun h hh => hh.1) fun _ =>
    .bind query_moves fun _ => .require_bind fun _ => .require_bind fun _ =>
    .bind query_moves fun _ => .require_bind fun _ =>
    .bind (exec_rests_history (fun _ => rfl) fun db => .updateWhere (fun h hh => ?_) fun _ => rfl)
    fun _ => exec_rests_history (fun _ => rfl) fun db =>
      upsertHistory_moves hR db
  rw [hh]
  exact hR

theorem loadOrInsertA9AuthorityTx_rests {epoch : Bytes16} {state : AuthorityState} {reason : UncertaintyReason} :
    Moves (Session.Rests S R now)
      (loadOrInsertA9AuthorityTx installation epoch state reason at_) := by
  refine .bind query_moves fun a => ?_
  cases a with
  | some a => exact .pure _
  | none =>
    exact .bind (.bind (exec_rests fun _ => rfl) fun _ => noteWrite_rests) fun _ => .pure _

theorem latchA9UncertaintyTx_rests {reason : UncertaintyReason} :
    Moves (Session.Rests S R now) (latchA9UncertaintyTx installation reason at_) :=
  .bind (exec_rests fun _ => rfl) fun _ => .bind query_moves fun _ =>
    .require_bind fun _ => noteWrite_rests

theorem latchIfTx_rests {reason : Option UncertaintyReason} :
    Moves (Session.Rests S R now) (latchIfTx installation reason at_) := by
  cases reason with
  | none => exact .pure _
  | some r => exact latchA9UncertaintyTx_rests

theorem a9ReceiptResultTx_rests {epoch : Bytes16} :
    Moves (Session.Rests S R now)
      (S.a9ReceiptResultTx key operation installation epoch hash a at_) := by
  refine .bind query_moves fun r => ?_
  cases r with
  | none => exact .pure _
  | some r => exact .ite (.pure _) (.bind latchA9UncertaintyTx_rests fun _ => .pure _)

theorem cancelA9RoutesTx_rests :
    Moves (Session.Rests S R now) (cancelA9RoutesTx installation binding at_) :=
  .require_bind fun _ => exec_rests fun _ => rfl

theorem resetA9EpochTx_rests {epoch : Bytes16} :
    Moves (Session.Rests S R now) (resetA9EpochTx installation epoch at_) :=
  .bind cancelA9RoutesTx_rests fun _ => .bind (exec_rests fun _ => rfl) fun _ =>
    .bind (exec_rests fun _ => rfl) fun _ => .bind (exec_rests fun _ => rfl) fun _ =>
    noteWrite_rests

theorem settleA9ControlTx_rests {state : ResultState} :
    Moves (Session.Rests S R now) (S.settleA9ControlTx event a latch state outcome at_) :=
  .bind latchIfTx_rests fun _ => .bind (exec_rests fun _ => rfl) fun _ => .pure _

theorem persistA9RevokeTx_rests :
    Moves (Session.Rests S R now) (persistA9RevokeTx event contiguous at_) :=
  .bind (exec_rests fun _ => rfl) fun _ => .bind (exec_rests fun _ => rfl) fun _ =>
    .bind cancelA9RoutesTx_rests fun _ => .bind (exec_rests fun _ => rfl) fun _ =>
    exec_rests fun _ => rfl

theorem persistNextA9Tx_rests : Moves (Session.Rests S R now) (persistNextA9Tx event at_) := by
  unfold persistNextA9Tx
  split
  · exact .bind expect_moves fun _ => .bind (exec_rests fun _ => rfl) fun _ =>
      .bind (exec_rests fun _ => rfl) fun _ => exec_rests fun _ => rfl
  · exact persistA9RevokeTx_rests

theorem applyA9ControlInEpochTx_rests :
    Moves (Session.Rests S R now) (S.applyA9ControlInEpochTx event a at_) :=
  .ite settleA9ControlTx_rests (.bind query_moves fun _ =>
    .bind query_moves fun _ => .ite settleA9ControlTx_rests
      (.ite settleA9ControlTx_rests (.ite
        (.ite (.bind settleA9ControlTx_rests fun _ => .bind persistA9RevokeTx_rests fun _ => .pure _) settleA9ControlTx_rests)
        (.ite settleA9ControlTx_rests
          (.bind (exec_rests fun _ => rfl) fun _ => .bind persistNextA9Tx_rests fun _ => .bind
            (exec_rests fun _ => rfl) fun _ => .bind noteWrite_rests fun _ => .pure _)))))

theorem applyControl_rests : Moves (Session.Rests S R now) (S.applyControl clock event) := by
  refine .mapError (.require_bind fun _ => .bind requireA9KeysetTx_rests fun _ => .bind
    requireRetentionSafeTx_rests fun _ => .bind loadOrInsertA9AuthorityTx_rests fun
    _ => .bind a9ReceiptResultTx_rests fun replay => ?_)
  cases replay with
  | some r => exact .ite (.fail _) (.pure _)
  | none =>
    exact .ite (.ite settleA9ControlTx_rests (.bind query_moves fun _ =>
      .ite settleA9ControlTx_rests (.bind resetA9EpochTx_rests fun _ =>
        applyA9ControlInEpochTx_rests))) applyA9ControlInEpochTx_rests

theorem latchA9WatermarkTx_rests {w : VerifiedWatermark} {reason : UncertaintyReason} :
    Moves (Session.Rests S R now) (S.latchA9WatermarkTx w a reason outcome at_) :=
  .bind latchA9UncertaintyTx_rests fun _ => .pure _

theorem applyNewA9WatermarkTx_rests {w : VerifiedWatermark} :
    Moves (Session.Rests S R now) (S.applyNewA9WatermarkTx w a at_) :=
  .ite latchA9WatermarkTx_rests (.ite latchA9WatermarkTx_rests
    (.ite latchA9WatermarkTx_rests (.ite latchA9WatermarkTx_rests
      (.ite latchA9WatermarkTx_rests (.ite (.pure _)
        (.bind (exec_rests fun _ => rfl) fun _ => .bind (exec_rests fun _ => rfl) fun _ =>
          .bind noteWrite_rests fun _ => .ite (.pure _) (.pure _)))))))

theorem applyWatermark_rests {w : VerifiedWatermark} :
    Moves (Session.Rests S R now) (S.applyWatermark clock w) := by
  refine .mapError (.require_bind fun _ => .bind requireA9KeysetTx_rests fun _ => .bind
    requireRetentionSafeTx_rests fun _ => .bind loadOrInsertA9AuthorityTx_rests fun
    _ => .bind (.bind query_moves fun stored => ?_) fun _ => .ite (.ite (.fail _) (.ite (.pure
    _) (.pure _))) applyNewA9WatermarkTx_rests)
  cases stored with
  | none => exact .pure _
  | some r => exact .require_bind fun _ => .pure _

theorem refuseA9ReplaceTx_rests {state : ResultState} :
    Moves (Session.Rests S R now) (S.refuseA9ReplaceTx request a state outcome latch at_) :=
  .bind latchIfTx_rests fun _ => .bind (exec_rests fun _ => rfl) fun _ => .pure _

theorem updateKeysetTx_rests :
    Moves (Session.Rests S R now) (updateKeysetTx u) :=
  .bind query_moves fun _ => .require_bind fun _ => exec_rests fun _ => by
    cases u <;> rfl

end Store

end NotificationServer
