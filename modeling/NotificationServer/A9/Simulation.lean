import Mathlib.Order.Nat
import NotificationServer.A9.Ledger
import NotificationServer.Gate6.Frame
import NotificationServer.System

/-!
# The code keeps the ledger

Each A9 operation that commits is a `Ledger.Transaction` of its artifact's
installation and epoch, and no other transaction touches the ledger.  The specs
of the shared statements come first; every branch of the three operations is
then assembled from them.
-/

namespace NotificationServer

open Relational Tx

variable {installationID : Bytes32} {token : Bytes} {k : Keyring}

variable {s s' : Session} {opened : List AuthorityWrite}

namespace Db

variable {i : Bytes16} {a : AuthorityRow}

/-- The row an installation's query returns is the only one it has. -/
theorem Constraints.row {db : Db} (hdb : db.Constraints) (h : db.authority i = some a) :
    db.ledger.Row i a := by
  obtain ⟨hmem, hi⟩ := found h
  refine ⟨hmem, hi, fun a' ha' hi' => ?_⟩
  exact hdb.authorities.key.eq_of_key_eq ha' hmem (hi'.trans hi.symm)

theorem authority_of_row {db : Db} (h : db.ledger.Row i a) : db.authority i = some a := by
  cases hb : db.authority i with
  | none =>
    have := List.find?_eq_none.mp hb a h.1
    exact absurd h.2.1 (by simpa using this)
  | some b =>
    rw [h.2.2 b (found hb).1 (found hb).2]

/-- A stored row is the row the query returns. -/
theorem Constraints.row_iff {db : Db} (hdb : db.Constraints) :
    db.ledger.Row i a ↔ db.authority i = some a :=
  ⟨authority_of_row, hdb.row⟩

/-- The statements of `resetA9EpochTx`. -/
def resetA9Epoch (i E : Bytes16) (now : Time) (db : Db) : Db :=
  let db := db.finalizeJobs (JobRouted i none) now fun _ => .safetyInvalidated
  let db := db.deleteRoutes i none
  let db := { db with bindings := deleteWhere (fun b => b.installationBindingID = i) db.bindings }
  db.updateAuthority i (.reset E now)

theorem authority_eq_none {db : Db} (h : db.authority i = none) :
    ∀ a ∈ db.authorities, a.installationBindingID ≠ i := by
  intro a ha
  have := List.find?_eq_none.mp h a ha
  simpa using this

end Db

/-- What a Gate-6 statement keeps of the ledger. -/
theorem Session.ledger_of_frame (h : s.Framed s') :
    s'.db.ledger = s.db.ledger ∧ s'.writes = s.writes :=
  ⟨congrArg (fun p => p.1.ledger) h.frame, congrArg Prod.snd h.frame⟩

/-- A part of a transaction: what it does to the ledger, and the statements it ran on the row. -/
def Records (P : Ledger → List AuthorityWrite → Ledger → Prop) (i : Bytes16) (s : Session)
    (ws : List AuthorityWrite) (s' : Session) : Prop :=
  P s.db.ledger ws s'.db.ledger ∧ s'.writes = ws.map (Prod.mk i) ++ s.writes

theorem Records.transaction {i E : Bytes16} {s1 s2 : Session}
    {rebased decided : List AuthorityWrite} (ho : Records (Ledger.Opened i E) i s opened s1)
    (hr : Records (Ledger.Rebased i E) i s1 rebased s2)
    (hd : Records (Ledger.Decided i E) i s2 decided s')
    (hfst : rebased ≠ [] → ∀ e ∈ s'.db.controlEvents,
      e ∈ s2.db.controlEvents ∨ e.streamSequence = 1) :
    Records (Ledger.Transaction i E) i s (decided ++ rebased ++ opened) s' := by
  refine ⟨.mk ho.1 hr.1 hd.1 hfst, ?_⟩
  rw [hd.2, hr.2, ho.2]
  simp only [List.map_append, List.append_assoc]

theorem Records.stayed (i E : Bytes16) (s : Session) : Records (Ledger.Rebased i E) i s [] s :=
  ⟨.stayed, rfl⟩

/-- A transaction that leaves the row in its epoch. -/
theorem Records.decided {i E : Bytes16} {s1 : Session} {decided : List AuthorityWrite}
    (ho : Records (Ledger.Opened i E) i s opened s1)
    (hd : Records (Ledger.Decided i E) i s1 decided s') :
    Records (Ledger.Transaction i E) i s (decided ++ [] ++ opened) s' :=
  ho.transaction (.stayed i E s1) hd fun h => absurd rfl h

theorem Records.unchanged {i E : Bytes16} (hl : s'.db.ledger = s.db.ledger)
    (hw : s'.writes = s.writes) : Records (Ledger.Decided i E) i s [] s' :=
  ⟨by rw [hl]; exact .unchanged, hw⟩

def VerifiedControl.requestKey (event : VerifiedControl) : RequestKey :=
  ⟨event.idempotencyKey, event.installationBindingID, event.sequencerEpoch, .control,
    event.signedObjectHash⟩

def ReplaceRequest.requestKey (request : ReplaceRequest) : RequestKey :=
  ⟨request.idempotencyKey, request.installationBindingID, request.sequencerEpoch, .replace,
    request.requestHash⟩

def RequestKey.receipt (k : RequestKey) (result : A9Result) : IdempotencyReceiptRow :=
  { idempotencyKey := k.idempotencyKey, operationKind := k.operationKind
    installationBindingID := k.installationBindingID, sequencerEpoch := k.sequencerEpoch
    signedRequestHash := k.signedRequestHash, resultOutcome := result.outcome
    resultState := result.state, subscriptionGeneration := result.subscriptionGeneration
    acceptedStreamSequence := result.acceptedStreamSequence }

def Db.addReceipt (x : IdempotencyReceiptRow) (db : Db) : Db :=
  { db with receipts := x :: db.receipts }

namespace Store

variable {S : Store} {s s' : Session} {u : Unit} {now : Time} {i : Bytes16} {a : AuthorityRow}
  {event : VerifiedControl}

theorem requireA9KeysetTx_ok {dbNow : Time} {keyset : KeysetReceipt} :
    requireA9KeysetTx dbNow keyset s = .ok (u, s') ↔
      (keyset.sequence ≠ 0 ∧ keyset.sequence ≤ maxSafeInteger ∧
        ∃ row, s.db.keysetState = some row ∧ keysetCurrent dbNow keyset row) ∧ s = s' := by
  simp only [requireA9KeysetTx, bind_ok, require_ok, query_ok, expect_ok]
  constructor
  · rintro ⟨-, _, ⟨⟨h0, h1⟩, rfl⟩, _, _, ⟨rfl, rfl⟩, row, _, ⟨hrow, rfl⟩, hc, rfl⟩
    exact ⟨⟨h0, h1, row, hrow, hc⟩, rfl⟩
  · rintro ⟨⟨h0, h1, row, hrow, hc⟩, rfl⟩
    exact ⟨(), s, ⟨⟨h0, h1⟩, rfl⟩, _, s, ⟨rfl, rfl⟩, row, s, ⟨hrow, rfl⟩, hc, rfl⟩

/-- The guard binds the lookup root, and fails if another one is bound. -/
theorem requireLookupKeyBoundTx_ok :
    S.requireLookupKeyBoundTx s = .ok (u, s') ↔
      (∀ k ∈ s.db.keyBinding, k = S.rootCommitment) ∧
        s'.db = { s.db with keyBinding := some S.rootCommitment } ∧ s'.writes = s.writes := by
  simp only [requireLookupKeyBoundTx, bind_ok, exec_ok, query_ok, require_ok]
  constructor
  · rintro ⟨-, s1, ⟨hdb, hw⟩, _, _, ⟨rfl, rfl⟩, hk, rfl⟩
    rw [hdb] at hk
    change some (s.db.keyBinding.getD S.rootCommitment) = some S.rootCommitment at hk
    rw [hk] at hdb
    refine ⟨fun k hk' => ?_, hdb, hw⟩
    rw [Option.mem_def.mp hk'] at hk
    exact Option.some.inj hk
  · rintro ⟨hk, hdb, hw⟩
    have hbind : some (s.db.keyBinding.getD S.rootCommitment) = some S.rootCommitment := by
      cases hb : s.db.keyBinding with
      | none => rfl
      | some k => rw [hk k hb]; rfl
    refine ⟨(), s', ⟨by rw [hdb, hbind], hw⟩, _, s', ⟨rfl, rfl⟩, ?_, rfl⟩
    rw [hdb]

theorem requireRetentionSafeTx_ok :
    S.requireRetentionSafeTx now s = .ok (u, s') ↔
      ((∀ k ∈ s.db.keyBinding, k = S.rootCommitment) ∧ retentionHealth now s.db.retention) ∧
        s'.db = { s.db with keyBinding := some S.rootCommitment } ∧ s'.writes = s.writes := by
  simp only [requireRetentionSafeTx, bind_ok, requireLookupKeyBoundTx_ok, query_ok, require_ok]
  constructor
  · rintro ⟨-, s1, ⟨hk, hdb, hw⟩, _, _, ⟨rfl, rfl⟩, hr, rfl⟩
    rw [hdb] at hr
    exact ⟨⟨hk, hr⟩, hdb, hw⟩
  · rintro ⟨⟨hk, hr⟩, hdb, hw⟩
    refine ⟨(), s', ⟨hk, hdb, hw⟩, _, s', ⟨rfl, rfl⟩, ?_, rfl⟩
    rw [hdb]
    exact hr

/-- The row an operation works on is the stored one, or the one it has just created. -/
theorem loadOrInsertA9AuthorityTx_ok {E : Bytes16} {state : AuthorityState}
    {reason : UncertaintyReason}
    (h : loadOrInsertA9AuthorityTx i E state reason now s = .ok (a, s')) :
    s'.db.ledger.Row i a ∧
    ((s.db.authority i = some a ∧ s = s') ∨
      (s.db.authority i = none ∧ a = .created i E state reason now ∧
        s'.db = { s.db with authorities := a :: s.db.authorities } ∧
        s'.writes = (i, .created state reason) :: s.writes)) := by
  simp only [loadOrInsertA9AuthorityTx, loadA9AuthorityTx, bind_ok, query_ok] at h
  obtain ⟨_, _, ⟨rfl, rfl⟩, h⟩ := h
  cases hrow : s.db.authority i with
  | some b =>
    simp only [hrow, pure_ok] at h
    obtain ⟨rfl, rfl⟩ := h
    exact ⟨s.valid.row hrow, .inl ⟨rfl, rfl⟩⟩
  | none =>
    simp only [hrow, insertA9AuthorityTx, bind_ok, exec_ok, noteWrite_ok, pure_ok] at h
    obtain ⟨-, s2, ⟨-, s1, ⟨hdb, hw⟩, hdb', hw'⟩, rfl, rfl⟩ := h
    have hdb'' := hdb'.trans hdb
    refine ⟨s2.valid.row ?_, .inr ⟨rfl, rfl, hdb'', by rw [hw', hw]⟩⟩
    simp [Db.authority, hdb'', AuthorityRow.created]

theorem latchA9UncertaintyTx_ok {reason : UncertaintyReason}
    (h : latchA9UncertaintyTx i reason now s = .ok (u, s')) :
    s'.db = s.db.updateAuthority i (.latched reason now) ∧
      s'.writes = (i, .latched reason) :: s.writes := by
  simp only [latchA9UncertaintyTx, bind_ok, exec_ok, query_ok, require_ok, noteWrite_ok] at h
  obtain ⟨-, s1, ⟨hdb, hw⟩, _, _, ⟨-, rfl⟩, -, _, ⟨-, rfl⟩, hdb', hw'⟩ := h
  exact ⟨hdb'.trans hdb, by rw [hw', hw]⟩

/-- The statements on the row that an optional latch leaves. -/
def latchWrites : Option UncertaintyReason → List AuthorityWrite
  | some r => [.latched r]
  | none => []

def latchIf (i : Bytes16) (reason : Option UncertaintyReason) (now : Time) (db : Db) : Db :=
  match reason with
  | some r => db.updateAuthority i (.latched r now)
  | none => db

theorem latchIfTx_ok {reason : Option UncertaintyReason}
    (h : latchIfTx i reason now s = .ok (u, s')) :
    s'.db = latchIf i reason now s.db ∧
      s'.writes = (latchWrites reason).map (Prod.mk i) ++ s.writes := by
  cases reason with
  | none =>
    simp only [latchIfTx, pure_ok] at h
    obtain ⟨-, rfl⟩ := h
    exact ⟨rfl, rfl⟩
  | some r => exact latchA9UncertaintyTx_ok h

/-- A used idempotency key replays its result if it is presented with what it was stored with, and
latches the row otherwise. -/
theorem a9ReceiptResultTx_ok {key : Bytes16} {operation : Operation} {E : Bytes16} {hash : Bytes32}
    {r : Option A9Result} (h : S.a9ReceiptResultTx key operation i E hash a now s = .ok (r, s')) :
    (r = none ∧ s = s' ∧ ∀ x ∈ s.db.receipts, x.idempotencyKey ≠ key) ∨
    (∃ x ∈ s.db.receipts, x.requestKey = ⟨key, i, E, operation, hash⟩ ∧ s = s' ∧
      r = some (S.a9Result i E x.subscriptionGeneration x.resultState .replay
        x.acceptedStreamSequence)) ∨
    (∃ x ∈ s.db.receipts, x.idempotencyKey = key ∧ x.requestKey ≠ ⟨key, i, E, operation, hash⟩ ∧
      s'.db = s.db.updateAuthority i (.latched .idempotency now) ∧
      s'.writes = (i, .latched .idempotency) :: s.writes ∧
      r = some (S.a9Result i E a.subscriptionGeneration .uncertain .conflict
        a.contiguousStreamSequence)) := by
  simp only [a9ReceiptResultTx, bind_ok, query_ok] at h
  obtain ⟨_, _, ⟨rfl, rfl⟩, h⟩ := h
  cases hfind : s.db.receipts.find? fun r => r.idempotencyKey = key with
  | none =>
    simp only [hfind, pure_ok] at h
    obtain ⟨rfl, rfl⟩ := h
    refine .inl ⟨rfl, rfl, fun x hx => ?_⟩
    simpa using List.find?_eq_none.mp hfind x hx
  | some x =>
    obtain ⟨hx, hkey⟩ := found hfind
    have hsame : x.requestKey = ⟨key, i, E, operation, hash⟩ ↔
        x.operationKind = operation ∧ x.installationBindingID = i ∧ x.sequencerEpoch = E ∧
          x.signedRequestHash = hash := by
      simp only [IdempotencyReceiptRow.requestKey, RequestKey.mk.injEq, hkey, true_and]
      constructor
      · rintro ⟨hi, hE, hoper, hhash⟩
        exact ⟨hoper, hi, hE, hhash⟩
      · rintro ⟨hoper, hi, hE, hhash⟩
        exact ⟨hi, hE, hoper, hhash⟩
    simp only [hfind, ite_ok] at h
    rcases h with ⟨hmatch, h⟩ | ⟨hoth, h⟩
    · obtain ⟨rfl, rfl⟩ := pure_ok.mp h
      exact .inr (.inl ⟨x, hx, hsame.mpr hmatch, rfl, rfl⟩)
    · simp only [bind_ok, pure_ok] at h
      obtain ⟨_, s1, hlatch, rfl, rfl⟩ := h
      obtain ⟨hdb, hw⟩ := latchA9UncertaintyTx_ok hlatch
      exact .inr (.inr ⟨x, hx, hkey, fun hk => hoth (hsame.mp hk), hdb, hw, rfl⟩)

theorem insertA9ReceiptTx_ok {key : Bytes16} {operation : Operation} {E : Bytes16} {hash : Bytes32}
    {result : A9Result} (h : insertA9ReceiptTx key operation i E hash result s = .ok (u, s')) :
    s'.db = s.db.addReceipt (RequestKey.receipt ⟨key, i, E, operation, hash⟩ result) ∧
      s'.writes = s.writes :=
  exec_ok.mp h

theorem settleA9ControlTx_ok {latch : Option UncertaintyReason} {state : ResultState}
    {outcome : ResultOutcome} {r : A9Result}
    (h : S.settleA9ControlTx event a latch state outcome now s = .ok (r, s')) :
    r = S.a9Result event.installationBindingID event.sequencerEpoch a.subscriptionGeneration state
        outcome a.contiguousStreamSequence ∧
      s'.db = (latchIf event.installationBindingID latch now s.db).addReceipt
        (event.requestKey.receipt r) ∧
      s'.writes = (latchWrites latch).map (Prod.mk event.installationBindingID) ++ s.writes := by
  simp only [settleA9ControlTx, bind_ok, pure_ok] at h
  obtain ⟨_, s1, hlatch, _, s2, hrec, rfl, rfl⟩ := h
  obtain ⟨hdb1, hw1⟩ := latchIfTx_ok hlatch
  obtain ⟨hdb2, hw2⟩ := insertA9ReceiptTx_ok hrec
  exact ⟨rfl, by rw [hdb2, hdb1]; rfl, by rw [hw2, hw1]⟩

theorem persistA9UpsertTx_ok (h : persistA9UpsertTx event s = .ok (u, s')) :
    ∃ assertion, event.assertion = some assertion ∧
      s'.db.ledger = s.db.ledger.upserted event (.ofAssertion assertion) ∧
      s'.writes = s.writes := by
  simp only [persistA9UpsertTx, insertA9ControlEventTx, bind_ok, expect_ok, exec_ok] at h
  obtain ⟨assertion, _, ⟨ha, rfl⟩, -, s1, ⟨hdb1, hw1⟩, -, s2, ⟨hdb2, hw2⟩, hdb3, hw3⟩ := h
  refine ⟨assertion, ha, ?_, by rw [hw3, hw2, hw1]⟩
  rw [hdb3, hdb2, hdb1]
  rfl

/-- A persisted REVOKE: what it does to the ledger, and that no job it denies can still be sent. -/
theorem persistA9RevokeTx_ok {contiguous : Bool}
    (h : persistA9RevokeTx event contiguous now s = .ok (u, s')) :
    s'.db.ledger = s.db.ledger.revoked event contiguous ∧
      s'.db.jobs = (s.db.finalizeJobs (Db.JobRouted event.installationBindingID (some
        event.bindingID)) now fun _ => .safetyInvalidated).jobs ∧
      s'.writes = s.writes := by
  simp only [persistA9RevokeTx, insertA9ControlEventTx, cancelA9RoutesTx, bind_ok, require_ok,
    exec_ok] at h
  obtain ⟨-, s1, ⟨hdb1, hw1⟩, -, s2, ⟨hdb2, hw2⟩, -, s3, ⟨-, _, ⟨-, rfl⟩, hdb3, hw3⟩, -, s4,
    ⟨hdb4, hw4⟩, hdb5, hw5⟩ := h
  refine ⟨?_, ?_, by rw [hw5, hw4, hw3, hw2, hw1]⟩
  · rw [hdb5, hdb4, hdb3, hdb2, hdb1]
    rfl
  · rw [hdb5]
    change s4.db.jobs = _
    rw [hdb4]
    change s3.db.jobs = _
    rw [hdb3, hdb2, hdb1]
    rfl

end Store

namespace Db

theorem le_highestTombstoneVersion (db : Db) {i b : Bytes16} {t : BindingTombstoneRow}
    (ht : t ∈ db.tombstones) (hi : t.installationBindingID = i) (hb : t.bindingID = b) :
    t.bindingVersion ≤ db.highestTombstoneVersion i b := by
  have hmem : t.bindingVersion ∈ (db.tombstones.filter fun t =>
      t.installationBindingID = i ∧ t.bindingID = b).map fun t => t.bindingVersion := by
    refine List.mem_map.mpr ⟨t, List.mem_filter.mpr ⟨ht, ?_⟩, rfl⟩
    simp [hi, hb]
  unfold highestTombstoneVersion
  exact List.le_max_of_le hmem le_rfl

theorem highestTombstoneVersion_le (db : Db) (i b : Bytes16) :
    db.highestTombstoneVersion i b ≤ db.highestVersion i b := by
  unfold highestVersion
  exact le_max_right _ _

end Db

namespace Store

variable {S : Store} {s s' : Session} {event : VerifiedControl} {now : Time} {u : Unit}
  {a b : AuthorityRow} {r : A9Result} {reason : UncertaintyReason} {state : ResultState}
  {outcome : ResultOutcome} {clock : Clock} {keyset : KeysetReceipt} {w : VerifiedWatermark}
  {request : ReplaceRequest} {latch : Option UncertaintyReason} {random : Bytes → LeaseDraw}
  {normalized : List NormalizedSubscription}

theorem persistNextA9Tx_ok (h : persistNextA9Tx event now s = .ok (u, s')) :
    (event.action = .upsert ∧ ∃ assertion, event.assertion = some assertion ∧ s'.db.ledger =
      s.db.ledger.upserted event (.ofAssertion assertion) ∧ s'.writes = s.writes) ∨
    (event.action = .revoke ∧ s'.db.ledger = s.db.ledger.revoked event true ∧
      s'.db.jobs = (s.db.finalizeJobs (Db.JobRouted event.installationBindingID (some
        event.bindingID)) now fun _ => .safetyInvalidated).jobs ∧
      s'.writes = s.writes) := by
  cases hact : event.action with
  | upsert =>
    simp only [persistNextA9Tx, hact] at h
    exact .inl ⟨rfl, persistA9UpsertTx_ok h⟩
  | revoke =>
    simp only [persistNextA9Tx, hact] at h
    exact .inr ⟨rfl, persistA9RevokeTx_ok h⟩

theorem applyNextA9ControlTx_ok (h : S.applyNextA9ControlTx event a now s = .ok (r, s')) :
    r.outcome = .applied ∧
    ((event.action = .upsert ∧ ∃ assertion, event.assertion = some assertion ∧ s'.db.ledger =
          (s.db.ledger.upserted event (.ofAssertion assertion)).advance event now) ∨
      (event.action = .revoke ∧ s'.db.ledger = (s.db.ledger.revoked event true).advance event now ∧
        s'.db.jobs = (s.db.finalizeJobs (Db.JobRouted event.installationBindingID (some
          event.bindingID)) now fun _ => .safetyInvalidated).jobs)) ∧
    s'.writes = (event.installationBindingID, .cursorAdvanced) :: s.writes := by
  simp only [applyNextA9ControlTx, bind_ok, exec_ok, noteWrite_ok, pure_ok] at h
  obtain ⟨_, s1, hrec, _, s2, hper, -, s3, ⟨hdb3, hw3⟩, -, s4, ⟨hdb4, hw4⟩, rfl, rfl⟩ := h
  obtain ⟨hdb1, hw1⟩ := insertA9ReceiptTx_ok hrec
  have hled1 : s1.db.ledger = s.db.ledger := by rw [hdb1]; rfl
  have hled4 : s4.db.ledger = s2.db.ledger.advance event now := by rw [hdb4, hdb3]; rfl
  have hjobs4 : s4.db.jobs = s2.db.jobs := by rw [hdb4, hdb3]; rfl
  have hjobs1 : s1.db.jobs = s.db.jobs := by rw [hdb1]; rfl
  refine ⟨rfl, ?_, ?_⟩
  · rcases persistNextA9Tx_ok hper with ⟨hact, assertion, ha, hl, -⟩ | ⟨hact, hl, hj, -⟩
    · exact .inl ⟨hact, assertion, ha, by rw [hled4, hl, hled1]⟩
    · refine .inr ⟨hact, by rw [hled4, hl, hled1], ?_⟩
      rw [hjobs4, hj]
      unfold Db.finalizeJobs
      rw [hjobs1]
  · rcases persistNextA9Tx_ok hper with ⟨-, _, -, -, hw2⟩ | ⟨-, -, -, hw2⟩
    · rw [hw4, hw3, hw2, hw1]
    · rw [hw4, hw3, hw2, hw1]

/-- A latch that is the last thing done to the ledger. -/
theorem latched_records {i E : Bytes16} (hrow : s.db.ledger.Row i a) (hnone : reason ≠ .none)
    (hep : reason = .epoch → a.sequencerEpoch ≠ E)
    (hl : s'.db.ledger = s.db.ledger.updateAuthority i (.latched reason now))
    (hw : s'.writes = (i, .latched reason) :: s.writes) :
    Records (Ledger.Decided i E) i s [.latched reason] s' := by
  refine ⟨?_, hw⟩
  rw [hl]
  exact .latched reason now hrow hnone hep

theorem settleA9ControlTx_records (hrow : s.db.ledger.Row event.installationBindingID b)
    (hnone : reason ≠ .none) (hep : reason = .epoch → b.sequencerEpoch ≠ event.sequencerEpoch)
    (h : S.settleA9ControlTx event a (some reason) state outcome now s = .ok (r, s')) :
    Records (Ledger.Decided event.installationBindingID event.sequencerEpoch)
      event.installationBindingID s [.latched reason] s' := by
  obtain ⟨-, hdb, hw⟩ := settleA9ControlTx_ok h
  exact latched_records hrow hnone hep (by rw [hdb]; rfl) hw

/-- An event of the row's epoch: whichever branch it takes, the ledger records one decision. -/
theorem applyA9ControlInEpochTx_records (hval : S.validA9Control event)
    (hrow : s.db.ledger.Row event.installationBindingID b)
    (hE : b.sequencerEpoch = event.sequencerEpoch)
    (hc : b.contiguousStreamSequence = a.contiguousStreamSequence)
    (h : S.applyA9ControlInEpochTx event a now s = .ok (r, s')) :
    ∃ ws, Records (Ledger.Decided event.installationBindingID event.sequencerEpoch)
        event.installationBindingID s ws s' ∧ .latched .epoch ∉ ws ∧ .replaced ∉ ws ∧
      ∀ e ∈ s'.db.controlEvents,
        e ∈ s.db.controlEvents ∨ e.streamSequence = event.streamSequence := by
  have settled : ∀ {reason state outcome}, reason ≠ .none → reason ≠ .epoch →
      S.settleA9ControlTx event a (some reason) state outcome now s = .ok (r, s') →
      ∃ ws, Records (Ledger.Decided event.installationBindingID event.sequencerEpoch)
          event.installationBindingID s ws s' ∧ .latched .epoch ∉ ws ∧ .replaced ∉ ws ∧
        ∀ e ∈ s'.db.controlEvents,
          e ∈ s.db.controlEvents ∨ e.streamSequence = event.streamSequence := by
    intro reason state outcome hnone hep hs
    refine ⟨_, settleA9ControlTx_records hrow hnone (fun he => absurd he hep) hs, ?_, by simp, ?_⟩
    · simpa using fun he => hep he.symm
    · obtain ⟨-, hdb, -⟩ := settleA9ControlTx_ok hs
      intro e he
      rw [hdb] at he
      exact .inl he
  have stored : ∀ {t : Session} {contiguous},
      t.db.controlEvents = event.row contiguous :: s.db.controlEvents →
      ∀ e ∈ t.db.controlEvents,
        e ∈ s.db.controlEvents ∨ e.streamSequence = event.streamSequence := by
    intro t contiguous heq e he
    rw [heq] at he
    rcases List.mem_cons.mp he with rfl | he
    · exact .inr rfl
    · exact .inl he
  have hver : event.bindingVersion = event.expectedBindingVersion + 1 := hval.2.2.2.2.2.2.1
  simp only [applyA9ControlInEpochTx, ite_ok, bind_ok, query_ok] at h
  rcases h with ⟨-, h⟩ | ⟨-, _, _, ⟨rfl, rfl⟩, _, _, ⟨rfl, rfl⟩, h⟩
  · exact settled (by decide) (by decide) h
  rcases h with ⟨-, h⟩ | ⟨-, ⟨-, h⟩ | ⟨hnew, ⟨hgap, ⟨hdeny, h⟩ | ⟨-, h⟩⟩ |
    ⟨hnext, ⟨-, h⟩ | ⟨hagree, h⟩⟩⟩⟩
  -- A stale UPSERT is answered and changes nothing.
  · obtain ⟨-, hdb, hw⟩ := settleA9ControlTx_ok h
    refine ⟨[], .unchanged (by rw [hdb]; rfl) hw, by simp, by simp, fun e he => .inl ?_⟩
    rw [hdb] at he
    exact he
  · exact settled (by decide) (by decide) h
  -- A higher REVOKE is kept across the gap, after the latch.
  · obtain ⟨_, s1, hset, _, s2, hper, hpure⟩ := h
    obtain ⟨rfl, rfl⟩ := pure_ok.mp hpure
    obtain ⟨-, hdb1, hw1⟩ := settleA9ControlTx_ok hset
    obtain ⟨hled2, -, hw2⟩ := persistA9RevokeTx_ok hper
    have hled : s2.db.ledger = (s.db.ledger.updateAuthority event.installationBindingID
        (.latched .controlGap now)).revoked event false := by rw [hled2, hdb1]; rfl
    refine ⟨[.latched .controlGap], ⟨?_, by rw [hw2, hw1]; rfl⟩, by simp, by simp,
      stored (congrArg Ledger.controlEvents hled)⟩
    rw [hled]
    exact .deniedAcrossGap event now hrow hE rfl rfl hdeny.1 (by omega)
  · exact settled (by decide) (by decide) h
  · exact settled (by decide) (by decide) h
  -- The event is the next of its stream and names the version it replaces.
  · obtain ⟨-, hcase, hw⟩ := applyNextA9ControlTx_ok h
    have hnext' : event.streamSequence = b.contiguousStreamSequence + 1 := by omega
    rcases hcase with ⟨hact, assertion, -, hled⟩ | ⟨hact, hled, -⟩
    · refine ⟨[.cursorAdvanced], ⟨?_, hw⟩, by simp, by simp,
        stored (congrArg Ledger.controlEvents hled)⟩
      rw [hled]
      refine .upsertApplied event _ now hrow hE rfl rfl hnext' fun t ht hi hb => ?_
      have hle := s.db.le_highestTombstoneVersion ht hi hb
      have hle' := s.db.highestTombstoneVersion_le event.installationBindingID event.bindingID
      have hexp : event.expectedBindingVersion = _ := not_not.mp (not_or.mp hagree).2
      omega
    · refine ⟨[.cursorAdvanced], ⟨?_, hw⟩, by simp, by simp,
        stored (congrArg Ledger.controlEvents hled)⟩
      rw [hled]
      exact .revokeApplied event now hrow hE rfl rfl hnext'

theorem resetA9EpochTx_ok {i E : Bytes16} (hrow : s.db.ledger.Row i a)
    (h : resetA9EpochTx i E now s = .ok (u, s')) :
    s'.db = s.db.resetA9Epoch i E now ∧ s'.writes = (i, .reset E) :: s.writes ∧
      s'.db.ledger.Row i (a.reset E now) := by
  simp only [resetA9EpochTx, cancelA9RoutesTx, bind_ok, require_ok, exec_ok, noteWrite_ok] at h
  obtain ⟨-, t1, ⟨-, _, ⟨-, rfl⟩, hd1, hw1⟩, -, t2, ⟨hd2, hw2⟩, -, t3, ⟨hd3, hw3⟩, -, t4,
    ⟨hd4, hw4⟩, hd5, hw5⟩ := h
  have hdb : s'.db = s.db.resetA9Epoch i E now := by
    rw [hd5, hd4, hd3, hd2, hd1]
    rfl
  refine ⟨hdb, by rw [hw5, hw4, hw3, hw2, hw1], ?_⟩
  rw [hdb]
  exact Ledger.Row.updateAuthority (f := AuthorityRow.reset E now)
    (L := { s.db.ledger with routes := _, bindings := _ }) hrow hrow.2.1

/-- The guards and the row every A9 operation starts with: what they leave of the database, and
the row as the ledger has it. -/
theorem openA9_records {i E : Bytes16} {state : AuthorityState} {v : Unit} {s1 s2 : Session}
    (hwhy : reason ≠ .epoch) (hks : requireA9KeysetTx clock.db keyset s = .ok (u, s1))
    (hsafe : S.requireRetentionSafeTx clock.host s1 = .ok (v, s2))
    (hload : loadOrInsertA9AuthorityTx i E state reason clock.db s2 = .ok (a, s')) :
    (∃ opened, Records (Ledger.Opened i E) i s opened s' ∧ .latched .epoch ∉ opened ∧
        .replaced ∉ opened) ∧
      s'.db.ledger.Row i a ∧
      (s.db.authority i = some a ∨ (s.db.authority i = none ∧ a.sequencerEpoch = E)) ∧
      s'.db = { s.db with
        keyBinding := some S.rootCommitment, authorities := s'.db.authorities } := by
  obtain ⟨-, rfl⟩ := requireA9KeysetTx_ok.mp hks
  obtain ⟨-, hdb2, hw2⟩ := requireRetentionSafeTx_ok.mp hsafe
  obtain ⟨hrow, ⟨hfd, rfl⟩ | ⟨hnone, rfl, hdb, hw⟩⟩ := loadOrInsertA9AuthorityTx_ok hload
  · have hled : s2.db.ledger = s.db.ledger := by rw [hdb2]; rfl
    have hfd' : s.db.authority i = some a := by rw [hdb2] at hfd; exact hfd
    refine ⟨⟨[], ⟨?_, hw2⟩, by simp, by simp⟩, hrow, .inl hfd', by rw [hdb2]⟩
    rw [hled] at hrow ⊢
    exact .found hrow
  · have hnone' : s.db.authority i = none := by rw [hdb2] at hnone; exact hnone
    refine ⟨⟨[.created state reason], ⟨?_, by rw [hw, hw2]; rfl⟩, by simp, by simp⟩, hrow,
      .inr ⟨hnone', rfl⟩, by rw [hdb, hdb2]⟩
    rw [hdb, hdb2]
    exact .created state reason clock.db (Db.authority_eq_none hnone') hwhy

/-- A control event whose epoch is not the row's, that no receipt answers and that does not start
an epoch nothing is stored under. -/
def ForeignControl (db : Db) (event : VerifiedControl) : Prop :=
  (∃ a ∈ db.authority event.installationBindingID, a.sequencerEpoch ≠ event.sequencerEpoch) ∧
  (∀ x ∈ db.receipts, x.idempotencyKey ≠ event.idempotencyKey) ∧
  (event.streamSequence ≠ 1 ∨ event.expectedPreviousSequence ≠ 0 ∨
    db.EpochObserved event.installationBindingID event.sequencerEpoch)

/-- A first-seen event: it is settled as foreign, moves the row to its epoch, or is decided in the
epoch it shares with the row. -/
theorem applyFirstA9ControlTx_records (hval : S.validA9Control event)
    (hrow : s.db.ledger.Row event.installationBindingID a)
    (h : S.applyFirstA9ControlTx event a now s = .ok (r, s')) :
    ∃ s1 rebased decided, Records (Ledger.Rebased event.installationBindingID event.sequencerEpoch)
        event.installationBindingID s rebased s1 ∧
      Records (Ledger.Decided event.installationBindingID event.sequencerEpoch)
        event.installationBindingID s1 decided s' ∧
      (rebased ≠ [] → ∀ e ∈ s'.db.controlEvents, e ∈ s1.db.controlEvents ∨ e.streamSequence = 1) ∧
      .latched .epoch ∉ rebased ∧ .replaced ∉ rebased ∧ .replaced ∉ decided ∧
      (.latched .epoch ∈ decided → a.sequencerEpoch ≠ event.sequencerEpoch ∧
        (event.streamSequence ≠ 1 ∨ event.expectedPreviousSequence ≠ 0 ∨
          s.db.EpochObserved event.installationBindingID event.sequencerEpoch)) := by
  simp only [applyFirstA9ControlTx, ite_ok, bind_ok, query_ok] at h
  rcases h with ⟨hne, ⟨hseq, h⟩ | ⟨hseq, _, _, ⟨rfl, rfl⟩, ⟨hobs, h⟩ | ⟨hobs, _, s1, hreset, h⟩⟩⟩ |
    ⟨heq, h⟩
  · refine ⟨s, [], _, .stayed _ _ _, settleA9ControlTx_records hrow (by decide) (fun _ => hne) h,
      fun hr => absurd rfl hr, by simp, by simp, by simp, fun _ => ⟨hne, ?_⟩⟩
    rcases hseq with hseq | hseq
    · exact .inl hseq
    · exact .inr (.inl hseq)
  · exact ⟨s, [], _, .stayed _ _ _, settleA9ControlTx_records hrow (by decide) (fun _ => hne) h,
      fun hr => absurd rfl hr, by simp, by simp, by simp,
      fun _ => ⟨hne, .inr (.inr (of_decide_eq_true hobs))⟩⟩
  · obtain ⟨hdb, hw, hrow1⟩ := resetA9EpochTx_ok hrow hreset
    have hobs' : ¬ s.db.EpochObserved event.installationBindingID event.sequencerEpoch := by
      simpa using hobs
    have hrebased : Records (Ledger.Rebased event.installationBindingID event.sequencerEpoch)
        event.installationBindingID s [.reset event.sequencerEpoch] s1 := by
      refine ⟨?_, hw⟩
      rw [hdb]
      refine .moved now hrow hne (fun e he hi hE => hobs' ?_) fun w hw hi hE => hobs' ?_
      · exact .inl ⟨e, he, hi, hE⟩
      · exact .inr (.inl ⟨w, hw, hi, hE⟩)
    obtain ⟨ws, hd, hno, hno', hsto⟩ := applyA9ControlInEpochTx_records hval hrow1 rfl rfl h
    rw [not_not.mp (not_or.mp hseq).1] at hsto
    exact ⟨s1, _, ws, hrebased, hd, fun _ => hsto, by simp, by simp, hno',
      fun hmem => absurd hmem hno⟩
  · obtain ⟨ws, hd, hno, hno', -⟩ := applyA9ControlInEpochTx_records hval hrow (not_not.mp heq) rfl h
    exact ⟨s, [], ws, .stayed _ _ _, hd, fun hr => absurd rfl hr, by simp, by simp, hno',
      fun hmem => absurd hmem hno⟩

/-- `ApplyControl` as a ledger transaction; the reason `epoch` is latched for foreign events only. -/
theorem applyControl_records (h : S.applyControl clock event s = .ok (r, s')) :
    ∃ ws, Records (Ledger.Transaction event.installationBindingID event.sequencerEpoch)
        event.installationBindingID s ws s' ∧
      (.latched .epoch ∈ ws → ForeignControl s.db event) ∧ .replaced ∉ ws := by
  simp only [applyControl, mapError_ok, bind_ok, require_ok, applyA9ControlOnce] at h
  obtain ⟨-, _, ⟨hval, rfl⟩, _, s1, hks, _, s2, hsafe, a, s3, hload, receipt, s4, hrec, h⟩ := h
  obtain ⟨⟨opened, hopen, hno, hnone⟩, hrow, ha, hdb3⟩ := openA9_records
    (by split <;> decide) hks hsafe hload
  rcases a9ReceiptResultTx_ok hrec with ⟨rfl, rfl, huns⟩ | ⟨x, -, -, rfl, rfl⟩ |
    ⟨x, -, -, -, hdb4, hw4, rfl⟩
  · -- A first-seen event.
    obtain ⟨s5, rebased, decided, hrebased, hdec, hfst, hno', hnone1, hnone2, hfor⟩ :=
      applyFirstA9ControlTx_records hval hrow h
    refine ⟨_, hopen.transaction hrebased hdec hfst, fun hmem => ?_, by
      simp [hnone, hnone1, hnone2]⟩
    have hmem' : .latched .epoch ∈ decided := by
      simpa [hno, hno'] using hmem
    obtain ⟨hne, hseq⟩ := hfor hmem'
    rw [hdb3] at huns hseq
    refine ⟨?_, huns, hseq⟩
    rcases ha with ha | ⟨-, ha⟩
    · exact ⟨a, ha, hne⟩
    · exact absurd ha hne
  · -- An exact repetition.
    simp only [ite_ok, fail_ok, and_false, false_or, pure_ok] at h
    obtain ⟨-, -, rfl⟩ := h
    refine ⟨_, hopen.decided (.unchanged rfl rfl), ?_⟩
    simp [hno, hnone]
  · -- Another use of a stored key.
    simp only [ite_ok, fail_ok, and_false, false_or, pure_ok] at h
    obtain ⟨-, -, rfl⟩ := h
    have hlatched := latched_records (E := event.sequencerEpoch) hrow (by decide)
      (fun he => absurd he (by decide)) (by rw [hdb4]; rfl) hw4
    refine ⟨_, hopen.decided hlatched, ?_⟩
    simp [hno, hnone]

/-- A watermark whose epoch is not the row's and that is not in the history. -/
def ForeignWatermark (db : Db) (w : VerifiedWatermark) : Prop :=
  (∃ a ∈ db.authority w.installationBindingID, a.sequencerEpoch ≠ w.sequencerEpoch) ∧
  ∀ x ∈ db.watermarks, x.columns.signedHash ≠ w.signedObjectHash

theorem latchA9WatermarkTx_ok (h : S.latchA9WatermarkTx w a reason outcome now s = .ok (r, s')) :
    s'.db = s.db.updateAuthority w.installationBindingID (.latched reason now) ∧
      s'.writes = (w.installationBindingID, .latched reason) :: s.writes := by
  simp only [latchA9WatermarkTx, bind_ok, pure_ok] at h
  obtain ⟨_, s1, hlatch, -, rfl⟩ := h
  exact latchA9UncertaintyTx_ok hlatch

theorem latchA9WatermarkTx_records (hrow : s.db.ledger.Row w.installationBindingID b)
    (hnone : reason ≠ .none) (hep : reason = .epoch → b.sequencerEpoch ≠ w.sequencerEpoch)
    (h : S.latchA9WatermarkTx w a reason outcome now s = .ok (r, s')) :
    Records (Ledger.Decided w.installationBindingID w.sequencerEpoch) w.installationBindingID s
      [.latched reason] s' := by
  obtain ⟨hdb, hw⟩ := latchA9WatermarkTx_ok h
  exact latched_records hrow hnone hep (by rw [hdb]; rfl) hw

/-- Storing a watermark succeeds only if the primary key of the history was free. -/
theorem storeA9WatermarkTx_ok (h : S.storeA9WatermarkTx w a now s = .ok (r, s')) :
    s'.db = ({ s.db with watermarks := w.row :: s.db.watermarks }.updateAuthority
        w.installationBindingID fun b =>
          { b with
            state := (a.withWatermark w now).state
            uncertaintyReason := (a.withWatermark w now).uncertaintyReason
            watermark := some w.columns, updatedAt := now }) ∧
      s'.writes = (w.installationBindingID, .watermarkStored w.status) :: s.writes ∧
      ∀ w' ∈ s.db.watermarks, w'.key ≠ w.row.key := by
  simp only [storeA9WatermarkTx, appendA9WatermarkTx, bind_ok, exec_ok, noteWrite_ok, ite_ok] at h
  obtain ⟨-, s1, ⟨hdb1, hw1⟩, -, s2, ⟨hdb2, hw2⟩, -, s3, ⟨hdb3, hw3⟩, h⟩ := h
  obtain rfl : s3 = s' := by
    rcases h with ⟨-, h⟩ | ⟨-, h⟩
    · exact (pure_ok.mp h).2
    · exact (pure_ok.mp h).2
  refine ⟨by rw [hdb3, hdb2, hdb1], by rw [hw3, hw2, hw1], ?_⟩
  have huniq := s1.valid.watermarks.key
  rw [hdb1] at huniq
  exact (unique_cons.mp huniq).1

theorem storeA9WatermarkTx_records (hrow : s.db.ledger.Row w.installationBindingID a)
    (hE : a.sequencerEpoch = w.sequencerEpoch)
    (hnext : w.watermarkSequence = a.currentWatermarkSequence + 1)
    (hopen : w.status = .current → a.state = .uncertain → a.uncertaintyReason = .epoch)
    (h : S.storeA9WatermarkTx w a now s = .ok (r, s')) :
    Records (Ledger.Decided w.installationBindingID w.sequencerEpoch) w.installationBindingID s
      [.watermarkStored w.status] s' := by
  obtain ⟨hdb, hw, hfr⟩ := storeA9WatermarkTx_ok h
  refine ⟨?_, hw⟩
  have hled : s'.db.ledger =
      ({ s.db.ledger with watermarks := w.row :: s.db.ledger.watermarks }.updateAuthority
        w.installationBindingID (.withWatermark w now)) := by
    rw [hdb]
    refine Ledger.Row.updateAuthority_congr
      (L := { s.db.ledger with watermarks := w.row :: s.db.ledger.watermarks }) hrow ?_
    unfold AuthorityRow.withWatermark
    cases w.status <;> rfl
  rw [hled]
  exact .watermarkStored w now hrow hE rfl rfl hnext hfr hopen

theorem applyNewA9WatermarkTx_records (hrow : s.db.ledger.Row w.installationBindingID a)
    (h : S.applyNewA9WatermarkTx w a now s = .ok (r, s')) :
    ∃ ws, Records (Ledger.Decided w.installationBindingID w.sequencerEpoch)
        w.installationBindingID s ws s' ∧
      (.latched .epoch ∈ ws → a.sequencerEpoch ≠ w.sequencerEpoch) ∧ .replaced ∉ ws := by
  have latched : ∀ {reason outcome}, reason ≠ .none → reason ≠ .epoch →
      S.latchA9WatermarkTx w a reason outcome now s = .ok (r, s') →
      ∃ ws, Records (Ledger.Decided w.installationBindingID w.sequencerEpoch)
          w.installationBindingID s ws s' ∧
        (.latched .epoch ∈ ws → a.sequencerEpoch ≠ w.sequencerEpoch) ∧ .replaced ∉ ws := by
    intro reason outcome hnone hep hl
    refine ⟨_, latchA9WatermarkTx_records hrow hnone (fun he => absurd he hep) hl, ?_, by simp⟩
    intro hmem
    exact absurd (by simpa using hmem) hep.symm
  simp only [applyNewA9WatermarkTx, ite_ok, pure_ok] at h
  rcases h with ⟨hne, h⟩ | ⟨heq, ⟨-, h⟩ | ⟨-, ⟨-, h⟩ | ⟨-, ⟨-, h⟩ | ⟨hnext, ⟨-, h⟩ |
    ⟨-, ⟨-, -, rfl⟩ | ⟨hopen, h⟩⟩⟩⟩⟩⟩
  · exact ⟨_, latchA9WatermarkTx_records hrow (by decide) (fun _ => hne) h, fun _ => hne, by simp⟩
  · exact latched (by decide) (by decide) h
  · exact latched (by decide) (by decide) h
  · exact latched (by decide) (by decide) h
  · exact latched (by decide) (by decide) h
  -- A latched row cannot be prepared for recovery except after an epoch change.
  · exact ⟨[], .unchanged rfl rfl, by simp, by simp⟩
  refine ⟨_, storeA9WatermarkTx_records hrow (not_not.mp heq) (not_not.mp hnext) ?_ h, by simp,
    by simp⟩
  intro hcur hunc
  by_contra hwhy
  exact hopen ⟨hcur, hunc, hwhy⟩

/-- `ApplyWatermark` as a ledger transaction. -/
theorem applyWatermark_records (h : S.applyWatermark clock w s = .ok (r, s')) :
    ∃ ws, Records (Ledger.Transaction w.installationBindingID w.sequencerEpoch)
        w.installationBindingID s ws s' ∧
      (.latched .epoch ∈ ws → ForeignWatermark s.db w) ∧ .replaced ∉ ws := by
  simp only [applyWatermark, mapError_ok, bind_ok, require_ok, applyA9WatermarkOnce] at h
  obtain ⟨-, _, ⟨-, rfl⟩, _, s1, hks, _, s2, hsafe, a, s3, hload, accepted, s4, hacc, h⟩ := h
  obtain ⟨⟨opened, hopen, hno, hnone⟩, hrow, ha, hdb3⟩ := openA9_records (by decide) hks hsafe hload
  simp only [a9WatermarkAlreadyAcceptedTx, bind_ok, query_ok] at hacc
  obtain ⟨_, _, ⟨rfl, rfl⟩, hacc⟩ := hacc
  cases hfind : s3.db.watermarks.find? fun x => x.columns.signedHash = w.signedObjectHash with
  | none =>
    simp only [hfind, pure_ok] at hacc
    obtain ⟨rfl, rfl⟩ := hacc
    simp only [Bool.false_eq_true, if_false] at h
    obtain ⟨ws, hdec, hfor, hnone'⟩ := applyNewA9WatermarkTx_records hrow h
    refine ⟨_, hopen.decided hdec, fun hmem => ?_, by simp [hnone, hnone']⟩
    have hne := hfor (by simpa [hno] using hmem)
    refine ⟨?_, fun x hx => ?_⟩
    · rcases ha with ha | ⟨-, ha⟩
      · exact ⟨a, ha, hne⟩
      · exact absurd ha hne
    · rw [hdb3] at hfind
      simpa using List.find?_eq_none.mp hfind x hx
  | some stored =>
    simp only [hfind, bind_ok, require_ok, pure_ok] at hacc
    obtain ⟨-, _, ⟨-, rfl⟩, rfl, rfl⟩ := hacc
    simp only [if_true, ite_ok, fail_ok, and_false, false_or, pure_ok] at h
    obtain rfl : s3 = s' := by
      rcases h with ⟨-, ⟨-, -, rfl⟩ | ⟨-, -, rfl⟩⟩
      · rfl
      · rfl
    refine ⟨_, hopen.decided (.unchanged rfl rfl), ?_⟩
    simp [hno, hnone]

/-- A replacement whose epoch is not the row's and that no receipt answers. -/
def ForeignReplace (db : Db) (request : ReplaceRequest) : Prop :=
  (∃ a ∈ db.authority request.installationBindingID, a.sequencerEpoch ≠ request.sequencerEpoch) ∧
  ∀ x ∈ db.receipts, x.idempotencyKey ≠ request.idempotencyKey

theorem refuseA9ReplaceTx_ok
    (h : S.refuseA9ReplaceTx request a state outcome latch now s = .ok (r, s')) :
    r = S.a9Result request.installationBindingID request.sequencerEpoch a.subscriptionGeneration
        (if latch.isSome then .uncertain else state) outcome a.contiguousStreamSequence ∧
      s'.db = (latchIf request.installationBindingID latch now s.db).addReceipt
        (request.requestKey.receipt r) ∧
      s'.writes = (latchWrites latch).map (Prod.mk request.installationBindingID) ++ s.writes := by
  simp only [refuseA9ReplaceTx, bind_ok, pure_ok] at h
  obtain ⟨_, s1, hlatch, _, s2, hrec, rfl, rfl⟩ := h
  obtain ⟨hdb1, hw1⟩ := latchIfTx_ok hlatch
  obtain ⟨hdb2, hw2⟩ := insertA9ReceiptTx_ok hrec
  exact ⟨rfl, by rw [hdb2, hdb1]; rfl, by rw [hw2, hw1]⟩

theorem refuseA9ReplaceTx_records (hrow : s.db.ledger.Row request.installationBindingID b)
    (hnone : latch ≠ some .none)
    (hep : latch = some .epoch → b.sequencerEpoch ≠ request.sequencerEpoch)
    (h : S.refuseA9ReplaceTx request a state outcome latch now s = .ok (r, s')) :
    Records (Ledger.Decided request.installationBindingID request.sequencerEpoch)
      request.installationBindingID s (latchWrites latch) s' := by
  obtain ⟨-, hdb, hw⟩ := refuseA9ReplaceTx_ok h
  cases latch with
  | none => exact .unchanged (by rw [hdb]; rfl) hw
  | some reason =>
    exact latched_records hrow (fun he => hnone (by rw [he])) (fun he => hep (by rw [he]))
      (by rw [hdb]; rfl) hw

structure RouteStored (identity : LookupDigest) (leases : List ExistingLease)
    (route : Bytes × RouteColumns) (row : RouteRow) : Prop where
  identity : row.installationIdentity = identity
  columns : row.columns = route.2
  lease : ∃ e ∈ leases, e.topic = route.1 ∧ e.lease.leaseID = row.leaseID

/-- Publishing routes adds one row for each and changes no other table. -/
theorem publishA9Routes_ok {identity : LookupDigest} {leases : List ExistingLease}
    {routes : List (Bytes × RouteColumns)}
    (h : Tx.forEach routes (publishA9RouteTx request identity leases) s = .ok (u, s')) :
    (∃ rows, List.Forall₂ (RouteStored identity leases) routes rows ∧
      s'.db = { s.db with routes := rows.reverse ++ s.db.routes }) ∧ s'.writes = s.writes := by
  induction routes generalizing s with
  | nil =>
    obtain ⟨-, rfl⟩ := pure_ok.mp h
    exact ⟨⟨[], .nil, rfl⟩, rfl⟩
  | cons route routes ih =>
    simp only [Tx.forEach, bind_ok, publishA9RouteTx, expect_ok, exec_ok] at h
    obtain ⟨-, s1, ⟨e, _, ⟨hfind, rfl⟩, hdb, hw⟩, h⟩ := h
    obtain ⟨⟨rows, hrows, hdb'⟩, hw'⟩ := ih h
    obtain ⟨he, htop⟩ := found hfind
    have hsto : RouteStored identity leases route
        { leaseID := e.lease.leaseID, installationIdentity := identity
          replacementIdempotencyKey := request.idempotencyKey, columns := route.2 } :=
      ⟨rfl, rfl, e, he, htop, rfl⟩
    refine ⟨⟨_ :: rows, .cons hsto hrows, ?_⟩, hw'.trans hw⟩
    rw [hdb', hdb, List.reverse_cons, List.append_assoc]
    rfl

/-- The database a replacement hands to the Gate-6 refresh. -/
def cleared (request : ReplaceRequest) (r : A9Result) (now : Time) (db : Db) : Db :=
  ((db.addReceipt (request.requestKey.receipt r)).finalizeJobs
    (Db.JobRouted request.installationBindingID none) now fun _ => .safetyInvalidated).deleteRoutes
      request.installationBindingID none

/-- What a replacement makes of the database the Gate-6 refresh left. -/
def published (S : Store) (request : ReplaceRequest) (now : Time) (rows : List RouteRow)
    (db : Db) : Db :=
  { db with
    gate6Bindings := upsert (fun b => b.installationBindingID) (fun old _ => old)
      { installationBindingID := request.installationBindingID
        installationIdentity := S.installationDeletionIdentity request.legacyInstallationID }
      db.gate6Bindings
    routes := rows.reverse ++ db.routes }.updateAuthority request.installationBindingID fun a =>
      { a with
        subscriptionGeneration := request.subscriptionGeneration, state := .active
        uncertaintyReason := .none, updatedAt := now }

theorem publishA9ReplaceTx_stages {routes : List RouteColumns}
    (h : S.publishA9ReplaceTx clock random request normalized routes a s = .ok (r, s')) :
    r = S.a9Result request.installationBindingID request.sequencerEpoch
        request.subscriptionGeneration .active .applied a.contiguousStreamSequence ∧
      ∃ t t' leases rows, t.db = cleared request r clock.db s.db ∧ t.writes = s.writes ∧
        S.applyGate6RefreshTx clock random request.refresh normalized
          request.expectedSubscriptionGeneration t = .ok (leases, t') ∧
        List.Forall₂ (RouteStored (S.installationDeletionIdentity request.legacyInstallationID)
          leases) ((request.subscriptions.map ReplaceSubscription.topicBytes).zip routes) rows ∧
        s'.db = published S request clock.db rows t'.db ∧
        s'.writes = (request.installationBindingID, .replaced) :: t'.writes := by
  simp only [publishA9ReplaceTx, cancelA9RoutesTx, bindA9InstallationToGate6Tx,
    activateA9AuthorityTx, bind_ok, require_ok, exec_ok, query_ok, noteWrite_ok, pure_ok] at h
  obtain ⟨_, s1, hrec, -, s2, ⟨-, _, ⟨-, rfl⟩, hdb2, hw2⟩, -, s3, ⟨hdb3, hw3⟩, leases, s4,
    href, -, s5, ⟨-, s5', ⟨hdb5, hw5⟩, _, _, ⟨-, rfl⟩, -, rfl⟩, _, s6, hrts, -, s7,
    ⟨-, s7', ⟨hdb7, hw7⟩, hdb8, hw8⟩, hr, rfl⟩ := h
  rw [hr] at hrec
  obtain ⟨hdb1, hw1⟩ := insertA9ReceiptTx_ok hrec
  obtain ⟨⟨rows, hrows, hdb6⟩, hw6⟩ := publishA9Routes_ok hrts
  refine ⟨hr.symm, s3, s4, leases, rows, ?_, ?_, href, hrows, ?_, ?_⟩
  · rw [hdb3, hdb2, hdb1]
    rfl
  · rw [hw3, hw2, hw1]
  · rw [hdb8, hdb7, hdb6, hdb5]
    rfl
  · rw [hw8, hw7, hw6, hw5]

theorem publishA9ReplaceTx_ok {routes : List RouteColumns}
    (h : S.publishA9ReplaceTx clock random request normalized routes a s = .ok (r, s')) :
    (∃ rows, (∀ r ∈ rows, r.columns ∈ routes) ∧
      s'.db.ledger = { s.db.ledger with
          routes := rows ++ deleteWhere (Db.RouteOf request.installationBindingID none)
            s.db.ledger.routes }.activate
        request.installationBindingID request.subscriptionGeneration clock.db) ∧
      s'.writes = (request.installationBindingID, .replaced) :: s.writes := by
  obtain ⟨-, t, t', leases, rows, hdb, hw, href, hrows, hdb', hw'⟩ := publishA9ReplaceTx_stages h
  obtain ⟨hl, hwt⟩ := Session.ledger_of_frame (applyGate6RefreshTx_keeps _ _ _ href)
  refine ⟨⟨rows.reverse, fun r hr => ?_, ?_⟩, by rw [hw', hwt, hw]⟩
  · obtain ⟨route, hroute, hsto⟩ := forall₂_exists_left hrows (List.mem_reverse.mp hr)
    rw [hsto.columns]
    exact (List.of_mem_zip hroute).2
  · have hroutes : t'.db.routes =
        deleteWhere (Db.RouteOf request.installationBindingID none) s.db.ledger.routes := by
      rw [show t'.db.routes = t'.db.ledger.routes from rfl, hl, hdb]
      rfl
    have hl' : { t'.db.ledger with routes := rows.reverse ++ t'.db.routes } =
        { s.db.ledger with routes := rows.reverse ++ t'.db.routes } := by
      rw [hl, hdb]
      rfl
    rw [hdb', ← hroutes, ← hl']
    rfl

/-- A validated request names an assertion for every subscription. -/
theorem validateA9Subscriptions_valid {db : Db} {w : WatermarkColumns} {now : Time}
    {routes : List RouteColumns}
    (h : db.validateA9Subscriptions request keyset w now = .valid routes) :
    List.Forall₂ (fun sub columns => ∃ a ∈ db.assertions, db.NamesAssertion request keyset
        w.committedThrough now sub a ∧ columns = Db.routeColumns request w.watermarkSequence sub a)
      request.subscriptions routes := by
  unfold Db.validateA9Subscriptions at h
  simp only at h
  split at h
  case h_1 =>
    split_ifs at h
  case h_2 hall =>
    obtain rfl := SubscriptionCheck.valid.inj h
    have hnamed : ∀ sub ∈ request.subscriptions,
        db.namedAssertion request keyset w.committedThrough now sub ≠ none := by
      intro sub hsub
      have hmem := (List.mem_insertionSort fun a b => a.bindingID ≤ b.bindingID).mpr hsub
      simpa using List.find?_eq_none.mp hall sub hmem
    generalize request.subscriptions = subs at hnamed ⊢
    induction subs with
    | nil => exact .nil
    | cons sub subs ih =>
      obtain ⟨a, ha⟩ := Option.ne_none_iff_exists'.mp (hnamed sub (.head _))
      rw [List.filterMap_cons, ha]
      exact .cons ⟨a, (found ha).1, (found ha).2, rfl⟩
        (ih fun sub' hsub' => hnamed sub' (.tail _ hsub'))

/-- `replaceA9Once` from the generation check on. -/
theorem replaceInEpochA9Tx_records (hrow : s.db.ledger.Row request.installationBindingID a)
    (hE : a.sequencerEpoch = request.sequencerEpoch)
    (hopen : a.state = .uncertain → a.uncertaintyReason = .epoch)
    (h : S.replaceInEpochA9Tx clock random request keyset a s = .ok (r, s')) :
    ∃ ws, Records (Ledger.Decided request.installationBindingID request.sequencerEpoch)
        request.installationBindingID s ws s' ∧ .latched .epoch ∉ ws ∧
      (.replaced ∈ ws → r.outcome = .applied) := by
  have refused : ∀ {state outcome latch}, latch ≠ some .none → latch ≠ some .epoch →
      S.refuseA9ReplaceTx request a state outcome latch clock.db s = .ok (r, s') →
      ∃ ws, Records (Ledger.Decided request.installationBindingID request.sequencerEpoch)
          request.installationBindingID s ws s' ∧ .latched .epoch ∉ ws ∧
        (.replaced ∈ ws → r.outcome = .applied) := by
    intro state outcome latch hnone hep hr
    refine ⟨_, refuseA9ReplaceTx_records hrow hnone (fun he => absurd he hep) hr, ?_⟩
    cases latch with
    | none => simp [latchWrites]
    | some reason =>
      have hwhy : reason ≠ .epoch := fun he => hep (by rw [he])
      simp [latchWrites, hwhy.symm]
  simp only [replaceInEpochA9Tx, ite_ok] at h
  rcases h with ⟨-, h⟩ | ⟨hgen, h⟩
  · exact refused (by decide) (by decide) h
  cases hw : replacementWatermark a keyset clock.db with
  | none =>
    simp only [hw] at h
    exact refused (by decide) (by decide) h
  | some w =>
    simp only [hw, bind_ok, expect_ok, query_ok] at h
    obtain ⟨normalized, _, ⟨-, rfl⟩, check, _, ⟨hcheck, rfl⟩, h⟩ := h
    have hwmem : a.watermark = some w ∧ w.status = .current := by
      obtain ⟨hmem, hcond⟩ := Option.filter_eq_some_iff.mp hw
      exact ⟨hmem, (of_decide_eq_true hcond).1⟩
    cases check with
    | revoked | missing => exact refused (by decide) (by decide) h
    | valid routes =>
      simp only [replaceValidatedA9Tx, bind_ok, query_ok, ite_ok] at h
      obtain ⟨_, _, ⟨-, rfl⟩, ⟨-, h⟩ | ⟨-, h⟩⟩ := h
      · exact refused (by decide) (by decide) h
      have hnext : request.subscriptionGeneration = a.subscriptionGeneration + 1 :=
        not_not.mp fun hne => hgen (.inr hne)
      obtain ⟨⟨rows, hrows, hl⟩, hw'⟩ := publishA9ReplaceTx_ok h
      refine ⟨[.replaced], ⟨?_, hw'⟩, by simp, fun _ => ?_⟩
      · rw [hl, hnext]
        refine .replaced rows clock.db hrow hE hopen hwmem.1 hwmem.2 fun r hr => ?_
        obtain ⟨sub, -, b, -, -, hcolumns⟩ :=
          forall₂_exists_left (validateA9Subscriptions_valid hcheck) (hrows r hr)
        rw [Db.RouteOf, hcolumns]
        exact ⟨⟨rfl, by simp⟩, rfl, hnext⟩
      · rw [(publishA9ReplaceTx_stages h).1]
        rfl

/-- `Replace` as a ledger transaction. -/
theorem replace_records (h : S.replace clock random request keyset s = .ok (r, s')) :
    ∃ ws, Records (Ledger.Transaction request.installationBindingID request.sequencerEpoch)
        request.installationBindingID s ws s' ∧
      (.latched .epoch ∈ ws → ForeignReplace s.db request) ∧
      (.replaced ∈ ws → r.outcome = .applied) := by
  simp only [replace, mapError_ok, bind_ok, require_ok, replaceA9Once] at h
  obtain ⟨-, _, ⟨-, rfl⟩, _, s1, hks, _, s2, hsafe, a, s3, hload, receipt, s4, hrec, h⟩ := h
  obtain ⟨⟨opened, hopened, hno, hnone⟩, hrow, ha, hdb3⟩ := openA9_records (by decide) hks hsafe hload
  rcases a9ReceiptResultTx_ok hrec with ⟨rfl, rfl, huns⟩ | ⟨x, -, -, rfl, rfl⟩ |
    ⟨x, -, -, -, hdb4, hw4, rfl⟩
  · simp only [ite_ok] at h
    rcases h with ⟨hne, h⟩ | ⟨heq, ⟨-, h⟩ | ⟨hopen, h⟩⟩
    · refine ⟨_, hopened.decided
        (refuseA9ReplaceTx_records hrow (by decide) (fun _ => hne) h), fun _ => ?_, by
          simp [hnone, latchWrites]⟩
      rw [hdb3] at huns
      refine ⟨?_, huns⟩
      rcases ha with ha | ⟨-, ha⟩
      · exact ⟨a, ha, hne⟩
      · exact absurd ha hne
    · refine ⟨_, hopened.decided
        (refuseA9ReplaceTx_records hrow (by decide) (fun he => absurd he (by decide)) h), ?_⟩
      simp [hno, hnone, latchWrites]
    · have hopen' : a.state = .uncertain → a.uncertaintyReason = .epoch := by
        intro hunc
        by_contra hwhy
        exact hopen ⟨hunc, hwhy⟩
      obtain ⟨ws, hd, hno', happ⟩ := replaceInEpochA9Tx_records hrow (not_not.mp heq) hopen' h
      refine ⟨_, hopened.decided hd, ?_⟩
      simpa [hno, hno', hnone] using happ
  · obtain ⟨-, rfl⟩ := pure_ok.mp h
    refine ⟨_, hopened.decided (.unchanged rfl rfl), ?_⟩
    simp [hno, hnone]
  · obtain ⟨-, rfl⟩ := pure_ok.mp h
    have hlatched := latched_records (E := request.sequencerEpoch) hrow (by decide)
      (fun he => absurd he (by decide)) (by rw [hdb4]; rfl) hw4
    refine ⟨_, hopened.decided hlatched, ?_⟩
    simp [hno, hnone]

theorem registerVerified_keeps : Moves Session.Framed (S.registerVerified clock i installationID token) :=
  .mapError (.require_bind fun _ => .bind requireRetentionSafeTx_keeps fun _ =>
    .bind query_moves fun _ => .bind expect_moves fun _ =>
    .bind query_moves fun _ => .bind expect_moves fun _ =>
    .bind query_moves fun _ => .require_bind fun _ =>
    .bind apnsTokenChanged_moves fun _ => .when
      (.bind markDeliveryJobsSafetyForInstallationTx_keeps fun _ => exec_keeps fun _ => rfl))

theorem work_keeps {w : WorkerUpdate} : Moves Session.Framed (exec (Db.work k w)) := by
  intro s u s' h
  obtain ⟨hdb, hw⟩ := exec_ok.mp h
  refine ⟨by simp only [Session.frame, hdb, hw]; rfl, ?_, fun hsafe => .inl ?_⟩
  · rw [hdb]
    exact id
  · rw [hdb] at hsafe
    simp only [Db.work] at hsafe
    split at hsafe
    · cases hsafe
    · exact hsafe

theorem updateKeysetTx_ok {u : KeysetUpdate} {v : Unit} (h : updateKeysetTx u s = .ok (v, s')) :
    s'.db = s.db.updateKeyset u ∧ s'.writes = s.writes := by
  simp only [updateKeysetTx, bind_ok, query_ok, require_ok, exec_ok] at h
  obtain ⟨_, _, ⟨-, rfl⟩, -, _, ⟨-, rfl⟩, hdb, hw⟩ := h
  exact ⟨hdb, hw⟩

theorem ledger_updateKeyset (u : KeysetUpdate) (db : Db) : (db.updateKeyset u).ledger = db.ledger := by
  cases u with
  | _ => rfl

end Store

/-- The operations that present a first-seen artifact of a foreign epoch and do not move the row. -/
def Op.Foreign (db : Db) : Op → Prop
  | .applyControl _ event => Store.ForeignControl db event
  | .applyWatermark _ w => Store.ForeignWatermark db w
  | .replace _ _ request _ => Store.ForeignReplace db request
  | _ => False

/-- The installation whose authority row an A9 operation decides on. -/
def Op.installation : Op → Option Bytes16
  | .applyControl _ event => some event.installationBindingID
  | .applyWatermark _ w => some w.installationBindingID
  | .replace _ _ request _ => some request.installationBindingID
  | _ => none

namespace Store

variable {S : Store}

theorem dropped_ok {α : Type} {x : VaultTx α} {s s' : Session} {u : Unit}
    (h : (do let _ ← x : VaultTx Unit) s = .ok (u, s')) : ∃ r, x s = .ok (r, s') := by
  simp only [bind_ok, pure_ok] at h
  obtain ⟨r, t, hx, -, rfl⟩ := h
  exact ⟨r, hx⟩

/-- The transactions that leave the ledger alone. -/
theorem body_keeps_ledger {op : Op} {s s' : Session} (h : S.body op s = .ok ((), s'))
    (hop : ∀ c e, op ≠ .applyControl c e) (hop' : ∀ c w, op ≠ .applyWatermark c w)
    (hop'' : ∀ c random r k, op ≠ .replace c random r k) :
    s'.db.ledger = s.db.ledger ∧ s'.writes = s.writes := by
  cases op with
  | applyControl c e => exact absurd rfl (hop c e)
  | applyWatermark c w => exact absurd rfl (hop' c w)
  | replace c random r k => exact absurd rfl (hop'' c random r k)
  | register c i id token => exact Session.ledger_of_frame (registerVerified_keeps _ _ _ h)
  | keyset u =>
    obtain ⟨hdb, hw⟩ := updateKeysetTx_ok h
    exact ⟨by rw [hdb, ledger_updateKeyset], hw⟩
  | refresh c random r =>
    obtain ⟨_, h⟩ := dropped_ok h
    exact Session.ledger_of_frame (refresh_keeps _ _ _ h)
  | advancePolicy t control => exact Session.ledger_of_frame (advancePolicy_keeps _ _ _ h)
  | beginSweep t => exact Session.ledger_of_frame (markRetentionUnsafe_keeps _ _ _ h)
  | finishSweep c =>
    obtain ⟨_, h⟩ := dropped_ok h
    exact Session.ledger_of_frame (sweepTx_keeps _ _ _ h)
  | erase t lookup token =>
    obtain ⟨_, h⟩ := dropped_ok h
    exact Session.ledger_of_frame (eraseInvalidAPNSToken_keeps _ _ _ h)
  | reapply t => exact Session.ledger_of_frame (reapplyDeletionTombstones_keeps _ _ _ h)
  | requireRetentionSafe t => exact Session.ledger_of_frame (requireRetentionSafeTx_keeps _ _ _ h)
  | worker t w =>
    exact Session.ledger_of_frame (work_keeps _ _ _ h)

def Replaces (S : Store) (s : Sys) (e : Event) (s' : Sys) (request : ReplaceRequest) : Prop :=
  ∃ c random keyset r t, e.op = .replace c random request keyset ∧
    S.replace c random request keyset s.session = .ok (r, t) ∧ t.vault = s'.vault ∧
    r.outcome = .applied

/-- Every step of the system is a ledger transaction or leaves the ledger alone. -/
theorem step_records {s s' : Sys} {e : Event} (h : S.system.step s e s') :
    (s'.db.ledger = s.db.ledger ∧ e.writes = []) ∨
    ∃ i E ws, Ledger.Transaction i E s.db.ledger ws s'.db.ledger ∧ e.writes = ws.map (Prod.mk i) ∧
      e.op.installation = some i ∧ (.latched .epoch ∈ ws → e.op.Foreign s.db) ∧
      (.replaced ∈ ws → ∃ request, S.Replaces s e s' request) := by
  obtain ⟨-, ⟨t, hbody, hvault, hwr⟩, -⟩ := h
  have hdb : s'.db = t.db := congrArg Vault.db hvault.symm
  obtain ⟨op, writes⟩ := e
  dsimp only at hwr hbody ⊢
  rw [hdb, ← hwr]
  by_cases hop : (∀ c e, op ≠ .applyControl c e) ∧ (∀ c w, op ≠ .applyWatermark c w) ∧
      ∀ c random r k, op ≠ .replace c random r k
  · exact .inl (body_keeps_ledger hbody hop.1 hop.2.1 hop.2.2)
  right
  cases op with
  | applyControl c event =>
    obtain ⟨r, h⟩ := dropped_ok hbody
    obtain ⟨ws, ⟨htx, hw⟩, hfor, hno⟩ := applyControl_records h
    exact ⟨_, _, ws, htx, by simpa [Sys.session] using hw, rfl, hfor, fun hmem => absurd hmem hno⟩
  | applyWatermark c w =>
    obtain ⟨r, h⟩ := dropped_ok hbody
    obtain ⟨ws, ⟨htx, hw⟩, hfor, hno⟩ := applyWatermark_records h
    exact ⟨_, _, ws, htx, by simpa [Sys.session] using hw, rfl, hfor, fun hmem => absurd hmem hno⟩
  | replace c random request k =>
    obtain ⟨r, h⟩ := dropped_ok hbody
    obtain ⟨ws, ⟨htx, hw⟩, hfor, happ⟩ := replace_records h
    exact ⟨_, _, ws, htx, by simpa [Sys.session] using hw, rfl, hfor,
      fun hmem => ⟨request, c, random, k, r, t, rfl, h, hvault, happ hmem⟩⟩
  | _ => exact absurd (by simp) hop

/-- An invariant of the ledger that every transaction keeps holds in every reachable state. -/
theorem reachable_ledger {P : Ledger → Prop} (hemp : P Db.empty.ledger)
    (hstep : ∀ {i E L ws L'}, P L → Ledger.Transaction i E L ws L' → P L') {s : Sys}
    (h : S.system.Reachable s) : P s.db.ledger := by
  refine h.invariant (P := fun s => P s.db.ledger) (fun s hs => ?_) fun s e s' _ hP hst => ?_
  · rw [hs.1]
    exact hemp
  · rcases step_records hst with ⟨hl, -⟩ | ⟨i, E, ws, htx, -⟩
    · rw [hl]
      exact hP
    · exact hstep hP htx

end Store

end NotificationServer
