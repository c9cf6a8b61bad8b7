import NotificationServer.A9.Cursor

/-!
# How an A9 request is answered

`ApplyControl` and `Replace` share their beginning: the guards, the authority
row, the receipt of the idempotency key.  `Answer` says how a request that gets
past the guards can end, with the exact database each end leaves; what is proved
about single answers is a case analysis over it.
-/

namespace NotificationServer

open Relational Tx

variable {i : Bytes16} {b : Option Bytes16} {contiguous : Bool}

namespace Db

/-- The installation's row is as it was stored, or has just been created. -/
inductive Opens (i E : Bytes16) (db : Db) : AuthorityRow → Db → Prop
  | found {a : AuthorityRow} : db.authority i = some a → Opens i E db a db
  | created (state : AuthorityState) (reason : UncertaintyReason) (now : Time) :
      db.authority i = none →
      Opens i E db (.created i E state reason now)
        { db with authorities := .created i E state reason now :: db.authorities }

/-- Only receipts, authority rows and the bound lookup root may differ. -/
theorem Opens.others {i E : Bytes16} {db db' : Db} {a : AuthorityRow} (h : Opens i E db a db') :
    db' = { db with authorities := db'.authorities } := by
  cases h with
  | _ => rfl

def recorded (db : Db) : List IdempotencyReceiptRow × Option LookupDigest :=
  (db.receipts, db.keyBinding)

end Db

/-- The event starts an epoch: the row is of another one and nothing is stored under the event's. -/
def VerifiedControl.StartsEpoch (event : VerifiedControl) (db : Db) : Prop :=
  (∃ a ∈ db.authority event.installationBindingID, a.sequencerEpoch ≠ event.sequencerEpoch) ∧
  event.streamSequence = 1 ∧ event.expectedPreviousSequence = 0 ∧
  ¬ db.EpochObserved event.installationBindingID event.sequencerEpoch
  deriving Decidable

namespace Store

variable {S : Store} {s s' : Session} {clock : Clock} {keyset : KeysetReceipt} {a : AuthorityRow}
  {event : VerifiedControl} {latch : Option UncertaintyReason} {outcome : ResultOutcome}
  {now : Time} {r : A9Result} {request : ReplaceRequest} {random : Bytes → LeaseDraw}
  {w : VerifiedWatermark} {db' : Db}

/-- What every A9 operation asks for before it looks at its installation. -/
def Guarded (S : Store) (clock : Clock) (keyset : KeysetReceipt) (db : Db) : Prop :=
  (keyset.sequence ≠ 0 ∧ keyset.sequence ≤ maxSafeInteger ∧
    ∃ row, db.keysetState = some row ∧ keysetCurrent clock.db keyset row) ∧
  (∀ k ∈ db.keyBinding, k = S.rootCommitment) ∧ retentionHealth clock.host db.retention

theorem openA9_opens {i E : Bytes16} {state : AuthorityState} {reason : UncertaintyReason}
    {u v : Unit} {s1 s2 : Session} (hks : requireA9KeysetTx clock.db keyset s = .ok (u, s1))
    (hsafe : S.requireRetentionSafeTx clock.host s1 = .ok (v, s2))
    (hload : loadOrInsertA9AuthorityTx i E state reason clock.db s2 = .ok (a, s')) :
    S.Guarded clock keyset s.db ∧
      Db.Opens i E { s.db with keyBinding := some S.rootCommitment } a s'.db := by
  obtain ⟨hk, rfl⟩ := requireA9KeysetTx_ok.mp hks
  obtain ⟨hr, hdb, -⟩ := requireRetentionSafeTx_ok.mp hsafe
  refine ⟨⟨hk, hr⟩, ?_⟩
  obtain ⟨-, ⟨hfd, rfl⟩ | ⟨hnone, rfl, hdb', -⟩⟩ := loadOrInsertA9AuthorityTx_ok hload
  · rw [hdb] at hfd ⊢
    exact .found hfd
  · rw [hdb] at hnone hdb'
    rw [hdb']
    exact .created state reason clock.db hnone

/-- How a request that passed the guards is answered, from the database with its row `a`. -/
inductive Answer (S : Store) (k : RequestKey) (now : Time) (a : AuthorityRow) (db : Db)
    (First : A9Result → Db → Prop) : A9Result → Db → Prop
  /-- The stored result of the same request. -/
  | replayed {x : IdempotencyReceiptRow} : x ∈ db.receipts → x.requestKey = k →
      Answer S k now a db First
        (S.a9Result k.installationBindingID k.sequencerEpoch x.subscriptionGeneration
          x.resultState .replay x.acceptedStreamSequence) db
  /-- Another use of a stored key. -/
  | misused {x : IdempotencyReceiptRow} : x ∈ db.receipts → x.idempotencyKey = k.idempotencyKey →
      x.requestKey ≠ k →
      Answer S k now a db First
        (S.a9Result k.installationBindingID k.sequencerEpoch a.subscriptionGeneration .uncertain
          .conflict a.contiguousStreamSequence)
        (db.updateAuthority k.installationBindingID (.latched .idempotency now))
  /-- A first-seen key. -/
  | first {r : A9Result} {db' : Db} : (∀ x ∈ db.receipts, x.idempotencyKey ≠ k.idempotencyKey) →
      First r db' → Answer S k now a db First r db'

/-- A refusal: a latch if there is a reason for one, and a receipt. -/
def Refused (k : RequestKey) (now : Time) (db : Db) (r : A9Result) (db' : Db) : Prop :=
  r.outcome ≠ .applied ∧
    ∃ latch, db' = (latchIf k.installationBindingID latch now db).addReceipt (k.receipt r)

structure AppliedControl (event : VerifiedControl) (db : Db) (r : A9Result) (db' : Db) : Prop where
  outcome : r.outcome = .applied
  receipts : db'.receipts = event.requestKey.receipt r :: db.receipts
  keyBinding : db'.keyBinding = db.keyBinding
  watermarks : db'.watermarks = db.watermarks
  controlEvents : ∃ contiguous, db'.controlEvents = event.row contiguous :: db.controlEvents
  row : ∃ a a', db.ledger.Row event.installationBindingID a ∧
    db'.ledger.Row event.installationBindingID a' ∧
    a.sequencerEpoch = event.sequencerEpoch ∧ a'.sequencerEpoch = event.sequencerEpoch

/-- The database a first-seen event is decided on: an event that starts an epoch resets the row
before it is looked at any further. -/
inductive Rebases (event : VerifiedControl) (now : Time) (db : Db) : Db → Prop
  | stays : ¬ event.StartsEpoch db → Rebases event now db db
  | starts : event.StartsEpoch db → Rebases event now db
        (db.resetA9Epoch event.installationBindingID event.sequencerEpoch now)

def FirstControl (event : VerifiedControl) (now : Time) (db : Db) (r : A9Result) (db' : Db) :
    Prop :=
  ∃ db₁, Rebases event now db db₁ ∧
    (Refused event.requestKey now db₁ r db' ∨ AppliedControl event db₁ r db')

theorem settleA9ControlTx_refused {state : ResultState} (hout : outcome ≠ .applied)
    (h : S.settleA9ControlTx event a latch state outcome now s = .ok (r, s')) :
    Refused event.requestKey now s.db r s'.db := by
  obtain ⟨rfl, hdb, -⟩ := settleA9ControlTx_ok h
  exact ⟨hout, latch, hdb⟩

theorem cancelA9RoutesTx_keeps_recorded :
    Keeps (fun s => s.db.recorded) (cancelA9RoutesTx i b now) :=
  .require_bind fun _ => exec_keeps_of fun _ => rfl

theorem persistA9RevokeTx_keeps_recorded : Keeps (fun s => s.db.recorded) (persistA9RevokeTx event contiguous now) :=
  .bind (exec_keeps_of fun _ => rfl) fun _ => .bind (exec_keeps_of fun _ => rfl) fun _ =>
    .bind (cancelA9RoutesTx_keeps_recorded) fun _ =>
    .bind (exec_keeps_of fun _ => rfl) fun _ => exec_keeps_of fun _ => rfl

theorem persistNextA9Tx_keeps_recorded :
    Keeps (fun s => s.db.recorded) (persistNextA9Tx event now) := by
  unfold persistNextA9Tx
  cases event.action with
  | upsert =>
    exact .bind expect_moves fun _ => .bind (exec_keeps_of fun _ => rfl) fun _ =>
      .bind (exec_keeps_of fun _ => rfl) fun _ => exec_keeps_of fun _ => rfl
  | revoke => exact persistA9RevokeTx_keeps_recorded

/-- The row of an event that was decided in its own epoch stays in it. -/
theorem applyA9ControlInEpochTx_row (hval : S.validA9Control event)
    (hrow : s.db.ledger.Row event.installationBindingID a)
    (hE : a.sequencerEpoch = event.sequencerEpoch)
    (h : S.applyA9ControlInEpochTx event a now s = .ok (r, s')) :
    ∃ a a', s.db.ledger.Row event.installationBindingID a ∧
      s'.db.ledger.Row event.installationBindingID a' ∧
      a.sequencerEpoch = event.sequencerEpoch ∧ a'.sequencerEpoch = event.sequencerEpoch := by
  obtain ⟨ws, ⟨hdecided, -⟩, -⟩ := applyA9ControlInEpochTx_records hval hrow hE rfl h
  obtain ⟨a', hrow', hdec⟩ := hdecided.row_self hrow
  exact ⟨a, a', hrow, hrow', hE, hdec.epoch.trans hE⟩

theorem applyNextA9ControlTx_recorded (h : S.applyNextA9ControlTx event a now s = .ok (r, s')) :
    s'.db.recorded = (event.requestKey.receipt r :: s.db.receipts, s.db.keyBinding) := by
  simp only [applyNextA9ControlTx, bind_ok, exec_ok, noteWrite_ok, pure_ok] at h
  obtain ⟨_, s1, hrec, _, s2, hper, -, s3, ⟨hdb3, -⟩, -, s4, ⟨hdb4, -⟩, rfl, rfl⟩ := h
  obtain ⟨hdb1, -⟩ := insertA9ReceiptTx_ok hrec
  have hrec2 : s2.db.recorded = s1.db.recorded :=
    persistNextA9Tx_keeps_recorded _ _ _ hper
  have hrec4 : s4.db.recorded = s2.db.recorded := by rw [hdb4, hdb3]; rfl
  rw [hrec4, hrec2, hdb1]
  rfl

theorem applyA9ControlInEpochTx_answer (hval : S.validA9Control event)
    (hrow : s.db.ledger.Row event.installationBindingID a)
    (hE : a.sequencerEpoch = event.sequencerEpoch)
    (h : S.applyA9ControlInEpochTx event a now s = .ok (r, s')) :
    Refused event.requestKey now s.db r s'.db ∨ AppliedControl event s.db r s'.db := by
  have hep := applyA9ControlInEpochTx_row hval hrow hE h
  simp only [applyA9ControlInEpochTx, ite_ok, bind_ok, query_ok] at h
  rcases h with ⟨-, h⟩ | ⟨-, _, _, ⟨rfl, rfl⟩, _, _, ⟨rfl, rfl⟩, h⟩
  · exact .inl (settleA9ControlTx_refused (by decide) h)
  rcases h with ⟨-, h⟩ | ⟨-, ⟨-, h⟩ | ⟨-, ⟨-, ⟨-, h⟩ | ⟨-, h⟩⟩ | ⟨-, ⟨-, h⟩ | ⟨-, h⟩⟩⟩⟩
  · exact .inl (settleA9ControlTx_refused (by decide) h)
  · exact .inl (settleA9ControlTx_refused (by decide) h)
  · -- A REVOKE kept across a gap.
    obtain ⟨r, s1, hset, _, s2, hper, hpure⟩ := h
    obtain ⟨rfl, rfl⟩ := pure_ok.mp hpure
    obtain ⟨hr, hdb1, -⟩ := settleA9ControlTx_ok hset
    have hrec2 : s2.db.recorded = s1.db.recorded :=
      persistA9RevokeTx_keeps_recorded _ _ _ hper
    have hrec : s2.db.recorded =
        (event.requestKey.receipt r :: s.db.receipts, s.db.keyBinding) := by
      rw [hrec2, hdb1]
      rfl
    have hled : s2.db.ledger = (s.db.ledger.updateAuthority event.installationBindingID
        (.latched .controlGap now)).revoked event false := by
      rw [(persistA9RevokeTx_ok hper).1, hdb1]
      rfl
    exact .inr ⟨by rw [hr]; rfl, congrArg Prod.fst hrec, congrArg Prod.snd hrec,
      (congrArg Ledger.watermarks hled :), ⟨false, (congrArg Ledger.controlEvents hled :)⟩,
      hep⟩
  · exact .inl (settleA9ControlTx_refused (by decide) h)
  · exact .inl (settleA9ControlTx_refused (by decide) h)
  -- The next event of the stream.
  have hrec := applyNextA9ControlTx_recorded h
  obtain ⟨happ, hcase, -⟩ := applyNextA9ControlTx_ok h
  have htables : s'.db.watermarks = s.db.watermarks ∧
      s'.db.controlEvents = event.row true :: s.db.controlEvents := by
    rcases hcase with ⟨-, assertion, -, hled⟩ | ⟨-, hled, -⟩
    · exact ⟨(congrArg Ledger.watermarks hled :), (congrArg Ledger.controlEvents hled :)⟩
    · exact ⟨(congrArg Ledger.watermarks hled :), (congrArg Ledger.controlEvents hled :)⟩
  exact .inr ⟨happ, congrArg Prod.fst hrec, congrArg Prod.snd hrec, htables.1,
    ⟨true, htables.2⟩, hep⟩

theorem applyFirstA9ControlTx_answer (hval : S.validA9Control event)
    (hrow : s.db.ledger.Row event.installationBindingID a)
    (h : S.applyFirstA9ControlTx event a now s = .ok (r, s')) :
    FirstControl event now s.db r s'.db := by
  have ha : s.db.authority event.installationBindingID = some a := Db.authority_of_row hrow
  simp only [applyFirstA9ControlTx, ite_ok, bind_ok, query_ok] at h
  rcases h with ⟨hne, ⟨hseq, h⟩ | ⟨hseq, _, _, ⟨rfl, rfl⟩, ⟨hobs, h⟩ | ⟨hobs, _, s1, hreset, h⟩⟩⟩ |
    ⟨heq, h⟩
  · -- Another epoch, and not its first event.
    have hstay : ¬ event.StartsEpoch s.db := by
      rintro ⟨-, h1, h0, -⟩
      exact hseq.elim (absurd h1) (absurd h0)
    exact ⟨s.db, .stays hstay, .inl (settleA9ControlTx_refused (by decide) h)⟩
  · -- An epoch that was seen before.
    have hstay : ¬ event.StartsEpoch s.db := fun hs => hs.2.2.2 (of_decide_eq_true hobs)
    exact ⟨s.db, .stays hstay, .inl (settleA9ControlTx_refused (by decide) h)⟩
  · -- A new epoch.
    obtain ⟨hdb, -, hrow1⟩ := resetA9EpochTx_ok hrow hreset
    have hstarts : event.StartsEpoch s.db := by
      obtain ⟨h1, h0⟩ := not_or.mp hseq
      exact ⟨⟨a, ha, hne⟩, not_not.mp h1, not_not.mp h0, by simpa using hobs⟩
    refine ⟨s1.db, ?_, applyA9ControlInEpochTx_answer hval hrow1 rfl h⟩
    rw [hdb]
    exact .starts hstarts
  · have hstay : ¬ event.StartsEpoch s.db := by
      rintro ⟨⟨b, hb, hne⟩, -⟩
      rw [Option.mem_def, ha, Option.some.injEq] at hb
      exact hne (hb ▸ not_not.mp heq)
    exact ⟨s.db, .stays hstay, applyA9ControlInEpochTx_answer hval hrow (not_not.mp heq) h⟩

/-- How `ApplyControl` answers. -/
theorem applyControl_answer (h : S.applyControl clock event s = .ok (r, s')) :
    S.validA9Control event ∧ S.Guarded clock event.keyset s.db ∧ ∃ a db₁,
      Db.Opens event.installationBindingID event.sequencerEpoch
        { s.db with keyBinding := some S.rootCommitment } a db₁ ∧
      S.Answer event.requestKey clock.db a db₁ (FirstControl event clock.db db₁) r s'.db := by
  simp only [applyControl, mapError_ok, bind_ok, require_ok, applyA9ControlOnce] at h
  obtain ⟨-, _, ⟨hval, rfl⟩, _, s1, hks, _, s2, hsafe, a, s3, hload, receipt, s4, hrec, h⟩ := h
  obtain ⟨hguard, hopens⟩ := openA9_opens hks hsafe hload
  refine ⟨hval, hguard, a, s3.db, hopens, ?_⟩
  rcases a9ReceiptResultTx_ok hrec with ⟨rfl, rfl, huns⟩ | ⟨x, hx, hk, rfl, rfl⟩ |
    ⟨x, hx, hkey, hk, hdb, -, rfl⟩
  · obtain ⟨hrow, -⟩ := loadOrInsertA9AuthorityTx_ok hload
    exact .first huns (applyFirstA9ControlTx_answer hval hrow h)
  · simp only [ite_ok, fail_ok, and_false, false_or, pure_ok] at h
    obtain ⟨-, rfl, rfl⟩ := h
    exact .replayed hx hk
  · simp only [ite_ok, fail_ok, and_false, false_or, pure_ok] at h
    obtain ⟨-, rfl, rfl⟩ := h
    rw [hdb]
    exact .misused hx hkey hk

/-- Every check of `replaceA9Once` has passed. -/
structure AdmittedReplace (S : Store) (clock : Clock) (request : ReplaceRequest)
    (keyset : KeysetReceipt) (a : AuthorityRow) (db : Db) (w : WatermarkColumns)
    (normalized : List NormalizedSubscription) (routes : List RouteColumns) : Prop where
  epoch : a.sequencerEpoch = request.sequencerEpoch
  unlatched : a.state = .uncertain → a.uncertaintyReason = .epoch
  expected : request.expectedSubscriptionGeneration = a.subscriptionGeneration
  next : request.subscriptionGeneration = a.subscriptionGeneration + 1
  watermark : replacementWatermark a keyset clock.db = some w
  refresh : S.validateRefresh request.refresh clock.db = some normalized
  subscriptions : db.validateA9Subscriptions request keyset w clock.db = .valid routes

def FirstReplace (S : Store) (clock : Clock) (random : Bytes → LeaseDraw)
    (request : ReplaceRequest) (keyset : KeysetReceipt) (a : AuthorityRow) (db : Db)
    (r : A9Result) (db' : Db) : Prop :=
  Refused request.requestKey clock.db db r db' ∨
  ∃ w normalized routes, S.AdmittedReplace clock request keyset a db w normalized routes ∧
    ∃ t t' : Session, t.db = db ∧ t'.db = db' ∧
      S.publishA9ReplaceTx clock random request normalized routes a t = .ok (r, t')

theorem refuseA9ReplaceTx_refused {state : ResultState} (hout : outcome ≠ .applied)
    (h : S.refuseA9ReplaceTx request a state outcome latch now s = .ok (r, s')) :
    Refused request.requestKey now s.db r s'.db := by
  obtain ⟨rfl, hdb, -⟩ := refuseA9ReplaceTx_ok h
  exact ⟨hout, latch, hdb⟩

theorem replaceInEpochA9Tx_answer (hE : a.sequencerEpoch = request.sequencerEpoch)
    (hopen : a.state = .uncertain → a.uncertaintyReason = .epoch)
    (h : S.replaceInEpochA9Tx clock random request keyset a s = .ok (r, s')) :
    S.FirstReplace clock random request keyset a s.db r s'.db := by
  simp only [replaceInEpochA9Tx, ite_ok] at h
  rcases h with ⟨-, h⟩ | ⟨hgen, h⟩
  · exact .inl (refuseA9ReplaceTx_refused (by decide) h)
  obtain ⟨hexp, hnext⟩ := not_or.mp hgen
  cases hw : replacementWatermark a keyset clock.db with
  | none =>
    simp only [hw] at h
    exact .inl (refuseA9ReplaceTx_refused (by decide) h)
  | some w =>
    simp only [hw, bind_ok, expect_ok, query_ok] at h
    obtain ⟨normalized, _, ⟨hnorm, rfl⟩, check, _, ⟨hcheck, rfl⟩, h⟩ := h
    cases check with
    | revoked | missing => exact .inl (refuseA9ReplaceTx_refused (by decide) h)
    | valid routes =>
      simp only [replaceValidatedA9Tx, bind_ok, query_ok, ite_ok] at h
      obtain ⟨_, _, ⟨-, rfl⟩, ⟨-, h⟩ | ⟨-, h⟩⟩ := h
      · exact .inl (refuseA9ReplaceTx_refused (by decide) h)
      · exact .inr ⟨w, normalized, routes, ⟨hE, hopen, not_not.mp hexp, not_not.mp hnext, hw,
          hnorm, hcheck⟩, s, s', rfl, rfl, h⟩

/-- How `Replace` answers. -/
theorem replace_answer (h : S.replace clock random request keyset s = .ok (r, s')) :
    S.validA9Replace request keyset ∧ S.Guarded clock keyset s.db ∧ ∃ a db₁,
      Db.Opens request.installationBindingID request.sequencerEpoch
        { s.db with keyBinding := some S.rootCommitment } a db₁ ∧
      S.Answer request.requestKey clock.db a db₁
        (S.FirstReplace clock random request keyset a db₁) r s'.db := by
  simp only [replace, mapError_ok, bind_ok, require_ok, replaceA9Once] at h
  obtain ⟨-, _, ⟨hval, rfl⟩, _, s1, hks, _, s2, hsafe, a, s3, hload, receipt, s4, hrec, h⟩ := h
  obtain ⟨hguard, hopens⟩ := openA9_opens hks hsafe hload
  refine ⟨hval, hguard, a, s3.db, hopens, ?_⟩
  rcases a9ReceiptResultTx_ok hrec with ⟨rfl, rfl, huns⟩ | ⟨x, hx, hk, rfl, rfl⟩ |
    ⟨x, hx, hkey, hk, hdb, -, rfl⟩
  · simp only [ite_ok] at h
    refine .first huns ?_
    rcases h with ⟨-, h⟩ | ⟨heq, ⟨-, h⟩ | ⟨hlatched, h⟩⟩
    · exact .inl (refuseA9ReplaceTx_refused (by decide) h)
    · exact .inl (refuseA9ReplaceTx_refused (by decide) h)
    have hopen : a.state = .uncertain → a.uncertaintyReason = .epoch := by
      intro hunc
      by_contra hwhy
      exact hlatched ⟨hunc, hwhy⟩
    exact replaceInEpochA9Tx_answer (not_not.mp heq) hopen h
  · obtain ⟨rfl, rfl⟩ := pure_ok.mp h
    exact .replayed hx hk
  · obtain ⟨rfl, rfl⟩ := pure_ok.mp h
    rw [hdb]
    exact .misused hx hkey hk

/-- The watermark is stored whatever the state of the row. -/
def Recordable (w : VerifiedWatermark) (now : Time) (a : AuthorityRow) : Prop :=
  a.sequencerEpoch = w.sequencerEpoch ∧ now < w.expiresAt ∧
    w.watermarkSequence = a.currentWatermarkSequence + 1 ∧ w.status = .uncertain

/-- How `ApplyWatermark` ends, from the database with its row `a`. -/
inductive WatermarkAnswer (w : VerifiedWatermark) (now : Time) (a : AuthorityRow) (db : Db) :
    Db → Prop
  | repeated {x : WatermarkRow} : x ∈ db.watermarks → x.key = w.row.key →
      WatermarkAnswer w now a db db
  | ignored : ¬ Recordable w now a → WatermarkAnswer w now a db db
  | latched (reason : UncertaintyReason) : ¬ Recordable w now a → WatermarkAnswer w now a db
        (db.updateAuthority w.installationBindingID (.latched reason now))
  | stored : a.sequencerEpoch = w.sequencerEpoch → WatermarkAnswer w now a db
        ({ db with watermarks := w.row :: db.watermarks }.updateAuthority w.installationBindingID
          fun b =>
            { b with
              state := (a.withWatermark w now).state
              uncertaintyReason := (a.withWatermark w now).uncertaintyReason
              watermark := some w.columns, updatedAt := now })

theorem applyNewA9WatermarkTx_answer (h : S.applyNewA9WatermarkTx w a now s = .ok (r, s')) :
    WatermarkAnswer w now a s.db s'.db := by
  have latched : ∀ {reason outcome}, ¬ Recordable w now a →
      S.latchA9WatermarkTx w a reason outcome now s = .ok (r, s') →
      WatermarkAnswer w now a s.db s'.db := by
    intro reason outcome hnot hl
    rw [(latchA9WatermarkTx_ok hl).1]
    exact .latched reason hnot
  simp only [applyNewA9WatermarkTx, ite_ok, pure_ok] at h
  rcases h with ⟨hne, h⟩ | ⟨heq, ⟨hexp, h⟩ | ⟨-, ⟨hle, h⟩ | ⟨-, ⟨hgap, h⟩ | ⟨-, ⟨hcur, h⟩ |
    ⟨-, ⟨hcur, -, rfl⟩ | ⟨-, h⟩⟩⟩⟩⟩⟩
  · exact latched (fun hr => hne hr.1) h
  · exact latched (fun hr => by have := hr.2.1; lia) h
  · exact latched (fun hr => by have := hr.2.2.1; lia) h
  · exact latched (fun hr => hgap hr.2.2.1) h
  · exact latched (fun hr => by rw [hr.2.2.2] at hcur; exact absurd hcur.1 (by decide)) h
  · refine .ignored fun hr => ?_
    rw [hr.2.2.2] at hcur
    exact absurd hcur.1 (by decide)
  · rw [(storeA9WatermarkTx_ok h).1]
    exact .stored (not_not.mp heq)

/-- How `ApplyWatermark` answers. -/
theorem applyWatermark_answer (h : S.applyWatermark clock w s = .ok (r, s')) :
    S.Guarded clock w.keyset s.db ∧ ∃ a db₁, Db.Opens w.installationBindingID w.sequencerEpoch
        { s.db with keyBinding := some S.rootCommitment } a db₁ ∧
      WatermarkAnswer w clock.db a db₁ s'.db := by
  simp only [applyWatermark, mapError_ok, bind_ok, require_ok, applyA9WatermarkOnce] at h
  obtain ⟨-, _, ⟨-, rfl⟩, _, s1, hks, _, s2, hsafe, a, s3, hload, accepted, s4, hacc, h⟩ := h
  obtain ⟨hguard, hopens⟩ := openA9_opens hks hsafe hload
  refine ⟨hguard, a, s3.db, hopens, ?_⟩
  simp only [a9WatermarkAlreadyAcceptedTx, bind_ok, query_ok] at hacc
  obtain ⟨_, _, ⟨rfl, rfl⟩, hacc⟩ := hacc
  cases hfind : s3.db.watermarks.find? fun x => x.columns.signedHash = w.signedObjectHash with
  | none =>
    simp only [hfind, pure_ok] at hacc
    obtain ⟨rfl, rfl⟩ := hacc
    simp only [Bool.false_eq_true, if_false] at h
    exact applyNewA9WatermarkTx_answer h
  | some stored =>
    simp only [hfind, bind_ok, require_ok, pure_ok] at hacc
    obtain ⟨-, _, ⟨hkey, rfl⟩, rfl, rfl⟩ := hacc
    simp only [if_true, ite_ok, fail_ok, and_false, false_or, pure_ok] at h
    have hs : s3 = s' := by
      rcases h with ⟨-, ⟨-, -, h⟩ | ⟨-, -, h⟩⟩
      · exact h
      · exact h
    rw [← hs]
    exact .repeated (List.mem_of_find?_eq_some hfind) hkey

theorem publishA9ReplaceTx_result {normalized : List NormalizedSubscription}
    {routes : List RouteColumns}
    (h : S.publishA9ReplaceTx clock random request normalized routes a s = .ok (r, s')) :
    r.outcome = .applied ∧ s'.db.receipts = request.requestKey.receipt r :: s.db.receipts ∧
      (s.db.keyBinding.isSome → s'.db.keyBinding.isSome) := by
  obtain ⟨hr, t, t', leases, rows, hdb, -, href, -, hdb', -⟩ := publishA9ReplaceTx_stages h
  have hfr := applyGate6RefreshTx_keeps _ _ _ href
  have hrecs : t'.db.receipts = t.db.receipts := congrArg (fun p => p.1.receipts) hfr.frame
  refine ⟨by rw [hr]; rfl, ?_, fun hbd => ?_⟩
  · rw [hdb']
    change t'.db.receipts = _
    rw [hrecs, hdb]
    rfl
  · have hbd1 : t.db.keyBinding.isSome := by
      rw [hdb]
      exact hbd
    rw [hdb']
    exact hfr.bound hbd1

theorem Refused.receipts {k : RequestKey} {db : Db} (h : Refused k now db r db') :
    db'.receipts = k.receipt r :: db.receipts := by
  obtain ⟨-, latch, rfl⟩ := h
  cases latch with
  | _ => rfl

/-- A first-seen event is recorded with its result. -/
theorem FirstControl.receipts {db : Db} (h : FirstControl event now db r db') :
    db'.receipts = event.requestKey.receipt r :: db.receipts := by
  obtain ⟨db₁, hreb, h⟩ := h
  have hdb1 : db₁.receipts = db.receipts := by
    cases hreb with
    | _ => rfl
  rw [← hdb1]
  rcases h with h | h
  · exact h.receipts
  · exact h.receipts

/-- A first-seen replacement is recorded with its result. -/
theorem FirstReplace.receipts {db : Db}
    (h : S.FirstReplace clock random request keyset a db r db') :
    db'.receipts = request.requestKey.receipt r :: db.receipts := by
  rcases h with h | ⟨w, normalized, routes, -, t, t', rfl, rfl, h⟩
  · exact h.receipts
  · exact (publishA9ReplaceTx_result h).2.1

/-- A request is recorded if its key is first seen, and no other receipt is ever added. -/
theorem Answer.receipts {k : RequestKey} {db : Db} {First : A9Result → Db → Prop}
    (h : S.Answer k now a db First r db')
    (hfst : ∀ r db', First r db' → db'.receipts = k.receipt r :: db.receipts) :
    (∃ x ∈ db.receipts, x.idempotencyKey = k.idempotencyKey ∧ r.outcome ≠ .applied ∧
      db'.receipts = db.receipts) ∨
    ((∀ x ∈ db.receipts, x.idempotencyKey ≠ k.idempotencyKey) ∧
      db'.receipts = k.receipt r :: db.receipts) := by
  cases h with
  | replayed hx hk =>
    exact .inl ⟨_, hx, congrArg RequestKey.idempotencyKey hk, by simp [a9Result], rfl⟩
  | misused hx hkey _ => exact .inl ⟨_, hx, hkey, by simp [a9Result], rfl⟩
  | first huns h => exact .inr ⟨huns, hfst _ _ h⟩

end Store

def Db.SafeBound (db : Db) : Prop := db.retention.isSafe = true → db.keyBinding.isSome

theorem Session.Framed.safeBound {s s' : Session} (h : s.Framed s') (hs : s.db.SafeBound) :
    s'.db.SafeBound := by
  intro hsafe
  rcases h.safe hsafe with hsafe | hbd
  · exact h.bound (hs hsafe)
  · exact hbd

namespace Store

variable {S : Store} {s s' : Session} {now : Time} {db db' : Db} {r : A9Result} {a : AuthorityRow}

theorem Refused.keyBinding {k : RequestKey} (h : Refused k now db r db') :
    db'.keyBinding = db.keyBinding := by
  obtain ⟨-, latch, rfl⟩ := h
  cases latch with
  | _ => rfl

theorem FirstControl.keyBinding {event : VerifiedControl} (h : FirstControl event now db r db') :
    db'.keyBinding = db.keyBinding := by
  obtain ⟨db₁, hreb, h⟩ := h
  have hdb1 : db₁.keyBinding = db.keyBinding := by
    cases hreb with
    | _ => rfl
  rw [← hdb1]
  rcases h with h | h
  · exact h.keyBinding
  · exact h.keyBinding

theorem FirstReplace.keyBinding {clock : Clock} {random : Bytes → LeaseDraw}
    {request : ReplaceRequest} {keyset : KeysetReceipt}
    (h : S.FirstReplace clock random request keyset a db r db') (hbd : db.keyBinding.isSome) :
    db'.keyBinding.isSome := by
  rcases h with h | ⟨w, normalized, routes, -, t, t', rfl, rfl, h⟩
  · rw [h.keyBinding]
    exact hbd
  · exact (publishA9ReplaceTx_result h).2.2 hbd

/-- An answered request leaves the lookup root bound. -/
theorem Answer.bound {k : RequestKey} {db₁ : Db} {First : A9Result → Db → Prop}
    (h : S.Answer k now a db₁ First r db')
    (hopens : Db.Opens k.installationBindingID k.sequencerEpoch
      { db with keyBinding := some S.rootCommitment } a db₁)
    (hfst : ∀ r db', First r db' → db₁.keyBinding.isSome → db'.keyBinding.isSome) :
    db'.keyBinding.isSome := by
  have hbd : db₁.keyBinding.isSome := by
    rw [hopens.others]
    rfl
  cases h with
  | replayed | misused => exact hbd
  | first _ h => exact hfst _ _ h hbd

theorem WatermarkAnswer.bound {w : VerifiedWatermark} {db₁ : Db}
    (h : WatermarkAnswer w now a db₁ db')
    (hopens : Db.Opens w.installationBindingID w.sequencerEpoch
      { db with keyBinding := some S.rootCommitment } a db₁) : db'.keyBinding.isSome := by
  have hbd : db₁.keyBinding.isSome := by
    rw [hopens.others]
    rfl
  cases h with
  | _ => exact hbd

/-- A transaction other than the three A9 operations and the keyset's. -/
theorem body_framed {op : Op} (h : S.body op s = .ok ((), s')) (hop : op.installation = none)
    (hop' : ∀ u, op ≠ .keyset u) : s.Framed s' := by
  cases op with
  | applyControl | applyWatermark | replace => exact absurd hop (by simp [Op.installation])
  | register => exact registerVerified_keeps _ _ _ h
  | keyset u => exact absurd rfl (hop' u)
  | refresh c random r =>
    obtain ⟨_, h⟩ := dropped_ok h
    exact refresh_keeps _ _ _ h
  | advancePolicy => exact advancePolicy_keeps _ _ _ h
  | beginSweep => exact markRetentionUnsafe_keeps _ _ _ h
  | finishSweep c =>
    obtain ⟨_, h⟩ := dropped_ok h
    exact sweepTx_keeps _ _ _ h
  | erase t lookup token =>
    obtain ⟨_, h⟩ := dropped_ok h
    exact eraseInvalidAPNSToken_keeps _ _ _ h
  | reapply => exact reapplyDeletionTombstones_keeps _ _ _ h
  | requireRetentionSafe => exact requireRetentionSafeTx_keeps _ _ _ h
  | worker t w => exact work_keeps _ _ _ h

theorem WatermarkAnswer.receipts {w : VerifiedWatermark} (h : WatermarkAnswer w now a db db') :
    db'.receipts = db.receipts := by
  cases h with
  | _ => rfl

/-- Receipts are never removed, and added for the installation of the request only. -/
theorem body_receipts {op : Op} (h : S.body op s = .ok ((), s')) :
    ∃ added, s'.db.receipts = added ++ s.db.receipts ∧
      ∀ x ∈ added, op.installation = some x.installationBindingID := by
  have kept : s'.db.receipts = s.db.receipts → ∃ added, s'.db.receipts = added ++ s.db.receipts ∧
      ∀ x ∈ added, op.installation = some x.installationBindingID :=
    fun heq => ⟨[], heq, by simp⟩
  have answered : ∀ {k : RequestKey} {E : Bytes16} {now : Time} {a : AuthorityRow} {db₁ : Db}
      {First : A9Result → Db → Prop} {r : A9Result}, op.installation = some k.installationBindingID →
      Db.Opens k.installationBindingID E { s.db with keyBinding := some S.rootCommitment } a db₁ →
      S.Answer k now a db₁ First r s'.db →
      (∀ r db', First r db' → db'.receipts = k.receipt r :: db₁.receipts) →
      ∃ added, s'.db.receipts = added ++ s.db.receipts ∧
        ∀ x ∈ added, op.installation = some x.installationBindingID := by
    intro k E now a db₁ First r hop hopens hans hfst
    have hrecs : db₁.receipts = s.db.receipts := by rw [hopens.others]
    rw [← hrecs]
    rcases hans.receipts hfst with ⟨-, -, -, -, heq⟩ | ⟨-, heq⟩
    · exact ⟨[], heq, by simp⟩
    · exact ⟨[k.receipt r], heq, fun x hx => by rw [List.mem_singleton.mp hx]; exact hop⟩
  by_cases hframed : op.installation = none ∧ ∀ u, op ≠ .keyset u
  · have hfr := (body_framed h hframed.1 hframed.2).frame
    exact kept (congrArg (fun p => p.1.receipts) hfr)
  cases op with
  | applyControl c event =>
    obtain ⟨r, h⟩ := dropped_ok h
    obtain ⟨-, -, a, db₁, hopens, h⟩ := applyControl_answer h
    exact answered rfl hopens h fun _ _ hf => hf.receipts
  | applyWatermark c w =>
    obtain ⟨r, h⟩ := dropped_ok h
    obtain ⟨-, a, db₁, hopens, h⟩ := applyWatermark_answer h
    exact kept (by rw [h.receipts, hopens.others])
  | replace c random request keyset =>
    obtain ⟨r, h⟩ := dropped_ok h
    obtain ⟨-, -, a, db₁, hopens, h⟩ := replace_answer h
    exact answered rfl hopens h fun _ _ hf => hf.receipts
  | keyset u =>
    obtain ⟨hdb, -⟩ := updateKeysetTx_ok h
    refine kept ?_
    rw [hdb]
    cases u with
    | _ => rfl
  | _ => exact absurd ⟨rfl, by simp⟩ hframed

theorem body_safeBound {op : Op} (h : S.body op s = .ok ((), s')) (hs : s.db.SafeBound) :
    s'.db.SafeBound := by
  by_cases hframed : op.installation = none ∧ ∀ u, op ≠ .keyset u
  · exact (body_framed h hframed.1 hframed.2).safeBound hs
  cases op with
  | applyControl c event =>
    obtain ⟨r, h⟩ := dropped_ok h
    obtain ⟨-, -, a, db₁, hopens, h⟩ := applyControl_answer h
    exact fun _ => h.bound hopens fun _ _ hf hb => by rw [hf.keyBinding]; exact hb
  | applyWatermark c w =>
    obtain ⟨r, h⟩ := dropped_ok h
    obtain ⟨-, a, db₁, hopens, h⟩ := applyWatermark_answer h
    exact fun _ => h.bound hopens
  | replace c random request keyset =>
    obtain ⟨r, h⟩ := dropped_ok h
    obtain ⟨-, -, a, db₁, hopens, h⟩ := replace_answer h
    exact fun _ => h.bound hopens fun _ _ hf hb => hf.keyBinding hb
  | keyset u =>
    obtain ⟨hdb, -⟩ := updateKeysetTx_ok h
    rw [hdb]
    cases u with
    | _ => exact hs
  | _ => exact absurd ⟨rfl, by simp⟩ hframed

/-- In every reachable state a safe retention means that the lookup root is bound. -/
theorem reachable_safeBound {s : Sys} (h : S.system.Reachable s) : s.db.SafeBound := by
  refine h.invariant (P := fun s => s.db.SafeBound) (fun s hs => ?_) fun s e s' _ hP hst => ?_
  · rw [hs.1]
    exact fun hsafe => absurd hsafe (by simp [Db.empty])
  · obtain ⟨-, ⟨t, hbody, hvault, -⟩, -⟩ := hst
    have hdb : s'.db = t.db := congrArg Vault.db hvault.symm
    rw [hdb]
    exact body_safeBound hbody hP

/-- In a reachable state the guards change nothing. -/
theorem Guarded.bound {s : Sys} {clock : Clock} {keyset : KeysetReceipt}
    (h : S.Guarded clock keyset s.db) (hs : S.system.Reachable s) :
    { s.db with keyBinding := some S.rootCommitment } = s.db := by
  obtain ⟨k, hk⟩ := Option.isSome_iff_exists.mp (reachable_safeBound hs h.2.2.1)
  have hroot : s.db.keyBinding = some S.rootCommitment := by
    rw [hk, h.2.1 k hk]
  rw [← hroot]

theorem step_receipts {s s' : Sys} {e : Event} (h : S.system.step s e s') :
    ∃ added, s'.db.receipts = added ++ s.db.receipts ∧
      ∀ x ∈ added, e.op.installation = some x.installationBindingID := by
  obtain ⟨-, ⟨t, hbody, hvault, -⟩, -⟩ := h
  rw [show s'.db = t.db from congrArg Vault.db hvault.symm]
  exact body_receipts hbody

end Store

end NotificationServer
