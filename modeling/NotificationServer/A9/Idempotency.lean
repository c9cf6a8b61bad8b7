import NotificationServer.A9.Constraints
import NotificationServer.A9.Epochs
import NotificationServer.Gate6.Constraints

/-!
# Idempotency keys

`ApplyControl` and `Replace` share one space of idempotency keys.  A key is
recorded with the first answer it gets; presented again with the same request it
replays that answer, and with any other request it latches the row of the
presented installation.  In both cases nothing is applied again.
-/

namespace NotificationServer

open Relational Tx Sample

inductive A9Request
  | control (clock : Clock) (event : VerifiedControl)
  | replace (clock : Clock) (random : Bytes → LeaseDraw) (request : ReplaceRequest)
      (keyset : KeysetReceipt)

namespace A9Request

def key : A9Request → RequestKey
  | .control _ event => event.requestKey
  | .replace _ _ request _ => request.requestKey

def op : A9Request → Op
  | .control clock event => .applyControl clock event
  | .replace clock random request keyset => .replace clock random request keyset

def clock : A9Request → Clock
  | .control clock _ => clock
  | .replace clock _ _ _ => clock

def keyset : A9Request → KeysetReceipt
  | .control _ event => event.keyset
  | .replace _ _ _ keyset => keyset

end A9Request

namespace Store

variable {S : Store} {s s' : Session} {q : A9Request}

def present (S : Store) : A9Request → VaultTx A9Result
  | .control clock event => S.applyControl clock event
  | .replace clock random request keyset => S.replace clock random request keyset

def WellFormed (S : Store) : A9Request → Prop
  | .control _ event => S.validA9Control event
  | .replace _ _ request keyset => S.validA9Replace request keyset

theorem present_answer {r : A9Result} (h : S.present q s = .ok (r, s')) :
    S.WellFormed q ∧ S.Guarded q.clock q.keyset s.db ∧ ∃ a db1 First,
      Db.Opens q.key.installationBindingID q.key.sequencerEpoch
        { s.db with keyBinding := some S.rootCommitment } a db1 ∧
      S.Answer q.key q.clock.db a db1 First r s'.db ∧
      ∀ r db', First r db' → db'.receipts = q.key.receipt r :: db1.receipts := by
  cases q with
  | control clock event =>
    obtain ⟨hval, hguard, a, db1, hopens, hans⟩ := applyControl_answer h
    exact ⟨hval, hguard, a, db1, _, hopens, hans, fun _ _ hf => hf.receipts⟩
  | replace clock random request keyset =>
    obtain ⟨hval, hguard, a, db1, hopens, hans⟩ := replace_answer h
    exact ⟨hval, hguard, a, db1, _, hopens, hans, fun _ _ hf => hf.receipts⟩

theorem body_present (h : S.body q.op s = .ok ((), s')) : ∃ r, S.present q s = .ok (r, s') := by
  cases q with
  | _ => exact dropped_ok h

end Store

def Db.ReceiptRows (db : Db) : Prop :=
  ∀ x ∈ db.receipts, ∃ a, db.authority x.installationBindingID = some a

namespace Store

variable {S : Store} {s : Sys} {x : IdempotencyReceiptRow} {q : A9Request} {r : A9Result}
  {t : Session}

/-- After an A9 operation its installation has a row. -/
theorem step_row {s' : Sys} {e : Event} (h : S.system.step s e s') {i : Bytes16}
    (hi : e.op.installation = some i) : ∃ a, s'.db.authority i = some a := by
  obtain ⟨-, ⟨t, hbody, hvault, -⟩, -⟩ := h
  rw [show s'.db = t.db from congrArg Vault.db hvault.symm]
  obtain ⟨E, a, db1, -, ⟨a', ha', -⟩, -⟩ := body_epochStep hi hbody
  exact ⟨a', ha'⟩

theorem reachable_receiptRows (h : S.system.Reachable s) : s.db.ReceiptRows := by
  refine h.invariant (P := fun s => s.db.ReceiptRows) (fun s hs x hx => ?_)
    fun s e s' _ hP hst x hx => ?_
  · rw [hs.1] at hx
    exact absurd hx (by simp [Db.empty])
  · obtain ⟨added, heq, hadded⟩ := step_receipts hst
    rw [heq] at hx
    rcases List.mem_append.mp hx with hx | hx
    · exact step_row hst (hadded x hx)
    · obtain ⟨a, ha⟩ := hP x hx
      obtain ⟨a', ha', -⟩ := step_epoch hst ha
      exact ⟨a', ha'⟩

theorem path_receipts {s' : Sys} (h : S.system.Path s s') (hx : x ∈ s.db.receipts) :
    x ∈ s'.db.receipts := by
  induction h with
  | refl => exact hx
  | tail _ hst ih =>
    obtain ⟨added, heq, -⟩ := step_receipts hst
    rw [heq]
    exact List.mem_append_right added ih

def replayOf (S : Store) (x : IdempotencyReceiptRow) : A9Result :=
  S.a9Result x.installationBindingID x.sequencerEpoch x.subscriptionGeneration x.resultState .replay
    x.acceptedStreamSequence

/-- A request that was recorded is answered from its receipt, and changes nothing. -/
theorem present_recorded (hs : S.system.Reachable s) (hx : x ∈ s.db.receipts)
    (hk : x.requestKey = q.key) (h : S.present q s.session = .ok (r, t)) :
    r = S.replayOf x ∧ t.db = s.db := by
  obtain ⟨-, hguard, a, db1, First, hopens, hans, -⟩ := present_answer h
  replace hguard : S.Guarded q.clock q.keyset s.db := hguard
  rw [show ({ s.session.db with keyBinding := some S.rootCommitment } : Db) = s.db from
    hguard.bound hs] at hopens
  -- The installation of a receipt has a row, so none is created.
  have hdb1 : db1 = s.db := by
    obtain ⟨b, hb⟩ := reachable_receiptRows hs x hx
    rw [show x.installationBindingID = q.key.installationBindingID from
      congrArg RequestKey.installationBindingID hk] at hb
    exact (hopens.eq_of_some hb).2
  have hkey : x.idempotencyKey = q.key.idempotencyKey := congrArg RequestKey.idempotencyKey hk
  rw [hdb1] at hans
  generalize t.db = db' at hans ⊢
  have only : ∀ y ∈ s.db.receipts, y.idempotencyKey = q.key.idempotencyKey → y = x :=
    fun y hy hykey => s.vault.valid.receipts.key.eq_of_key_eq hy hx (hykey.trans hkey.symm)
  cases hans with
  | @replayed y hy hyk =>
    obtain rfl := only y hy (congrArg RequestKey.idempotencyKey hyk)
    refine ⟨?_, rfl⟩
    rw [← hk]
    rfl
  | misused hy hykey hne => exact absurd (only _ hy hykey ▸ hk) hne
  | first huns => exact absurd hkey (huns x hx)

/-- A key that was recorded with another request answers CONFLICT and latches the row. -/
theorem present_misused (hs : S.system.Reachable s) (hx : x ∈ s.db.receipts)
    (hkey : x.idempotencyKey = q.key.idempotencyKey) (hk : x.requestKey ≠ q.key)
    (h : S.present q s.session = .ok (r, t)) :
    r.outcome = .conflict ∧ ∃ a db1,
      Db.Opens q.key.installationBindingID q.key.sequencerEpoch s.db a db1 ∧
      t.db = db1.updateAuthority q.key.installationBindingID
        (.latched .idempotency q.clock.db) := by
  obtain ⟨-, hguard, a, db1, First, hopens, hans, -⟩ := present_answer h
  replace hguard : S.Guarded q.clock q.keyset s.db := hguard
  rw [show ({ s.session.db with keyBinding := some S.rootCommitment } : Db) = s.db from
    hguard.bound hs] at hopens
  have hrecs : db1.receipts = s.db.receipts := by rw [hopens.others]
  have only : ∀ y ∈ s.db.receipts, y.idempotencyKey = q.key.idempotencyKey → y = x :=
    fun y hy hykey => s.vault.valid.receipts.key.eq_of_key_eq hy hx (hykey.trans hkey.symm)
  generalize t.db = db' at hans ⊢
  cases hans with
  | @replayed y hy hyk =>
    rw [hrecs] at hy
    exact absurd (only y hy (congrArg RequestKey.idempotencyKey hyk) ▸ hyk) hk
  | misused => exact ⟨rfl, a, db1, hopens, rfl⟩
  | first huns => exact absurd hkey (huns x (hrecs ▸ hx))

/-- The beginning of both operations under a key that was recorded with another request. -/
theorem openA9_misused {s : Session} {clock : Clock} {keyset : KeysetReceipt} {k : RequestKey}
    (state : AuthorityState) (reason : UncertaintyReason) (hguard : S.Guarded clock keyset s.db)
    (hwhy : state = .active ↔ reason = .none)
    (hclk : ∀ a ∈ s.db.authority k.installationBindingID, a.createdAt ≤ clock.db)
    (hx : x ∈ s.db.receipts) (hkey : x.idempotencyKey = k.idempotencyKey) (hk : x.requestKey ≠ k) :
    ∃ s2 a s3 r s4, requireA9KeysetTx clock.db keyset s = .ok ((), s) ∧
      S.requireRetentionSafeTx clock.host s = .ok ((), s2) ∧
      loadOrInsertA9AuthorityTx k.installationBindingID k.sequencerEpoch state reason clock.db s2 =
        .ok (a, s3) ∧
      S.a9ReceiptResultTx k.idempotencyKey k.operationKind k.installationBindingID k.sequencerEpoch
        k.signedRequestHash a clock.db s3 = .ok (some r, s4) ∧ r.outcome = .conflict := by
  have hks : requireA9KeysetTx clock.db keyset s = .ok ((), s) :=
    requireA9KeysetTx_ok.mpr ⟨hguard.1, rfl⟩
  obtain ⟨s2, hdb2, hw2⟩ : ∃ s2 : Session,
      s2.db = { s.db with keyBinding := some S.rootCommitment } ∧ s2.writes = s.writes :=
    ⟨⟨⟨_, s.valid.keyBinding (some S.rootCommitment)⟩, s.writes⟩, rfl, rfl⟩
  have hsafe := (requireRetentionSafeTx_ok (S := S) (u := ())).mpr ⟨hguard.2, hdb2, hw2⟩
  obtain ⟨a, s3, hload, hopens, hnew⟩ := loadOrInsertA9AuthorityTx_opens
    (s := s2) (i := k.installationBindingID) (E := k.sequencerEpoch) clock.db hwhy
  have hauth : s2.db.authority k.installationBindingID =
      s.db.authority k.installationBindingID := by rw [hdb2]; rfl
  have hcreated : a.createdAt ≤ clock.db := by
    cases ha : s2.db.authority k.installationBindingID with
    | none => exact Int.le_of_eq (hnew ha)
    | some b =>
      obtain ⟨rfl, -⟩ := hopens.eq_of_some ha
      exact hclk a (hauth.symm.trans ha)
  have hrecs : s3.db.receipts = s.db.receipts := by rw [hopens.others, hdb2]
  -- The receipt found under the key is the recorded one.
  have hfind : (s3.db.receipts.find? fun r => r.idempotencyKey = k.idempotencyKey) = some x := by
    have huniq := s3.valid.receipts.key
    rw [hrecs] at huniq ⊢
    rw [← hkey]
    exact huniq.find?_eq_some hx
  have hoth : ¬ (x.operationKind = k.operationKind ∧
      x.installationBindingID = k.installationBindingID ∧ x.sequencerEpoch = k.sequencerEpoch ∧
      x.signedRequestHash = k.signedRequestHash) := by
    rintro ⟨h1, h2, h3, h4⟩
    refine hk ?_
    simp only [IdempotencyReceiptRow.requestKey, hkey, h1, h2, h3, h4]
  obtain ⟨u, s4, hlatch⟩ := latchA9UncertaintyTx_succeeds .idempotency hopens.authority
    (by decide) hcreated
  refine ⟨s2, a, s3, S.a9Result k.installationBindingID k.sequencerEpoch a.subscriptionGeneration
    .uncertain .conflict a.contiguousStreamSequence, s4, hks, hsafe, hload, ?_, rfl⟩
  simp only [a9ReceiptResultTx, bind_ok, query_ok]
  refine ⟨_, _, ⟨rfl, rfl⟩, ?_⟩
  simp only [hfind, ite_ok, bind_ok, pure_ok]
  exact .inr ⟨hoth, u, s4, hlatch, trivial, rfl⟩

/-- A misused key is answered whenever the guards pass and the database clock is not behind the
creation of the row. -/
theorem present_misused_succeeds {s : Session} (hval : S.WellFormed q)
    (hguard : S.Guarded q.clock q.keyset s.db)
    (hclk : ∀ a ∈ s.db.authority q.key.installationBindingID, a.createdAt ≤ q.clock.db)
    (hx : x ∈ s.db.receipts) (hkey : x.idempotencyKey = q.key.idempotencyKey)
    (hk : x.requestKey ≠ q.key) : Succeeds (S.present q) s := by
  cases q with
  | control clock event =>
    obtain ⟨s2, a, s3, r, s4, hks, hsafe, hload, hrec, hconf⟩ :=
      openA9_misused (k := event.requestKey) (if event.streamSequence = 1 then .active else .uncertain)
        (if event.streamSequence = 1 then .none else .controlGap) hguard (by split <;> simp) hclk hx hkey hk
    refine ⟨r, s4, ?_⟩
    simp only [present, applyControl, mapError_ok, bind_ok, require_ok, applyA9ControlOnce]
    refine ⟨(), s, ⟨hval, rfl⟩, (), s, hks, (), s2, hsafe, a, s3, hload, some r, s4, hrec, ?_⟩
    simp only [hconf, reduceCtorEq, false_and, if_false, pure_ok, and_self]
  | replace clock random request keyset =>
    obtain ⟨s2, a, s3, r, s4, hks, hsafe, hload, hrec, hconf⟩ :=
      openA9_misused (k := request.requestKey) .uncertain .authorityReference hguard (by simp) hclk hx hkey hk
    refine ⟨r, s4, ?_⟩
    simp only [present, replace, mapError_ok, bind_ok, require_ok, replaceA9Once]
    refine ⟨(), s, ⟨hval, rfl⟩, (), s, hks, (), s2, hsafe, a, s3, hload, some r, s4, hrec, ?_⟩
    simp only [pure_ok, and_self]

/-- The request is well formed, its keyset is current, retention is safe under the bound lookup
root, and the database clock is not behind the creation of the installation's row. -/
def Receivable (S : Store) (q : A9Request) (db : Db) : Prop :=
  S.WellFormed q ∧ S.Guarded q.clock q.keyset db ∧
    ∀ a ∈ db.authority q.key.installationBindingID, a.createdAt ≤ q.clock.db

theorem present_misused_iff (hs : S.system.Reachable s) (hx : x ∈ s.db.receipts)
    (hkey : x.idempotencyKey = q.key.idempotencyKey) (hk : x.requestKey ≠ q.key) :
    Succeeds (S.present q) s.session ↔ S.Receivable q s.db := by
  constructor
  · rintro ⟨r, t, h⟩
    obtain ⟨hval, hguard, -⟩ := present_answer h
    refine ⟨hval, hguard, fun a ha => ?_⟩
    obtain ⟨-, b, db1, hopens, hdb⟩ := present_misused hs hx hkey hk h
    obtain ⟨rfl, rfl⟩ := hopens.eq_of_some ha
    have hrow : t.db.authority q.key.installationBindingID =
        some (b.latched .idempotency q.clock.db) :=
      Db.authority_updated ha (congrArg Db.authorities hdb) fun _ => rfl
    exact t.valid.authorities.updated _ (List.mem_of_find?_eq_some hrow)
  · rintro ⟨hval, hguard, hclk⟩
    exact present_misused_succeeds (s := s.session) hval hguard hclk hx hkey hk

/-- No request is applied under a recorded key. -/
theorem present_not_applied {s : Session} (hx : x ∈ s.db.receipts)
    (hkey : x.idempotencyKey = q.key.idempotencyKey) (h : S.present q s = .ok (r, t)) :
    r.outcome ≠ .applied := by
  obtain ⟨-, -, a, db1, First, hopens, hans, hfst⟩ := present_answer h
  have hrecs : db1.receipts = s.db.receipts := by rw [hopens.others]
  rcases hans.receipts hfst with ⟨-, -, -, hout, -⟩ | ⟨huns, -⟩
  · exact hout
  · exact absurd hkey (huns x (hrecs ▸ hx))

/-- A key is recorded by the first request that is answered under it. -/
theorem present_records {s : Session} (h : S.present q s = .ok (r, t)) :
    (∃ x ∈ s.db.receipts, x.idempotencyKey = q.key.idempotencyKey) ∨
      t.db.receipts = q.key.receipt r :: s.db.receipts := by
  obtain ⟨-, -, a, db1, First, hopens, hans, hfst⟩ := present_answer h
  have hrecs : db1.receipts = s.db.receipts := by rw [hopens.others]
  rcases hans.receipts hfst with ⟨x, hx, hkey, -⟩ | ⟨-, heq⟩
  · exact .inl ⟨x, hrecs ▸ hx, hkey⟩
  · exact .inr (hrecs ▸ heq)

theorem applied_once {s1 s2 : Sys} {q' : A9Request} {e : Event} (hop : e.op = q.op)
    (hst : S.system.step s e s1) (hp : S.system.Path s1 s2)
    (hkey : q'.key.idempotencyKey = q.key.idempotencyKey)
    (h : S.present q' s2.session = .ok (r, t)) : r.outcome ≠ .applied := by
  have hsto : ∃ x ∈ s1.db.receipts, x.idempotencyKey = q.key.idempotencyKey := by
    obtain ⟨added, heq, -⟩ := step_receipts hst
    obtain ⟨-, ⟨u, hbody, hvault, -⟩, -⟩ := hst
    rw [hop] at hbody
    obtain ⟨r0, hpresent⟩ := body_present hbody
    rcases present_records hpresent with ⟨x, hx, hx'⟩ | hrec
    · exact ⟨x, heq ▸ List.mem_append_right added hx, hx'⟩
    · rw [show s1.db = u.db from congrArg Vault.db hvault.symm, hrec]
      exact ⟨_, .head _, rfl⟩
  obtain ⟨x, hx, hxkey⟩ := hsto
  exact present_not_applied (s := s2.session) (path_receipts hp hx) (hxkey.trans hkey.symm) h

/-- Idempotency keys in every run.  The first answer under a key is recorded and stays.  The same
request again changes no table and replays the recorded result or fails; another request under the
key answers CONFLICT and only latches the row of its installation, creating it if there is none,
exactly if it is receivable, and otherwise fails and changes nothing.  After a step that presented a
key, no request under that key is applied. -/
theorem idempotency_key_used_once {s : Sys} (hs : S.system.Reachable s) (q : A9Request) :
    (∀ r t, S.present q s.session = .ok (r, t) → (∀ x ∈ s.db.receipts, x.idempotencyKey ≠
      q.key.idempotencyKey) → t.db.receipts = q.key.receipt r :: s.db.receipts) ∧
    (∀ s', S.system.Path s s' → ∀ x ∈ s.db.receipts, x ∈ s'.db.receipts) ∧
    (∀ x ∈ s.db.receipts, x.requestKey = q.key → ((S.present q).commit s.session).2.db = s.db ∧
      ((∃ e, ((S.present q).commit s.session).1 = .error e) ∨
        ((S.present q).commit s.session).1 = .ok (S.replayOf x))) ∧
    (∀ x ∈ s.db.receipts, x.idempotencyKey = q.key.idempotencyKey → x.requestKey ≠ q.key →
      (S.Receivable q s.db → ∃ r, ((S.present q).commit s.session).1 = .ok r ∧
        r.outcome = .conflict ∧ ∃ a db₁,
        Db.Opens q.key.installationBindingID q.key.sequencerEpoch s.db a db₁ ∧
        ((S.present q).commit s.session).2.db = db₁.updateAuthority q.key.installationBindingID
          (.latched .idempotency q.clock.db)) ∧
      (¬ S.Receivable q s.db → (∃ e, ((S.present q).commit s.session).1 = .error e) ∧
        ((S.present q).commit s.session).2.db = s.db)) ∧
    ∀ e s₁ s₂, e.op = q.op → S.system.step s e s₁ → S.system.Path s₁ s₂ →
      ∀ q' : A9Request, q'.key.idempotencyKey = q.key.idempotencyKey →
      ∀ r t, S.present q' s₂.session = .ok (r, t) → r.outcome ≠ .applied := by
  refine ⟨fun r t h huns => ?_, fun s' hp x hx => path_receipts hp hx, fun x hx hk => ?_,
    fun x hx hkey hk => ⟨fun hrece => ?_, fun hnot => ?_⟩,
    fun e s₁ s₂ hop hst hp q' hkey r t h => applied_once hop hst hp hkey h⟩
  · rcases present_records h with ⟨x, hx, hkey⟩ | hrec
    · exact absurd hkey (huns x hx)
    · exact hrec
  · cases h : S.present q s.session with
    | error e =>
      rw [commit_of_error h]
      exact ⟨rfl, .inl ⟨e, rfl⟩⟩
    | ok p =>
      obtain ⟨r, t⟩ := p
      obtain ⟨rfl, hdb⟩ := present_recorded hs hx hk h
      rw [commit_of_ok h]
      exact ⟨hdb, .inr rfl⟩
  · obtain ⟨r, t, h⟩ := (present_misused_iff hs hx hkey hk).mpr hrece
    rw [commit_of_ok h]
    exact ⟨r, rfl, present_misused hs hx hkey hk h⟩
  · cases h : S.present q s.session with
    | error e =>
      rw [commit_of_error h]
      exact ⟨⟨e, rfl⟩, rfl⟩
    | ok p => exact absurd ((present_misused_iff hs hx hkey hk).mp ⟨p.1, p.2, h⟩) hnot

/-- The first event of a stream, presented twice. -/
theorem idempotency_key_used_once_sample :
    ∃ s, Sample.store.system.Reachable s ∧ ∃ x ∈ s.db.receipts,
      x.requestKey = (Sample.control 70 1 1 .upsert).requestKey ∧
      ((Sample.store.present (.control Sample.clock (Sample.control 70 1 1 .upsert))).commit
        s.session).1 = .ok (Sample.store.replayOf x) ∧
      ((Sample.store.present (.control Sample.clock (Sample.control 70 1 1 .upsert))).commit
        s.session).2.db = s.db := by
  obtain ⟨s, hs, ⟨x, hx, hk⟩, r, t, hok, -⟩ := exists_reachable (S := store) opened
    (P := fun s =>
      (∃ x ∈ s.db.receipts, x.requestKey = (control 70 1 1 .upsert).requestKey) ∧ ∃ r t,
      store.present (.control clock (control 70 1 1 .upsert)) s.session = .ok (r, t) ∧ True)
    (by decide +kernel)
  obtain ⟨hdb, hans⟩ := (idempotency_key_used_once hs
    (.control clock (control 70 1 1 .upsert))).2.2.1 x hx hk
  refine ⟨s, hs, x, hx, hk, hans.resolve_left ?_, hdb⟩
  rintro ⟨e, he⟩
  rw [commit_of_ok hok] at he
  cases he

/-- Another event under a recorded key, while retention is unsafe: the call fails. -/
theorem misused_key_fails :
    ∃ s, Sample.store.system.Reachable s ∧ ∃ q : A9Request, ∃ x ∈ s.db.receipts,
      x.idempotencyKey = q.key.idempotencyKey ∧ x.requestKey ≠ q.key ∧
      ∃ e, Sample.store.present q s.session = .error e := by
  refine (exists_reachable (S := store) (opened ++ [.beginSweep start]) ?_).imp fun s h =>
    ⟨h.1, .control clock { control 70 1 1 .revoke with signedObjectHash := 1 }, h.2⟩
  decide +kernel

end Store

end NotificationServer
