import NotificationServer.A9.Latch
import NotificationServer.A9.Outcome

/-!
# An epoch that was left is not entered again

A row moves to an epoch under which no event, watermark or receipt is stored.
The epochs a row has been in are therefore never entered again as long as
something is stored under each of them.  Creating the row by an operation that
stores nothing under its epoch breaks this.
-/

namespace NotificationServer

open Relational Sample

/-- The operation creates a row and stores nothing under its epoch. -/
def Op.Unrecorded (db : Db) : Op → Prop
  | .applyControl _ event => db.authority event.installationBindingID = none ∧
      ∃ x ∈ db.receipts, x.idempotencyKey = event.idempotencyKey
  | .applyWatermark clock w => db.authority w.installationBindingID = none ∧
      ¬ (clock.db < w.expiresAt ∧ w.watermarkSequence = 1 ∧ w.status = .uncertain)
  | .replace _ _ request _ => db.authority request.installationBindingID = none ∧
      ∃ x ∈ db.receipts, x.idempotencyKey = request.idempotencyKey
  | _ => False

def Db.EpochsObserved (db : Db) : Prop :=
  ∀ i a, db.authority i = some a → db.EpochObserved i a.sequencerEpoch

theorem Db.EpochObserved.mono {db db' : Db} {i E : Bytes16} (h : db.EpochObserved i E)
    (hev : ∀ e ∈ db.controlEvents, e ∈ db'.controlEvents)
    (hmarks : ∀ w ∈ db.watermarks, w ∈ db'.watermarks)
    (hrecs : ∀ x ∈ db.receipts, x ∈ db'.receipts) : db'.EpochObserved i E := by
  rcases h with ⟨e, he, hE⟩ | ⟨w, hw, hE⟩ | ⟨x, hx, hE⟩
  · exact .inl ⟨e, hev e he, hE⟩
  · exact .inr (.inl ⟨w, hmarks w hw, hE⟩)
  · exact .inr (.inr ⟨x, hrecs x hx, hE⟩)

theorem Ledger.Transaction.events_mono {L L' : Ledger} {i E : Bytes16} {ws : List AuthorityWrite}
    (h : Transaction i E L ws L') : ∀ e ∈ L.controlEvents, e ∈ L'.controlEvents := by
  cases h with
  | @mk L1 L2 _ opened rebased decided ho hr hd =>
    intro e he
    have he2 : e ∈ L2.controlEvents := by
      cases ho <;> cases hr <;> exact he
    rcases hd.events with ⟨heq, -⟩ | ⟨e', heq, -⟩
    · rw [heq]
      exact he2
    · rw [heq]
      exact .tail _ he2

namespace Store

variable {S : Store} {s s' : Sys} {e : Event} {i : Bytes16} {db db' : Db} {a : AuthorityRow}
  {k : RequestKey} {now : Time} {r : A9Result}

theorem step_observed (hst : S.system.step s e s') {E : Bytes16} (h : s.db.EpochObserved i E) :
    s'.db.EpochObserved i E := by
  have hrecs : ∀ x ∈ s.db.receipts, x ∈ s'.db.receipts := by
    obtain ⟨added, heq, -⟩ := step_receipts hst
    rw [heq]
    exact fun _ => List.mem_append_right added
  rcases step_records hst with ⟨hled, -⟩ | ⟨j, F, ws, htx, -⟩
  · have hev : s'.db.controlEvents = s.db.controlEvents := congrArg Ledger.controlEvents hled
    have hmarks : s'.db.watermarks = s.db.watermarks := congrArg Ledger.watermarks hled
    exact h.mono (by rw [hev]; exact fun _ h => h) (by rw [hmarks]; exact fun _ h => h)
      hrecs
  · exact h.mono htx.events_mono htx.watermarks_mono hrecs

/-- The epoch of an installation's row across an operation on an artifact of epoch `E`. -/
def EpochStep (i E : Bytes16) (a : AuthorityRow) (db db' : Db) : Prop :=
  ∃ a', db'.authority i = some a' ∧ (a'.sequencerEpoch = a.sequencerEpoch ∨
    (a'.sequencerEpoch = E ∧ ¬ db.EpochObserved i E ∧ db'.EpochObserved i E))

theorem epochStep_latchIf {E : Bytes16} (h : db.authority i = some a)
    (latch : Option UncertaintyReason) (now : Time) :
    EpochStep i E a db (latchIf i latch now db) := by
  rcases authority_latchIf h latch now with h | ⟨reason, h⟩
  · exact ⟨_, h, .inl rfl⟩
  · exact ⟨_, h, .inl rfl⟩

theorem Refused.epochStep (ha : db.authority k.installationBindingID = some a)
    (h : Refused k now db r db') : EpochStep k.installationBindingID k.sequencerEpoch a db db' := by
  obtain ⟨-, latch, rfl⟩ := h
  rcases authority_latchIf ha latch now with h | ⟨reason, h⟩
  · exact ⟨_, h, .inl rfl⟩
  · exact ⟨_, h, .inl rfl⟩

/-- A recorded request is something stored under its epoch. -/
theorem observed_of_receipt {receipts : List IdempotencyReceiptRow}
    (h : db.receipts = k.receipt r :: receipts) :
    db.EpochObserved k.installationBindingID k.sequencerEpoch := by
  refine .inr (.inr ⟨k.receipt r, ?_, rfl, rfl⟩)
  rw [h]
  exact .head _

theorem FirstControl.epochStep {event : VerifiedControl}
    (ha : db.authority event.installationBindingID = some a) (h : FirstControl event now db r db') :
    EpochStep event.installationBindingID event.sequencerEpoch a db db' := by
  have hobs := observed_of_receipt h.receipts
  obtain ⟨db1, hreb, h⟩ := h
  cases hreb with
  | stays =>
    rcases h with href | happ
    · exact href.epochStep ha
    · obtain ⟨b, b', hb, hb', hE, hE'⟩ := happ.row
      obtain rfl := Option.mem_unique ha (Db.authority_of_row hb)
      exact ⟨b', Db.authority_of_row hb', .inl (hE'.trans hE.symm)⟩
  | starts hstarts =>
    obtain ⟨a', ha', hE'⟩ : ∃ a', db'.authority event.installationBindingID = some a' ∧
        a'.sequencerEpoch = event.sequencerEpoch := by
      rcases h with href | happ
      · exact epoch_of_reset ha href
      · obtain ⟨-, b', -, hb', -, hE'⟩ := happ.row
        exact ⟨b', Db.authority_of_row hb', hE'⟩
    exact ⟨a', ha', .inr ⟨hE', hstarts.2.2.2, hobs⟩⟩

theorem FirstReplace.epochStep {clock : Clock} {random : Bytes → LeaseDraw}
    {request : ReplaceRequest} {keyset : KeysetReceipt}
    (ha : db.authority request.installationBindingID = some a)
    (h : S.FirstReplace clock random request keyset a db r db') :
    EpochStep request.installationBindingID request.sequencerEpoch a db db' := by
  rcases h with href | ⟨w, normalized, routes, -, t, t', rfl, rfl, h⟩
  · exact href.epochStep ha
  · obtain ⟨⟨rows, -, hl⟩, -⟩ := publishA9ReplaceTx_ok h
    exact ⟨_, Db.authority_updated ha (congrArg Ledger.authorities hl) fun _ => rfl, .inl rfl⟩

theorem Answer.epochStep {First : A9Result → Db → Prop} (h : S.Answer k now a db First r db')
    (ha : db.authority k.installationBindingID = some a) (hfst : ∀ r db', First r db' →
      EpochStep k.installationBindingID k.sequencerEpoch a db db') :
    EpochStep k.installationBindingID k.sequencerEpoch a db db' := by
  cases h with
  | replayed => exact ⟨a, ha, .inl rfl⟩
  | misused => exact epochStep_latchIf ha (some .idempotency) now
  | first _ h => exact hfst _ _ h

theorem WatermarkAnswer.epochStep {w : VerifiedWatermark} (h : WatermarkAnswer w now a db db')
    (ha : db.authority w.installationBindingID = some a) :
    EpochStep w.installationBindingID w.sequencerEpoch a db db' := by
  cases h with
  | repeated | ignored => exact ⟨a, ha, .inl rfl⟩
  | latched reason => exact epochStep_latchIf ha (some reason) now
  | stored => exact ⟨_, Db.authority_updated ha rfl fun _ => rfl, .inl rfl⟩

theorem Opens.observed_iff {E F : Bytes16} {db1 : Db} {k : Option LookupDigest}
    (h : Db.Opens i E { db with keyBinding := k } a db1) :
    db1.EpochObserved i F ↔ db.EpochObserved i F := by
  rw [h.others]
  exact Iff.rfl

/-- An A9 operation: the row it opened, what became of its epoch, and what is stored under the
epoch of a row it created. -/
theorem body_epochStep {op : Op} {s s' : Session} (hi : op.installation = some i)
    (h : S.body op s = .ok ((), s')) :
    ∃ E a db1, Db.Opens i E { s.db with keyBinding := some S.rootCommitment } a db1 ∧
      EpochStep i E a db1 s'.db ∧
      (¬ op.Unrecorded s.db → s.db.authority i = none → s'.db.EpochObserved i E) := by
  have recorded : ∀ {k : RequestKey} {E : Bytes16} {now : Time} {a : AuthorityRow} {db1 : Db}
      {First : A9Result → Db → Prop} {r : A9Result},
      Db.Opens k.installationBindingID E { s.db with keyBinding := some S.rootCommitment } a db1 →
      S.Answer k now a db1 First r s'.db →
      (∀ r db', First r db' → db'.receipts = k.receipt r :: db1.receipts) →
      ¬ (s.db.authority k.installationBindingID = none ∧
        ∃ x ∈ s.db.receipts, x.idempotencyKey = k.idempotencyKey) →
      s.db.authority k.installationBindingID = none →
      s'.db.EpochObserved k.installationBindingID k.sequencerEpoch := by
    intro k E now a db1 First r hopens hans hfst hno hnone
    have hrecs : db1.receipts = s.db.receipts := by rw [hopens.others]
    rcases hans.receipts hfst with ⟨x, hx, hkey, -⟩ | ⟨-, heq⟩
    · rw [hrecs] at hx
      exact absurd ⟨hnone, x, hx, hkey⟩ hno
    · exact observed_of_receipt heq
  cases op with
  | applyControl c event =>
    cases hi
    obtain ⟨r, h⟩ := dropped_ok h
    obtain ⟨-, -, a, db1, hopens, h⟩ := applyControl_answer h
    exact ⟨_, a, db1, hopens, h.epochStep hopens.authority fun _ _ hf => hf.epochStep hopens.authority,
      fun hno hnone => recorded hopens h (fun _ _ hf => hf.receipts) hno hnone⟩
  | applyWatermark c w =>
    cases hi
    obtain ⟨r, h⟩ := dropped_ok h
    obtain ⟨-, a, db1, hopens, h⟩ := applyWatermark_answer h
    refine ⟨_, a, db1, hopens, h.epochStep hopens.authority, fun hno hnone => ?_⟩
    have hreco : Recordable w c.db a := by
      cases hopens with
      | found ha => cases ha.symm.trans hnone
      | created =>
        by_contra hnot
        refine hno ⟨hnone, fun ⟨hexp, hseq, hstat⟩ => hnot ⟨rfl, hexp, ?_, hstat⟩⟩
        rw [hseq]
        rfl
    generalize s'.db = db' at h ⊢
    cases h with
    | repeated hx hkey =>
      exact .inr (.inl ⟨_, hx, congrArg Prod.fst hkey, congrArg (fun k => k.2.1) hkey⟩)
    | ignored hnot | latched _ hnot => exact absurd hreco hnot
    | stored => exact .inr (.inl ⟨w.row, .head _, rfl, rfl⟩)
  | replace c random request keyset =>
    cases hi
    obtain ⟨r, h⟩ := dropped_ok h
    obtain ⟨-, -, a, db1, hopens, h⟩ := replace_answer h
    exact ⟨_, a, db1, hopens, h.epochStep hopens.authority fun _ _ hf => hf.epochStep hopens.authority,
      fun hno hnone => recorded hopens h (fun _ _ hf => hf.receipts) hno hnone⟩
  | _ => exact absurd hi (by simp [Op.installation])

/-- A step leaves the row of an installation in its epoch, or moves it to one under which something
is stored only from then on. -/
theorem step_epoch (hst : S.system.step s e s') (ha : s.db.authority i = some a) :
    ∃ a', s'.db.authority i = some a' ∧ (a'.sequencerEpoch = a.sequencerEpoch ∨
      ¬ s.db.EpochObserved i a'.sequencerEpoch ∧ s'.db.EpochObserved i a'.sequencerEpoch) := by
  by_cases hop : e.op.installation = some i
  · obtain ⟨-, ⟨t, hbody, hvault, -⟩, -⟩ := hst
    rw [show s'.db = t.db from congrArg Vault.db hvault.symm]
    obtain ⟨E, b, db1, hopens, ⟨a', ha', hE⟩, -⟩ := body_epochStep hop hbody
    have hb : b = a := (hopens.eq_of_some ha).1
    rw [hb] at hE
    refine ⟨a', ha', hE.imp_right ?_⟩
    rintro ⟨heq, hnot, hobs⟩
    rw [heq]
    exact ⟨fun h => hnot ((Opens.observed_iff hopens).mpr h), hobs⟩
  · have hrow : s.db.ledger.Row i a := s.vault.valid.row ha
    rcases step_records hst with ⟨hled, -⟩ | ⟨j, F, ws, htx, -, hinst, -⟩
    · rw [← hled] at hrow
      exact ⟨a, Db.authority_of_row hrow, .inl rfl⟩
    · have hne : i ≠ j := by
        rintro rfl
        exact hop hinst
      exact ⟨a, Db.authority_of_row ((htx.row_ne hne).mpr hrow), .inl rfl⟩

/-- A row that a step creates is of the installation and the epoch of the step's artifact. -/
theorem step_created (hst : S.system.step s e s') (hno : ¬ e.op.Unrecorded s.db) {a' : AuthorityRow}
    (hnone : s.db.authority i = none) (ha' : s'.db.authority i = some a') :
    s'.db.EpochObserved i a'.sequencerEpoch := by
  by_cases hop : e.op.installation = some i
  · obtain ⟨-, ⟨t, hbody, hvault, -⟩, -⟩ := hst
    rw [show s'.db = t.db from congrArg Vault.db hvault.symm] at ha' ⊢
    obtain ⟨E, b, db1, hopens, ⟨c, hc, hE⟩, hobs⟩ := body_epochStep hop hbody
    obtain rfl := Option.mem_unique ha' hc
    have hb : b.sequencerEpoch = E := by
      cases hopens with
      | found hb => cases Eq.trans (Eq.symm hnone) hb
      | created => rfl
    have hE' : a'.sequencerEpoch = E := by
      rcases hE with h | ⟨h, -⟩
      · exact h.trans hb
      · exact h
    rw [hE']
    exact hobs hno hnone
  · have hrow : s'.db.ledger.Row i a' := s'.vault.valid.row ha'
    have hbef : s.db.ledger.Row i a' := by
      rcases step_records hst with ⟨hled, -⟩ | ⟨j, F, ws, htx, -, hinst, -⟩
      · rw [← hled]
        exact hrow
      · refine (htx.row_ne ?_).mp hrow
        rintro rfl
        exact hop hinst
    cases hnone.symm.trans (Db.authority_of_row hbef)

/-- The system in runs whose steps are not `Unrecorded`. -/
def recording (S : Store) : Machine Sys Event :=
  S.system.restrict fun s e _ => ¬ e.op.Unrecorded s.db

theorem recording_step (hst : S.recording.step s e s') (hs : s.db.EpochsObserved) :
    s'.db.EpochsObserved := by
  obtain ⟨hst, hno⟩ := hst
  intro i a' ha'
  cases ha : s.db.authority i with
  | none => exact step_created hst hno ha ha'
  | some a =>
    obtain ⟨b, hb, hE⟩ := step_epoch hst ha
    obtain rfl := Option.mem_unique ha' hb
    rcases hE with hsame | ⟨-, hobs⟩
    · rw [hsame]
      exact step_observed hst (hs i a ha)
    · exact hobs

/-- In runs without `Unrecorded` steps something is stored under the epoch of every row. -/
theorem recording_observed (h : S.recording.Reachable s) : s.db.EpochsObserved := by
  refine h.invariant (P := fun s => s.db.EpochsObserved) (fun s hs i a ha => ?_)
    fun s e s' _ hP hst => recording_step hst hP
  rw [hs.1] at ha
  exact absurd ha (by simp [Db.authority, Db.empty])

/-- In every run without `Unrecorded` steps: once the row of an installation has left an epoch, no
later state has it in that epoch. -/
theorem left_epoch_not_entered {s s₁ s₂ : Sys} {i E : Bytes16} {a a₁ a₂ : AuthorityRow}
    (h : S.recording.Reachable s) (ha : s.db.authority i = some a) (hE : a.sequencerEpoch = E)
    (hp : S.recording.Path s s₁) (ha₁ : s₁.db.authority i = some a₁) (hleft : a₁.sequencerEpoch ≠ E)
    (hp' : S.recording.Path s₁ s₂) (ha₂ : s₂.db.authority i = some a₂) : a₂.sequencerEpoch ≠ E := by
  have hobserved : s.db.EpochObserved i E := hE ▸ recording_observed h i a ha
  have hobserved1 : s₁.db.EpochObserved i E :=
    hp.invariant h (P := fun s => s.db.EpochObserved i E)
      (fun _ _ _ _ hP hst => step_observed hst.1 hP) hobserved
  -- Along the rest of the run the row exists, is not in `E`, and `E` stays observed.
  obtain ⟨-, b, hb, hne⟩ := hp'.invariant (h.path hp)
    (P := fun s => s.db.EpochObserved i E ∧ ∃ b, s.db.authority i = some b ∧ b.sequencerEpoch ≠ E)
    (fun t e t' _ hP hst => by
      obtain ⟨hobs, b, hb, hne⟩ := hP
      refine ⟨step_observed hst.1 hobs, ?_⟩
      obtain ⟨c, hc, hstep⟩ := step_epoch hst.1 hb
      refine ⟨c, hc, ?_⟩
      rcases hstep with hsame | ⟨hnot, -⟩
      · rw [hsame]
        exact hne
      · rintro rfl
        exact hnot hobs)
    ⟨hobserved1, a₁, ha₁, hleft⟩
  rw [Option.mem_unique ha₂ hb]
  exact hne

end Store

instance (db : Db) : DecidablePred (Op.Unrecorded db) := fun op =>
  match op with
  | .applyControl .. => inferInstanceAs (Decidable (_ = _ ∧ ∃ x ∈ _, _))
  | .applyWatermark .. => inferInstanceAs (Decidable (_ = _ ∧ ¬ _))
  | .replace .. => inferInstanceAs (Decidable (_ = _ ∧ ∃ x ∈ _, _))
  | .register .. | .keyset .. | .refresh .. | .advancePolicy .. | .beginSweep .. | .finishSweep ..
  | .erase .. | .reapply .. | .requireRetentionSafe .. | .worker .. => .isFalse id

namespace Store

/-- Epoch 70 is left for 71, after which an event of epoch 70 is refused. -/
theorem left_epoch_not_entered_sample :
    ∃ s s₁ s₂, Sample.store.recording.Reachable s ∧ Sample.store.recording.Path s s₁ ∧
      Sample.store.recording.Path s₁ s₂ ∧ (∃ a ∈ s.db.authority 9, a.sequencerEpoch = 70) ∧
      (∃ a ∈ s₁.db.authority 9, a.sequencerEpoch ≠ 70) ∧
      ∃ a ∈ s₂.db.authority 9, a.sequencerEpoch ≠ 70 := by
  let test : Sys → Op → Sys → Bool := fun s op _ => decide (¬ op.Unrecorded s.db)
  obtain ⟨s, hs, ⟨a, ha, hE⟩, s₁, hs1, ⟨a1, ha1, hleft⟩, s₂, hs2, a2, ha2, -⟩ :
      ∃ s ∈ store.performIn test opened .fresh, (∃ a ∈ s.db.authority 9, a.sequencerEpoch = 70) ∧
      ∃ s₁ ∈ store.performIn test [.applyControl clock (control 71 1 1 .upsert)] s,
        (∃ a ∈ s₁.db.authority 9, a.sequencerEpoch ≠ 70) ∧
      ∃ s₂ ∈ store.performIn test [.applyControl clock (control 70 2 2 .upsert)] s₁,
        ∃ a ∈ s₂.db.authority 9, True := by
    decide +kernel
  have htest : ∀ s op (writes : List (Bytes16 × AuthorityWrite)) s', test s op s' = true →
      ¬ op.Unrecorded s.db := fun _ _ _ _ h => of_decide_eq_true h
  have hreach : store.recording.Reachable s := performIn_reachable htest hs
  have hp : store.recording.Path s s₁ := performIn_path htest hs1
  have hp' : store.recording.Path s₁ s₂ := performIn_path htest hs2
  exact ⟨s, s₁, s₂, hreach, hp, hp', ⟨a, ha, hE⟩, ⟨a1, ha1, hleft⟩, a2, ha2,
    left_epoch_not_entered hreach ha hE hp ha1 hleft hp' ha2⟩

/-- The row is created in epoch 70 by a watermark that is refused for a gap, moves to 71 with the
first event of 71, and moves back with the first event of 70. -/
theorem left_epoch_entered_again :
    ∃ s s₁ s₂, Sample.store.system.Reachable s ∧ Sample.store.system.Path s s₁ ∧
      Sample.store.system.Path s₁ s₂ ∧ (∃ a ∈ s.db.authority 9, a.sequencerEpoch = 70) ∧
      (∃ a ∈ s₁.db.authority 9, a.sequencerEpoch = 71) ∧
      ∃ a ∈ s₂.db.authority 9, a.sequencerEpoch = 70 := by
  obtain ⟨s, hs, hE, s₁, hs1, hE1, s₂, hs2, hE2⟩ :
      ∃ s ∈ store.performAll (boot ++ [.applyWatermark clock (watermark 70 2 0)]) .fresh,
        (∃ a ∈ s.db.authority 9, a.sequencerEpoch = 70) ∧
      ∃ s₁ ∈ store.performAll [.applyControl clock (control 71 1 1 .upsert)] s,
        (∃ a ∈ s₁.db.authority 9, a.sequencerEpoch = 71) ∧
      ∃ s₂ ∈ store.performAll [.applyControl clock (control 70 1 1 .upsert)] s₁,
        ∃ a ∈ s₂.db.authority 9, a.sequencerEpoch = 70 := by
    decide +kernel
  exact ⟨s, s₁, s₂, performAll_reachable hs, performAll_path hs1, performAll_path hs2, hE, hE1, hE2⟩

end Store

end NotificationServer
