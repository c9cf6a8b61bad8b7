import NotificationServer.A9.Cursor
import NotificationServer.A9.History

/-!
# The uncertainty latch

`uncertainty_reason` is one column that every latch overwrites, and the reason
`epoch` is the one that a CURRENT watermark and a replacement may reopen.  A
latched row stays UNCERTAIN within its epoch as long as either the reason is
another one, or the epoch's first watermark was accepted before, so that the
history rejects the watermark a replacement would need.  A first-seen artifact
of a foreign epoch breaks this when no watermark of the row's epoch is stored.
-/

namespace NotificationServer

open Relational Sample

/-- A statement that leaves the row UNCERTAIN, other than the reset to a new epoch. -/
def AuthorityWrite.MakesUncertain : AuthorityWrite → Prop
  | .created state _ => state = .uncertain
  | .latched _ => True
  | .watermarkStored status => status = .uncertain
  | .reset _ | .cursorAdvanced | .replaced => False

instance : DecidablePred AuthorityWrite.MakesUncertain := fun w => by
  cases w <;> unfold AuthorityWrite.MakesUncertain <;> infer_instance

namespace Ledger

def FirstWatermark (L : Ledger) (i E : Bytes16) : Prop := ∃ w ∈ L.watermarks, w.key = (i, E, 1)

/-- The row is UNCERTAIN in epoch `E` and nothing short of another epoch reopens it. -/
def Latched (L : Ledger) (i E : Bytes16) : Prop :=
  ∃ a, L.Row i a ∧ a.sequencerEpoch = E ∧ a.state = .uncertain ∧
    (a.uncertaintyReason ≠ .epoch ∨ (a.watermark = none ∧ L.FirstWatermark i E))

variable {L L' : Ledger} {i j E F : Bytes16} {a a' : AuthorityRow} {ws : List AuthorityWrite}

/-- A history that is not empty has its first watermark. -/
theorem Histories.firstWatermark (hs : L.Histories) {w : WatermarkRow} (hw : w ∈ L.watermarks)
    (hi : w.installationBindingID = i) (hE : w.sequencerEpoch = E) : L.FirstWatermark i E := by
  obtain ⟨m, hm⟩ := hs.numbered i E
  have hmem : w ∈ L.watermarksOf i E := List.mem_filter.mpr ⟨hw, by simp [hi, hE]⟩
  obtain ⟨hone, hle⟩ := hm.mem_iff.mp ⟨w, hmem, rfl⟩
  obtain ⟨v, hv, hvone⟩ := hm.mem_iff.mpr ⟨Nat.le_refl 1, hone.trans hle⟩
  obtain ⟨hvmem, hvkey⟩ := List.mem_filter.mp hv
  obtain ⟨hvi, hvE⟩ := of_decide_eq_true hvkey
  exact ⟨v, hvmem, by simp only [WatermarkRow.key, hvi, hvE]; exact congrArg _ (congrArg _ hvone)⟩

theorem FirstWatermark.mono (h : L.FirstWatermark i E)
    (hmono : ∀ w ∈ L.watermarks, w ∈ L'.watermarks) : L'.FirstWatermark i E := by
  obtain ⟨w, hw, hkey⟩ := h
  exact ⟨w, hmono w hw, hkey⟩

theorem Decided.watermarks_mono (h : Decided i F L ws L') :
    ∀ w ∈ L.watermarks, w ∈ L'.watermarks := by
  intro w hw
  rcases h.watermarks with ⟨heq, -⟩ | ⟨v, heq, -⟩
  · rw [heq]
    exact hw
  · rw [heq]
    exact .tail _ hw

theorem Transaction.watermarks_mono (h : Transaction i F L ws L') :
    ∀ w ∈ L.watermarks, w ∈ L'.watermarks := by
  cases h with
  | mk ho hr hd =>
    intro w hw
    refine hd.watermarks_mono w ?_
    cases ho <;> cases hr <;> exact hw

/-- A latch on the row: its reason is not `epoch`, or the first watermark is in the history. -/
theorem Row.latched (reason : UncertaintyReason) (now : Time) (hrow : L.Row i a)
    (hwhy : reason = .epoch → L.FirstWatermark i a.sequencerEpoch)
    (hl : L'.authorities = (L.updateAuthority i (.latched reason now)).authorities)
    (hmono : ∀ w ∈ L.watermarks, w ∈ L'.watermarks) : L'.Latched i a.sequencerEpoch := by
  refine ⟨a.latched reason now,
    (hrow.updateAuthority (f := .latched reason now) hrow.2.1).congr hl, rfl, rfl, ?_⟩
  by_cases hr : reason = .epoch
  · exact .inr ⟨rfl, (hwhy hr).mono hmono⟩
  · exact .inl hr

/-- A stored UNCERTAIN watermark latches the row. -/
theorem Row.latched_watermark {w : VerifiedWatermark} {now : Time} (hrow : L.Row i a)
    (hstat : w.status = .uncertain)
    (hl : L'.authorities = (L.updateAuthority i (.withWatermark w now)).authorities) :
    L'.Latched i a.sequencerEpoch := by
  have hf : (a.withWatermark w now).installationBindingID = i :=
    (withWatermark_installation w now a).trans hrow.2.1
  have hrow' : L'.Row i (a.withWatermark w now) := (hrow.updateAuthority hf).congr hl
  refine ⟨_, hrow', ?_, ?_, .inl ?_⟩ <;> simp [AuthorityRow.withWatermark, hstat]

theorem Decided.keeps_latched (h : Decided i F L ws L') (hl : L.Latched i E)
    (hep : .latched .epoch ∈ ws → E ≠ F → L.FirstWatermark i E) : L'.Latched i E := by
  have hmono := h.watermarks_mono
  obtain ⟨a, hrow, rfl, hunc, hcase⟩ := hl
  -- The row is not open: neither a CURRENT watermark nor a replacement gets past its guard.
  have hclosed : ¬ (a.uncertaintyReason = .epoch ∧
      (a.watermark ≠ none ∨ ¬ L.FirstWatermark i a.sequencerEpoch)) := by
    rintro ⟨hr, hopen⟩
    rcases hcase with hne | ⟨hnone, hfst⟩
    · exact hne hr
    · exact hopen.elim (fun h => h hnone) fun h => h hfst
  cases h with
  | unchanged => exact ⟨a, hrow, rfl, hunc, hcase⟩
  | latched reason now hrow' hnone hfor =>
    refine hrow.latched reason now (fun hr => hep (by simp [hr]) ?_) rfl hmono
    rw [← hrow.eq hrow']
    exact hfor hr
  | deniedAcrossGap event now =>
    exact hrow.latched .controlGap now (fun hr => absurd hr (by decide)) rfl
      hmono
  | upsertApplied event ref now hrow' hE hi hevent hseq =>
    subst hi
    rw [hrow.eq hrow'] at hseq
    refine ⟨_, (hrow.congr (M := L.upserted event ref) rfl).advance now hseq, rfl, hunc, ?_⟩
    exact hcase
  | revokeApplied event now hrow' hE hi hevent hseq =>
    subst hi
    rw [hrow.eq hrow'] at hseq
    refine ⟨_, (hrow.congr (M := L.revoked event true) rfl).advance now hseq, rfl, hunc, ?_⟩
    exact hcase
  | watermarkStored w now hrow' hE hi hwE hnext hfr hopen =>
    rw [hrow.eq hrow'] at hE hnext hopen
    cases hstat : w.status with
    | uncertain =>
      exact Row.latched_watermark (L := { L with watermarks := w.row :: L.watermarks }) hrow hstat
        rfl
    | current =>
      -- With no watermark in the row the expected sequence is 1, which the history already has.
      have hr := hopen hstat hunc
      refine absurd ⟨hr, ?_⟩ hclosed
      by_cases hw : a.watermark = none
      · refine .inr fun hfst => ?_
        obtain ⟨v, hv, hkey⟩ := hfst
        have hone : w.watermarkSequence = 1 := by
          rw [hnext, AuthorityRow.currentWatermarkSequence, hw]
          rfl
        refine hfr v hv (hkey.trans ?_)
        change _ = (w.installationBindingID, w.sequencerEpoch, w.watermarkSequence)
        rw [hi, hwE, hone, hE]
      · exact .inl hw
  | replaced routes now hrow' hE hopen hw hcur =>
    rw [hrow.eq hrow'] at hopen hw
    exact absurd ⟨hopen hunc, .inl (by rw [hw]; simp)⟩ hclosed

/-- A decision that makes the row UNCERTAIN latches it. -/
theorem Decided.latched_of_cause (h : Decided i F L ws L') (hrow : L.Row i a) {w : AuthorityWrite}
    (hw : w ∈ ws) (hcau : w.MakesUncertain)
    (hep : .latched .epoch ∈ ws → a.sequencerEpoch ≠ F → L.FirstWatermark i a.sequencerEpoch) :
    L'.Latched i a.sequencerEpoch := by
  have hmono := h.watermarks_mono
  cases h with
  | unchanged => cases hw
  | latched reason now hrow' hnone hfor =>
    refine hrow.latched reason now (fun hr => hep (by simp [hr]) ?_) rfl hmono
    rw [← hrow.eq hrow']
    exact hfor hr
  | deniedAcrossGap event now =>
    exact hrow.latched .controlGap now (fun hr => absurd hr (by decide)) rfl
      hmono
  | upsertApplied | revokeApplied =>
    rw [List.mem_singleton.mp hw] at hcau
    exact hcau.elim
  | watermarkStored w' now =>
    rw [List.mem_singleton.mp hw] at hcau
    exact Row.latched_watermark (L := { L with watermarks := w'.row :: L.watermarks }) hrow hcau
      rfl
  | replaced routes now =>
    rw [List.mem_singleton.mp hw] at hcau
    exact hcau.elim

/-- A transaction that leaves a latched row in its epoch leaves it latched. -/
theorem Transaction.keeps_latched (h : Transaction j F L ws L') (hl : L.Latched i E)
    (hep : j = i → .latched .epoch ∈ ws → L.FirstWatermark i E) (hrow' : L'.Row i a')
    (hstay : a'.sequencerEpoch = E) : L'.Latched i E := by
  by_cases hj : i = j
  · subst hj
    obtain ⟨a, hrow, rfl, hcase⟩ := hl
    cases h with
    | @mk L1 L2 _ opened rebased decided ho hr hd =>
      obtain rfl : L1 = L := by
        rcases ho.row_self with ⟨-, -, rfl, -⟩ | ⟨_, _, _, hnone, -⟩
        · rfl
        · exact absurd hrow.2.1 (hnone a hrow.1)
      rcases hr.row_self hrow with ⟨rfl, -⟩ | ⟨⟨now, hrow2⟩, hne, -⟩
      · exact hd.keeps_latched ⟨a, hrow, rfl, hcase⟩ fun hmem _ =>
          hep rfl (List.mem_append_left _ (List.mem_append_left _ hmem))
      · -- The row was moved to the artifact's epoch, so it did not stay.
        obtain ⟨b, hrow3, hdec⟩ := hd.row_self hrow2
        rw [← hrow3.eq hrow'] at hdec
        exact absurd (hstay.symm.trans hdec.epoch) hne
  · obtain ⟨a, hrow, hE, hunc, hcase⟩ := hl
    refine ⟨a, (h.row_ne hj).mpr hrow, hE, hunc, ?_⟩
    exact hcase.imp_right fun ⟨hnone, hfst⟩ => ⟨hnone, hfst.mono h.watermarks_mono⟩

/-- A transaction with a statement that makes the row UNCERTAIN leaves it latched. -/
theorem Transaction.latched_of_cause (h : Transaction i F L ws L') {w : AuthorityWrite}
    (hw : w ∈ ws) (hcau : w.MakesUncertain)
    (hep : .latched .epoch ∈ ws → ∀ {a}, L.Row i a → L.FirstWatermark i a.sequencerEpoch)
    (hrow' : L'.Row i a') : L'.Latched i a'.sequencerEpoch := by
  cases h with
  | @mk L1 L2 _ opened rebased decided ho hr hd =>
    obtain ⟨a2, hrow2⟩ := hr.exists_row ho
    have hE : a'.sequencerEpoch = a2.sequencerEpoch := by
      obtain ⟨b, hrow3, hdec⟩ := hd.row_self hrow2
      rw [hrow3.eq hrow']
      exact hdec.epoch
    rw [hE]
    -- Only a row found in another epoch and left there is latched for its epoch.
    have hep2 : .latched .epoch ∈ decided → a2.sequencerEpoch ≠ F →
        L2.FirstWatermark i a2.sequencerEpoch := by
      intro hmem hne
      have hmem' := List.mem_append_left opened (List.mem_append_left rebased hmem)
      rcases ho.row_self with ⟨a, hrow, rfl, -⟩ | ⟨state, reason, now, -, -, hrow, -⟩
      · rcases hr.row_self hrow with ⟨rfl, -⟩ | ⟨⟨now, hrow3⟩, -, -⟩
        · exact hep hmem' hrow2
        · rw [hrow3.eq hrow2] at hne
          exact absurd rfl hne
      · rcases hr.row_self hrow with ⟨rfl, -⟩ | ⟨-, hne', -⟩
        · rw [hrow.eq hrow2] at hne
          exact absurd rfl hne
        · exact absurd rfl hne'
    rcases List.mem_append.mp hw with hw | hw
    · rcases List.mem_append.mp hw with hw | hw
      · exact hd.latched_of_cause hrow2 hw hcau hep2
      · cases hr with
        | stayed => cases hw
        | moved =>
          rw [List.mem_singleton.mp hw] at hcau
          exact hcau.elim
    · -- The row was created UNCERTAIN; its reason is never `epoch`.
      refine hd.keeps_latched ?_ hep2
      rcases ho.row_self with ⟨-, -, -, rfl⟩ | ⟨state, reason, now, -, hwhy, hrow, rfl⟩
      · cases hw
      rw [List.mem_singleton.mp hw] at hcau
      rcases hr.row_self hrow with ⟨rfl, -⟩ | ⟨-, hne, -⟩
      · rw [hrow.eq hrow2]
        exact ⟨_, hrow, rfl, hcau, .inl hwhy⟩
      · exact absurd rfl hne

end Ledger

/-- The operation presents a first-seen artifact of a foreign epoch that does not move the row,
while no watermark of the row's epoch is stored. -/
def Op.Unanchored (db : Db) (op : Op) : Prop :=
  op.Foreign db ∧ ∀ i ∈ op.installation, ∀ a ∈ db.authority i, ∀ w ∈ db.watermarks,
    w.installationBindingID = i → w.sequencerEpoch ≠ a.sequencerEpoch

/-- The row of the installation is in the epoch after the step. -/
def StaysIn (i E : Bytes16) (_ : Sys) (_ : Event) (s' : Sys) : Prop :=
  ∃ a ∈ s'.db.authority i, a.sequencerEpoch = E

namespace Store

variable {S : Store}

/-- The system in runs whose steps are not `Unanchored`. -/
def anchored (S : Store) : Machine Sys Event := S.system.restrict fun s e _ => ¬ e.op.Unanchored s.db

/-- Where the reason `epoch` is latched, the first watermark of the row's epoch is stored. -/
theorem firstWatermark_of_foreign {s : Sys} (hs : s.db.ledger.Histories) {op : Op} {i : Bytes16}
    {a : AuthorityRow} (hfor : op.Foreign s.db) (hi : op.installation = some i)
    (hno : ¬ op.Unanchored s.db) (hrow : s.db.ledger.Row i a) :
    s.db.ledger.FirstWatermark i a.sequencerEpoch := by
  by_contra hfst
  refine hno ⟨hfor, fun i' hi' a' ha' w hw hwi hwE => hfst ?_⟩
  obtain rfl := Option.mem_unique hi hi'
  obtain rfl := Option.mem_unique (Db.authority_of_row hrow) ha'
  exact hs.firstWatermark hw hwi hwE

theorem latched_of_step {s s' : Sys} {e : Event} {i : Bytes16} {a' : AuthorityRow}
    {w : AuthorityWrite} (h : S.anchored.Reachable s) (hst : S.anchored.step s e s')
    (hw : (i, w) ∈ e.writes) (hcau : w.MakesUncertain) (ha' : s'.db.authority i = some a') :
    s'.db.ledger.Latched i a'.sequencerEpoch := by
  have hs := reachable_histories h.of_restrict
  obtain ⟨hst, hno⟩ := hst
  rcases step_records hst with ⟨-, hnil⟩ | ⟨j, F, ws, htx, hwr, hinst, hfor, -⟩
  · rw [hnil] at hw
    cases hw
  · rw [hwr] at hw
    obtain ⟨v, hv, heq⟩ := List.mem_map.mp hw
    obtain ⟨rfl, rfl⟩ := Prod.mk.inj heq
    exact htx.latched_of_cause hv hcau
      (fun hmem _ hrow => firstWatermark_of_foreign hs (hfor hmem) hinst hno hrow)
      (s'.vault.valid.row ha')

theorem latched_step {s s' : Sys} {e : Event} {i E : Bytes16} (h : S.anchored.Reachable s)
    (hst : S.anchored.step s e s') (hstay : StaysIn i E s e s') (hl : s.db.ledger.Latched i E) :
    s'.db.ledger.Latched i E := by
  have hs := reachable_histories h.of_restrict
  obtain ⟨hst, hno⟩ := hst
  rcases step_records hst with ⟨hled, -⟩ | ⟨j, F, ws, htx, -, hinst, hfor, -⟩
  · rw [hled]
    exact hl
  · obtain ⟨a', ha', hE⟩ := hstay
    refine htx.keeps_latched hl (fun hj hmem => ?_) (s'.vault.valid.row ha') hE
    subst hj
    obtain ⟨a, hrow, rfl, -⟩ := hl
    exact firstWatermark_of_foreign hs (hfor hmem) hinst hno hrow

theorem latched_path {s t : Sys} {i E : Bytes16} (h : S.anchored.Reachable s)
    (hl : s.db.ledger.Latched i E) (hp : (S.anchored.restrict (StaysIn i E)).Path s t) :
    S.anchored.Reachable t ∧ t.db.ledger.Latched i E := by
  induction hp with
  | refl => exact ⟨h, hl⟩
  | tail _ hst ih => exact ⟨.step ih.1 hst.1, latched_step ih.1 hst.1 hst.2 ih.2⟩

/-- In every run without `Unanchored` steps: once a statement other than the reset to a new epoch
made a row UNCERTAIN in epoch `E`, the row is UNCERTAIN in every later state up to which it stayed
in `E`. -/
theorem uncertain_within_epoch {s s₁ s₂ : Sys} {e : Event} {i E : Bytes16} {w : AuthorityWrite}
    {a₁ a₂ : AuthorityRow} (h : S.anchored.Reachable s) (hst : S.anchored.step s e s₁)
    (hw : (i, w) ∈ e.writes) (hcause : w.MakesUncertain) (ha₁ : s₁.db.authority i = some a₁)
    (hE : a₁.sequencerEpoch = E) (hp : (S.anchored.restrict (StaysIn i E)).Path s₁ s₂)
    (ha₂ : s₂.db.authority i = some a₂) : a₂.state = .uncertain := by
  have hl : s₁.db.ledger.Latched i E := hE ▸ latched_of_step h hst hw hcause ha₁
  obtain ⟨-, a, hrow, -, hunc, -⟩ := latched_path (.step h hst) hl hp
  rw [hrow.eq (s₂.vault.valid.row ha₂)]
  exact hunc

end Store

instance (db : Db) : DecidablePred (Op.Foreign db) := fun op =>
  match op with
  | .applyControl .. => inferInstanceAs (Decidable ((∃ a ∈ _, _) ∧ (∀ x ∈ _, _) ∧ _))
  | .applyWatermark .. => inferInstanceAs (Decidable ((∃ a ∈ _, _) ∧ (∀ x ∈ _, _)))
  | .replace .. => inferInstanceAs (Decidable ((∃ a ∈ _, _) ∧ (∀ x ∈ _, _)))
  | .register .. | .keyset .. | .refresh .. | .advancePolicy .. | .beginSweep .. | .finishSweep ..
  | .erase .. | .reapply .. | .requireRetentionSafe .. | .worker .. => .isFalse id

instance (db : Db) : DecidablePred (Op.Unanchored db) := fun _ =>
  inferInstanceAs (Decidable (_ ∧ ∀ i ∈ _, ∀ a ∈ _, ∀ w ∈ _, _ → _))

namespace Store

/-- A row latched for a control gap, after which a CURRENT watermark changes nothing. -/
theorem uncertain_within_epoch_sample :
    ∃ s₁ s₂, Sample.store.anchored.Reachable s₁ ∧
      (Sample.store.anchored.restrict (StaysIn 9 70)).Path s₁ s₂ ∧
      ∃ a ∈ s₂.db.authority 9, a.state = .uncertain := by
  let op : Op := .applyControl clock (control 70 3 3 .upsert)
  obtain ⟨s, hs, hw, hno, s₁, hs1, ⟨a1, ha1, hE⟩, s₂, hs2, a2, ha2, -⟩ :
      ∃ s ∈ store.performIn (fun s op _ => decide (¬ op.Unanchored s.db)) opened .fresh,
        (9, .latched .controlGap) ∈ store.writesOf op s ∧ ¬ op.Unanchored s.db ∧
      ∃ s₁ ∈ store.perform op s, (∃ a ∈ s₁.db.authority 9, a.sequencerEpoch = 70) ∧
      ∃ s₂ ∈ store.performIn (fun s op s' => decide (¬ op.Unanchored s.db) &&
            decide (∃ a ∈ s'.db.authority 9, a.sequencerEpoch = 70))
          [.applyWatermark clock (watermark 70 1 1)] s₁, ∃ a ∈ s₂.db.authority 9, True := by
    decide +kernel
  have hreach : store.anchored.Reachable s := 
    performIn_reachable (fun _ _ _ _ h => of_decide_eq_true h) hs
  have hst : store.anchored.step s ⟨op, store.writesOf op s⟩ s₁ :=
    ⟨perform_step hs1, hno⟩
  have hp : (store.anchored.restrict (StaysIn 9 70)).Path s₁ s₂ := by
    refine (performIn_path (fun _ _ _ _ htest => ?_) hs2).restrict_and
    rw [Bool.and_eq_true, decide_eq_true_eq, decide_eq_true_eq] at htest
    exact htest
  exact ⟨s₁, s₂, .step hreach hst, hp, a2, ha2,
    uncertain_within_epoch hreach hst hw trivial ha1 hE hp ha2⟩

/-- Latched for a control gap, the row is ACTIVE again in the same epoch after a watermark of
another epoch, the first CURRENT watermark of its own and a replacement. -/
theorem latched_row_reopened :
    ∃ s e s₁ s₂, Sample.store.system.Reachable s ∧ Sample.store.system.step s e s₁ ∧
      (9, .latched .controlGap) ∈ e.writes ∧
      (∃ a ∈ s₁.db.authority 9, a.sequencerEpoch = 70 ∧ a.state = .uncertain) ∧
      (Sample.store.system.restrict (StaysIn 9 70)).Path s₁ s₂ ∧
      ∃ a ∈ s₂.db.authority 9, a.sequencerEpoch = 70 ∧ a.state = .active := by
  let op : Op := .applyControl clock (control 70 3 3 .upsert)
  obtain ⟨s, hs, hw, s₁, hs1, ha1, s₂, hs2, ha2⟩ : ∃ s ∈ store.performAll opened .fresh,
        (9, .latched .controlGap) ∈ store.writesOf op s ∧
      ∃ s₁ ∈ store.perform op s,
        (∃ a ∈ s₁.db.authority 9, a.sequencerEpoch = 70 ∧ a.state = .uncertain) ∧
      ∃ s₂ ∈ store.performIn (fun _ _ s' => decide (∃ a ∈ s'.db.authority 9, a.sequencerEpoch = 70))
          [.applyWatermark clock (watermark 71 1 0), .applyWatermark clock (watermark 70 1 1),
            .replace clock random (replacement 70 1 []) keyset] s₁,
        ∃ a ∈ s₂.db.authority 9, a.sequencerEpoch = 70 ∧ a.state = .active := by
    decide +kernel
  have hp : (store.system.restrict (StaysIn 9 70)).Path s₁ s₂ := by
    refine performIn_path (fun _ _ _ _ htest => ?_) hs2
    rw [decide_eq_true_eq] at htest
    exact htest
  exact ⟨s, ⟨op, store.writesOf op s⟩, s₁, s₂, performAll_reachable hs, perform_step hs1, hw,
    ha1, hp, ha2⟩

end Store

end NotificationServer
