import NotificationServer.A9.Simulation
import NotificationServer.Run

/-!
# The watermark history

Accepted watermarks are never deleted, while a latch clears the watermark of
the authority row and so makes the code expect sequence 1 again.  The primary
key of the history then rejects it, which is why the history of an epoch has no
repetitions and the row's watermark is always the latest accepted one.
-/

namespace NotificationServer

open Relational

def WatermarkRow.sequence (w : WatermarkRow) : Nat := w.columns.watermarkSequence

namespace Ledger

/-- The accepted watermarks of one installation and epoch. -/
def watermarksOf (L : Ledger) (i E : Bytes16) : List WatermarkRow :=
  L.watermarks.filter fun w => w.installationBindingID = i ∧ w.sequencerEpoch = E

/-- Every history is numbered from 1, and a row's watermark is the latest of its epoch. -/
structure Histories (L : Ledger) : Prop where
  numbered : ∀ i E, ∃ m, Numbered WatermarkRow.sequence m (L.watermarksOf i E)
  latest : ∀ {i a}, L.Row i a → ∀ w ∈ a.watermark,
    Numbered WatermarkRow.sequence w.watermarkSequence (L.watermarksOf i a.sequencerEpoch)

variable {L L' : Ledger} {i j E F : Bytes16} {ws : List AuthorityWrite}

theorem watermarksOf_congr (h : L'.watermarks = L.watermarks) :
    L'.watermarksOf i E = L.watermarksOf i E := by
  unfold watermarksOf
  rw [h]

theorem watermarksOf_cons {w : WatermarkRow} (h : L'.watermarks = w :: L.watermarks)
    (hi : w.installationBindingID = i) (hE : w.sequencerEpoch = E) :
    L'.watermarksOf i E = w :: L.watermarksOf i E := by
  unfold watermarksOf
  rw [h, List.filter_cons_of_pos (by simp [hi, hE])]

theorem watermarksOf_cons_other {w : WatermarkRow} (h : L'.watermarks = w :: L.watermarks)
    (hw : ¬ (w.installationBindingID = i ∧ w.sequencerEpoch = E)) :
    L'.watermarksOf i E = L.watermarksOf i E := by
  unfold watermarksOf
  rw [h, List.filter_cons_of_neg (by simpa using hw)]

/-- A history kept as it is, and rows whose watermarks were those rows' before. -/
theorem Histories.of_same (hs : L.Histories) (heq : L'.watermarks = L.watermarks)
    (hrows : ∀ {j a'}, L'.Row j a' → ∀ w ∈ a'.watermark,
      ∃ a, L.Row j a ∧ w ∈ a.watermark ∧ a.sequencerEpoch = a'.sequencerEpoch) :
    L'.Histories := by
  constructor
  · intro j F
    rw [watermarksOf_congr heq]
    exact hs.numbered j F
  · intro j a' hrow' w hw
    obtain ⟨a, hrow, hwa, hE⟩ := hrows hrow' w hw
    rw [watermarksOf_congr heq, ← hE]
    exact hs.latest hrow w hwa

theorem Opened.histories (h : Opened i E L ws L') (hs : L.Histories) : L'.Histories := by
  cases h with
  | found => exact hs
  | created state reason now hnone hwhy =>
    have ho := Opened.created (E := E) state reason now hnone hwhy
    refine hs.of_same rfl fun {j a'} hrow' w hw => ?_
    by_cases hj : j = i
    · subst hj
      rw [← hrow'.2.2 _ List.mem_cons_self rfl] at hw
      exact absurd hw (by simp [AuthorityRow.created])
    · exact ⟨a', (ho.row_ne hj).mp hrow', hw, rfl⟩

theorem Rebased.histories (h : Rebased i E L ws L') (hs : L.Histories) : L'.Histories := by
  cases h with
  | stayed => exact hs
  | moved now hrow0 hne hev hmarks =>
    have hr := Rebased.moved now hrow0 hne hev hmarks
    refine hs.of_same rfl fun {j a'} hrow' w hw => ?_
    by_cases hj : j = i
    · subst hj
      rw [hrow0.eq_updated (K := { L with routes := _, bindings := _ }) (f := .reset E now) hrow'
        hrow0.2.1 rfl rfl] at hw
      exact absurd hw (by simp [AuthorityRow.reset])
    · exact ⟨a', (hr.row_ne hj).mp hrow', hw, rfl⟩

/-- The watermark a decision stores, if any, and the watermark it leaves in the row. -/
theorem Decided.watermarks (h : Decided i E L ws L') :
    L'.watermarks = L.watermarks ∧ (∀ {a a'}, L.Row i a → L'.Row i a' → ∀ w ∈ a'.watermark,
        w ∈ a.watermark ∧ a.sequencerEpoch = a'.sequencerEpoch) ∨
    ∃ w : WatermarkRow, L'.watermarks = w :: L.watermarks ∧
      w.installationBindingID = i ∧ w.sequencerEpoch = E ∧ (∀ w' ∈ L.watermarks, w'.key ≠ w.key) ∧
      ∀ {a a'}, L.Row i a → L'.Row i a' →
        a.sequencerEpoch = E ∧ a'.sequencerEpoch = E ∧ a'.watermark = some w.columns ∧
        w.sequence = a.currentWatermarkSequence + 1 := by
  cases h with
  | unchanged =>
    refine .inl ⟨rfl, fun hrow hrow' w hw => ?_⟩
    rw [hrow.eq hrow'] at hw ⊢
    exact ⟨hw, rfl⟩
  | latched reason now =>
    refine .inl ⟨rfl, fun hrow hrow' w hw => ?_⟩
    rw [hrow.eq_updated (K := L) hrow' hrow.2.1 rfl rfl] at hw
    exact absurd hw (by simp [AuthorityRow.latched])
  | deniedAcrossGap event now =>
    refine .inl ⟨rfl, fun hrow hrow' w hw => ?_⟩
    rw [hrow.eq_updated (K := L) (f := .latched .controlGap now) hrow' hrow.2.1 rfl rfl] at hw
    exact absurd hw (by simp [AuthorityRow.latched])
  | upsertApplied event ref now _ _ hi =>
    subst hi
    refine .inl ⟨rfl, fun hrow hrow' w hw => ?_⟩
    rw [hrow.eq_updated (K := L.upserted event ref) hrow' hrow.2.1 rfl rfl] at hw ⊢
    exact ⟨hw, rfl⟩
  | revokeApplied event now _ _ hi =>
    subst hi
    refine .inl ⟨rfl, fun hrow hrow' w hw => ?_⟩
    rw [hrow.eq_updated (K := L.revoked event true) hrow' hrow.2.1 rfl rfl] at hw ⊢
    exact ⟨hw, rfl⟩
  | watermarkStored w now hrow0 hE hi hwE hnext hfr =>
    refine .inr ⟨w.row, rfl, hi, hwE, hfr, fun hrow hrow' => ?_⟩
    rw [hrow0.eq hrow, hrow0.eq_updated (K := { L with watermarks := _ }) hrow'
      ((withWatermark_installation w now _).trans hrow0.2.1) rfl rfl]
    refine ⟨hE, ?_, ?_, hnext⟩
    · unfold AuthorityRow.withWatermark
      cases w.status <;> exact hE
    · unfold AuthorityRow.withWatermark
      cases w.status <;> rfl
  | replaced routes now =>
    refine .inl ⟨rfl, fun hrow hrow' w hw => ?_⟩
    rw [hrow.eq_updated (K := { L with routes := _ }) hrow' hrow.2.1 rfl rfl] at hw ⊢
    exact ⟨hw, rfl⟩

/-- The sequence the code expects is the next of the history, whether or not a latch cleared the
row's watermark: the history rejects a second watermark 1. -/
theorem Histories.next {a : AuthorityRow} {w : WatermarkRow} (hs : L.Histories) (hrow : L.Row i a)
    (hE : a.sequencerEpoch = E) (hi : w.installationBindingID = i) (hwE : w.sequencerEpoch = E)
    (hfr : ∀ w' ∈ L.watermarks, w'.key ≠ w.key)
    (hnext : w.sequence = a.currentWatermarkSequence + 1) :
    ∃ m, Numbered WatermarkRow.sequence m (L.watermarksOf i E) ∧ w.sequence = m + 1 := by
  cases hw : a.watermark with
  | some v =>
    refine ⟨v.watermarkSequence, hE ▸ hs.latest hrow v hw, ?_⟩
    rw [hnext, AuthorityRow.currentWatermarkSequence, hw]
    rfl
  | none =>
    have hone : w.sequence = 1 := by
      rw [hnext, AuthorityRow.currentWatermarkSequence, hw]
      rfl
    obtain ⟨m, hm⟩ := hs.numbered i E
    cases m with
    | zero => exact ⟨0, hm, hone⟩
    | succ m =>
      obtain ⟨v, hv, hvone⟩ := hm.mem_iff.mpr ⟨Nat.le_refl 1, by omega⟩
      obtain ⟨hvmem, hvkey⟩ := List.mem_filter.mp hv
      obtain ⟨hvi, hvE⟩ := of_decide_eq_true hvkey
      have hkey : v.key = w.key := by
        have hseq : v.columns.watermarkSequence = w.columns.watermarkSequence :=
          hvone.trans hone.symm
        simp only [WatermarkRow.key, hvi, hvE, hi, hwE, hseq]
      exact absurd hkey (hfr v hvmem)

theorem Decided.histories {a : AuthorityRow} (h : Decided i E L ws L') (hrow0 : L.Row i a)
    (hs : L.Histories) : L'.Histories := by
  obtain ⟨a', hrow1, -⟩ := h.row_self hrow0
  rcases h.watermarks with ⟨heq, hrows⟩ | ⟨w, heq, hi, hE, hfr, hrows⟩
  · refine hs.of_same heq fun {j b} hrow w hw => ?_
    by_cases hj : j = i
    · subst hj
      exact ⟨a, hrow0, hrows hrow0 hrow w hw⟩
    · exact ⟨b, (h.row_ne hj).mp hrow, hw, rfl⟩
  · obtain ⟨haE, ha'E, hw', hnext⟩ := hrows hrow0 hrow1
    obtain ⟨m, hm, hseq⟩ := hs.next hrow0 haE hi hE hfr hnext
    have hnew : Numbered WatermarkRow.sequence (m + 1) (L'.watermarksOf i E) := by
      rw [watermarksOf_cons heq hi hE]
      exact hm.cons hseq
    constructor
    · intro j F
      by_cases hj : j = i ∧ F = E
      · obtain ⟨rfl, rfl⟩ := hj
        exact ⟨_, hnew⟩
      · rw [watermarksOf_cons_other heq fun hw => hj ⟨hw.1.symm.trans hi, hw.2.symm.trans hE⟩]
        exact hs.numbered j F
    · intro j b hrow v hv
      by_cases hj : j = i
      · subst hj
        rw [hrow1.eq hrow, hw'] at hv
        cases hv
        rw [hrow1.eq hrow, ha'E]
        change Numbered _ w.sequence _
        rw [hseq]
        exact hnew
      · rw [watermarksOf_cons_other heq fun hw => hj (hw.1.symm.trans hi)]
        exact hs.latest ((h.row_ne hj).mp hrow) v hv

theorem Transaction.histories (hs : L.Histories) (h : Transaction i E L ws L') : L'.Histories := by
  cases h with
  | mk ho hr hd =>
    obtain ⟨a, hrow⟩ := hr.exists_row ho
    exact hd.histories hrow (hr.histories (ho.histories hs))

end Ledger

namespace Store

variable {S : Store}

theorem reachable_histories {s : Sys} (h : S.system.Reachable s) : s.db.ledger.Histories := by
  refine reachable_ledger ⟨fun i E => ⟨0, numbered_nil⟩, ?_⟩ Ledger.Transaction.histories h
  rintro i a ⟨hmem, -⟩
  exact absurd hmem (by simp [Db.empty, Db.ledger])

/-- In every reachable state the accepted watermarks of an installation and epoch are numbered 1
to `m`, with one signed hash each; a watermark in the row is the `m`-th, and a CURRENT one covers no
more than the contiguous cursor. -/
theorem accepted_watermarks {s : Sys} (h : S.system.Reachable s) (i E : Bytes16) :
    ∃ m, Numbered WatermarkRow.sequence m (s.db.ledger.watermarksOf i E) ∧
      Unique (fun w => w.columns.signedHash) (s.db.ledger.watermarksOf i E) ∧
      ∀ a w, s.db.authority i = some a → a.sequencerEpoch = E → a.watermark = some w →
        w.watermarkSequence = m ∧ ⟨i, E, w⟩ ∈ s.db.watermarks ∧
        (w.status = .current → w.committedThrough ≤ a.contiguousStreamSequence) := by
  have hs := reachable_histories h
  obtain ⟨m, hm⟩ := hs.numbered i E
  have hhash : Unique (fun w => w.columns.signedHash) (s.db.ledger.watermarksOf i E) :=
    List.Nodup.sublist (List.Sublist.map _ List.filter_sublist) s.vault.valid.watermarks.hash_key
  refine ⟨m, hm, hhash, fun a w ha hE hw => ?_⟩
  have hrow := s.vault.valid.row ha
  have hseq : w.watermarkSequence = m := by
    have hlat := hs.latest hrow w hw
    rw [hE] at hlat
    exact hlat.length_eq.symm.trans hm.length_eq
  refine ⟨hseq, ?_, s.vault.valid.authorities.watermark_covered a hrow.1 w hw⟩
  -- The composite foreign key from the row's watermark columns to the history.
  have hkey : AuthorityRow.watermarkKey a = some (i, E, w) := by
    simp only [AuthorityRow.watermarkKey, hw, Option.map_some, hrow.2.1, hE]
  obtain ⟨v, hv, hfull⟩ :=
    List.mem_map.mp (s.vault.valid.authorities.current_watermark a hrow.1 _ hkey)
  obtain ⟨vi, vE, vc⟩ := v
  simp only [WatermarkRow.fullKey, Prod.mk.injEq] at hfull
  obtain ⟨rfl, rfl, rfl⟩ := hfull
  exact hv

/-- Two accepted watermarks, the second of which the row holds. -/
theorem accepted_watermarks_sample :
    ∃ s, Sample.store.system.Reachable s ∧ ∃ a w, s.db.authority 9 = some a ∧
      a.watermark = some w ∧ w.watermarkSequence = 2 ∧
      Numbered WatermarkRow.sequence 2 (s.db.ledger.watermarksOf 9 a.sequencerEpoch) := by
  obtain ⟨s, hs, a, ha, w, hw, hseq⟩ := exists_reachable (S := Sample.store)
    (Sample.opened ++ [.applyWatermark Sample.clock (Sample.watermark 70 1 0),
      .applyWatermark Sample.clock (Sample.watermark 70 2 1)])
    (P := fun s => ∃ a ∈ s.db.authority 9, ∃ w ∈ a.watermark, w.watermarkSequence = 2)
    (by decide +kernel)
  refine ⟨s, hs, a, w, ha, hw, hseq, ?_⟩
  obtain ⟨m, hm, -, hrow⟩ := accepted_watermarks hs 9 a.sequencerEpoch
  rwa [← (hrow a w ha rfl hw).1, hseq] at hm

end Store

end NotificationServer
