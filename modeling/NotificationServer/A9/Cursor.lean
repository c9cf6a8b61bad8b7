import NotificationServer.A9.Simulation
import NotificationServer.Run

/-!
# The contiguous control cursor

Per installation and epoch, the control events marked contiguous carry the
stream sequences 1 to the cursor.  The cursor moves by one event at a time and
starts again at 0 when the row moves to another epoch; an event stored across a
gap is not marked and does not move it.
-/

namespace NotificationServer

open Relational

namespace Ledger

def contiguousEvents (L : Ledger) (i E : Bytes16) : List ControlEventRow :=
  L.controlEvents.filter fun e =>
    e.installationBindingID = i ∧ e.sequencerEpoch = E ∧ e.streamIsContiguous = true

/-- Every event belongs to an installation with a row, and the cursor of a row counts the
contiguous events of its epoch. -/
structure Streams (L : Ledger) : Prop where
  owned : ∀ e ∈ L.controlEvents, ∃ a, L.Row e.installationBindingID a
  counted : ∀ {i a}, L.Row i a → Numbered ControlEventRow.streamSequence
    a.contiguousStreamSequence (L.contiguousEvents i a.sequencerEpoch)

section Events

variable {L L' : Ledger} {i j E F : Bytes16} {ws : List AuthorityWrite}

theorem contiguousEvents_eq_nil
    (h : ∀ e ∈ L.controlEvents, e.installationBindingID = i → e.sequencerEpoch ≠ E) :
    L.contiguousEvents i E = [] := by
  refine List.filter_eq_nil_iff.mpr fun e he => ?_
  have := h e he
  simp only [decide_eq_true_eq, not_and]
  exact fun hi hE => absurd hE (this hi)

theorem contiguousEvents_congr (h : L'.controlEvents = L.controlEvents) :
    L'.contiguousEvents i E = L.contiguousEvents i E := by
  unfold contiguousEvents
  rw [h]

/-- Storing an event that is not in order, or of another stream. -/
theorem contiguousEvents_cons_other {e : ControlEventRow}
    (h : L'.controlEvents = e :: L.controlEvents)
    (he : ¬ (e.installationBindingID = i ∧ e.sequencerEpoch = E ∧ e.streamIsContiguous = true)) :
    L'.contiguousEvents i E = L.contiguousEvents i E := by
  unfold contiguousEvents
  rw [h, List.filter_cons_of_neg (by simpa using he)]

theorem contiguousEvents_cons {e : ControlEventRow} (h : L'.controlEvents = e :: L.controlEvents)
    (hi : e.installationBindingID = i) (hE : e.sequencerEpoch = E)
    (hc : e.streamIsContiguous = true) : L'.contiguousEvents i E = e :: L.contiguousEvents i E := by
  unfold contiguousEvents
  rw [h, List.filter_cons_of_pos (by simp [hi, hE, hc])]

/-- The events a decision stores, against what it does to the cursor. -/
theorem Decided.events (h : Decided i E L ws L') :
    L'.controlEvents = L.controlEvents ∧ (∀ {a a'}, L.Row i a → L'.Row i a' →
        a'.contiguousStreamSequence = a.contiguousStreamSequence ∧
          a'.sequencerEpoch = a.sequencerEpoch) ∨
    ∃ e : ControlEventRow, L'.controlEvents = e :: L.controlEvents ∧
      e.installationBindingID = i ∧ e.sequencerEpoch = E ∧
      ∀ {a a'}, L.Row i a → L'.Row i a' →
        a.sequencerEpoch = E ∧ a'.sequencerEpoch = E ∧
        ((e.streamIsContiguous = true ∧ e.streamSequence = a.contiguousStreamSequence + 1 ∧
            a'.contiguousStreamSequence = a.contiguousStreamSequence + 1) ∨
          (e.streamIsContiguous = false ∧ e.action = .revoke ∧
            a.contiguousStreamSequence + 1 < e.streamSequence ∧
            a'.contiguousStreamSequence = a.contiguousStreamSequence)) := by
  cases h with
  | unchanged =>
    refine .inl ⟨rfl, fun hrow hrow' => ?_⟩
    rw [hrow.eq hrow']
    exact ⟨rfl, rfl⟩
  | latched reason now =>
    refine .inl ⟨rfl, fun hrow hrow' => ?_⟩
    rw [hrow.eq_updated (K := L) hrow' hrow.2.1 rfl rfl]
    exact ⟨rfl, rfl⟩
  | deniedAcrossGap event now hrow0 hE hi hevent hact hgap =>
    refine .inr ⟨event.row false, rfl, hi, hevent, fun hrow hrow' => ?_⟩
    rw [hrow.eq_updated (K := L) hrow' hrow.2.1 rfl rfl, hrow0.eq hrow]
    exact ⟨hE, hE, .inr ⟨rfl, hact, hgap, rfl⟩⟩
  | upsertApplied event ref now hrow0 hE hi hevent hseq =>
    subst hi
    refine .inr ⟨event.row true, rfl, rfl, hevent, fun hrow hrow' => ?_⟩
    rw [hrow.eq_updated (K := L.upserted event ref) hrow' hrow.2.1 rfl rfl, hrow0.eq hrow]
    exact ⟨hE, hE, .inl ⟨rfl, hseq, hseq⟩⟩
  | revokeApplied event now hrow0 hE hi hevent hseq =>
    subst hi
    refine .inr ⟨event.row true, rfl, rfl, hevent, fun hrow hrow' => ?_⟩
    rw [hrow.eq_updated (K := L.revoked event true) hrow' hrow.2.1 rfl rfl, hrow0.eq hrow]
    exact ⟨hE, hE, .inl ⟨rfl, hseq, hseq⟩⟩
  | watermarkStored w now =>
    refine .inl ⟨rfl, fun hrow hrow' => ?_⟩
    rw [hrow.eq_updated (K := { L with watermarks := _ }) hrow'
      ((withWatermark_installation w now _).trans hrow.2.1) rfl rfl]
    unfold AuthorityRow.withWatermark
    cases w.status <;> exact ⟨rfl, rfl⟩
  | replaced routes now =>
    refine .inl ⟨rfl, fun hrow hrow' => ?_⟩
    rw [hrow.eq_updated (K := { L with routes := _ }) hrow' hrow.2.1 rfl rfl]
    exact ⟨rfl, rfl⟩

end Events

section Invariant

variable {L L' : Ledger} {i E : Bytes16} {ws : List AuthorityWrite}

theorem Opened.streams (h : Opened i E L ws L') (hs : L.Streams) : L'.Streams := by
  cases h with
  | found => exact hs
  | created state reason now hnone hwhy =>
    have ho := Opened.created (E := E) state reason now hnone hwhy
    have hoth : ∀ e ∈ L.controlEvents, e.installationBindingID ≠ i := by
      intro e he hei
      obtain ⟨a, hrow⟩ := hs.owned e he
      exact hnone a hrow.1 (hrow.2.1.trans hei)
    constructor
    · intro e he
      obtain ⟨a, hrow⟩ := hs.owned e he
      exact ⟨a, (ho.row_ne (hoth e he)).mpr hrow⟩
    · intro j a hrow
      by_cases hj : j = i
      · subst hj
        rw [← hrow.2.2 _ List.mem_cons_self rfl]
        change Numbered _ 0 (L.contiguousEvents j E)
        rw [contiguousEvents_eq_nil fun e he hi => absurd hi (hoth e he)]
        exact numbered_nil
      · exact hs.counted ((ho.row_ne hj).mp hrow)

theorem Rebased.streams (h : Rebased i E L ws L') (hs : L.Streams) : L'.Streams := by
  cases h with
  | stayed => exact hs
  | moved now hrow0 hne hev hmarks =>
    have hr := Rebased.moved now hrow0 hne hev hmarks
    have hrow1 : (L.reset i E now).Row i (AuthorityRow.reset E now _) :=
      Row.updateAuthority (L := { L with routes := _, bindings := _ }) (f := .reset E now) hrow0
        hrow0.2.1
    constructor
    · intro e he
      obtain ⟨a, hrow⟩ := hs.owned e he
      by_cases hj : e.installationBindingID = i
      · rw [hj]
        exact ⟨_, hrow1⟩
      · exact ⟨a, (hr.row_ne hj).mpr hrow⟩
    · intro j a hrow
      by_cases hj : j = i
      · subst hj
        rw [hrow1.eq hrow]
        change Numbered _ 0 (L.contiguousEvents j E)
        rw [contiguousEvents_eq_nil hev]
        exact numbered_nil
      · exact hs.counted ((hr.row_ne hj).mp hrow)

theorem Decided.streams {a : AuthorityRow} (h : Decided i E L ws L') (hrow0 : L.Row i a)
    (hs : L.Streams) : L'.Streams := by
  obtain ⟨a', hrow1, -⟩ := h.row_self hrow0
  have howned : ∀ j, (∃ b, L.Row j b) → ∃ b, L'.Row j b := by
    rintro j ⟨b, hrow⟩
    by_cases hj : j = i
    · exact ⟨a', hj ▸ hrow1⟩
    · exact ⟨b, (h.row_ne hj).mpr hrow⟩
  rcases h.events with ⟨heq, hsame⟩ | ⟨e, heq, hi, hE, hrows⟩
  · constructor
    · intro e he
      exact howned _ (hs.owned e (heq ▸ he))
    · intro j b hrow
      rw [contiguousEvents_congr heq]
      by_cases hj : j = i
      · subst hj
        rw [hrow1.eq hrow, (hsame hrow0 hrow1).1, (hsame hrow0 hrow1).2]
        exact hs.counted hrow0
      · exact hs.counted ((h.row_ne hj).mp hrow)
  · obtain ⟨haE, ha'E, hcase⟩ := hrows hrow0 hrow1
    constructor
    · intro e' he'
      rw [heq] at he'
      rcases List.mem_cons.mp he' with rfl | he'
      · exact ⟨a', hi ▸ hrow1⟩
      · exact howned _ (hs.owned e' he')
    · intro j b hrow
      by_cases hj : j = i
      · subst hj
        have hcount := hs.counted hrow0
        rw [hrow1.eq hrow, ha'E]
        rw [haE] at hcount
        rcases hcase with ⟨hc, hseq, hcursor⟩ | ⟨hc, -, -, hcursor⟩
        · rw [contiguousEvents_cons heq hi hE hc, hcursor]
          exact hcount.cons hseq
        · rw [contiguousEvents_cons_other heq (by simp [hc]), hcursor]
          exact hcount
      · rw [contiguousEvents_cons_other heq fun he => hj (he.1.symm.trans hi)]
        exact hs.counted ((h.row_ne hj).mp hrow)

theorem Transaction.streams (hs : L.Streams) (h : Transaction i E L ws L') : L'.Streams := by
  cases h with
  | mk ho hr hd =>
    obtain ⟨a, hrow⟩ := hr.exists_row ho
    exact hd.streams hrow (hr.streams (ho.streams hs))

end Invariant

end Ledger

/-- How one transaction may move a cursor: by one within an epoch, or to the start of another. -/
def AuthorityRow.CursorStep (a a' : AuthorityRow) : Prop :=
  (a'.sequencerEpoch = a.sequencerEpoch ∧
    (a'.contiguousStreamSequence = a.contiguousStreamSequence ∨
      a'.contiguousStreamSequence = a.contiguousStreamSequence + 1)) ∨
  (a'.sequencerEpoch ≠ a.sequencerEpoch ∧
    (a'.contiguousStreamSequence = 0 ∨ a'.contiguousStreamSequence = 1))

namespace Ledger

variable {L L' : Ledger} {i j E : Bytes16} {a a' : AuthorityRow} {ws : List AuthorityWrite}

theorem RowDecided.cursor (h : RowDecided E a ws a') :
    a'.sequencerEpoch = a.sequencerEpoch ∧
      (a'.contiguousStreamSequence = a.contiguousStreamSequence ∨
        a'.contiguousStreamSequence = a.contiguousStreamSequence + 1) := by
  cases h with
  | unchanged | latched => exact ⟨rfl, .inl rfl⟩
  | advanced => exact ⟨rfl, .inr rfl⟩
  | watermarked w =>
    unfold AuthorityRow.withWatermark
    cases w.status <;> exact ⟨rfl, .inl rfl⟩
  | replaced => exact ⟨rfl, .inl rfl⟩

theorem RowDecided.epoch (h : RowDecided E a ws a') : a'.sequencerEpoch = a.sequencerEpoch :=
  h.cursor.1

theorem Transaction.cursor (h : Transaction i E L ws L') (hrow : L.Row j a) :
    ∃ a', L'.Row j a' ∧ a.CursorStep a' := by
  by_cases hj : j = i
  · subst hj
    obtain ⟨a0, a', opened, decided, hrow', ⟨hrow0, -⟩ | ⟨_, _, _, hnone, -⟩, hcase⟩ := h.row_self
    · rw [hrow.eq hrow0] at hcase
      refine ⟨a', hrow', ?_⟩
      rcases hcase with ⟨-, hd⟩ | ⟨hne, -, now, hd⟩
      · exact .inl hd.cursor
      · obtain ⟨hE, hc⟩ := hd.cursor
        refine .inr ⟨?_, hc⟩
        rw [hE]
        exact hne.symm
    · exact absurd hrow.2.1 (hnone a hrow.1)
  · exact ⟨a, (h.row_ne hj).mpr hrow, .inl ⟨rfl, .inl rfl⟩⟩

/-- An event stored across a gap is a REVOKE and leaves the cursor where it was. -/
theorem Transaction.gap (h : Transaction i E L ws L') {e : ControlEventRow}
    (he : e ∈ L'.controlEvents) (hnew : e ∉ L.controlEvents) (hgap : e.streamIsContiguous = false)
    (hrow : L.Row e.installationBindingID a) (hrow' : L'.Row e.installationBindingID a') :
    e.action = .revoke ∧ a.contiguousStreamSequence + 1 < e.streamSequence ∧
      a'.contiguousStreamSequence = a.contiguousStreamSequence := by
  cases h with
  | @mk L1 L2 _ opened rebased decided ho hr hd hfst =>
    have hev : L2.controlEvents = L.controlEvents := by
      cases hr <;> cases ho <;> rfl
    rcases hd.events with ⟨heq, -⟩ | ⟨e', heq, hi, hE, hrows⟩
    · exact absurd (hev ▸ heq ▸ he) hnew
    obtain rfl : e = e' := by
      rw [heq] at he
      exact (List.mem_cons.mp he).resolve_right (hev ▸ hnew)
    subst hi
    have ho' : L1 = L := by
      rcases ho.row_self with ⟨-, -, rfl, -⟩ | ⟨_, _, _, hnone, -⟩
      · rfl
      · exact absurd hrow.2.1 (hnone a hrow.1)
    subst ho'
    rcases hr.row_self hrow with ⟨rfl, -⟩ | ⟨⟨now, hrow2⟩, -, hreset⟩
    · obtain ⟨-, -, ⟨hc, -⟩ | ⟨-, hact, hlt, hsame⟩⟩ := hrows hrow hrow'
      · cases hgap.symm.trans hc
      · exact ⟨hact, hlt, hsame⟩
    · -- A move of the row was made for the first event of a stream, which is never across a gap.
      obtain ⟨-, -, ⟨hc, -⟩ | ⟨-, -, hlt, -⟩⟩ := hrows hrow2 hrow'
      · cases hgap.symm.trans hc
      · have hone := (hfst (by rw [hreset]; simp) e he).resolve_left (hev ▸ hnew)
        omega

end Ledger

namespace Store

variable {S : Store}

theorem reachable_streams {s : Sys} (h : S.system.Reachable s) : s.db.ledger.Streams := by
  refine reachable_ledger ⟨by simp [Db.empty, Db.ledger], ?_⟩ Ledger.Transaction.streams h
  rintro i a ⟨hmem, -⟩
  exact absurd hmem (by simp [Db.empty, Db.ledger])

/-- In every reachable state the contiguous events of a row's epoch are numbered 1 to its cursor;
every step moves the cursor by at most one event or to the start of another epoch; and an event
accepted across a gap does not move it. -/
theorem contiguous_cursor {s : Sys} (h : S.system.Reachable s) :
    (∀ i a, s.db.authority i = some a → Numbered ControlEventRow.streamSequence
      a.contiguousStreamSequence (s.db.ledger.contiguousEvents i a.sequencerEpoch)) ∧
    ∀ e s', S.system.step s e s' →
      (∀ i a, s.db.authority i = some a → ∃ a', s'.db.authority i = some a' ∧ a.CursorStep a') ∧
      ∀ ev ∈ s'.db.controlEvents, ev ∉ s.db.controlEvents → ev.streamIsContiguous = false →
        ∀ a a', s.db.authority ev.installationBindingID = some a →
          s'.db.authority ev.installationBindingID = some a' →
          ev.action = .revoke ∧ a.contiguousStreamSequence + 1 < ev.streamSequence ∧
            a'.contiguousStreamSequence = a.contiguousStreamSequence := by
  have hs := reachable_streams h
  refine ⟨fun i a ha => hs.counted (s.vault.valid.row ha), fun e s' hst => ?_⟩
  rcases step_records hst with ⟨hl, -⟩ | ⟨i, E, ws, htx, -⟩
  · refine ⟨fun i a ha => ?_, fun ev hev hnew => ?_⟩
    · have hrow := s.vault.valid.row ha
      exact ⟨a, Db.authority_of_row (hrow.congr (congrArg Ledger.authorities hl)),
        .inl ⟨rfl, .inl rfl⟩⟩
    · have hsame : s'.db.controlEvents = s.db.controlEvents := congrArg Ledger.controlEvents hl
      exact absurd (hsame ▸ hev) hnew
  · refine ⟨fun i a ha => ?_, fun ev hev hnew hgap a a' ha ha' => ?_⟩
    · obtain ⟨a', hrow', hstep⟩ := htx.cursor (s.vault.valid.row ha)
      exact ⟨a', Db.authority_of_row hrow', hstep⟩
    · exact htx.gap hev hnew hgap (s.vault.valid.row ha) (s'.vault.valid.row ha')

/-- One event applied in order, then a REVOKE accepted across a gap. -/
theorem contiguous_cursor_sample :
    ∃ s, Sample.store.system.Reachable s ∧ s.db.controlEvents.length = 2 ∧
      ∃ a, s.db.authority 9 = some a ∧ a.contiguousStreamSequence = 1 ∧
        Numbered ControlEventRow.streamSequence 1
          (s.db.ledger.contiguousEvents 9 a.sequencerEpoch) := by
  obtain ⟨s, hs, hlen, a, ha, hc⟩ := exists_reachable (S := Sample.store)
    (Sample.opened ++ [.applyControl Sample.clock (Sample.control 70 3 2 .revoke)])
    (P := fun s => s.db.controlEvents.length = 2 ∧
      ∃ a ∈ s.db.authority 9, a.contiguousStreamSequence = 1) (by decide +kernel)
  refine ⟨s, hs, hlen, a, ha, hc, ?_⟩
  have := (contiguous_cursor hs).1 9 a ha
  rwa [hc] at this

end Store

end NotificationServer
