import NotificationServer.A9.Control
import NotificationServer.A9.Watermark

/-!
# The authority ledger

What the A9 tables are for, without the transactions that keep them: per
installation a current epoch with a cursor over its control stream, the accepted
watermarks of every epoch, the bindings with their denials, and a state that is
either open or latched.  `Transaction` lists everything one operation may do to
the ledger; that the code's operations do nothing else is proved in
`A9.Simulation`, and every invariant of the ledger is proved once, here or in
the modules that import it, against this list.
-/

namespace NotificationServer

open Relational

structure Ledger where
  authorities : List AuthorityRow
  watermarks : List WatermarkRow
  controlEvents : List ControlEventRow
  bindings : List BindingRow
  tombstones : List BindingTombstoneRow
  routes : List RouteRow

def Db.ledger (db : Db) : Ledger :=
  { authorities := db.authorities, watermarks := db.watermarks
    controlEvents := db.controlEvents, bindings := db.bindings, tombstones := db.tombstones
    routes := db.routes }

namespace Ledger

def updateAuthority (i : Bytes16) (f : AuthorityRow → AuthorityRow) (L : Ledger) : Ledger :=
  { L with
    authorities := updateWhere (fun a => a.installationBindingID = i) f L.authorities }

/-- The installation's row is stored and is `a`. -/
def Row (L : Ledger) (i : Bytes16) (a : AuthorityRow) : Prop :=
  a ∈ L.authorities ∧ a.installationBindingID = i ∧
    ∀ a' ∈ L.authorities, a'.installationBindingID = i → a' = a

/-- An UPSERT: the event, and its assertion as the binding's active one. -/
def upserted (event : VerifiedControl) (ref : AssertionReference) (L : Ledger) : Ledger :=
  { L with
    controlEvents := event.row true :: L.controlEvents
    bindings := upsert BindingRow.key (fun _ new => new) (event.binding (.active ref)) L.bindings }

/-- A REVOKE: the event, its tombstone, no route, and a revoked binding. -/
def revoked (event : VerifiedControl) (contiguous : Bool) (L : Ledger) : Ledger :=
  { L with
    controlEvents := event.row contiguous :: L.controlEvents
    tombstones := event.tombstone :: L.tombstones
    routes := deleteWhere (Db.RouteOf event.installationBindingID (some event.bindingID)) L.routes
    bindings := upsert BindingRow.key (fun _ new => new) (event.binding .revoked) L.bindings }

/-- A move to a new epoch: no route and no binding of the installation is left. -/
def reset (i E : Bytes16) (now : Time) (L : Ledger) : Ledger :=
  { L with
    routes := deleteWhere (Db.RouteOf i none) L.routes
    bindings := deleteWhere (fun b => b.installationBindingID = i) L.bindings }.updateAuthority i
      (.reset E now)

/-- The cursor moves to the sequence of an applied event. -/
def advance (event : VerifiedControl) (now : Time) (L : Ledger) : Ledger :=
  L.updateAuthority event.installationBindingID fun a =>
    { a with contiguousStreamSequence := event.streamSequence, updatedAt := now }

def activate (i : Bytes16) (generation : Nat) (now : Time) (L : Ledger) : Ledger :=
  L.updateAuthority i fun a =>
    { a with
      subscriptionGeneration := generation, state := .active, uncertaintyReason := .none
      updatedAt := now }

/-- The row of the installation is created if there is none. -/
inductive Opened (i E : Bytes16) (L : Ledger) : List AuthorityWrite → Ledger → Prop
  | found {a : AuthorityRow} : L.Row i a → Opened i E L [] L
  | created (state : AuthorityState) (reason : UncertaintyReason) (now : Time) :
      (∀ a ∈ L.authorities, a.installationBindingID ≠ i) → reason ≠ .epoch →
      Opened i E L [.created state reason]
        { L with authorities := .created i E state reason now :: L.authorities }

/-- A row of another epoch is moved to an epoch nothing was stored under. -/
inductive Rebased (i E : Bytes16) (L : Ledger) : List AuthorityWrite → Ledger → Prop
  | stayed : Rebased i E L [] L
  | moved {a : AuthorityRow} (now : Time) :
      L.Row i a → a.sequencerEpoch ≠ E →
      (∀ e ∈ L.controlEvents, e.installationBindingID = i → e.sequencerEpoch ≠ E) →
      (∀ w ∈ L.watermarks, w.installationBindingID = i → w.sequencerEpoch ≠ E) →
      Rebased i E L [.reset E] (L.reset i E now)

/-- What an operation does to the row it found, and the tables that belong to it. -/
inductive Decided (i E : Bytes16) (L : Ledger) : List AuthorityWrite → Ledger → Prop
  | unchanged : Decided i E L [] L
  | latched {a : AuthorityRow} (reason : UncertaintyReason) (now : Time) :
      L.Row i a → reason ≠ .none → (reason = .epoch → a.sequencerEpoch ≠ E) →
      Decided i E L [.latched reason] (L.updateAuthority i (.latched reason now))
  | deniedAcrossGap {a : AuthorityRow} (event : VerifiedControl) (now : Time) :
      L.Row i a → a.sequencerEpoch = E → event.installationBindingID = i →
      event.sequencerEpoch = E → event.action = .revoke →
      a.contiguousStreamSequence + 1 < event.streamSequence →
      Decided i E L [.latched .controlGap]
        ((L.updateAuthority i (.latched .controlGap now)).revoked event false)
  | upsertApplied {a : AuthorityRow} (event : VerifiedControl) (ref : AssertionReference)
      (now : Time) :
      L.Row i a → a.sequencerEpoch = E → event.installationBindingID = i →
      event.sequencerEpoch = E → event.streamSequence = a.contiguousStreamSequence + 1 →
      (∀ t ∈ L.tombstones, t.installationBindingID = i → t.bindingID = event.bindingID →
        t.bindingVersion < event.bindingVersion) →
      Decided i E L [.cursorAdvanced] ((L.upserted event ref).advance event now)
  | revokeApplied {a : AuthorityRow} (event : VerifiedControl) (now : Time) :
      L.Row i a → a.sequencerEpoch = E → event.installationBindingID = i →
      event.sequencerEpoch = E → event.streamSequence = a.contiguousStreamSequence + 1 →
      Decided i E L [.cursorAdvanced] ((L.revoked event true).advance event now)
  | watermarkStored {a : AuthorityRow} (w : VerifiedWatermark) (now : Time) :
      L.Row i a → a.sequencerEpoch = E → w.installationBindingID = i → w.sequencerEpoch = E →
      w.watermarkSequence = a.currentWatermarkSequence + 1 →
      (∀ w' ∈ L.watermarks, w'.key ≠ w.row.key) →
      (w.status = .current → a.state = .uncertain → a.uncertaintyReason = .epoch) →
      Decided i E L [.watermarkStored w.status]
        ({ L with watermarks := w.row :: L.watermarks }.updateAuthority i (.withWatermark w now))
  | replaced {a : AuthorityRow} {w : WatermarkColumns} (routes : List RouteRow) (now : Time) :
      L.Row i a → a.sequencerEpoch = E →
      (a.state = .uncertain → a.uncertaintyReason = .epoch) →
      a.watermark = some w → w.status = .current →
      (∀ r ∈ routes, Db.RouteOf i none r ∧ r.columns.sequencerEpoch = E ∧
        r.columns.subscriptionGeneration = a.subscriptionGeneration + 1) →
      Decided i E L [.replaced]
        ({ L with routes := routes ++ deleteWhere (Db.RouteOf i none) L.routes }.activate i
          (a.subscriptionGeneration + 1) now)

/-- Everything one operation on an artifact of installation `i` and epoch `E` may do; the list
holds the statements on the installation's row, the latest first.  Only the first event of a
stream moves a row to its epoch. -/
inductive Transaction (i E : Bytes16) (L : Ledger) : List AuthorityWrite → Ledger → Prop
  | mk {L₁ L₂ L' : Ledger} {opened rebased decided : List AuthorityWrite} :
      Opened i E L opened L₁ → Rebased i E L₁ rebased L₂ → Decided i E L₂ decided L' →
      (rebased ≠ [] → ∀ e ∈ L'.controlEvents, e ∈ L₂.controlEvents ∨ e.streamSequence = 1) →
      Transaction i E L (decided ++ rebased ++ opened) L'

section Rows

variable {L L' : Ledger} {i j : Bytes16} {a : AuthorityRow} {f : AuthorityRow → AuthorityRow}

/-- Updates that agree on an installation's only row agree. -/
theorem Row.updateAuthority_congr (h : L.Row i a) {g : AuthorityRow → AuthorityRow}
    (hfg : f a = g a) : L.updateAuthority i f = L.updateAuthority i g := by
  unfold Ledger.updateAuthority updateWhere
  congr 1
  refine List.map_congr_left fun a' ha' => ?_
  by_cases hi : a'.installationBindingID = i
  · rw [h.2.2 a' ha' hi, if_pos h.2.1, if_pos h.2.1, hfg]
  · rw [if_neg hi, if_neg hi]

/-- The row of an installation after an update that keeps its key. -/
theorem Row.updateAuthority (h : L.Row i a) (hf : (f a).installationBindingID = i) :
    (L.updateAuthority i f).Row i (f a) := by
  refine ⟨mem_updateWhere.mpr (.inl ⟨a, h.1, h.2.1, rfl⟩), hf, fun a' ha' hi' => ?_⟩
  rcases mem_updateWhere.mp ha' with ⟨b, hb, hbi, rfl⟩ | ⟨-, hne⟩
  · rw [h.2.2 b hb hbi]
  · exact absurd hi' hne

theorem row_updateAuthority_ne (hne : j ≠ i)
    (hf : ∀ b, (f b).installationBindingID = b.installationBindingID) :
    (L.updateAuthority i f).Row j a ↔ L.Row j a := by
  have hmem : ∀ b, b.installationBindingID = j →
      (b ∈ (L.updateAuthority i f).authorities ↔ b ∈ L.authorities) := by
    intro b hb
    refine mem_updateWhere.trans ⟨?_, fun h => .inr ⟨h, fun hi => hne (hb.symm.trans hi)⟩⟩
    rintro (⟨c, -, hc, rfl⟩ | ⟨h, -⟩)
    · exact absurd (hb.symm.trans ((hf c).trans hc)) hne
    · exact h
  constructor
  · rintro ⟨ha, hj, honly⟩
    exact ⟨(hmem a hj).mp ha, hj, fun b hb hbj => honly b ((hmem b hbj).mpr hb) hbj⟩
  · rintro ⟨ha, hj, honly⟩
    exact ⟨(hmem a hj).mpr ha, hj, fun b hb hbj => honly b ((hmem b hbj).mp hb) hbj⟩

theorem Row.congr {M : Ledger} (h : L.Row i a) (heq : M.authorities = L.authorities) :
    M.Row i a := by
  unfold Row
  rw [heq]
  exact h

/-- The row after its cursor moved to the next event. -/
theorem Row.advance {event : VerifiedControl} (h : L.Row event.installationBindingID a) (now : Time)
    (hseq : event.streamSequence = a.contiguousStreamSequence + 1) :
    (L.advance event now).Row event.installationBindingID
      { a with contiguousStreamSequence := a.contiguousStreamSequence + 1, updatedAt := now } := by
  rw [← hseq]
  exact h.updateAuthority (f := fun a =>
    { a with contiguousStreamSequence := event.streamSequence, updatedAt := now }) h.2.1

theorem Row.eq {b : AuthorityRow} (h : L.Row i a) (hb : L.Row i b) : b = a := h.2.2 b hb.1 hb.2.1

/-- The row after an update of the installation's row and of other tables. -/
theorem Row.eq_updated {K : Ledger} {a' : AuthorityRow} (h : L.Row i a) (hrow' : L'.Row i a')
    (hf : (f a).installationBindingID = i) (h1 : K.authorities = L.authorities)
    (h' : L'.authorities = (K.updateAuthority i f).authorities) : a' = f a := by
  have hrow1 : K.Row i a := h.congr h1
  exact ((hrow1.updateAuthority hf).congr h').eq hrow'

end Rows

/-! ## What a transaction does to the row it names

The relations below repeat `Rebased` and `Decided` for the row alone. -/

/-- What an operation on an artifact of epoch `E` decides for the row. -/
inductive RowDecided (E : Bytes16) (a : AuthorityRow) : List AuthorityWrite → AuthorityRow → Prop
  | unchanged : RowDecided E a [] a
  | latched (reason : UncertaintyReason) (now : Time) :
      reason ≠ .none → (reason = .epoch → a.sequencerEpoch ≠ E) →
      RowDecided E a [.latched reason] (a.latched reason now)
  | advanced (now : Time) : RowDecided E a [.cursorAdvanced]
        { a with contiguousStreamSequence := a.contiguousStreamSequence + 1, updatedAt := now }
  | watermarked (w : VerifiedWatermark) (now : Time) :
      a.sequencerEpoch = E → w.watermarkSequence = a.currentWatermarkSequence + 1 →
      (w.status = .current → a.state = .uncertain → a.uncertaintyReason = .epoch) →
      RowDecided E a [.watermarkStored w.status] (a.withWatermark w now)
  | replaced {w : WatermarkColumns} (now : Time) :
      (a.state = .uncertain → a.uncertaintyReason = .epoch) →
      a.watermark = some w → w.status = .current →
      RowDecided E a [.replaced]
        { a with
          subscriptionGeneration := a.subscriptionGeneration + 1, state := .active
          uncertaintyReason := .none, updatedAt := now }

section Transactions

variable {L L' : Ledger} {i j E : Bytes16} {a : AuthorityRow} {ws : List AuthorityWrite}

theorem withWatermark_installation (w : VerifiedWatermark) (now : Time) (a : AuthorityRow) :
    (a.withWatermark w now).installationBindingID = a.installationBindingID := by
  unfold AuthorityRow.withWatermark
  cases w.status <;> rfl

theorem Opened.row_ne (h : Opened i E L ws L') (hne : j ≠ i) : L'.Row j a ↔ L.Row j a := by
  cases h with
  | found => exact Iff.rfl
  | created state reason now hnone hwhy =>
    have hmem : ∀ b, b.installationBindingID = j →
        (b ∈ AuthorityRow.created i E state reason now :: L.authorities ↔ b ∈ L.authorities) := by
      intro b hb
      rw [List.mem_cons, or_iff_right]
      rintro rfl
      exact hne hb.symm
    constructor
    · rintro ⟨ha, hj, honly⟩
      exact ⟨(hmem a hj).mp ha, hj, fun b hb hbj => honly b ((hmem b hbj).mpr hb) hbj⟩
    · rintro ⟨ha, hj, honly⟩
      exact ⟨(hmem a hj).mpr ha, hj, fun b hb hbj => honly b ((hmem b hbj).mp hb) hbj⟩

/-- After opening there is a row, found or created. -/
theorem Opened.row_self (h : Opened i E L ws L') :
    (∃ a, L.Row i a ∧ L' = L ∧ ws = []) ∨
    ∃ state reason now, (∀ a ∈ L.authorities, a.installationBindingID ≠ i) ∧ reason ≠ .epoch ∧
      L'.Row i (.created i E state reason now) ∧ ws = [.created state reason] := by
  cases h with
  | found hrow => exact .inl ⟨_, hrow, rfl, rfl⟩
  | created state reason now hnone hwhy =>
    refine .inr ⟨state, reason, now, hnone, hwhy, ⟨.head _, rfl, fun b hb hbi => ?_⟩, rfl⟩
    rcases List.mem_cons.mp hb with rfl | hb
    · rfl
    · exact absurd hbi (hnone b hb)

theorem Rebased.row_ne (h : Rebased i E L ws L') (hne : j ≠ i) : L'.Row j a ↔ L.Row j a := by
  cases h with
  | stayed => exact Iff.rfl
  | moved now =>
    exact row_updateAuthority_ne (L := { L with routes := _, bindings := _ }) hne fun _ => rfl

theorem Rebased.row_self (h : Rebased i E L ws L') (hrow : L.Row i a) :
    (L' = L ∧ ws = []) ∨
    (∃ now, L'.Row i (a.reset E now)) ∧ a.sequencerEpoch ≠ E ∧ ws = [.reset E] := by
  cases h with
  | stayed => exact .inl ⟨rfl, rfl⟩
  | moved now hrow' hne =>
    rw [hrow.eq hrow'] at hne
    refine .inr ⟨⟨now, ?_⟩, hne, rfl⟩
    exact Row.updateAuthority (L := { L with routes := _, bindings := _ }) (f := .reset E now) hrow
      hrow.2.1

theorem Rebased.exists_row {L₁ : Ledger} {opened : List AuthorityWrite} (h : Rebased i E L₁ ws L')
    (ho : Opened i E L opened L₁) : ∃ a, L'.Row i a := by
  obtain ⟨a, hrow⟩ : ∃ a, L₁.Row i a := by
    rcases ho.row_self with ⟨a, hrow, rfl, -⟩ | ⟨state, reason, now, -, -, hrow, -⟩
    · exact ⟨a, hrow⟩
    · exact ⟨_, hrow⟩
  rcases h.row_self hrow with ⟨rfl, -⟩ | ⟨⟨now, hrow'⟩, -⟩
  · exact ⟨a, hrow⟩
  · exact ⟨_, hrow'⟩

theorem Decided.row_ne (h : Decided i E L ws L') (hne : j ≠ i) : L'.Row j a ↔ L.Row j a := by
  cases h with
  | unchanged => exact Iff.rfl
  | latched reason now => exact row_updateAuthority_ne hne fun _ => rfl
  | deniedAcrossGap event now =>
    exact row_updateAuthority_ne (f := .latched .controlGap now) hne fun _ => rfl
  | upsertApplied event ref now _ _ hi =>
    rw [← hi] at hne
    exact row_updateAuthority_ne (L := L.upserted event ref) hne fun _ => rfl
  | revokeApplied event now _ _ hi =>
    rw [← hi] at hne
    exact row_updateAuthority_ne (L := L.revoked event true) hne fun _ => rfl
  | watermarkStored w now =>
    exact row_updateAuthority_ne (L := { L with watermarks := _ }) hne
      (withWatermark_installation w now)
  | replaced routes now =>
    exact row_updateAuthority_ne (L := { L with routes := _ }) hne fun _ => rfl

theorem Decided.row_self (h : Decided i E L ws L') (hrow : L.Row i a) :
    ∃ a', L'.Row i a' ∧ RowDecided E a ws a' := by
  have hi : a.installationBindingID = i := hrow.2.1
  cases h with
  | unchanged => exact ⟨a, hrow, .unchanged⟩
  | latched reason now hrow' hnone hep =>
    rw [hrow.eq hrow'] at hep
    exact ⟨_, hrow.updateAuthority hi, .latched reason now hnone hep⟩
  | deniedAcrossGap event now =>
    exact ⟨_, (hrow.updateAuthority (f := .latched .controlGap now) hi).congr rfl,
      .latched _ now (by decide) fun he => absurd he (by decide)⟩
  | upsertApplied event ref now hrow' _ hi' _ hseq =>
    subst hi'
    rw [hrow.eq hrow'] at hseq
    exact ⟨_, (hrow.congr (M := L.upserted event ref) rfl).advance now hseq, .advanced now⟩
  | revokeApplied event now hrow' _ hi' _ hseq =>
    subst hi'
    rw [hrow.eq hrow'] at hseq
    exact ⟨_, (hrow.congr (M := L.revoked event true) rfl).advance now hseq, .advanced now⟩
  | watermarkStored w now hrow' hE _ _ hnext _ hopen =>
    rw [hrow.eq hrow'] at hE hnext hopen
    exact ⟨_, Row.updateAuthority (L := { L with watermarks := _ }) hrow
      ((withWatermark_installation w now a).trans hi), .watermarked w now hE hnext hopen⟩
  | replaced routes now hrow' hE hopen hw hcur =>
    rw [hrow.eq hrow'] at hE hopen hw ⊢
    refine ⟨_, Row.updateAuthority (L := { L with routes := _ }) hrow hi, ?_⟩
    exact .replaced now hopen hw hcur

/-- Rows of other installations are left alone. -/
theorem Transaction.row_ne (h : Transaction i E L ws L') (hne : j ≠ i) :
    L'.Row j a ↔ L.Row j a := by
  cases h with
  | mk ho hr hd => exact (hd.row_ne hne).trans ((hr.row_ne hne).trans (ho.row_ne hne))

/-- The row an operation ends with, traced back through its three parts. -/
theorem Transaction.row_self (h : Transaction i E L ws L') :
    ∃ a0 a' opened decided, L'.Row i a' ∧
      ((L.Row i a0 ∧ opened = []) ∨ (∃ state reason now,
        (∀ a ∈ L.authorities, a.installationBindingID ≠ i) ∧ reason ≠ .epoch ∧
        a0 = .created i E state reason now ∧ opened = [.created state reason])) ∧
      ((ws = decided ++ opened ∧ RowDecided E a0 decided a') ∨
        (a0.sequencerEpoch ≠ E ∧ ws = decided ++ .reset E :: opened ∧
          ∃ now, RowDecided E (a0.reset E now) decided a')) := by
  cases h with
  | @mk L₁ L₂ _ opened rebased decided ho hr hd =>
    have traced : ∀ {a0}, L₁.Row i a0 → ∃ a', L'.Row i a' ∧
        ((decided ++ rebased ++ opened = decided ++ opened ∧ RowDecided E a0 decided a') ∨
        (a0.sequencerEpoch ≠ E ∧ decided ++ rebased ++ opened = decided ++ .reset E :: opened ∧
          ∃ now, RowDecided E (a0.reset E now) decided a')) := by
      intro a0 hrow
      rcases hr.row_self hrow with ⟨rfl, rfl⟩ | ⟨⟨now, hrow2⟩, hne, rfl⟩
      · obtain ⟨a', hrow', hdec⟩ := hd.row_self hrow
        exact ⟨a', hrow', .inl ⟨by simp, hdec⟩⟩
      · obtain ⟨a', hrow', hdec⟩ := hd.row_self hrow2
        exact ⟨a', hrow', .inr ⟨hne, by simp, now, hdec⟩⟩
    rcases ho.row_self with ⟨a0, hrow, rfl, rfl⟩ | ⟨state, reason, now, hnone, hwhy, hrow, rfl⟩
    · obtain ⟨a', hrow', hcase⟩ := traced hrow
      exact ⟨a0, a', [], decided, hrow', .inl ⟨hrow, rfl⟩, hcase⟩
    · obtain ⟨a', hrow', hcase⟩ := traced hrow
      exact ⟨_, a', _, decided, hrow', .inr ⟨state, reason, now, hnone, hwhy, rfl, rfl⟩, hcase⟩

end Transactions

end Ledger

end NotificationServer
