import NotificationServer.A9.Simulation
import NotificationServer.Run

/-!
# Denial wins

A tombstone is never removed and no ACTIVE binding, route or current-route check
of its binding survives at or below its version, in whichever epoch.  Whether a
REVOKE leaves a tombstone in the first place depends on the branch it takes: at
the next sequence of its stream, an event that skips a binding version is
answered GAP and denies nothing.
-/

namespace NotificationServer

open Relational Tx Sample

namespace Ledger

/-- No active binding is at or below the version of a tombstone. -/
def Fenced (L : Ledger) : Prop :=
  ∀ t ∈ L.tombstones, ∀ b ∈ L.bindings, b.installationBindingID = t.installationBindingID →
    b.bindingID = t.bindingID → ∀ ref, b.state = .active ref → t.bindingVersion < b.bindingVersion

variable {L L' : Ledger} {i E : Bytes16} {ws : List AuthorityWrite}

theorem Fenced.mono (hs : L.Fenced) (ht : L'.tombstones = L.tombstones)
    (hb : ∀ b ∈ L'.bindings, b ∈ L.bindings) : L'.Fenced := by
  intro t htmem b hbmem
  exact hs t (ht ▸ htmem) b (hb b hbmem)

theorem Fenced.upserted (hs : L.Fenced) (event : VerifiedControl) (ref : AssertionReference)
    (h : ∀ t ∈ L.tombstones, t.installationBindingID = event.installationBindingID →
      t.bindingID = event.bindingID → t.bindingVersion < event.bindingVersion) :
    (L.upserted event ref).Fenced := by
  intro t ht b hb hi hid
  rcases mem_upsert_replace hb with rfl | ⟨hb, -⟩
  · exact fun _ _ => h t ht hi.symm hid.symm
  · exact hs t ht b hb hi hid

theorem Fenced.revoked (hs : L.Fenced) (event : VerifiedControl) (contiguous : Bool) :
    (L.revoked event contiguous).Fenced := by
  intro t ht b hb hi hid ref hst
  rcases mem_upsert_replace hb with rfl | ⟨hb, hkey⟩
  · exact absurd hst (by simp [VerifiedControl.binding])
  · rcases List.mem_cons.mp ht with rfl | ht
    · exact absurd (Prod.ext hi hid) hkey
    · exact hs t ht b hb hi hid ref hst

theorem Transaction.fenced (hs : L.Fenced) (h : Transaction i E L ws L') : L'.Fenced := by
  cases h with
  | @mk L1 L2 _ _ _ _ ho hr hd =>
    have hs1 : L1.Fenced := by
      cases ho <;> exact hs.mono rfl fun _ hb => hb
    have hs2 : L2.Fenced := by
      cases hr with
      | stayed => exact hs1
      | moved now => exact hs1.mono rfl fun b hb => (mem_deleteWhere.mp hb).1
    cases hd with
    | unchanged => exact hs2
    | latched reason now => exact hs2.mono rfl fun _ hb => hb
    | deniedAcrossGap event now =>
      have hlatched : (L2.updateAuthority i (.latched .controlGap now)).Fenced :=
        hs2.mono rfl fun _ hb => hb
      exact hlatched.revoked event false
    | upsertApplied event ref now hrow hE hi hevent hseq hver =>
      subst hi
      exact (hs2.upserted event ref hver).mono rfl fun _ hb => hb
    | revokeApplied event now => exact (hs2.revoked event true).mono rfl fun _ hb => hb
    | _ => exact hs2.mono rfl fun _ hb => hb

theorem Transaction.tombstones (h : Transaction i E L ws L') :
    ∀ t ∈ L.tombstones, t ∈ L'.tombstones := by
  cases h with
  | mk ho hr hd =>
    intro t ht
    cases ho <;> cases hr <;> cases hd <;> first | exact ht | exact .tail _ ht

end Ledger

namespace Store

variable {S : Store}

theorem reachable_fenced {s : Sys} (h : S.system.Reachable s) : s.db.ledger.Fenced :=
  reachable_ledger (by simp [Ledger.Fenced, Db.empty, Db.ledger]) Ledger.Transaction.fenced h

theorem tombstones_path {s s' : Sys} (h : S.system.Reachable s) (hp : S.system.Path s s')
    {t : BindingTombstoneRow} (ht : t ∈ s.db.tombstones) : t ∈ s'.db.tombstones := by
  refine hp.invariant (P := fun s => t ∈ s.db.tombstones) h (fun s e s' _ hmem hst => ?_) ht
  rcases step_records hst with ⟨hl, -⟩ | ⟨i, E, ws, htx, -⟩
  · have hsame : s'.db.tombstones = s.db.tombstones := congrArg Ledger.tombstones hl
    rw [hsame]
    exact hmem
  · exact htx.tombstones t hmem

/-- The current-route check finds no route behind a tombstone at its version or above. -/
theorem a9CurrentRoute_eq_none {db : Db} {leaseID : Bytes16} {snapshot : A9RouteSnapshot}
    {dbNow expiresAt refreshedAt : Time} (h : db.WinningTombstone snapshot) :
    a9CurrentRoute db leaseID snapshot dbNow expiresAt refreshedAt = none := by
  unfold a9CurrentRoute
  cases db.authority snapshot.installationBindingID with
  | none => rfl
  | some a =>
    cases hw : a.watermark with
    | none => simp [hw]
    | some w => simp [h, guard]

theorem requireA9CurrentRouteTx_denied {clock : Clock} {leaseID : Bytes16}
    {snapshot : A9RouteSnapshot} {r : Option A9CurrentRouteState} {s s' : Session}
    (ht : s.db.WinningTombstone snapshot)
    (h : S.requireA9CurrentRouteTx clock leaseID snapshot s = .ok (r, s')) : r = none := by
  simp only [requireA9CurrentRouteTx, ite_ok, bind_ok, query_ok, pure_ok] at h
  rcases h with ⟨-, rfl, -⟩ | ⟨-, row, _, ⟨-, rfl⟩, h⟩
  · rfl
  cases row with
  | none => exact (pure_ok.mp h).1.symm
  | some row =>
    dsimp only at h
    cases hacc : row.accepted with
    | none =>
      simp only [hacc, pure_ok] at h
      exact h.1.symm
    | some k =>
      obtain ⟨k, expiresAt⟩ := k
      simp only [hacc, ite_ok, bind_ok, query_ok, pure_ok] at h
      rcases h with ⟨-, _, s1, hsafe, rfl, rfl⟩ | ⟨-, rfl, -⟩
      · obtain ⟨-, hdb, -⟩ := requireRetentionSafeTx_ok.mp hsafe
        refine a9CurrentRoute_eq_none ?_
        rw [hdb]
        exact ht
      · rfl

/-- Once a tombstone is stored, no later state has an ACTIVE binding, a route or an accepted
current-route snapshot of that binding at or below the tombstone's version. -/
theorem tombstone_final {s s' : Sys} (h : S.system.Reachable s) (hp : S.system.Path s s')
    {t : BindingTombstoneRow} (ht : t ∈ s.db.tombstones) :
    (∀ b ∈ s'.db.bindings, b.installationBindingID = t.installationBindingID → b.bindingID =
      t.bindingID → ∀ ref, b.state = .active ref → ¬ b.bindingVersion ≤ t.bindingVersion) ∧
    (∀ r ∈ s'.db.routes, r.columns.installationBindingID = t.installationBindingID →
      r.columns.bindingID = t.bindingID → ¬ r.columns.bindingVersion ≤ t.bindingVersion) ∧
    ∀ clock leaseID snapshot r s'',
      S.requireA9CurrentRouteTx clock leaseID snapshot s'.session = .ok (r, s'') →
      snapshot.installationBindingID = t.installationBindingID →
      snapshot.bindingID = t.bindingID → snapshot.bindingVersion ≤ t.bindingVersion → r = none := by
  have ht' := tombstones_path h hp ht
  have hfen := reachable_fenced (h.path hp) t ht'
  refine ⟨fun b hb hi hid ref hst => ?_, fun r hr hi hid hle => ?_,
    fun clock leaseID snapshot r s'' hok hi hid hle => ?_⟩
  · exact Nat.not_le.mpr (hfen b hb hi hid ref hst)
  · -- The composite foreign key from a route to the active columns of its binding.
    obtain ⟨b, hb, hkey⟩ := List.mem_map.mp (s'.vault.valid.routes.binding r hr _ rfl)
    unfold BindingRow.activeKey at hkey
    cases hst : b.state with
    | revoked =>
      rw [hst] at hkey
      cases hkey
    | active ref =>
      rw [hst] at hkey
      simp only [Option.some.injEq, RouteColumns.assertionKey, AssertionKey.mk.injEq] at hkey
      obtain ⟨hbi, -, hbid, hver, -⟩ := hkey
      have := hfen b hb (hbi.trans hi) (hbid.trans hid) ref hst
      omega
  · have hwins : Db.WinningTombstone s'.db snapshot := ⟨t, ht', hi.symm, hid.symm, hle⟩
    exact requireA9CurrentRouteTx_denied (s := s'.session) hwins hok

/-- A revoked binding, then an UPSERT of a higher version in a new epoch. -/
theorem tombstone_final_sample :
    ∃ s, Sample.store.system.Reachable s ∧ ∃ t ∈ s.db.tombstones, t.bindingID = 50 ∧
      ∃ b ∈ s.db.bindings, b.bindingID = 50 ∧ b.state ≠ .revoked ∧
        ¬ b.bindingVersion ≤ t.bindingVersion := by
  obtain ⟨s, hs, t, ht, hti, htid, b, hb, hbi, hbid, hst⟩ := exists_reachable (S := store)
    (opened ++ [.applyControl clock (control 70 2 2 .revoke),
      .applyControl clock (control 71 1 3 .upsert)])
    (P := fun s => ∃ t ∈ s.db.tombstones, t.installationBindingID = 9 ∧ t.bindingID = 50 ∧
      ∃ b ∈ s.db.bindings, b.installationBindingID = 9 ∧ b.bindingID = 50 ∧ b.state ≠ .revoked)
    (by decide +kernel)
  refine ⟨s, hs, t, ht, htid, b, hb, hbid, hst, ?_⟩
  cases hact : b.state with
  | revoked => exact absurd hact hst
  | active ref =>
    exact (tombstone_final hs (.refl s) ht).1 b hb (hbi.trans hti.symm) (hbid.trans htid.symm) ref
      hact

end Store

/-- The binding is tombstoned at the version, has no route and no job that can still be sent. -/
def Db.Denied (db : Db) (i binding : Bytes16) (version : Nat) : Prop :=
  (∃ t ∈ db.tombstones, t.installationBindingID = i ∧ t.bindingID = binding ∧
    t.bindingVersion = version) ∧
  (∀ r ∈ db.routes, ¬ Db.RouteOf i (some binding) r) ∧
  ∀ j ∈ db.jobs, j.state.Live → ¬ Db.JobRouted i (some binding) j

instance {db : Db} {i binding : Bytes16} {version : Nat} : Decidable (db.Denied i binding version) :=
  inferInstanceAs (Decidable (_ ∧ _ ∧ _))

namespace Store

variable {S : Store} {s s' : Session}

/-- An event of the row's epoch that no receipt answers is decided in that epoch. -/
theorem applyControl_inEpoch {clock : Clock} {event : VerifiedControl} {a : AuthorityRow}
    {r : A9Result} (ha : s.db.authority event.installationBindingID = some a)
    (hE : a.sequencerEpoch = event.sequencerEpoch)
    (hfst : ∀ x ∈ s.db.receipts, x.idempotencyKey ≠ event.idempotencyKey)
    (h : S.applyControl clock event s = .ok (r, s')) :
    S.validA9Control event ∧ ∃ s1 : Session,
      s1.db = { s.db with keyBinding := some S.rootCommitment } ∧
      S.applyA9ControlInEpochTx event a clock.db s1 = .ok (r, s') := by
  simp only [applyControl, mapError_ok, bind_ok, require_ok, applyA9ControlOnce] at h
  obtain ⟨-, _, ⟨hval, rfl⟩, _, s1, hks, _, s2, hsafe, a', s3, hload, receipt, s4, hrec, h⟩ := h
  obtain ⟨-, rfl⟩ := requireA9KeysetTx_ok.mp hks
  obtain ⟨-, hdb2, -⟩ := requireRetentionSafeTx_ok.mp hsafe
  have ha2 : s2.db.authority event.installationBindingID = some a := by rw [hdb2]; exact ha
  obtain ⟨-, ⟨ha', rfl⟩ | ⟨hnone, -⟩⟩ := loadOrInsertA9AuthorityTx_ok hload
  · obtain rfl := Option.mem_unique ha2 ha'
    have hfst2 : ∀ x ∈ s2.db.receipts, x.idempotencyKey ≠ event.idempotencyKey := by
      rw [hdb2]
      exact hfst
    rcases a9ReceiptResultTx_ok hrec with ⟨rfl, rfl, -⟩ | ⟨x, hx, hkey, -⟩ | ⟨x, hx, hkey, -⟩
    · refine ⟨hval, s2, hdb2, ?_⟩
      simp only [applyFirstA9ControlTx, ite_ok] at h
      exact (h.resolve_left fun hne => hne.1 hE).2
    · exact absurd (congrArg RequestKey.idempotencyKey hkey) (hfst2 x hx)
    · exact absurd hkey (hfst2 x hx)
  · cases ha2.symm.trans hnone

/-- What `persistA9RevokeTx` leaves is a denial. -/
theorem denied_of_revoked {db db' : Db} {event : VerifiedControl} {contiguous : Bool} {now : Time}
    {L : Ledger} (hl : db'.ledger.tombstones = (L.revoked event contiguous).tombstones)
    (hr : db'.ledger.routes = (L.revoked event contiguous).routes)
    (hj : db'.jobs = (db.finalizeJobs (Db.JobRouted event.installationBindingID (some
      event.bindingID)) now fun _ => .safetyInvalidated).jobs) :
    db'.Denied event.installationBindingID event.bindingID event.bindingVersion := by
  refine ⟨⟨event.tombstone, ?_, rfl, rfl, rfl⟩, fun r hrmem => ?_, fun j hjmem hlive => ?_⟩
  · change _ ∈ db'.ledger.tombstones
    rw [hl]
    exact .head _
  · change _ ∈ db'.ledger.routes at hrmem
    rw [hr] at hrmem
    exact (mem_deleteWhere.mp hrmem).2
  · rw [hj] at hjmem
    rcases mem_updateWhere.mp hjmem with ⟨k, -, -, rfl⟩ | ⟨-, hnot⟩
    · exact absurd hlive (by simp [DeliveryJobRow.finalized, JobState.Live])
    · exact fun hrouted => hnot ⟨hrouted, hlive⟩

/-- A REVOKE above every stored version, decided in its epoch: it denies unless it is next in its
stream and skips a version. -/
theorem applyA9ControlInEpochTx_denied {event : VerifiedControl} {a : AuthorityRow} {now : Time}
    {r : A9Result} (hval : S.validA9Control event) (hact : event.action = .revoke)
    (hexp : ¬ event.Expired now) (hseq : a.contiguousStreamSequence < event.streamSequence)
    (hver : s.db.highestVersion event.installationBindingID event.bindingID < event.bindingVersion)
    (h : S.applyA9ControlInEpochTx event a now s = .ok (r, s')) :
    s'.db.Denied event.installationBindingID event.bindingID event.bindingVersion ↔
      a.contiguousStreamSequence + 1 < event.streamSequence ∨ event.bindingVersion =
        s.db.highestVersion event.installationBindingID event.bindingID + 1 := by
  have hexpected : event.bindingVersion = event.expectedBindingVersion + 1 := hval.2.2.2.2.2.2.1
  simp only [applyA9ControlInEpochTx, ite_ok, bind_ok, query_ok] at h
  rcases h with ⟨hexp', -⟩ | ⟨-, _, _, ⟨rfl, rfl⟩, _, _, ⟨rfl, rfl⟩, h⟩
  · exact absurd hexp' hexp
  rcases h with ⟨⟨hups, -⟩, -⟩ | ⟨-, ⟨hle, -⟩ | ⟨-, ⟨hgap, ⟨-, h⟩ | ⟨hno, -⟩⟩ |
    ⟨hnext, ⟨hskip, h⟩ | ⟨hagree, h⟩⟩⟩⟩
  · cases hups.symm.trans hact
  · omega
  · obtain ⟨_, s1, -, _, s2, hper, hpure⟩ := h
    obtain ⟨rfl, rfl⟩ := pure_ok.mp hpure
    obtain ⟨hl, hj, -⟩ := persistA9RevokeTx_ok hper
    have hdenied := denied_of_revoked (congrArg Ledger.tombstones hl) (congrArg Ledger.routes hl) hj
    exact ⟨fun _ => .inl hgap, fun _ => hdenied⟩
  · exact absurd ⟨hact, hver⟩ hno
  -- The conflict branch stores no tombstone, and none was stored at this version before.
  · obtain ⟨-, hdb, -⟩ := settleA9ControlTx_ok h
    have hprev : event.expectedPreviousSequence = a.contiguousStreamSequence := by
      have := hval.2.2.2.1
      omega
    have hne : event.expectedBindingVersion ≠
        s.db.highestVersion event.installationBindingID event.bindingID :=
      hskip.resolve_left fun hp => hp hprev
    constructor
    · rintro ⟨⟨t, ht, hti, htb, htv⟩, -⟩
      rw [hdb] at ht
      have hle := s.db.le_highestTombstoneVersion ht hti htb
      have hle' := s.db.highestTombstoneVersion_le event.installationBindingID event.bindingID
      omega
    · rintro (hlt | heq) <;> omega
  · obtain ⟨-, ⟨hups, -⟩ | ⟨-, hl, hj⟩, -⟩ := applyNextA9ControlTx_ok h
    · cases hups.symm.trans hact
    have htombs : s'.db.ledger.tombstones = (s.db.ledger.revoked event true).tombstones := by
      rw [hl]
      rfl
    have hrts : s'.db.ledger.routes = (s.db.ledger.revoked event true).routes := by
      rw [hl]
      rfl
    have hdenied := denied_of_revoked htombs hrts hj
    have hagree' : event.expectedBindingVersion = _ := not_not.mp (not_or.mp hagree).2
    exact ⟨fun _ => .inr (by omega), fun _ => hdenied⟩

/-- A first-seen, unexpired REVOKE of the row's epoch, past the cursor and above every version of
its binding, is a denial exactly if it is past the next sequence or names the next version. -/
theorem revoke_denies_iff {clock : Clock} {event : VerifiedControl} {a : AuthorityRow}
    {r : A9Result} (hact : event.action = .revoke) (hexp : ¬ event.Expired clock.db)
    (hfirst : ∀ x ∈ s.db.receipts, x.idempotencyKey ≠ event.idempotencyKey)
    (ha : s.db.authority event.installationBindingID = some a)
    (hE : a.sequencerEpoch = event.sequencerEpoch)
    (hseq : a.contiguousStreamSequence < event.streamSequence)
    (hversion : s.db.highestVersion event.installationBindingID event.bindingID <
      event.bindingVersion)
    (h : S.applyControl clock event s = .ok (r, s')) :
    s'.db.Denied event.installationBindingID event.bindingID event.bindingVersion ↔
      a.contiguousStreamSequence + 1 < event.streamSequence ∨ event.bindingVersion =
        s.db.highestVersion event.installationBindingID event.bindingID + 1 := by
  obtain ⟨hval, s1, hdb, h1⟩ := applyControl_inEpoch ha hE hfirst h
  have hsame : s1.db.highestVersion event.installationBindingID event.bindingID =
      s.db.highestVersion event.installationBindingID event.bindingID := by rw [hdb]; rfl
  have := applyA9ControlInEpochTx_denied hval hact hexp hseq (hsame ▸ hversion) h1
  rwa [hsame] at this

/-- A REVOKE across a gap. -/
theorem revoke_denies_iff_sample :
    ∃ s, Sample.store.system.Reachable s ∧ ∃ r t,
      Sample.store.applyControl Sample.clock (Sample.control 70 3 2 .revoke) s.session =
        .ok (r, t) ∧ t.db.Denied 9 50 2 := by
  obtain ⟨s, hs, ⟨a, ha, hE, hc⟩, hfst, hver, r, t, hok, -⟩ := exists_reachable (S := store) opened
    (P := fun s =>
      (∃ a ∈ s.db.authority 9, a.sequencerEpoch = 70 ∧ a.contiguousStreamSequence = 1) ∧
      (∀ x ∈ s.db.receipts, x.idempotencyKey ≠ (control 70 3 2 .revoke).idempotencyKey) ∧
      s.db.highestVersion 9 50 < 2 ∧ ∃ r t,
      store.applyControl clock (control 70 3 2 .revoke) s.session = .ok (r, t) ∧ True)
    (by decide +kernel)
  refine ⟨s, hs, r, t, hok, ?_⟩
  refine (revoke_denies_iff (s := s.session) rfl (by decide) hfst ha hE ?_ hver hok).mpr
    (.inl ?_)
  · rw [hc]
    decide
  · rw [hc]
    decide

/-- Next in its stream, above every version of its binding, but skipping one: the REVOKE is answered
and its version is not tombstoned. -/
theorem revoke_skipping_version_denies_nothing :
    ∃ s, Sample.store.system.Reachable s ∧
      (∃ a ∈ s.db.authority 9, a.sequencerEpoch = 70 ∧ a.contiguousStreamSequence = 1) ∧
      (∀ x ∈ s.db.receipts, x.idempotencyKey ≠ (Sample.control 70 2 3 .revoke).idempotencyKey) ∧
      ¬ (Sample.control 70 2 3 .revoke).Expired Sample.clock.db ∧
      s.db.highestVersion 9 50 < 3 ∧ ∃ r t,
      Sample.store.applyControl Sample.clock (Sample.control 70 2 3 .revoke) s.session =
        .ok (r, t) ∧ ¬ t.db.Denied 9 50 3 := by
  exact exists_reachable opened (by decide +kernel)

end Store

end NotificationServer
