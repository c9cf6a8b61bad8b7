import NotificationServer.Gate6.Deletion
import NotificationServer.Gate6.Constraints
import NotificationServer.Run
import NotificationServer.Lib.Transition

/-!
# How long a deletion fence holds

Runs of the three statements on `deletion_tombstones`: the upsert, the check
that a proposed epoch is above the fence, and the purge of expired rows that the
sweep and the restore gate perform.  An upsert that meets a larger fence leaves
that fence with its own, earlier expiry.  So an epoch is fenced for eight days,
or for as long as a larger fence that was live already, and a larger fence that
had expired and was not purged leaves it without any.
-/

namespace NotificationServer

open Relational Store

/-- The purge in `deleteExpiredVaultRows` and `ReapplyDeletionTombstones`. -/
def Store.purgeTombstones (now : Time) : VaultTx Unit :=
  exec fun db =>
    { db with deletionTombstones := deleteWhere (fun t => t.expiresAt ≤ now) db.deletionTombstones }

/-- A statement on `deletion_tombstones` and the time it is evaluated at. -/
inductive FenceEvent
  | upsert (targetKind : DeletionTarget) (targetIdentity : LookupDigest) (keyVersion : Int)
      (fenceEpoch : Nat)
  | requireAdvance (targetKind : DeletionTarget) (targetIdentity : LookupDigest)
      (proposedEpoch : Nat)
  | purge

structure FenceState where
  session : Session
  clock : Time

/-- What an event does to the session; a check changes nothing, whatever it returns. -/
def FenceEvent.run (now : Time) (s s' : Session) : FenceEvent → Prop
  | .upsert kind identity keyVersion fence =>
    upsertDeletionTombstone kind identity keyVersion fence now s = .ok ((), s')
  | .requireAdvance _ _ _ => s' = s
  | .purge => purgeTombstones now s = .ok ((), s')

/-- Runs from any database that satisfies the schema, at nondecreasing times. -/
def fenceSystem : Machine FenceState (FenceEvent × Time) where
  init _ := True
  step s e s' := s.clock ≤ e.2 ∧ s'.clock = e.2 ∧ e.1.run e.2 s.session s'.session

section Statements

variable {kind : DeletionTarget} {identity : LookupDigest} {keyVersion : Int} {fence : Nat}
  {now : Time} {s s' : Session}

theorem upsertDeletionTombstone_ok
    (h : upsertDeletionTombstone kind identity keyVersion fence now s = .ok ((), s')) :
    validDeletionTombstoneFence kind fence ∧
      s'.db.deletionTombstones = upsert DeletionTombstoneRow.key DeletionTombstoneRow.merge
        (.proposed kind identity keyVersion fence now) s.db.deletionTombstones := by
  simp only [upsertDeletionTombstone, Tx.bind_ok, Tx.require_ok, exec_ok] at h
  obtain ⟨_, _, ⟨⟨-, hfence⟩, rfl⟩, hdb, -⟩ := h
  exact ⟨hfence, congrArg Db.deletionTombstones hdb⟩

theorem purgeTombstones_ok (h : purgeTombstones now s = .ok ((), s')) :
    s'.db.deletionTombstones =
      deleteWhere (fun t => t.expiresAt ≤ now) s.db.deletionTombstones := by
  obtain ⟨hdb, -⟩ := exec_ok.mp h
  exact congrArg Db.deletionTombstones hdb

/-- A check is refused by a live row whose fence is not below the proposal. -/
theorem requireTombstoneAdvance_refused {row : DeletionTombstoneRow} {proposed : Nat}
    (hrow : row ∈ s.db.deletionTombstones) (hkey : row.key = (kind, identity))
    (hlive : now < row.expiresAt) (hle : proposed ≤ row.fenceEpoch) :
    ∃ e, requireTombstoneAdvance kind identity proposed now s = .error e := by
  have hfind : s.db.deletionTombstones.find?
      (fun t => t.key = (kind, identity) ∧ now < t.expiresAt) = some row := by
    have hsome : (s.db.deletionTombstones.find?
        (fun t => t.key = (kind, identity) ∧ now < t.expiresAt)).isSome := by
      rw [List.find?_isSome]
      exact ⟨row, hrow, by simp [hkey, hlive]⟩
    obtain ⟨found, hfd⟩ := Option.isSome_iff_exists.mp hsome
    obtain ⟨hmem, hkey', -⟩ := Relational.found hfd
    rw [hfd, s.valid.deletionTombstones.key.eq_of_key_eq hmem hrow (hkey'.trans hkey.symm)]
  by_cases hval : validDeletionTombstoneFence kind proposed
  · refine ⟨.refreshConflict, ?_⟩
    unfold requireTombstoneAdvance
    rw [Tx.require_bind_of hval, Tx.bind_apply]
    simp only [query, Tx.read, hfind, Tx.require, if_neg (Nat.not_lt.mpr hle)]
    rfl
  · refine ⟨.storeUnavailable, ?_⟩
    unfold requireTombstoneAdvance
    rw [Tx.bind_apply, Tx.require, if_neg hval]
    rfl

/-- A check passes if the target has no live row. -/
theorem requireTombstoneAdvance_passes {proposed : Nat}
    (hval : validDeletionTombstoneFence kind proposed)
    (hexp : ∀ row ∈ s.db.deletionTombstones, row.key = (kind, identity) → row.expiresAt ≤ now) :
    requireTombstoneAdvance kind identity proposed now s = .ok ((), s) := by
  have hfind : s.db.deletionTombstones.find?
      (fun t => t.key = (kind, identity) ∧ now < t.expiresAt) = none := by
    rw [List.find?_eq_none]
    intro row hrow hlive
    simp only [decide_eq_true_eq] at hlive
    exact absurd (hexp row hrow hlive.1) (Int.not_le.mpr hlive.2)
  unfold requireTombstoneAdvance
  rw [Tx.require_bind_of hval, Tx.bind_apply]
  simp only [query, Tx.read, hfind]
  rfl

end Statements

/-- The target has a row that fences `epoch` until `until_`. -/
def Db.FencedUntil (db : Db) (kind : DeletionTarget) (identity : LookupDigest) (epoch : Nat)
    (until_ : Time) : Prop :=
  ∃ row ∈ db.deletionTombstones, row.key = (kind, identity) ∧ epoch ≤ row.fenceEpoch ∧
    until_ ≤ row.expiresAt

section Merge

variable {old new : DeletionTombstoneRow}

@[simp] theorem DeletionTombstoneRow.key_merge : (old.merge new).key = old.key := by
  unfold merge
  split <;> rfl

theorem DeletionTombstoneRow.merge_of_le (h : old.fenceEpoch ≤ new.fenceEpoch) :
    (old.merge new).fenceEpoch = new.fenceEpoch ∧ (old.merge new).expiresAt = new.expiresAt := by
  unfold merge
  rw [if_pos h]
  exact ⟨rfl, rfl⟩

theorem DeletionTombstoneRow.merge_of_lt (h : new.fenceEpoch < old.fenceEpoch) :
    old.merge new = old := by
  unfold merge
  rw [if_neg (Nat.not_le.mpr h)]

end Merge

variable {kind : DeletionTarget} {identity : LookupDigest} {epoch : Nat} {until_ : Time}

theorem DeletionTombstoneRow.merge_proposed {old : DeletionTombstoneRow} {keyVersion : Int}
    {now : Time} (h : old.fenceEpoch ≤ epoch) :
    (old.merge (.proposed kind identity keyVersion epoch now)).fenceEpoch = epoch ∧
      (old.merge (.proposed kind identity keyVersion epoch now)).expiresAt =
        now + deletionHorizon :=
  merge_of_le h

/-- A later upsert, of whatever target and fence, keeps a fence for as long. -/
theorem Db.FencedUntil.upsert {db db' : Db} {new : DeletionTombstoneRow}
    (h : db.FencedUntil kind identity epoch until_) (hexpiry : until_ ≤ new.expiresAt)
    (hdb : db'.deletionTombstones =
      Relational.upsert DeletionTombstoneRow.key DeletionTombstoneRow.merge new
        db.deletionTombstones) :
    db'.FencedUntil kind identity epoch until_ := by
  obtain ⟨row, hrow, hkey, hep, huntil⟩ := h
  unfold FencedUntil
  rw [hdb]
  by_cases hsame : row.key = new.key
  · refine ⟨row.merge new, mem_upsert.mpr (.inl ⟨row, hrow, hsame, rfl⟩), by simp [hkey], ?_⟩
    by_cases hle : row.fenceEpoch ≤ new.fenceEpoch
    · obtain ⟨hfence, hexp⟩ := DeletionTombstoneRow.merge_of_le hle
      rw [hfence, hexp]
      exact ⟨Nat.le_trans hep hle, hexpiry⟩
    · rw [DeletionTombstoneRow.merge_of_lt (Nat.not_le.mp hle)]
      exact ⟨hep, huntil⟩
  · exact ⟨row, mem_upsert.mpr (.inr (.inl ⟨hrow, hsame⟩)), hkey, hep, huntil⟩

theorem fenceSystem_step_fenced {s s' : FenceState} {e : FenceEvent × Time}
    (hstep : fenceSystem.step s e s') (hst : until_ ≤ s.clock + deletionHorizon)
    (h : s.session.db.FencedUntil kind identity epoch until_) (hbef : s'.clock < until_) :
    s'.session.db.FencedUntil kind identity epoch until_ := by
  obtain ⟨event, now⟩ := e
  obtain ⟨hclk, rfl, hrun⟩ := hstep
  cases event with
  | upsert =>
    refine h.upsert ?_ (upsertDeletionTombstone_ok hrun).2
    change until_ ≤ s'.clock + deletionHorizon
    have : s.clock ≤ s'.clock := hclk
    lia
  | requireAdvance =>
    rw [show s'.session = s.session from hrun]
    exact h
  | purge =>
    -- a row that lasts beyond the clock is not purged
    obtain ⟨row, hrow, hrest⟩ := h
    refine ⟨row, ?_, hrest⟩
    rw [purgeTombstones_ok hrun, mem_deleteWhere]
    exact ⟨hrow, Int.not_le.mpr (Int.lt_of_lt_of_le hbef hrest.2.2)⟩

theorem fenceSystem_step_clock {s s' : FenceState} {e : FenceEvent × Time}
    (hstep : fenceSystem.step s e s') : s.clock ≤ s'.clock := by
  obtain ⟨hclk, hnow, -⟩ := hstep
  rw [hnow]
  exact hclk

/-- A fence that lasts until `until_` is there in every state of the run before that time. -/
theorem fenceSystem_path_fenced {s t : FenceState} (hpath : fenceSystem.Path s t)
    (hst : until_ ≤ s.clock + deletionHorizon)
    (h : s.session.db.FencedUntil kind identity epoch until_) :
    s.clock ≤ t.clock ∧
      (t.clock < until_ → t.session.db.FencedUntil kind identity epoch until_) := by
  induction hpath with
  | refl => exact ⟨le_rfl, fun _ => h⟩
  | tail _ hstep ih =>
    obtain ⟨hclk, hfen⟩ := ih
    have hlat := fenceSystem_step_clock hstep
    refine ⟨Int.le_trans hclk hlat, fun hbef => ?_⟩
    have hnow := hfen (Int.lt_of_le_of_lt hlat hbef)
    exact fenceSystem_step_fenced hstep (by lia) hnow hbef

/-- A row that lasts until `until_` makes every check of an epoch up to its fence fail before that
time, in every run. -/
theorem fenceSystem_path_refused {s t : FenceState} {now : Time} {proposed : Nat}
    (hpath : fenceSystem.Path s t) (hst : until_ ≤ s.clock + deletionHorizon)
    (h : s.session.db.FencedUntil kind identity epoch until_) (hnow : t.clock ≤ now)
    (hbef : now < until_) (hprop : proposed ≤ epoch) :
    ∃ e, requireTombstoneAdvance kind identity proposed now t.session = .error e := by
  obtain ⟨-, hkept⟩ := fenceSystem_path_fenced hpath hst h
  obtain ⟨row, hrow, hkey, hep, huntil⟩ := hkept (Int.lt_of_le_of_lt hnow hbef)
  exact requireTombstoneAdvance_refused hrow hkey (Int.lt_of_lt_of_le hbef huntil)
    (Nat.le_trans hprop hep)

/-- The row an upsert leaves for its target: one that lasts eight days, or a stored row with a
larger fence. -/
theorem row_after_upsert {s s' : Session} {keyVersion : Int} {now : Time}
    (h : upsertDeletionTombstone kind identity keyVersion epoch now s = .ok ((), s')) :
    ∃ row ∈ s'.db.deletionTombstones, row.key = (kind, identity) ∧ epoch ≤ row.fenceEpoch ∧
      (row.expiresAt = now + deletionHorizon ∧ (∀ old ∈ s.db.deletionTombstones,
          old.key = (kind, identity) → old.fenceEpoch ≤ epoch) ∨
        row ∈ s.db.deletionTombstones ∧ epoch < row.fenceEpoch) := by
  obtain ⟨-, hrows⟩ := upsertDeletionTombstone_ok h
  rw [hrows]
  by_cases hstored : ∃ old ∈ s.db.deletionTombstones, old.key = (kind, identity)
  · obtain ⟨old, hold, hkey⟩ := hstored
    refine ⟨_, mem_upsert.mpr (.inl ⟨old, hold, hkey, rfl⟩), by simp [hkey], ?_⟩
    rcases Nat.lt_or_ge epoch old.fenceEpoch with hlt | hle
    · rw [DeletionTombstoneRow.merge_of_lt hlt]
      exact ⟨Nat.le_of_lt hlt, .inr ⟨hold, hlt⟩⟩
    · obtain ⟨hfence, hexp⟩ := DeletionTombstoneRow.merge_proposed hle
      refine ⟨Nat.le_of_eq hfence.symm, .inl ⟨hexp, fun other hother hkey' => ?_⟩⟩
      rwa [s.valid.deletionTombstones.key.eq_of_key_eq hother hold (hkey'.trans hkey.symm)]
  · refine ⟨_, mem_upsert.mpr (.inr (.inr ⟨rfl, ?_⟩)), rfl, le_rfl, .inl ⟨rfl, ?_⟩⟩
    · intro old hold hkey
      exact hstored ⟨old, hold, hkey⟩
    · intro old hold hkey
      exact absurd ⟨old, hold, hkey⟩ hstored

/-- After an upsert with fence `epoch` at `now`, every check of a proposal up to `epoch` before eight
days are over fails, in every run of upserts, checks and purges at nondecreasing times, exactly if
no stored row of the target had a larger fence that expires before those eight days. -/
theorem deletion_fence_holds_iff (kind : DeletionTarget) (identity : LookupDigest)
    (keyVersion : Int) (epoch : Nat) (s s' : FenceState)
    (hstep : fenceSystem.step s (.upsert kind identity keyVersion epoch, s'.clock) s') :
    (∀ t, fenceSystem.Path s' t → ∀ now, t.clock ≤ now → now < s'.clock + deletionHorizon →
      ∀ proposed ≤ epoch,
        ∃ e, requireTombstoneAdvance kind identity proposed now t.session = .error e) ↔
    ∀ row ∈ s.session.db.deletionTombstones, row.key = (kind, identity) →
      row.fenceEpoch ≤ epoch ∨ s'.clock + deletionHorizon ≤ row.expiresAt := by
  obtain ⟨-, -, hupsert⟩ := hstep
  obtain ⟨row, hrow, hkey, hep, hexp⟩ := row_after_upsert hupsert
  constructor
  · intro href old hold holdKey
    rcases hexp with ⟨-, hsmall⟩ | ⟨hstored, -⟩
    · exact .inl (hsmall old hold holdKey)
    obtain rfl := s.session.valid.deletionTombstones.key.eq_of_key_eq hold hstored
      (holdKey.trans hkey.symm)
    by_contra hearly
    rw [not_or, Int.not_le] at hearly
    -- the larger fence is over before the eight days are, and then `epoch` passes
    have honly : ∀ other ∈ s'.session.db.deletionTombstones, other.key = (kind, identity) →
        other.expiresAt ≤ max s'.clock old.expiresAt := by
      intro other hoth hothe
      rw [s'.session.valid.deletionTombstones.key.eq_of_key_eq hoth hrow (hothe.trans hkey.symm)]
      exact Int.le_max_right _ _
    have hhorizon : (0 : Int) < deletionHorizon := by decide
    obtain ⟨e, he⟩ := href s' (.refl s') (max s'.clock old.expiresAt) (Int.le_max_left _ _) (by lia)
      epoch le_rfl
    rw [requireTombstoneAdvance_passes (upsertDeletionTombstone_ok hupsert).1 honly] at he
    cases he
  · intro hsto t hpath now hnow hbef proposed hprop
    refine fenceSystem_path_refused hpath le_rfl ⟨row, hrow, hkey, hep, ?_⟩ hnow hbef hprop
    rcases hexp with ⟨hfresh, -⟩ | ⟨hstored, hlt⟩
    · exact Int.le_of_eq hfresh.symm
    · exact (hsto row hstored hkey).resolve_left (Nat.not_le.mpr hlt)

/-- After an upsert with fence `epoch`, and unless the target had an expired row with a larger fence
that was not purged, the target has a row that fences `epoch`: until eight days later, or until the
expiry of a larger fence that was live before.  Until then every check of an epoch up to that fence
fails, in every run of upserts, checks and purges at nondecreasing times. -/
theorem deletion_fence_holds (kind : DeletionTarget) (identity : LookupDigest)
    (keyVersion : Int) (epoch : Nat) (s s' : FenceState)
    (hstep : fenceSystem.step s (.upsert kind identity keyVersion epoch, s'.clock) s')
    (hlive : ∀ row ∈ s.session.db.deletionTombstones, row.key = (kind, identity) →
      epoch < row.fenceEpoch → s'.clock < row.expiresAt) :
    ∃ row ∈ s'.session.db.deletionTombstones, row.key = (kind, identity) ∧
      epoch ≤ row.fenceEpoch ∧
      (row.expiresAt = s'.clock + deletionHorizon ∨
        row ∈ s.session.db.deletionTombstones ∧ epoch < row.fenceEpoch ∧
          s'.clock < row.expiresAt) ∧
      ∀ t, fenceSystem.Path s' t → ∀ now, t.clock ≤ now →
        now < min row.expiresAt (s'.clock + deletionHorizon) → ∀ proposed ≤ row.fenceEpoch,
          ∃ e, requireTombstoneAdvance kind identity proposed now t.session = .error e := by
  obtain ⟨-, -, hupsert⟩ := hstep
  obtain ⟨row, hrow, hkey, hep, hexp⟩ := row_after_upsert hupsert
  refine ⟨row, hrow, hkey, hep, ?_, fun t hpath now hnow hbef proposed hprop => ?_⟩
  · rcases hexp with ⟨hfresh, -⟩ | ⟨hstored, hlt⟩
    · exact .inl hfresh
    · exact .inr ⟨hstored, hlt, hlive row hstored hkey hlt⟩
  · have hfen : s'.session.db.FencedUntil kind identity row.fenceEpoch
        (min row.expiresAt (s'.clock + deletionHorizon)) :=
      ⟨row, hrow, hkey, le_rfl, Int.min_le_left _ _⟩
    exact fenceSystem_path_refused hpath (Int.min_le_right _ _) hfen hnow hbef hprop

namespace FenceSample

def installation : LookupDigest := Sample.store.installationDeletionIdentity 9

/-- An installation is fenced at epoch 10, a day later at epoch 5, and a refresh at epoch 5 is
checked when the first fence is over and the second upsert is seven days old. -/
def lapse : VaultTx Unit := do
  upsertDeletionTombstone .installation installation 1 10 (1000 * day)
  upsertDeletionTombstone .installation installation 1 5 (1001 * day)
  requireTombstoneAdvance .installation installation 5 (1008 * day)

/-- The rows are live and fence epoch 10, and a fence at epoch 5 can be added. -/
def meetsLarger (s : Session) : Prop :=
  (∃ row ∈ s.db.deletionTombstones, row.fenceEpoch = 10) ∧
  (∀ row ∈ s.db.deletionTombstones, 1001 * day < row.expiresAt) ∧
  ∃ u s', upsertDeletionTombstone .installation installation 1 5 (1001 * day) s = .ok (u, s') ∧ True
  deriving Decidable

end FenceSample

/-- The second upsert's epoch passes the check within its eight days. -/
theorem deletion_fence_lapses :
    1001 * day ≤ 1008 * day ∧ 1008 * day < 1001 * day + deletionHorizon ∧
      (FenceSample.lapse Sys.fresh.session).toOption.isSome := by
  decide +kernel

/-- A fence at epoch 5 that meets a live one at epoch 10. -/
theorem deletion_fence_holds_live :
    ∃ s s' : FenceState, fenceSystem.step s
        (.upsert .installation FenceSample.installation 1 5, s'.clock) s' ∧
      (∃ row ∈ s.session.db.deletionTombstones, row.fenceEpoch = 10) ∧
      ∃ row ∈ s'.session.db.deletionTombstones, 5 ≤ row.fenceEpoch ∧
        ∀ t, fenceSystem.Path s' t → ∀ now, t.clock ≤ now →
          now < min row.expiresAt (s'.clock + deletionHorizon) → ∀ proposed ≤ row.fenceEpoch,
            ∃ e, requireTombstoneAdvance .installation FenceSample.installation proposed now
              t.session = .error e := by
  obtain ⟨⟨⟩, s, -, hten, hlive, ⟨⟩, s', hsecond, -⟩ : ∃ u s, upsertDeletionTombstone
      .installation FenceSample.installation 1 10 (1000 * day) Sys.fresh.session = .ok (u, s) ∧
      FenceSample.meetsLarger s := by
    decide +kernel
  have hstep : fenceSystem.step ⟨s, 1000 * day⟩
      (.upsert .installation FenceSample.installation 1 5, 1001 * day) ⟨s', 1001 * day⟩ :=
    ⟨show 1000 * day ≤ 1001 * day by decide, rfl, hsecond⟩
  obtain ⟨row, hrow, -, hep, -, hfails⟩ := deletion_fence_holds .installation
    FenceSample.installation 1 5 ⟨s, 1000 * day⟩ ⟨s', 1001 * day⟩ hstep
    fun row hrow _ _ => hlive row hrow
  exact ⟨_, _, hstep, hten, row, hrow, hep, hfails⟩

end NotificationServer
