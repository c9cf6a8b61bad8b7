import NotificationServer.Gate6.Constraints
import NotificationServer.Gate6.Frame
import NotificationServer.Gate6.Reach

/-!
# When revocation, erasure and the sweep commit

Their statements can fail at two places only: a lease whose key history has
expired cannot be retired, and a lease an A9 route refers to cannot be deleted.
-/

namespace NotificationServer

open Relational Tx

variable {at_ markedAt : Time} {leaseID : Bytes16} {lookup : LookupDigest}

theorem deletionHorizon_pos : 0 < deletionHorizon := by decide

theorem deletionHorizon_le : deletionHorizon ≤ 15 * day := by decide

theorem Session.routes_of_frame {s s' : Session} (h : s'.frame = s.frame) :
    s'.db.routes = s.db.routes := by
  have := congrArg (fun f => f.1.routes) h
  exact this

/-- No A9 route refers to a lease that `p` selects. -/
def Db.Unrouted (db : Db) (p : LeaseRow → Prop) : Prop :=
  ∀ r ∈ db.routes, ∀ l ∈ db.leases, l.leaseID = r.leaseID → ¬ p l

theorem Db.Unrouted.congr {db db' : Db} {p : LeaseRow → Prop} (h : db.Unrouted p)
    (hrts : db'.routes = db.routes) (hls : db'.leases = db.leases) : db'.Unrouted p := by
  unfold Db.Unrouted
  rw [hrts, hls]
  exact h

/-- The key history of every lease that `p` selects is current. -/
def Db.Retirable (db : Db) (p : LeaseRow → Prop) (now : Time) : Prop :=
  ∀ l ∈ db.leases, p l → db.HistoryCurrent l.routeIdentity l.routeKeyEpoch now

namespace Store

variable {S : Store} {now : Time} {s s' : Session}

theorem query_succeeds {α : Type} (f : Db → α) : Succeeds (query f) s := .read _

theorem markDeliveryJobsSafetyForLeaseTx_succeeds :
    Succeeds (markDeliveryJobsSafetyForLeaseTx at_ leaseID) s :=
  exec_succeeds (s.valid.finalizeJobs fun _ _ => .inl rfl)

theorem markDeliveryJobsSafetyForInstallationTx_succeeds :
    Succeeds (markDeliveryJobsSafetyForInstallationTx at_ lookup) s :=
  exec_succeeds (s.valid.finalizeJobs fun _ _ => .inl rfl)

theorem upsertDeletionTombstone_succeeds {kind : DeletionTarget} {identity : LookupDigest}
    {keyVersion : Int} {fence : Nat} (hver : ValidKeyVersion keyVersion)
    (hfence : validDeletionTombstoneFence kind fence) :
    Succeeds (upsertDeletionTombstone kind identity keyVersion fence now) s :=
  .bind (.require ⟨hver, hfence⟩ _) fun _ s' _ =>
    exec_succeeds (s'.valid.upsertTombstone hver hfence)

theorem requireLookupKeyBoundTx_succeeds (h : ∀ k ∈ s.db.keyBinding, k = S.rootCommitment) :
    Succeeds S.requireLookupKeyBoundTx s := by
  obtain ⟨_, s1, h1⟩ := exec_succeeds
    (f := fun db => { db with keyBinding := some S.rootCommitment })
    (s.valid.keyBinding (some S.rootCommitment))
  obtain ⟨hdb, hw⟩ := exec_ok.mp h1
  exact ⟨(), s1, requireLookupKeyBoundTx_ok.mpr ⟨h, hdb, hw⟩⟩

theorem retireLeaseTx_succeeds {l : LeaseRow} (hep : Between 1 maxUint32 l.routeKeyEpoch)
    (hver : ValidKeyVersion l.encryptionKeyVersion)
    (hcur : s.db.HistoryCurrent l.routeIdentity l.routeKeyEpoch now) :
    Succeeds (retireLeaseTx now l) s := by
  have hpos := deletionHorizon_pos
  have hle := deletionHorizon_le
  refine .bind (.require hep _) fun _ s1 h1 => ?_
  obtain ⟨-, rfl⟩ := require_ok.mp h1
  refine .bind (.bind (.require (by have := hep.1; omega) _) fun _ s2 h2 => ?_)
    fun _ s3 _ => upsertDeletionTombstone_succeeds hver hep
  obtain ⟨-, rfl⟩ := require_ok.mp h2
  refine .bind (query_succeeds _) fun b s3 h3 => ?_
  obtain ⟨rfl, rfl⟩ := query_ok.mp h3
  refine .bind (.require (decide_eq_true hcur) _) fun _ s4 _ => ?_
  exact exec_succeeds (s4.valid.extendHistory (by lia) (by lia))

/-- Retiring a lease makes no current key history expire. -/
theorem retireLeaseTx_current {l : LeaseRow} {u : Unit} {identity : LookupDigest} {epoch : Nat}
    (h : retireLeaseTx now l s = .ok (u, s')) (hcur : s.db.HistoryCurrent identity epoch now) :
    s'.db.HistoryCurrent identity epoch now := by
  have hpos := deletionHorizon_pos
  simp only [retireLeaseTx, retireRouteKeyHistory, upsertDeletionTombstone, bind_ok,
    require_ok, query_ok, exec_ok] at h
  obtain ⟨_, _, ⟨-, rfl⟩, _, s1, ⟨_, _, ⟨-, rfl⟩, _, _, ⟨rfl, rfl⟩, _, _, ⟨-, rfl⟩, hdb1, -⟩, _, _,
    ⟨-, rfl⟩, hdb, -⟩ := h
  obtain ⟨r, hr, hkey, hlt⟩ := hcur
  have hhist : s'.db.routeKeyHistory =
      (s.db.extendHistory l.routeIdentity now (now + deletionHorizon)).routeKeyHistory := by
    rw [hdb, ← hdb1]
    rfl
  rw [Db.HistoryCurrent, hhist]
  by_cases hrt : r.routeIdentity = l.routeIdentity
  · exact ⟨{ r with updatedAt := now, expiresAt := now + deletionHorizon },
      mem_updateWhere.mpr (.inl ⟨r, hr, hrt, rfl⟩), hkey, by simp only; lia⟩
  · exact ⟨r, mem_updateWhere.mpr (.inr ⟨hr, hrt⟩), hkey, hlt⟩

theorem retireLeases_succeeds {leases : List LeaseRow} (hmem : ∀ l ∈ leases, l ∈ s.db.leases)
    (hcurrent : ∀ l ∈ leases, s.db.HistoryCurrent l.routeIdentity l.routeKeyEpoch now) :
    Succeeds (Tx.forEach leases (retireLeaseTx now)) s := by
  refine .forEach (I := fun rest t => ∀ l ∈ rest, Between 1 maxUint32 l.routeKeyEpoch ∧
      ValidKeyVersion l.encryptionKeyVersion ∧
      t.db.HistoryCurrent l.routeIdentity l.routeKeyEpoch now) (fun l rest t hI => ?_)
    fun l hl => ⟨s.valid.leases.route_epoch_range l (hmem l hl),
      s.valid.leases.key_version l (hmem l hl), hcurrent l hl⟩
  obtain ⟨hep, hver, hcur⟩ := hI l (.head _)
  refine ⟨retireLeaseTx_succeeds hep hver hcur, fun t' h l' hl' => ?_⟩
  obtain ⟨hep', hver', hcur'⟩ := hI l' (.tail _ hl')
  exact ⟨hep', hver', retireLeaseTx_current h hcur'⟩

theorem retireSelected_succeeds {p : LeaseRow → Prop} [DecidablePred p] (h : s.db.Retirable p now) :
    Succeeds (Tx.forEach (s.db.leases.filter fun l => p l) (retireLeaseTx now)) s := by
  refine retireLeases_succeeds (fun l hl => (List.mem_filter.mp hl).1) fun l hl => ?_
  obtain ⟨hl, hp⟩ := List.mem_filter.mp hl
  exact h l hl (of_decide_eq_true hp)

/-- If the selected leases were retired, their key history was current. -/
theorem retirable_of_retired (S : Store) {clock : Time} {p : LeaseRow → Prop} [DecidablePred p]
    {u : Unit} (hk : s.db.Kept S clock)
    (h : Tx.forEach (s.db.leases.filter fun l => p l) (retireLeaseTx now) s = .ok (u, s')) :
    s.db.Retirable p now := by
  intro l hl hp
  exact retireLeases_current S (routes_nodup hk s.valid p) h l
    (List.mem_filter.mpr ⟨hl, decide_eq_true hp⟩)

theorem revokeAllLeases_succeeds (S : Store) {lookup : LookupDigest}
    (hret : s.db.Retirable (fun l => l.installationLookup = lookup) now)
    (hrts : s.db.Unrouted fun l => l.installationLookup = lookup) :
    Succeeds (revokeAllLeases lookup now) s := by
  refine .bind markDeliveryJobsSafetyForInstallationTx_succeeds fun _ s1 h1 => ?_
  obtain ⟨hdb1, -⟩ := exec_ok.mp h1
  refine .bind (query_succeeds _) fun leases s2 h2 => ?_
  obtain ⟨rfl, rfl⟩ := query_ok.mp h2
  have hret1 : s1.db.Retirable (fun l => l.installationLookup = lookup) now := by
    rw [hdb1]
    exact hret
  refine .bind (retireSelected_succeeds hret1) fun _ s3 h3 => ?_
  have hrest := retireLeases_rests (S := S) (R := fun _ => True) (fun _ _ => trivial) _ _ _ h3
  have hfr := (Moves.forEach (fun l _ => retireLeaseTx_keeps) _ _ _ h3).frame
  refine exec_succeeds (s3.valid.deleteLeases (hrts.congr ?_ ?_))
  · rw [Session.routes_of_frame hfr, hdb1]
    rfl
  · rw [hrest.leases, hdb1]
    rfl

theorem markExpiredDeliveryJobsTx_succeeds (hnow : now ≠ zeroTime) :
    Succeeds (markExpiredDeliveryJobsTx now) s :=
  .bind (.require hnow _) fun _ s' _ => exec_succeeds (s'.valid.finalizeJobs fun j hj => by
    simp [expiredJobReason, hj])

theorem markExpiringAuthorityDeliveryJobs_succeeds :
    Succeeds (markExpiringAuthorityDeliveryJobs at_ markedAt) s := by
  refine .bind (query_succeeds _) fun _ _ _ => .bind (.forEach (I := fun _ _ => True)
    (fun l _ t _ => ⟨markDeliveryJobsSafetyForLeaseTx_succeeds, fun _ _ => trivial⟩) trivial)
    fun _ _ _ => .bind (query_succeeds _) fun _ _ _ => .forEach (I := fun _ _ => True)
    (fun i _ t _ => ⟨markDeliveryJobsSafetyForInstallationTx_succeeds, fun _ _ => trivial⟩)
    trivial

theorem completeDeliveryMarkersTx_succeeds : Succeeds completeDeliveryMarkersTx s :=
  .bind (query_succeeds _) fun _ _ _ => .forEach (I := fun _ _ => True)
    (fun _ _ t _ => ⟨exec_succeeds (t.valid.deleteJobs _), fun _ _ => trivial⟩) trivial

theorem tombstoneExpiredInstallations_succeeds
    (hep : ∀ i ∈ s.db.installations, i.policyEpoch ≤ maxSafeInteger) :
    Succeeds (tombstoneExpiredInstallations now) s := by
  refine .bind (query_succeeds _) fun rows s1 h1 => ?_
  obtain ⟨rfl, rfl⟩ := query_ok.mp h1
  refine .forEach (I := fun rest _ => ∀ i ∈ rest, i ∈ s.db.installations)
    (fun i rest t hI => ⟨?_, fun _ _ i' hi' => hI i' (.tail _ hi')⟩)
    fun i hi => (List.mem_filter.mp hi).1
  have hi := hI i (.head _)
  exact upsertDeletionTombstone_succeeds (s.valid.installations.key_version i hi)
    ⟨s.valid.installations.policy_epoch_pos i hi, hep i hi⟩

theorem deleteExpiredVaultRows_succeeds {clock markedAt : Time} (hk : s.db.Kept S clock)
    (hnow : now ≠ zeroTime) (hret : s.db.Retirable (fun l => l.expiresAt ≤ now) now)
    (hrts : s.db.Unrouted fun l => l.expiresAt ≤ now) :
    Succeeds (deleteExpiredVaultRows now markedAt) s := by
  have hep : ∀ i ∈ s.db.installations, i.policyEpoch ≤ maxSafeInteger := fun i hi => by
    obtain ⟨_, h⟩ := hk.installations i hi
    exact h.policy_epoch
  refine .bind (.bind (query_succeeds _) fun rows s0 h0 => ?_) fun _ s1 h1 => ?_
  · obtain ⟨rfl, rfl⟩ := query_ok.mp h0
    exact retireSelected_succeeds hret
  have hr1 := tombstoneExpiredLeases_rests S h1
  refine .bind (tombstoneExpiredInstallations_succeeds (hr1.installations ▸ hep))
    fun _ s2 h2 => .bind (markExpiredDeliveryJobsTx_succeeds hnow) fun _ s3 h3 =>
    .bind markExpiringAuthorityDeliveryJobs_succeeds fun _ s4 h4 =>
    .bind completeDeliveryMarkersTx_succeeds fun _ s5 h5 =>
    .bind (exec_succeeds (s5.valid.deleteHistory _)) fun _ s6 h6 => ?_
  have hrest : s.Rests S (s.db.RoutesOf fun l => l.expiresAt ≤ now) now s6 :=
    hr1.trans <| (tombstoneExpiredInstallations_rests _ _ _ h2).trans <|
      (markExpiredDeliveryJobsTx_rests _ _ _ h3).trans <|
      (markExpiringAuthorityDeliveryJobs_rests _ _ _ h4).trans <|
      (completeDeliveryMarkersTx_rests _ _ _ h5).trans <| deleteExpiredHistory_rests _ _ _ h6
  have hfr6 : s6.frame = s5.frame :=
    (exec_keeps (f := fun db => db.deleteHistory fun h => h.expiresAt ≤ now) (fun _ => rfl) _ _ _
      h6).frame
  have hfr : s6.frame = s.frame := by
    rw [hfr6, (completeDeliveryMarkersTx_keeps _ _ _ h5).frame,
      (markExpiringAuthorityDeliveryJobs_keeps _ _ _ h4).frame,
      (markExpiredDeliveryJobsTx_keeps _ _ _ h3).frame,
      (tombstoneExpiredInstallations_keeps _ _ _ h2).frame,
      (tombstoneExpiredLeases_keeps _ _ _ h1).frame]
  have hrts6 := hrts.congr (Session.routes_of_frame hfr) hrest.leases
  refine .bind (exec_succeeds (s6.valid.deleteLeases hrts6)) fun _ s7 h7 => ?_
  obtain ⟨hdb7, -⟩ := exec_ok.mp h7
  refine .bind (exec_succeeds (s7.valid.deleteInstallations ?_)) fun _ s8 h8 =>
    exec_succeeds (s8.valid.deleteTombstones _)
  -- A lease expires with its row, so the cascade finds only leases that are gone already.
  intro r hr l hl hid
  rw [hdb7] at hr hl ⊢
  obtain ⟨hl, hlive⟩ := mem_deleteWhere.mp hl
  rintro ⟨i, hi, hexpired, hhome⟩
  rw [hrest.leases] at hl
  change i ∈ s6.db.installations at hi
  rw [hrest.installations] at hi
  obtain ⟨i', hi', hlook, hidentity, hexp⟩ := hk.installation_of_lease hl
  have hsame : i = i' := by
    rcases hhome with he | he
    · exact s.valid.installations.key.eq_of_key_eq hi hi' (he.symm.trans hlook.symm)
    · exact s.valid.installations.identity_key.eq_of_key_eq hi hi' (he.symm.trans hidentity.symm)
  rw [hsame, hexp] at hexpired
  exact hlive hexpired

end Store

end NotificationServer
