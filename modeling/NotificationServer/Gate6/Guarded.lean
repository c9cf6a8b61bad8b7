import NotificationServer.Gate6.Fences
import NotificationServer.Gate6.Reach

/-!
# ACTIVE rows are above their fences

Without A9, every ACTIVE installation row and every ACTIVE lease is strictly
above each deletion fence of its identity that is still live at the latest clock
reading, and an ACTIVE lease is stored on an ACTIVE row.  Statements are tracked
by what they can add to `deletion_tombstones` (`Session.Fences`); a transaction
that fences a row also deletes it or takes it out of ACTIVE.
-/

namespace NotificationServer

open Relational Tx

variable {at_ expiresAt : Time} {leaseID : Bytes16} {commitment : LookupDigest} {epoch : Nat}
  {allowSameEpoch : Bool} {draw : LeaseDraw} {sub : NormalizedSubscription} {token : Bytes}
  {i : InstallationRow}

variable {s s' : Session} {clock : Time} {kind : DeletionTarget} {identity : LookupDigest}

/-- Every tombstone was there before, or has a target and a fence that `P` allows. -/
def Session.Fences (P : DeletionTarget → LookupDigest → Nat → Prop) (s s' : Session) : Prop :=
  ∀ t ∈ s'.db.deletionTombstones,
    t ∈ s.db.deletionTombstones ∨ P t.targetKind t.targetIdentity t.fenceEpoch

def noFence : DeletionTarget → LookupDigest → Nat → Prop := fun _ _ _ => False

variable {P Q : DeletionTarget → LookupDigest → Nat → Prop}

instance : Std.Refl (Session.Fences P) := ⟨fun _ _ ht => .inl ht⟩

theorem Session.Fences.trans {s1 s2 s3 : Session} (h : s1.Fences P s2) (h' : s2.Fences P s3) :
    s1.Fences P s3 := by
  intro t ht
  rcases h' t ht with ht | hP
  · exact h t ht
  · exact .inr hP

instance : IsTrans Session (Session.Fences P) := ⟨fun _ _ _ h h' => h.trans h'⟩

theorem Session.Fences.mono (h : s.Fences P s')
    (hPQ : ∀ kind identity fence, P kind identity fence → Q kind identity fence) : s.Fences Q s' :=
  fun t ht => (h t ht).imp_right (hPQ _ _ _)

theorem Session.Fences.of_subset (h : s'.db.deletionTombstones ⊆ s.db.deletionTombstones) :
    s.Fences P s' :=
  fun _ ht => .inl (h ht)

theorem Session.Fences.of_exec {f : Db → Db} {u : Unit} (h : exec f s = .ok (u, s'))
    (hf : (f s.db).deletionTombstones = s.db.deletionTombstones) : s.Fences P s' := by
  refine .of_subset fun t ht => ?_
  rw [(exec_ok.mp h).1, hf] at ht
  exact ht

theorem exec_fences {f : Db → Db}
    (hf : ∀ db, (f db).deletionTombstones = db.deletionTombstones) :
    Moves (Session.Fences P) (exec f) :=
  fun s _ _ h => .of_exec h (hf s.db)

namespace Store

variable {S : Store} {now c : Time} {s s' : Session}

theorem upsertDeletionTombstone_fences {kind : DeletionTarget} {identity : LookupDigest}
    {keyVersion : Int} {fence : Nat} (hP : P kind identity fence) :
    Moves (Session.Fences P) (upsertDeletionTombstone kind identity keyVersion fence now) := by
  intro s _ s' h t ht
  rw [(upsertDeletionTombstone_ok h).2] at ht
  rcases mem_upsert.mp ht with ⟨old, hold, hkey, rfl⟩ | ⟨ht, -⟩ | ⟨rfl, -⟩
  · rcases Nat.lt_or_ge fence old.fenceEpoch with hlt | hle
    · rw [DeletionTombstoneRow.merge_of_lt hlt]
      exact .inl hold
    · refine .inr ?_
      obtain ⟨rfl, rfl⟩ : old.targetKind = kind ∧ old.targetIdentity = identity :=
        Prod.mk.inj hkey
      have hmerge : old.merge (.proposed old.targetKind old.targetIdentity keyVersion fence now) =
          { old with
            keyVersion := keyVersion, fenceEpoch := fence
            createdAt := now, expiresAt := now + deletionHorizon } := if_pos hle
      rw [hmerge]
      exact hP
  · exact .inl ht
  · exact .inr hP

theorem requireTombstoneAdvance_ok {kind : DeletionTarget} {identity : LookupDigest} {epoch : Nat}
    {u : Unit} (h : requireTombstoneAdvance kind identity epoch now s = .ok (u, s')) :
    s' = s ∧ ∀ t ∈ s.db.deletionTombstones, t.key = (kind, identity) →
      t.fenceEpoch < epoch ∨ t.expiresAt ≤ now := by
  obtain rfl : s = s' := requireTombstoneAdvance_moves _ _ _ h
  refine ⟨rfl, fun t ht hkey => ?_⟩
  by_contra hcov
  obtain ⟨hfence, hlive⟩ := not_or.mp hcov
  obtain ⟨e, he⟩ := requireTombstoneAdvance_refused ht hkey (Int.not_le.mp hlive)
    (Nat.not_lt.mp hfence)
  rw [he] at h
  cases h

theorem requireLookupKeyBoundTx_fences : Moves (Session.Fences P) S.requireLookupKeyBoundTx := by
  intro s u s' h t ht
  rw [(requireLookupKeyBoundTx_ok.mp h).2.1] at ht
  exact .inl ht

theorem requireRetentionSafeTx_fences :
    Moves (Session.Fences P) (S.requireRetentionSafeTx at_) :=
  .bind requireLookupKeyBoundTx_fences fun _ => .bind query_moves fun _ => .require _ _

theorem markDeliveryJobsSafetyForLeaseTx_fences :
    Moves (Session.Fences P) (markDeliveryJobsSafetyForLeaseTx at_ leaseID) :=
  exec_fences fun _ => rfl

theorem markDeliveryJobsSafetyForInstallationTx_fences :
    Moves (Session.Fences P) (markDeliveryJobsSafetyForInstallationTx at_ lookup) :=
  exec_fences fun _ => rfl

theorem retireLeaseTx_fences {lease : LeaseRow}
    (hP : P .route lease.routeIdentity lease.routeKeyEpoch) :
    Moves (Session.Fences P) (retireLeaseTx now lease) :=
  .require_bind fun _ => .bind (.require_bind fun _ => .bind query_moves fun _ =>
    .require_bind fun _ => exec_fences fun _ => rfl)
    fun _ => upsertDeletionTombstone_fences hP

theorem recordRouteKeyHistory_fences :
    Moves (Session.Fences P)
      (recordRouteKeyHistory identity commitment epoch allowSameEpoch at_ expiresAt) :=
  .require_bind fun _ => .bind (exec_fences fun _ => rfl) fun _ =>
    .bind query_moves fun _ => .require_bind fun _ => .require_bind fun _ =>
    .bind query_moves fun _ => .require_bind fun _ =>
    .bind (exec_fences fun _ => rfl) fun _ => exec_fences fun _ => rfl

theorem eraseLease_fences {markedAt : Time} {lease : LeaseRow}
    (hP : P .route lease.routeIdentity lease.routeKeyEpoch) :
    Moves (Session.Fences P) (S.eraseLease now markedAt lease) :=
  .bind markDeliveryJobsSafetyForLeaseTx_fences fun _ => .bind expect_moves fun _ =>
    .bind recordRouteKeyHistory_fences fun _ =>
    .bind (upsertDeletionTombstone_fences hP) fun _ => exec_fences fun _ => rfl

theorem prepareInstallationTx_fences {existing : InstallationRow} :
    Moves (Session.Fences P) (S.prepareInstallationTx request at_ markedAt existing) :=
  .bind apnsTokenChanged_moves fun _ => .bind
    (.when markDeliveryJobsSafetyForInstallationTx_fences) fun _ =>
    .when (exec_fences fun _ => rfl)

end Store

/-- No fence of the target that is live at `clock` covers `epoch`. -/
def Db.Above (db : Db) (clock : Time) (kind : DeletionTarget) (identity : LookupDigest)
    (epoch : Nat) : Prop :=
  ∀ t ∈ db.deletionTombstones, t.key = (kind, identity) → t.fenceEpoch < epoch ∨ t.expiresAt ≤ clock

def Db.Housed (db : Db) (l : LeaseRow) : Prop :=
  ∃ i ∈ db.installations, i.installationLookup = l.installationLookup ∧ i.state = .active

structure Db.Guarded (clock : Time) (db : Db) : Prop where
  leases : ∀ l ∈ db.leases, db.Housed l → db.Above clock .route l.routeIdentity l.routeKeyEpoch
  rows : ∀ i ∈ db.installations, i.state = .active →
    db.Above clock .installation i.installationIdentity i.policyEpoch
  homes : ∀ l ∈ db.leases, l.state = .active →
    ∀ i ∈ db.installations, i.installationLookup = l.installationLookup → i.state = .active

theorem Db.Above.not_fenced {db : Db} {now : Time} {epoch : Nat}
    (h : db.Above clock kind identity epoch) (hclk : clock ≤ now) :
    ¬ db.Fenced kind identity epoch now := by
  rintro ⟨t, ht, hkey, hlive, hfence⟩
  rcases h t ht hkey with habv | hexp
  · exact absurd hfence (Nat.not_le.mpr habv)
  · lia

theorem Db.Above.fences {epoch : Nat} (h : s.db.Above clock kind identity epoch)
    (hfen : s.Fences P s') (hP : ∀ fence, ¬ P kind identity fence) :
    s'.db.Above clock kind identity epoch := by
  intro t ht hkey
  rcases hfen t ht with ht | hnew
  · exact h t ht hkey
  · obtain ⟨rfl, rfl⟩ : t.targetKind = kind ∧ t.targetIdentity = identity := Prod.mk.inj hkey
    exact absurd hnew (hP _)

theorem Db.Above.mono {db : Db} {clock' : Time} {epoch : Nat}
    (h : db.Above clock kind identity epoch) (hclk : clock ≤ clock') :
    db.Above clock' kind identity epoch := by
  intro t ht hkey
  rcases h t ht hkey with habv | hexp
  · exact .inl habv
  · exact .inr (Int.le_trans hexp hclk)

theorem Db.Guarded.mono {db : Db} {clock' : Time} (h : db.Guarded clock) (hclk : clock ≤ clock') :
    db.Guarded clock' where
  leases := fun l hl hhoused => (h.leases l hl hhoused).mono hclk
  rows := fun i hi hact => (h.rows i hi hact).mono hclk
  homes := h.homes

/-- Statements whose ACTIVE rows and leases were there before and are not what they fence. -/
theorem Db.Guarded.next (h : s.db.Guarded clock) (hfen : s.Fences P s')
    (hls : ∀ l' ∈ s'.db.leases, s'.db.Housed l' → ∃ l ∈ s.db.leases, s.db.Housed l ∧
      l'.routeIdentity = l.routeIdentity ∧ l'.routeKeyEpoch = l.routeKeyEpoch ∧
      ∀ fence, ¬ P .route l.routeIdentity fence)
    (hrows : ∀ i' ∈ s'.db.installations, i'.state = .active → ∃ i ∈ s.db.installations,
      i.state = .active ∧ i'.installationIdentity = i.installationIdentity ∧
      i'.policyEpoch = i.policyEpoch ∧ ∀ fence, ¬ P .installation i.installationIdentity fence)
    (hhomes : ∀ l' ∈ s'.db.leases, l'.state = .active → ∀ i' ∈ s'.db.installations,
      i'.installationLookup = l'.installationLookup → i'.state = .active) :
    s'.db.Guarded clock where
  leases := by
    intro l' hl' hhoused'
    obtain ⟨l, hl, hhoused, hrt, hep, hP⟩ := hls l' hl' hhoused'
    rw [hrt, hep]
    exact (h.leases l hl hhoused).fences hfen hP
  rows := by
    intro i' hi' hact'
    obtain ⟨i, hi, hact, hid, hep, hP⟩ := hrows i' hi' hact'
    rw [hid, hep]
    exact (h.rows i hi hact).fences hfen hP
  homes := hhomes

/-- What is fenced when the leases `p` and the installation rows `q` are retired. -/
def Db.Retired (db : Db) (p : LeaseRow → Prop) (q : InstallationRow → Prop) :
    DeletionTarget → LookupDigest → Nat → Prop
  | .route, route, _ => db.RoutesOf p route
  | .installation, identity, _ => ∃ i ∈ db.installations, q i ∧ i.installationIdentity = identity

/-- A transaction that fences rows it retires: an ACTIVE lease or row that stays is none of them. -/
theorem Db.Guarded.retired {p : LeaseRow → Prop} {q : InstallationRow → Prop}
    (h : s.db.Guarded clock)
    (hrts : ∀ l ∈ s.db.leases, ∀ l' ∈ s.db.leases, l.routeIdentity = l'.routeIdentity → l = l')
    (hfen : s.Fences (s.db.Retired p q) s')
    (hls : ∀ l ∈ s'.db.leases, l ∈ s.db.leases ∧ ¬ p l)
    (hrows : ∀ i ∈ s'.db.installations, i.state = .active → i ∈ s.db.installations ∧ ¬ q i)
    (hhomes : ∀ l ∈ s'.db.leases, l.state = .active → ∀ i ∈ s'.db.installations,
      i.installationLookup = l.installationLookup → i ∈ s.db.installations) :
    s'.db.Guarded clock := by
  refine h.next hfen ?_ ?_ ?_
  · rintro l hl ⟨home, hhome, hlook, hact⟩
    obtain ⟨hmem, hp⟩ := hls l hl
    refine ⟨l, hmem, ⟨home, (hrows home hhome hact).1, hlook, hact⟩, rfl, rfl, ?_⟩
    rintro _ ⟨retired, hretired, hpr, hrt⟩
    exact hp (hrts retired hretired l hmem hrt ▸ hpr)
  · intro i hi hact
    obtain ⟨hmem, hq⟩ := hrows i hi hact
    refine ⟨i, hmem, hact, rfl, rfl, ?_⟩
    rintro _ ⟨retired, hretired, hqr, hid⟩
    exact hq (s.valid.installations.identity_key.eq_of_key_eq hretired hmem hid ▸ hqr)
  · intro l hl hact i hi hlook
    exact h.homes l (hls l hl).1 hact i (hhomes l hl hact i hi hlook) hlook

/-- Statements at rest on the routing tables that fence nothing. -/
theorem Db.Guarded.rests {S : Store} {R : LookupDigest → Prop} {now : Time} (h : s.db.Guarded clock)
    (hrest : s.Rests S R now s') (hfen : s.Fences noFence s') : s'.db.Guarded clock := by
  refine h.next hfen ?_ ?_ ?_
  · rw [hrest.leases]
    rintro l hl ⟨home, hhome, hlook, hact⟩
    rw [hrest.installations] at hhome
    exact ⟨l, hl, ⟨home, hhome, hlook, hact⟩, rfl, rfl, fun _ => id⟩
  · rw [hrest.installations]
    exact fun i hi hact => ⟨i, hi, hact, rfl, rfl, fun _ => id⟩
  · rw [hrest.leases, hrest.installations]
    exact h.homes

namespace Store

variable {S : Store} {now c : Time} {s s' : Session} {lookup : LookupDigest} {u : Unit}
  {control : PolicyControl} {markedAt : Time} {topics : List Bytes}

theorem revokeAllLeases_fences {q : InstallationRow → Prop}
    (h : revokeAllLeases lookup now s = .ok (u, s')) :
    s.Fences (s.db.Retired (fun l => l.installationLookup = lookup) q) s' := by
  simp only [revokeAllLeases, bind_ok, query_ok] at h
  obtain ⟨_, s1, hmark, _, _, ⟨rfl, rfl⟩, _, s2, hloop, hdel⟩ := h
  have hls : s1.db.leases = s.db.leases := by rw [(exec_ok.mp hmark).1]; rfl
  refine (markDeliveryJobsSafetyForInstallationTx_fences _ _ _ hmark).trans <|
    Session.Fences.trans (Moves.forEach (fun l hl => retireLeaseTx_fences ?_) _ _ _ hloop)
      (.of_exec hdel rfl)
  rw [List.mem_filter, hls] at hl
  exact ⟨l, hl.1, of_decide_eq_true hl.2, rfl⟩

theorem advanceUnknownPolicyTx_guarded {controlExpiresAt : Time} (hk : s.db.Kept S c)
    (hg : s.db.Guarded c)
    (h : S.advanceUnknownPolicyTx control controlExpiresAt now s = .ok (u, s')) :
    s'.db.Guarded c := by
  unfold advanceUnknownPolicyTx at h
  cases hst : control.state with
  | active =>
    simp only [hst] at h
    obtain ⟨-, rfl⟩ := pure_ok.mp h
    exact hg
  | revoked =>
    simp only [hst] at h
    obtain ⟨_, s1, hinsert, hfence⟩ := bind_ok.mp h
    obtain ⟨hdb1, -⟩ := exec_ok.mp hinsert
    have hnew : ∀ i ∈ s1.db.installations, i.state = .active → i ∈ s.db.installations := by
      intro i hi hact
      rw [hdb1] at hi
      rcases List.mem_cons.mp hi with rfl | hi
      · exact absurd hact (by simp [fenceRow])
      · exact hi
    have hfenc : S.fenceRow control controlExpiresAt now ∈ s1.db.installations := by
      rw [hdb1]
      exact .head _
    -- the new row is REVOKING and no lease is stored on its lookup
    have hg1 : s1.db.Guarded c := by
      refine hg.next (Session.Fences.of_exec (P := noFence) hinsert rfl) ?_ ?_ ?_
      · rintro l hl ⟨home, hhome, hlook, hact⟩
        rw [hdb1] at hl
        exact ⟨l, hl, ⟨home, hnew home hhome hact, hlook, hact⟩, rfl, rfl, fun _ => id⟩
      · exact fun i hi hact => ⟨i, hnew i hi hact, hact, rfl, rfl, fun _ => id⟩
      intro l hl hact i hi hlook
      have hl' : l ∈ s.db.leases := by
        rw [hdb1] at hl
        exact hl
      obtain ⟨home, hhome, hhomeLookup, -⟩ := hk.installation_of_lease hl'
      have hhome1 : home ∈ s1.db.installations := by
        rw [hdb1]
        exact .tail _ hhome
      rw [s1.valid.installations.key.eq_of_key_eq hi hhome1 (hlook.trans hhomeLookup.symm)]
      exact hg.homes l hl' hact home hhome hhomeLookup
    have hfen : s1.Fences (s1.db.Retired (fun _ => False)
        (· = S.fenceRow control controlExpiresAt now)) s' :=
      upsertDeletionTombstone_fences ⟨_, hfenc, rfl, rfl⟩ _ _ _ hfence
    obtain ⟨hinst, hls⟩ : s'.db.installations = s1.db.installations ∧
        s'.db.leases = s1.db.leases := by
      have hrest : s1.Rests S (fun _ => False) c s' :=
        upsertDeletionTombstone_rests _ _ _ hfence
      exact ⟨hrest.installations, hrest.leases⟩
    refine hg1.retired ?_ hfen ?_ ?_ ?_
    · intro l hl l' hl' hrt
      rw [hdb1] at hl hl'
      exact hk.route_unique s.valid hl hl' hrt
    · rw [hls]
      exact fun l hl => ⟨hl, id⟩
    · rw [hinst]
      intro i hi hact
      refine ⟨hi, ?_⟩
      rintro rfl
      exact absurd hact (by simp [fenceRow])
    · rw [hinst]
      exact fun _ _ _ i hi _ => hi

theorem advanceStoredPolicyTx_guarded {controlExpiresAt : Time} {existing : InstallationRow}
    (hk : s.db.Kept S c) (hg : s.db.Guarded c) (hexis : existing ∈ s.db.installations)
    (h : advanceStoredPolicyTx control controlExpiresAt now existing s = .ok (u, s')) :
    s'.db.Guarded c := by
  unfold advanceStoredPolicyTx at h
  cases hst : control.state with
  | revoked =>
    simp only [hst, bind_ok] at h
    obtain ⟨_, s1, hrevoke, _, s2, hfence, hupdate⟩ := h
    have hretired : s.db.Retired (fun l => l.installationLookup = existing.installationLookup)
        (· = existing) .installation existing.installationIdentity control.policyEpoch :=
      ⟨existing, hexis, rfl, rfl⟩
    have hfen : s.Fences (s.db.Retired
        (fun l => l.installationLookup = existing.installationLookup) (· = existing)) s' :=
      (revokeAllLeases_fences hrevoke).trans <|
        (upsertDeletionTombstone_fences hretired _ _ _ hfence).trans (.of_exec hupdate rfl)
    obtain ⟨t, hrest, hdb1⟩ := revokeAllLeases_ok S hrevoke
    have hrest2 : s1.Rests S (fun _ => False) c s2 :=
      upsertDeletionTombstone_rests _ _ _ hfence
    obtain ⟨hdb', -⟩ := exec_ok.mp hupdate
    have hls : s'.db.leases =
        deleteWhere (fun l => l.installationLookup = existing.installationLookup) s.db.leases := by
      rw [hdb']
      simp only [Db.updateInstallation, hrest2.leases, hdb1, Db.deleteLeases, hrest.leases]
    have hrows : s'.db.installations =
        updateWhere (fun i => i.installationLookup = existing.installationLookup)
          (.revoking control controlExpiresAt now) s.db.installations := by
      rw [hdb']
      simp only [Db.updateInstallation, hrest2.installations, hdb1, Db.deleteLeases,
        hrest.installations]
    refine hg.retired (fun l hl l' hl' => hk.route_unique s.valid hl hl') hfen ?_ ?_ ?_
    · rw [hls]
      exact fun l hl => mem_deleteWhere.mp hl
    · rw [hrows]
      intro i hi hact
      rcases mem_updateWhere.mp hi with ⟨old, -, -, rfl⟩ | ⟨hi, hne⟩
      · exact absurd hact (by simp [InstallationRow.revoking])
      · exact ⟨hi, fun heq => hne (heq ▸ rfl)⟩
    · rw [hls, hrows]
      intro l hl _ i hi hlook
      rcases mem_updateWhere.mp hi with ⟨old, -, hold, rfl⟩ | ⟨hi, -⟩
      · exact absurd (hlook.symm.trans hold) (mem_deleteWhere.mp hl).2
      · exact hi
  | active =>
    simp only [hst, bind_ok, require_ok] at h
    obtain ⟨_, _, ⟨-, rfl⟩, _, s1, hrow, hls⟩ := h
    obtain ⟨hdb1, -⟩ := exec_ok.mp hrow
    obtain ⟨hdb', -⟩ := exec_ok.mp hls
    have hfen : s.Fences noFence s' :=
      (Session.Fences.of_exec (P := noFence) hrow rfl).trans
        (.of_exec hls rfl)
    -- the leases and the row of the installation leave ACTIVE together
    have hkept : ∀ l ∈ s'.db.leases, l.state = .active →
        l ∈ s.db.leases ∧ l.installationLookup ≠ existing.installationLookup := by
      intro l hl hact
      rw [hdb', hdb1] at hl
      rcases mem_updateWhere.mp hl with ⟨old, -, -, rfl⟩ | ⟨hl, hne⟩
      · exact absurd hact (by simp [LeaseRow.awaiting])
      · exact ⟨hl, hne⟩
    have hinst : s'.db.installations =
        updateWhere (fun i => i.installationLookup = existing.installationLookup)
          (.awaiting control controlExpiresAt now) s.db.installations := by
      rw [hdb', hdb1]
      rfl
    refine hg.next hfen ?_ ?_ ?_
    · rintro l hl ⟨home, hhome, hlook, hact⟩
      rw [hinst] at hhome
      rcases mem_updateWhere.mp hhome with ⟨old, -, -, rfl⟩ | ⟨hhome, hne⟩
      · exact absurd hact (by simp [InstallationRow.awaiting])
      rw [hdb', hdb1] at hl
      rcases mem_updateWhere.mp hl with ⟨old, -, hold, rfl⟩ | ⟨hl, -⟩
      · exact absurd (hlook.trans hold) hne
      · exact ⟨l, hl, ⟨home, hhome, hlook, hact⟩, rfl, rfl, fun _ => id⟩
    · rw [hinst]
      intro i hi hact
      rcases mem_updateWhere.mp hi with ⟨old, -, -, rfl⟩ | ⟨hi, -⟩
      · exact absurd hact (by simp [InstallationRow.awaiting])
      · exact ⟨i, hi, hact, rfl, rfl, fun _ => id⟩
    · rw [hinst]
      intro l hl hact i hi hlook
      obtain ⟨hmem, hne⟩ := hkept l hl hact
      rcases mem_updateWhere.mp hi with ⟨old, -, hold, rfl⟩ | ⟨hi, -⟩
      · exact absurd (hlook.symm.trans hold) hne
      · exact hg.homes l hmem hact i hi hlook

theorem advancePolicy_guarded (hk : s.db.Kept S c) (hg : s.db.Guarded c)
    (h : S.advancePolicy now control s = .ok (u, s')) : s'.db.Guarded c := by
  simp only [advancePolicy, advancePolicyTx, mapError_ok, bind_ok, require_ok, expect_ok] at h
  obtain ⟨_, _, ⟨-, rfl⟩, _, _, ⟨-, rfl⟩, expires, _, ⟨-, rfl⟩, _, s1, hguard, existing, s2, hfind,
    hadv⟩ := h
  obtain ⟨rfl, hsome, -⟩ := findInstallation_ok hfind
  have hrest : s.Rests S (fun _ => False) c s2 ∧ s.Fences noFence s2 := by
    unfold policyGuardTx at hguard
    cases hst : control.state with
    | active =>
      rw [hst] at hguard
      exact ⟨requireRetentionSafeTx_rests _ _ _ hguard,
        requireRetentionSafeTx_fences _ _ _ hguard⟩
    | revoked =>
      rw [hst] at hguard
      exact ⟨requireLookupKeyBoundTx_rests _ _ _ hguard,
        requireLookupKeyBoundTx_fences _ _ _ hguard⟩
  have hk2 := hrest.1.preserves le_rfl hk
  have hg2 := hg.rests hrest.1 hrest.2
  cases existing with
  | none => exact advanceUnknownPolicyTx_guarded hk2 hg2 hadv
  | some row =>
    simp only [advanceFoundPolicyTx, bind_ok, require_ok, ite_ok, fail_ok, and_false,
      false_or] at hadv
    obtain ⟨_, _, ⟨-, rfl⟩, -, ⟨-, -, rfl⟩ | ⟨-, hsto⟩⟩ := hadv
    · exact hg2
    · exact advanceStoredPolicyTx_guarded hk2 hg2 (hsome row rfl).1 hsto

theorem tombstoneExpiredLeases_fences
    (hP : ∀ l ∈ s.db.leases, l.expiresAt ≤ now → P .route l.routeIdentity l.routeKeyEpoch)
    (h : tombstoneExpiredLeases now s = .ok (u, s')) : s.Fences P s' := by
  simp only [tombstoneExpiredLeases, bind_ok, query_ok] at h
  obtain ⟨_, _, ⟨rfl, rfl⟩, h⟩ := h
  refine Moves.forEach (fun l hl => retireLeaseTx_fences ?_) _ _ _ h
  rw [List.mem_filter] at hl
  exact hP l hl.1 (of_decide_eq_true hl.2)

theorem tombstoneExpiredInstallations_fences (hP : ∀ i ∈ s.db.installations, i.expiresAt ≤ now →
      P .installation i.installationIdentity i.policyEpoch)
    (h : tombstoneExpiredInstallations now s = .ok (u, s')) : s.Fences P s' := by
  simp only [tombstoneExpiredInstallations, bind_ok, query_ok] at h
  obtain ⟨_, _, ⟨rfl, rfl⟩, h⟩ := h
  refine Moves.forEach (fun i hi => upsertDeletionTombstone_fences ?_) _ _ _ h
  rw [List.mem_filter] at hi
  exact hP i hi.1 (of_decide_eq_true hi.2)

theorem purgeTombstones_fences : Moves (Session.Fences P) (purgeTombstones now) := by
  intro s _ s' h
  refine .of_subset fun t ht => ?_
  rw [purgeTombstones_ok h] at ht
  exact (mem_deleteWhere.mp ht).1

theorem markExpiredDeliveryJobsTx_fences :
    Moves (Session.Fences P) (markExpiredDeliveryJobsTx at_) :=
  .require_bind fun _ => exec_fences fun _ => rfl

theorem markExpiringAuthorityDeliveryJobs_fences :
    Moves (Session.Fences P) (markExpiringAuthorityDeliveryJobs at_ markedAt) :=
  .bind query_moves fun _ =>
    .bind (.forEach fun _ _ => markDeliveryJobsSafetyForLeaseTx_fences) fun _ =>
    .bind query_moves fun _ =>
    .forEach fun _ _ => markDeliveryJobsSafetyForInstallationTx_fences

theorem completeDeliveryMarkersTx_fences : Moves (Session.Fences P) completeDeliveryMarkersTx :=
  .bind query_moves fun _ => .forEach fun _ _ => exec_fences fun _ => rfl

theorem deleteExpiredVaultRows_fences (S : Store)
    (h : deleteExpiredVaultRows now markedAt s = .ok (u, s')) :
    s.Fences (s.db.Retired (fun l => l.expiresAt ≤ now) fun i => i.expiresAt ≤ now) s' := by
  simp only [deleteExpiredVaultRows, bind_ok] at h
  obtain ⟨_, s1, hrts, _, s2, hrows, _, s3, hexp, _, s4, hmark, _, s5, hcomp, _, s6,
    hhist, _, s7, hls, _, s8, hinst, hpurge⟩ := h
  have hsame := (tombstoneExpiredLeases_rests S hrts).installations
  have h1 : s.Fences (s.db.Retired (fun l => l.expiresAt ≤ now) fun i => i.expiresAt ≤ now) s1 :=
    tombstoneExpiredLeases_fences (fun l hl hle => ⟨l, hl, hle, rfl⟩) hrts
  have h2 :
      s1.Fences (s.db.Retired (fun l => l.expiresAt ≤ now) fun i => i.expiresAt ≤ now) s2 := by
    refine tombstoneExpiredInstallations_fences ?_ hrows
    rw [hsame]
    exact fun i hi hle => ⟨i, hi, hle, rfl⟩
  exact h1.trans <| h2.trans <| (markExpiredDeliveryJobsTx_fences _ _ _ hexp).trans <|
    (markExpiringAuthorityDeliveryJobs_fences _ _ _ hmark).trans <|
    (completeDeliveryMarkersTx_fences _ _ _ hcomp).trans <|
    Session.Fences.trans (.of_exec hhist rfl) <| Session.Fences.trans (.of_exec hls rfl) <|
    Session.Fences.trans (.of_exec hinst rfl) (purgeTombstones_fences _ _ _ hpurge)

theorem sweepTx_guarded {clock : SweepClock} {outcome : SweepOutcome} (hk : s.db.Kept S c)
    (hg : s.db.Guarded c) (h : S.sweepTx clock s = .ok (outcome, s')) : s'.db.Guarded c := by
  have hswept := (sweepTx_ok h).1
  simp only [sweepTx, mapError_ok, bind_ok, query_ok, pure_ok] at h
  obtain ⟨_, s0, hbd, _, s1, hdel, _, _, ⟨rfl, rfl⟩, _, s2, hrec, -, rfl⟩ := h
  have hfen : s.Fences (s.db.Retired (fun l => l.expiresAt ≤ clock.startedAt)
      fun i => i.expiresAt ≤ clock.startedAt) s2 := by
    have h1 := deleteExpiredVaultRows_fences S hdel
    rw [(requireLookupKeyBoundTx_ok.mp hbd).2.1] at h1
    exact (requireLookupKeyBoundTx_fences _ _ _ hbd).trans (h1.trans (.of_exec hrec rfl))
  refine hg.retired (fun l hl l' hl' => hk.route_unique s.valid hl hl') hfen ?_ ?_ ?_
  · intro l hl
    obtain ⟨hl, hlive, -⟩ := (hswept.leases l).mp hl
    exact ⟨hl, Int.not_le.mpr hlive⟩
  · rw [hswept.installations]
    exact fun i hi _ => mem_deleteWhere.mp hi
  · rw [hswept.installations]
    exact fun _ _ _ i hi _ => (mem_deleteWhere.mp hi).1

theorem eraseInvalidAPNSToken_guarded {token : Bytes} {r : Option Unit} (hk : s.db.Kept S c)
    (hg : s.db.Guarded c) (h : S.eraseInvalidAPNSToken now lookup token s = .ok (r, s')) :
    s'.db.Guarded c := by
  obtain ⟨-, rfl⟩ | ⟨-, -, s0, i, stored, hbd, hi, rfl, -, -, hera⟩ :=
    eraseInvalidAPNSToken_ok h
  · exact hg
  have hrest : s.Rests S (fun _ => False) c s0 := requireLookupKeyBoundTx_rests _ _ _ hbd
  have hk0 := hrest.preserves le_rfl hk
  have hg0 := hg.rests hrest (requireLookupKeyBoundTx_fences _ _ _ hbd)
  have hi0 : i ∈ s0.db.installations := by
    rw [(requireLookupKeyBoundTx_ok.mp hbd).2.1]
    exact hi
  have he := eraseInstallationTx_ok S hera
  have hretired : s0.db.Retired (fun l => l.installationLookup = i.installationLookup) (· = i)
      .installation i.installationIdentity i.policyEpoch := ⟨i, hi0, rfl, rfl⟩
  have hfen : s0.Fences (s0.db.Retired (fun l => l.installationLookup = i.installationLookup)
      (· = i)) s' := by
    simp only [eraseInstallationTx, bind_ok, query_ok] at hera
    obtain ⟨_, _, ⟨rfl, rfl⟩, _, s1, hretire, _, s2, hrow, _, s3, hmark, _, s4, hls, hfence⟩ :=
      hera
    refine Session.Fences.trans (Moves.forEach (fun l hl => retireLeaseTx_fences ?_) _ _ _
      hretire) <| Session.Fences.trans (.of_exec hrow rfl) <|
      (markDeliveryJobsSafetyForInstallationTx_fences _ _ _ hmark).trans <|
      Session.Fences.trans (.of_exec hls rfl)
        (upsertDeletionTombstone_fences hretired _ _ _ hfence)
    rw [List.mem_filter] at hl
    exact ⟨l, hl.1, of_decide_eq_true hl.2, rfl⟩
  refine hg0.retired (fun l hl l' hl' => hk0.route_unique s0.valid hl hl') hfen ?_ ?_ ?_
  · rw [he.leases]
    exact fun l hl => mem_deleteWhere.mp hl
  · rw [he.installations]
    intro row hrow hact
    rcases mem_updateWhere.mp hrow with ⟨old, -, -, rfl⟩ | ⟨hrow, hne⟩
    · exact absurd hact (by simp [InstallationRow.erased])
    · exact ⟨hrow, fun heq => hne (heq ▸ rfl)⟩
  · rw [he.installations, he.leases]
    intro l hl _ row hrow hlook
    rcases mem_updateWhere.mp hrow with ⟨old, -, hold, rfl⟩ | ⟨hrow, -⟩
    · exact absurd (hlook.symm.trans hold) (mem_deleteWhere.mp hl).2
    · exact hrow

theorem work_guarded {w : WorkerUpdate} (hg : s.db.Guarded c)
    (h : exec (Db.work S.encryption w) s = .ok (u, s')) : s'.db.Guarded c := by
  obtain ⟨hdb, -⟩ := exec_ok.mp h
  -- a row or a lease that is ACTIVE afterwards was ACTIVE and is not blocked by the step
  have hrow : ∀ i : InstallationRow, (i.worked w).state = .active → i.worked w = i := by
    intro i hact
    unfold InstallationRow.worked at hact ⊢
    cases hblocked : w.blockedAt i.installationLookup with
    | none => rfl
    | some t =>
      rw [hblocked] at hact
      cases hact
  have hls : ∀ l : LeaseRow, (l.worked S.encryption w).state = .active →
      l.state = .active ∧ w.blockedAt l.installationLookup = none := by
    intro l hact
    simp only [LeaseRow.worked] at hact
    cases hblocked : w.blockedAt l.installationLookup with
    | none =>
      rw [hblocked] at hact
      by_cases hexha : w.exhausted l.leaseID = true
      · simp [hexha] at hact
      · simp only [Option.isSome_none, Bool.false_eq_true, if_false, if_neg hexha] at hact
        exact ⟨hact, rfl⟩
    | some t => simp [hblocked] at hact
  have hfen : s.Fences noFence s' := .of_exec h rfl
  refine hg.next hfen ?_ ?_ ?_
  · rw [hdb]
    rintro l' hl' ⟨home', hhome', hlook, hact'⟩
    obtain ⟨l, hl, rfl⟩ := List.mem_map.mp hl'
    obtain ⟨home, hhome, rfl⟩ := List.mem_map.mp hhome'
    rw [hrow home hact'] at hlook hact'
    exact ⟨l, hl, ⟨home, hhome, hlook, hact'⟩, rfl, rfl, fun _ => id⟩
  · rw [hdb]
    intro i' hi' hact'
    obtain ⟨i, hi, rfl⟩ := List.mem_map.mp hi'
    have hsame := hrow i hact'
    rw [hsame] at hact' ⊢
    exact ⟨i, hi, hact', rfl, rfl, fun _ => id⟩
  · rw [hdb]
    intro l' hl' hact' i' hi' hlook
    obtain ⟨l, hl, rfl⟩ := List.mem_map.mp hl'
    obtain ⟨i, hi, rfl⟩ := List.mem_map.mp hi'
    obtain ⟨hact, hblocked⟩ := hls l hact'
    have hsame : i.installationLookup = l.installationLookup :=
      (worked_sameRow).lookup.symm.trans hlook
    have hrest : i.worked w = i := by
      unfold InstallationRow.worked
      rw [hsame, hblocked]
    rw [hrest]
    exact hg.homes l hl hact i hi hsame

/-- A lease of a listed topic that a refresh at `now` wrote above the live fences of its route. -/
structure FreshLease (S : Store) (id : Bytes32) (lookup : LookupDigest) (topics : List Bytes)
    (now : Time) (db : Db) (l : LeaseRow) : Prop where
  lookup : l.installationLookup = lookup
  route : ∃ topic ∈ topics, l.routeIdentity = S.routeHistoryIdentity id topic
  above : db.Above now .route l.routeIdentity l.routeKeyEpoch

theorem FreshLease.fences {id : Bytes32} {l : LeaseRow}
    (h : FreshLease S id lookup topics now s.db l) (hfen : s.Fences P s')
    (hP : ∀ topic ∈ topics, ∀ fence, ¬ P .route (S.routeHistoryIdentity id topic) fence) :
    FreshLease S id lookup topics now s'.db l := by
  obtain ⟨topic, htop, hrt⟩ := h.route
  refine ⟨h.lookup, h.route, h.above.fences hfen ?_⟩
  rw [hrt]
  exact hP topic htop

/-- One round of the loop over the listed topics. -/
theorem upsertLease_fresh {terms : LeaseTerms} {draw : LeaseDraw} {sub : NormalizedSubscription}
    {existing : Option LeaseRow} (hmem : sub.topic ∈ topics)
    (h : S.upsertLease terms markedAt draw sub existing s = .ok (u, s')) :
    s.Fences noFence s' ∧ ∃ x : LeaseRow,
      x.leaseID = (existing.map fun l => l.leaseID).getD draw.leaseID ∧
      FreshLease S terms.installationID terms.installationLookup topics terms.now s'.db x ∧
      ∀ l ∈ s'.db.leases, l = x ∨ (l ∈ s.db.leases ∧ l.leaseID ≠ x.leaseID) := by
  obtain ⟨nonce, t, hrest, -, hdb⟩ := upsertLease_ok h
  simp only [upsertLease, bind_ok, require_ok] at h
  obtain ⟨_, s1, hadv, _, _, ⟨-, rfl⟩, _, s2, hnonce, _, s3, hrec, hls⟩ := h
  obtain ⟨rfl, habv⟩ := requireTombstoneAdvance_ok hadv
  have hfen : s1.Fences noFence s' :=
    .trans (leaseNonceTx_moves (fun _ => markDeliveryJobsSafetyForLeaseTx_fences) _ _ _ hnonce) <|
      (recordRouteKeyHistory_fences _ _ _ hrec).trans (.of_exec hls rfl)
  refine ⟨hfen, S.leaseRow terms sub ((existing.map fun l => l.leaseID).getD draw.leaseID) nonce,
    rfl, ⟨rfl, ⟨sub.topic, hmem, rfl⟩, ?_⟩, fun l hl => ?_⟩
  · exact Db.Above.fences habv hfen fun _ => id
  · rw [hdb] at hl
    rcases Db.mem_upsertLease hl with rfl | ⟨hl, hne⟩
    · exact .inl rfl
    · exact .inr ⟨hrest.leases ▸ hl, hne⟩

/-- The loop over the listed topics: a lease is one that was there or fresh, and the loaded lease
of a listed topic is fresh. -/
theorem upsertLeases_fresh {terms : LeaseTerms} {random : Bytes → LeaseDraw}
    {normalized : List NormalizedSubscription} {existing : List ExistingLease}
    (htopics : topics = normalized.map fun sub => sub.topic)
    (huniq : Unique (fun e => e.topic) existing)
    (h : Tx.forEach normalized (fun sub => S.upsertLease terms markedAt (random sub.topic) sub
      ((existing.find? fun e => e.topic = sub.topic).map fun e => e.lease)) s = .ok (u, s')) :
    s'.db.installations = s.db.installations ∧ s.Fences noFence s' ∧
      (∀ l ∈ s'.db.leases, l ∈ s.db.leases ∨
        FreshLease S terms.installationID terms.installationLookup topics terms.now s'.db l) ∧
      ∀ e ∈ existing, e.topic ∈ topics → ∀ l ∈ s'.db.leases, l.leaseID = e.lease.leaseID →
        FreshLease S terms.installationID terms.installationLookup topics terms.now s'.db l := by
  have hloop := forEach_ok (I := fun rest t =>
      (∀ sub ∈ rest, sub.topic ∈ topics) ∧
      t.db.installations = s.db.installations ∧ s.Fences noFence t ∧
      (∀ l ∈ t.db.leases, l ∈ s.db.leases ∨
        FreshLease S terms.installationID terms.installationLookup topics terms.now t.db l) ∧
      ∀ e ∈ existing, e.topic ∈ topics → (e.topic ∉ rest.map fun sub => sub.topic) →
        ∀ l ∈ t.db.leases, l.leaseID = e.lease.leaseID →
        FreshLease S terms.installationID terms.installationLookup topics terms.now t.db l)
    (fun sub rest t t' hI hrd => by
      obtain ⟨hmem, hrows, hfen, hls, hloaded⟩ := hI
      obtain ⟨hfen', x, hxID, hx, hupse⟩ :=
        upsertLease_fresh (hmem sub (.head _)) hrd
      have hkeeps {l : LeaseRow} (hl : FreshLease S terms.installationID terms.installationLookup
          topics terms.now t.db l) : FreshLease S terms.installationID terms.installationLookup
          topics terms.now t'.db l := hl.fences hfen' fun _ _ _ => id
      obtain ⟨nonce, t1, hrest, -, hdb⟩ := upsertLease_ok hrd
      refine ⟨fun sub' hsub' => hmem sub' (.tail _ hsub'), ?_,
        hfen.trans hfen', fun l hl => ?_, fun e he htop hdone l hl hid => ?_⟩
      · rw [hdb, ← hrows, ← hrest.installations]
        rfl
      · rcases hupse l hl with rfl | ⟨hl, -⟩
        · exact .inr hx
        · exact (hls l hl).imp_right hkeeps
      · rcases hupse l hl with rfl | ⟨hl, hne⟩
        · exact hx
        · refine hkeeps (hloaded e he htop ?_ l hl hid)
          rw [List.map_cons, List.mem_cons, not_or]
          refine ⟨fun hsame => hne ?_, hdone⟩
          -- the loaded lease of this topic is the one the round rewrote
          have hfind : (existing.find? fun e => e.topic = sub.topic) = some e := by
            rw [← hsame]
            exact huniq.find?_eq_some he
          rw [hxID, hfind, hid]
          rfl)
    ⟨fun sub hsub => htopics ▸ List.mem_map_of_mem hsub, rfl, fun t ht => .inl ht,
      fun l hl => .inl hl, fun e _ htop hnone => absurd (htopics ▸ htop) hnone⟩ h
  obtain ⟨-, hrows, hfen, hls, hloaded⟩ := hloop
  exact ⟨hrows, hfen, hls, fun e he htop => hloaded e he htop (by simp)⟩

/-- The loop over the topics that are not listed any more. -/
theorem eraseLeases_fences {dropped : List ExistingLease}
    (hP : ∀ e ∈ dropped, P .route e.lease.routeIdentity e.lease.routeKeyEpoch)
    (h : Tx.forEach dropped (fun e => S.eraseLease now markedAt e.lease) s = .ok (u, s')) :
    s'.db.installations = s.db.installations ∧ s.Fences P s' ∧ s'.db.leases ⊆ s.db.leases := by
  have hloop := forEach_ok (I := fun rest t => (∀ e ∈ rest, e ∈ dropped) ∧
      t.db.installations = s.db.installations ∧ s.Fences P t ∧ t.db.leases ⊆ s.db.leases)
    (fun e rest t t' hI hrd => by
      obtain ⟨hmem, hrows, hfen, hls⟩ := hI
      obtain ⟨t1, hrest, hdb⟩ := eraseLease_ok hrd
      refine ⟨fun e' he' => hmem e' (.tail _ he'), ?_, hfen.trans
        (eraseLease_fences (hP e (hmem e (.head _))) _ _ _ hrd), fun l hl => ?_⟩
      · rw [hdb, ← hrows, ← hrest.installations]
        rfl
      · rw [hdb] at hl
        have hl := (mem_deleteWhere.mp hl).1
        rw [hrest.leases] at hl
        exact hls hl)
    ⟨fun e he => he, rfl, fun t ht => .inl ht, fun l hl => hl⟩ h
  exact hloop.2

end Store

/-- The invariant for the rows and leases that are not stored under `lookup`. -/
structure Db.GuardedElsewhere (clock : Time) (lookup : LookupDigest) (db : Db) : Prop where
  leases : ∀ l ∈ db.leases, l.installationLookup ≠ lookup → db.Housed l →
    db.Above clock .route l.routeIdentity l.routeKeyEpoch
  rows : ∀ i ∈ db.installations, i.installationLookup ≠ lookup → i.state = .active →
    db.Above clock .installation i.installationIdentity i.policyEpoch
  homes : ∀ l ∈ db.leases, l.installationLookup ≠ lookup → l.state = .active →
    ∀ i ∈ db.installations, i.installationLookup = l.installationLookup → i.state = .active

theorem Db.Guarded.elsewhere {db : Db} (h : db.Guarded clock) (lookup : LookupDigest) :
    db.GuardedElsewhere clock lookup where
  leases := fun l hl _ => h.leases l hl
  rows := fun i hi _ => h.rows i hi
  homes := fun l hl _ => h.homes l hl

namespace Store

variable {S : Store} {now c : Time} {s s' : Session} {request : RefreshRequest}
  {random : Bytes → LeaseDraw}

/-- What precedes the writes of a refresh moves only the rows and leases of its installation. -/
theorem prepareInstallationTx_guarded {markedAt : Time} {existing : InstallationRow} {u : Unit}
    (hg : s.db.Guarded c)
    (h : S.prepareInstallationTx request now markedAt existing s = .ok (u, s')) :
    s'.db.GuardedElsewhere c (S.installationLookup (lookupEpoch now) request.installationID) := by
  simp only [prepareInstallationTx, bind_ok] at h
  obtain ⟨changed, s1, hchanged, _, s2, hmark, hrekey⟩ := h
  obtain rfl : s = s1 := apnsTokenChanged_moves _ _ _ hchanged
  have hrest : s.Rests S (fun _ => False) c s2 :=
    Moves.when markDeliveryJobsSafetyForInstallationTx_rests _ _ _ hmark
  have hfen : s.Fences noFence s2 :=
    Moves.when markDeliveryJobsSafetyForInstallationTx_fences _ _ _ hmark
  have hg2 := hg.rests hrest hfen
  simp only [Tx.when, ite_ok, exec_ok, pure_ok] at hrekey
  rcases hrekey with ⟨-, hdb, -⟩ | ⟨-, -, rfl⟩
  · rw [hdb]
    have hls {l : LeaseRow} (hl : l ∈ (s2.db.rekeyInstallation existing.installationLookup
        (S.installationLookup (lookupEpoch now) request.installationID)
        (S.incarnationLookup (lookupEpoch now) request.accountIncarnationID)
        (lookupEpoch now)).leases) (hne : l.installationLookup ≠
        S.installationLookup (lookupEpoch now) request.installationID) : l ∈ s2.db.leases := by
      rcases mem_updateWhere.mp hl with ⟨old, -, -, rfl⟩ | ⟨hl, -⟩
      · exact absurd rfl hne
      · exact hl
    have hrow {i : InstallationRow} (hi : i ∈ (s2.db.rekeyInstallation existing.installationLookup
        (S.installationLookup (lookupEpoch now) request.installationID) (S.incarnationLookup
        (lookupEpoch now) request.accountIncarnationID) (lookupEpoch now)).installations) (hne :
        i.installationLookup ≠ S.installationLookup (lookupEpoch now) request.installationID) :
        i ∈ s2.db.installations := by
      rcases mem_updateWhere.mp hi with ⟨old, -, -, rfl⟩ | ⟨hi, -⟩
      · exact absurd rfl hne
      · exact hi
    exact
      { leases := by
          rintro l hl hne ⟨home, hhome, hlook, hact⟩
          exact hg2.leases l (hls hl hne) ⟨home, hrow hhome (hlook ▸ hne), hlook, hact⟩
        rows := fun i hi hne hact => hg2.rows i (hrow hi hne) hact
        homes := fun l hl hne hact i hi hlook =>
          hg2.homes l (hls hl hne) hact i (hrow hi (hlook ▸ hne)) hlook }
  · exact hg2.elsewhere _

/-- The writes of a refresh whose policy epoch is above the installation's live fences. -/
theorem writeRefreshTx_guarded {normalized : List NormalizedSubscription} {markedAt : Time}
    {u : Unit} (hnow : now ≤ c) (hval : ValidRefresh S request now normalized)
    (hrdy : s.db.Ready S c request.installationID
      (S.installationLookup (lookupEpoch now) request.installationID)) (hg : s.db.GuardedElsewhere c
      (S.installationLookup (lookupEpoch now) request.installationID))
    (habv : s.db.Above now .installation
      (S.installationDeletionIdentity request.installationID) request.policyControl.policyEpoch)
    (h : S.writeRefreshTx request normalized random now markedAt s = .ok (u, s')) :
    s'.db.Guarded c := by
  obtain ⟨row, hrowL, hrowKept, hwr⟩ :=
    writeRefreshTx_writing hnow hrdy hval.control.2.1.2 hval.nodup h
  simp only [writeRefreshTx, bind_ok, expect_ok] at h
  obtain ⟨expires, _, ⟨-, rfl⟩, _, s1, hupsert, existing, _, hload, _, s2, hwrite, hera⟩ := h
  obtain ⟨rfl, hload⟩ := loadExistingLeases_ok hload
  obtain ⟨hdb1, -⟩ := exec_ok.mp hupsert
  have hload0 : Loaded S s.db (S.installationLookup (lookupEpoch now) request.installationID)
      existing := by
    rw [hdb1] at hload
    exact ⟨hload.unique, hload.mem, hload.covers⟩
  obtain ⟨hrows2, hfen2, hls2, hloaded2⟩ := upsertLeases_fresh rfl hload.unique hwrite
  -- the routes that are fenced belong to topics that are not listed
  obtain ⟨hrows', hfen', hsub⟩ := eraseLeases_fences
    (P := fun kind route _ => kind = .route ∧ ∃ topic ∉ normalized.map fun sub => sub.topic,
      route = S.routeHistoryIdentity request.installationID topic)
    (fun e he => by
      obtain ⟨he, htop⟩ := List.mem_filter.mp he
      exact ⟨rfl, e.topic, of_decide_eq_true htop, loaded_route hrdy hload0 he⟩) hera
  have hfen := Session.Fences.trans (.of_exec hupsert rfl)
    ((hfen2.mono fun _ _ _ hno => hno.elim).trans hfen')
  have hinst : s'.db.installations = (s.db.upsertInstallation
      (S.installationRow request now (controlExpiry request.policyControl now
        expires))).installations := by
    rw [hrows', hrows2, hdb1]
  have hfr {l : LeaseRow} (hl : FreshLease S request.installationID
      (S.installationLookup (lookupEpoch now) request.installationID)
      (normalized.map fun sub => sub.topic) now s2.db l) : FreshLease S request.installationID
      (S.installationLookup (lookupEpoch now) request.installationID)
      (normalized.map fun sub => sub.topic) now s'.db l := by
    refine hl.fences hfen' ?_
    rintro topic htop _ ⟨-, other, hoth, hrt⟩
    obtain rfl : topic = other := by simpa [routeHistoryIdentity] using hrt
    exact hoth htop
  have hown : ∀ l ∈ s'.db.leases, l.installationLookup =
      S.installationLookup (lookupEpoch now) request.installationID →
      FreshLease S request.installationID
        (S.installationLookup (lookupEpoch now) request.installationID)
        (normalized.map fun sub => sub.topic) now s'.db l := by
    intro l hl hlook
    rcases hls2 l (hsub hl) with hold | hnew
    · -- a lease that was there is a loaded one, of a listed topic
      rcases hwr.own l hl (hlook.trans hrowL.symm) with
        ⟨topic, htop, key, hkept, -⟩ | ⟨_, hfalse, -⟩
      · have hl0 : l ∈ s.db.leases := by
          rw [hdb1] at hold
          exact hold
        obtain ⟨e, he, rfl⟩ := exists_loaded hrdy hload0 hl0 hlook
        have hopens := (hload0.mem e he).2.2
        rw [hkept.opens_topic] at hopens
        exact hfr (hloaded2 e he (Option.some.inj hopens ▸ htop) _ (hsub hl) rfl)
      · exact hfalse.elim
    · exact hfr hnew
  have hoth : ∀ l ∈ s'.db.leases, l.installationLookup ≠
      S.installationLookup (lookupEpoch now) request.installationID → l ∈ s.db.leases := by
    intro l hl hne
    rcases hls2 l (hsub hl) with hold | hnew
    · rw [hdb1] at hold
      exact hold
    · exact absurd hnew.lookup hne
  refine ⟨?_, fun i hi hact => ?_, fun l hl hact i hi hlook => ?_⟩
  · rintro l hl ⟨home, hhome, hhomeLookup, hact⟩
    by_cases hlook : l.installationLookup =
        S.installationLookup (lookupEpoch now) request.installationID
    · exact (hown l hl hlook).above.mono hnow
    have hhome' : home ∈ s.db.installations := by
      rw [hinst] at hhome
      rcases mem_upsert_replace hhome with rfl | ⟨hhome, -⟩
      · exact absurd hhomeLookup.symm hlook
      · exact hhome
    refine (hg.leases l (hoth l hl hlook) hlook ⟨home, hhome', hhomeLookup, hact⟩).fences hfen ?_
    rintro _ ⟨-, topic, -, hrt⟩
    exact hwr.route_ne s'.valid hrowKept hl (hrowL ▸ hlook) topic hrt
  · rw [hinst] at hi
    rcases mem_upsert_replace hi with rfl | ⟨hi, hne⟩
    · refine (habv.fences hfen ?_).mono hnow
      rintro _ ⟨hkind, -⟩
      cases hkind
    · refine (hg.rows i hi hne hact).fences hfen ?_
      rintro _ ⟨hkind, -⟩
      cases hkind
  · rw [hinst] at hi
    rcases mem_upsert_replace hi with rfl | ⟨hi, hne⟩
    · rfl
    · have hne' := hlook ▸ hne
      exact hg.homes l (hoth l hl hne') hne' hact i hi hlook

theorem refresh_guarded {clock : RefreshClock} (hclk : clock.now ≤ c) {r : RefreshResult}
    (hk : s.db.Kept S c) (hg : s.db.Guarded c)
    (h : S.refresh clock random request s = .ok (r, s')) : s'.db.Guarded c := by
  simp only [refresh, refreshTx, mapError_ok, bind_ok, require_ok, expect_ok] at h
  obtain ⟨_, _, ⟨-, rfl⟩, normalized, _, ⟨hnorm, rfl⟩, _, s1, hsafe, _, s2, hadv,
    existing, t, hfind, h⟩ := h
  have hval := validateRefresh_ok hnorm
  obtain ⟨rfl, hsome, -⟩ := findInstallation_ok hfind
  obtain ⟨rfl, habv⟩ := requireTombstoneAdvance_ok hadv
  have hrest : s.Rests S (fun _ => False) c t := requireRetentionSafeTx_rests _ _ _ hsafe
  have hk2 := hrest.preserves le_rfl hk
  have hg2 := hg.rests hrest (requireRetentionSafeTx_fences _ _ _ hsafe)
  cases existing with
  | none =>
    simp only [bind_ok, pure_ok] at h
    obtain ⟨_, _, hwr, -, rfl⟩ := h
    exact writeRefreshTx_guarded hclk hval (hk2.ready (Session.valid _) _ _)
      (hg2.elsewhere _) habv hwr
  | some i =>
    simp only [ite_ok, fail_ok, and_false, false_or, bind_ok, require_ok, query_ok, pure_ok] at h
    obtain ⟨-, ⟨-, _, _, ⟨-, rfl⟩, _, _, ⟨-, rfl⟩, -, rfl⟩ |
      ⟨-, _, _, ⟨-, rfl⟩, _, s3, hprep, _, _, hwr, -, rfl⟩⟩ := h
    · exact hg2
    obtain ⟨-, -, epoch, -, hlook⟩ := hsome i rfl
    have hnone : t.Fences noFence s3 := prepareInstallationTx_fences _ _ _ hprep
    exact writeRefreshTx_guarded hclk hval (prepareInstallationTx_ready hk2 hlook hprep)
      (prepareInstallationTx_guarded hg2 hprep)
      (Db.Above.fences habv hnone fun _ => id) hwr

end Store

end NotificationServer
