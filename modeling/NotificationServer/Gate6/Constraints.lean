import NotificationServer.Gate6.Retention

/-!
# Statements that meet the constraints

A statement succeeds when the constraints of the schema hold after it.  For each
statement of revocation, erasure and the sweep: when they do, given that they
held before.  Everything but the deletion of leases and installation rows is
unconditional or asks for values the caller has checked; those two ask that no
A9 route refers to a lease they delete.
-/

namespace NotificationServer

open Relational

namespace Db.Constraints

variable {db : Db} (h : db.Constraints)

include h

theorem keyBinding (k : Option LookupDigest) : ({ db with keyBinding := k } : Db).Constraints :=
  { h with }

theorem retention (r : RetentionStateRow) : ({ db with retention := r } : Db).Constraints :=
  { h with }

theorem deleteJobs (p : DeliveryJobRow → Prop) [DecidablePred p] :
    ({ db with jobs := deleteWhere p db.jobs } : Db).Constraints :=
  { h with
    jobs :=
      { key := h.jobs.key.deleteWhere p
        attempts_range := forall_mem_deleteWhere h.jobs.attempts_range
        retry_range := forall_mem_deleteWhere h.jobs.retry_range
        expiry := forall_mem_deleteWhere h.jobs.expiry
        shape := forall_mem_deleteWhere h.jobs.shape
        snapshot_shape := forall_mem_deleteWhere h.jobs.snapshot_shape
        lease := forall_mem_deleteWhere h.jobs.lease
        installation := forall_mem_deleteWhere h.jobs.installation
        route := forall_mem_deleteWhere h.jobs.route } }

omit h in
/-- A live job becomes a final marker; one without a traffic class needs a reason that fits. -/
theorem finalized_shape {j : DeliveryJobRow} {now : Time} {reason : DeliveryFinalReason}
    (hj : j.Shape) (hlive : j.state.Live) (hwhy : j.trafficClass = none →
      reason = .safetyInvalidated ∨ reason = .materialInvalid) : (j.finalized now reason).Shape := by
  have hcls : j.trafficClass ≠ some .unknown := by
    rcases hj with ⟨-, -, -, -, hc, -⟩ | ⟨hera, -⟩ | ⟨hfin, -⟩
    · exact hc
    · rcases hlive with he | he <;> rcases hera with he' | he' <;>
        cases he.symm.trans he'
    · rcases hlive with he | he <;> cases he.symm.trans hfin
  refine .inr (.inr ⟨rfl, rfl, rfl, rfl, rfl, rfl, rfl, fun hu => ?_⟩)
  simp only [DeliveryJobRow.finalized, Option.some.injEq] at hu ⊢
  refine hwhy ?_
  cases hc : j.trafficClass with
  | none => rfl
  | some k =>
    rw [hc] at hu hcls
    exact absurd (congrArg some hu) hcls

theorem finalizeJobs {p : DeliveryJobRow → Prop} [DecidablePred p] {now : Time}
    {reason : DeliveryJobRow → DeliveryFinalReason}
    (hwhy : ∀ j : DeliveryJobRow, j.trafficClass = none →
      reason j = .safetyInvalidated ∨ reason j = .materialInvalid) :
    (db.finalizeJobs p now reason).Constraints :=
  { h with
    jobs :=
      { key := h.jobs.key.updateWhere fun _ _ _ => rfl
        attempts_range := forall_mem_updateWhere h.jobs.attempts_range fun _ _ _ hj => hj
        retry_range := forall_mem_updateWhere h.jobs.retry_range fun _ _ _ _ => Nat.zero_le _
        expiry := forall_mem_updateWhere h.jobs.expiry fun _ _ _ hj => hj
        shape := forall_mem_updateWhere h.jobs.shape fun j _ hp hj =>
          finalized_shape hj hp.2 (hwhy j)
        snapshot_shape := forall_mem_updateWhere h.jobs.snapshot_shape fun _ _ _ _ hs =>
          absurd hs (by simp [DeliveryJobRow.finalized])
        lease := h.jobs.lease.updateWhere fun _ _ _ => .inr rfl
        installation := h.jobs.installation.updateWhere fun _ _ _ => .inr rfl
        route := h.jobs.route.updateWhere fun _ _ _ => .inr rfl } }

theorem deleteHistory (p : RouteKeyHistoryRow → Prop) [DecidablePred p] :
    (db.deleteHistory p).Constraints :=
  { h with
    routeKeyHistory :=
      { key := h.routeKeyHistory.key.deleteWhere p
        commitment_key := h.routeKeyHistory.commitment_key.deleteWhere p
        epoch_range := forall_mem_deleteWhere h.routeKeyHistory.epoch_range
        expiry := forall_mem_deleteWhere h.routeKeyHistory.expiry } }

theorem extendHistory {identity : LookupDigest} {now expiresAt : Time} (hle : now ≤ expiresAt)
    (hle' : expiresAt ≤ now + 15 * day) : (db.extendHistory identity now expiresAt).Constraints :=
  { h with
    routeKeyHistory :=
      { key := h.routeKeyHistory.key.updateWhere fun _ _ _ => rfl
        commitment_key := h.routeKeyHistory.commitment_key.updateWhere fun _ _ _ => rfl
        epoch_range := forall_mem_updateWhere h.routeKeyHistory.epoch_range fun _ _ _ hr => hr
        expiry := forall_mem_updateWhere h.routeKeyHistory.expiry fun _ _ _ _ => ⟨hle, hle'⟩ } }

theorem deleteTombstones (p : DeletionTombstoneRow → Prop) [DecidablePred p] :
    ({ db with deletionTombstones := deleteWhere p db.deletionTombstones } : Db).Constraints :=
  { h with
    deletionTombstones :=
      { key := h.deletionTombstones.key.deleteWhere p
        key_version := forall_mem_deleteWhere h.deletionTombstones.key_version
        fence_range := forall_mem_deleteWhere h.deletionTombstones.fence_range
        expiry := forall_mem_deleteWhere h.deletionTombstones.expiry } }

theorem upsertTombstone {kind : DeletionTarget} {identity : LookupDigest} {keyVersion : Int}
    {fence : Nat} {now : Time} (hver : ValidKeyVersion keyVersion)
    (hfence : validDeletionTombstoneFence kind fence) :
    (db.upsertTombstone (.proposed kind identity keyVersion fence now)).Constraints := by
  have hkey : ∀ (t x : DeletionTombstoneRow), (t.merge x).key = t.key := fun t x => by
    unfold DeletionTombstoneRow.merge
    split <;> rfl
  -- The merged row takes the columns of one of the two rows together.
  have hmerge : ∀ {Q : DeletionTombstoneRow → Prop} (t : DeletionTombstoneRow),
      t.key = (kind, identity) → Q t → Q (.proposed kind identity keyVersion fence now) →
      Q (t.merge (.proposed kind identity keyVersion fence now)) := by
    intro Q t ht hQ hQ'
    obtain ⟨rfl, rfl⟩ : t.targetKind = kind ∧ t.targetIdentity = identity := by
      simpa [DeletionTombstoneRow.key] using ht
    unfold DeletionTombstoneRow.merge
    split
    · exact hQ'
    · exact hQ
  exact
    { h with
      deletionTombstones :=
        { key := h.deletionTombstones.key.upsert fun t _ _ => hkey t _
          key_version := forall_mem_upsert h.deletionTombstones.key_version hver
            fun t _ hk ht => hmerge (Q := fun t => ValidKeyVersion t.keyVersion) t hk ht hver
          fence_range := forall_mem_upsert h.deletionTombstones.fence_range hfence
            fun t _ hk ht => hmerge
              (Q := fun t => validDeletionTombstoneFence t.targetKind t.fenceEpoch) t hk ht hfence
          expiry := forall_mem_upsert h.deletionTombstones.expiry le_rfl
            fun t _ hk ht => hmerge (Q := fun t => t.expiresAt ≤ t.createdAt + deletionHorizon) t
              hk ht le_rfl } }

theorem deleteLeases {p : LeaseRow → Prop} [DecidablePred p]
    (hrts : ∀ r ∈ db.routes, ∀ l ∈ db.leases, l.leaseID = r.leaseID → ¬ p l) :
    (db.deleteLeases p).Constraints :=
  { h.deleteJobs fun j => ∃ l ∈ db.leases, p l ∧ j.leaseID = some l.leaseID with
    routes :=
      { h.routes with
        lease := h.routes.lease.of_parents fun r hr l hl he => by
          have hid : r.leaseID = l.leaseID := congrArg Prod.fst (Option.some.inj he)
          exact ⟨l, mem_deleteWhere.mpr ⟨hl, hrts r hr l hl hid.symm⟩, rfl⟩ }
    leases :=
      { key := h.leases.key.deleteWhere p
        topic_key := h.leases.topic_key.deleteWhere p
        generation_pos := forall_mem_deleteWhere h.leases.generation_pos
        policy_epoch_pos := forall_mem_deleteWhere h.leases.policy_epoch_pos
        route_epoch_range := forall_mem_deleteWhere h.leases.route_epoch_range
        key_version := forall_mem_deleteWhere h.leases.key_version
        expiry := forall_mem_deleteWhere h.leases.expiry
        control_expiry := forall_mem_deleteWhere h.leases.control_expiry
        installation := forall_mem_deleteWhere h.leases.installation
        identity := forall_mem_deleteWhere h.leases.identity }
    jobs :=
      { (h.deleteJobs fun j => ∃ l ∈ db.leases, p l ∧ j.leaseID = some l.leaseID).jobs with
        lease := fun j hj k hk => by
          obtain ⟨hj, hstays⟩ := mem_deleteWhere.mp hj
          obtain ⟨l, hl, rfl⟩ := h.jobs.lease.exists_parent hj hk
          exact List.mem_map_of_mem (mem_deleteWhere.mpr ⟨hl, fun hp => hstays ⟨l, hl, hp, hk⟩⟩) } }

/-- Deleting installation rows of whose leases no route refers to one. -/
theorem deleteInstallations {p : InstallationRow → Prop} [DecidablePred p]
    (hrts : ∀ r ∈ db.routes, ∀ l ∈ db.leases, l.leaseID = r.leaseID →
      ¬ db.LeaseOfInstallation p l) :
    (db.deleteInstallations p).Constraints := by
  have h' := h.deleteLeases hrts
  exact
    { h'.deleteJobs fun j => ∃ i ∈ db.installations, p i ∧
          j.installationLookup = some i.installationLookup with
      installations :=
        { key := h.installations.key.deleteWhere p
          identity_key := h.installations.identity_key.deleteWhere p
          policy_epoch_pos := forall_mem_deleteWhere h.installations.policy_epoch_pos
          key_version := forall_mem_deleteWhere h.installations.key_version
          expiry := forall_mem_deleteWhere h.installations.expiry
          control_expiry := forall_mem_deleteWhere h.installations.control_expiry }
      leases :=
        { h'.leases with
          installation := h'.leases.installation.of_parents fun l hl i hi he =>
            ⟨i, mem_deleteWhere.mpr ⟨hi, fun hp => (mem_deleteWhere.mp hl).2
              ⟨i, hi, hp, .inl (Option.some.inj he)⟩⟩, rfl⟩
          identity := h'.leases.identity.of_parents fun l hl i hi he =>
            ⟨i, mem_deleteWhere.mpr ⟨hi, fun hp => (mem_deleteWhere.mp hl).2
              ⟨i, hi, hp, .inr (Option.some.inj he)⟩⟩, rfl⟩ }
      jobs :=
        { (h'.deleteJobs fun j => ∃ i ∈ db.installations, p i ∧
            j.installationLookup = some i.installationLookup).jobs with
          installation := fun j hj k hk => by
            obtain ⟨hj, hstays⟩ := mem_deleteWhere.mp hj
            obtain ⟨i, hi, rfl⟩ := h'.jobs.installation.exists_parent hj hk
            exact List.mem_map_of_mem
              (mem_deleteWhere.mpr ⟨hi, fun hp => hstays ⟨i, hi, hp, hk⟩⟩) } }

/-- An UPDATE of an installation row that leaves its keys alone. -/
theorem updateInstallation {lookup : LookupDigest} {f : InstallationRow → InstallationRow}
    (hlook : ∀ i, (f i).installationLookup = i.installationLookup)
    (hid : ∀ i, (f i).installationIdentity = i.installationIdentity)
    (hep : ∀ i ∈ db.installations, i.installationLookup = lookup → 0 < (f i).policyEpoch)
    (hver : ∀ i ∈ db.installations, i.installationLookup = lookup →
      ValidKeyVersion (f i).encryptionKeyVersion)
    (hexp : ∀ i ∈ db.installations, i.installationLookup = lookup →
      (f i).expiresAt ≤ (f i).refreshedAt + maxLeaseTTL)
    (hctl : ∀ i ∈ db.installations, i.installationLookup = lookup →
      (f i).controlExpiresAt ≤ (f i).refreshedAt + minute) :
    (db.updateInstallation lookup f).Constraints :=
  have hstay : ∀ i ∈ db.installations, ∃ i' ∈ (db.updateInstallation lookup f).installations,
      i'.installationLookup = i.installationLookup ∧
        i'.installationIdentity = i.installationIdentity := fun i hi => by
    by_cases hi' : i.installationLookup = lookup
    · exact ⟨f i, mem_updateWhere.mpr (.inl ⟨i, hi, hi', rfl⟩), hlook i, hid i⟩
    · exact ⟨i, mem_updateWhere.mpr (.inr ⟨hi, hi'⟩), rfl, rfl⟩
  { h with
    installations :=
      { key := h.installations.key.updateWhere fun i _ _ => hlook i
        identity_key := h.installations.identity_key.updateWhere fun i _ _ => hid i
        policy_epoch_pos := forall_mem_updateWhere h.installations.policy_epoch_pos
          fun i hi hp _ => hep i hi hp
        key_version := forall_mem_updateWhere h.installations.key_version
          fun i hi hp _ => hver i hi hp
        expiry := forall_mem_updateWhere h.installations.expiry fun i hi hp _ => hexp i hi hp
        control_expiry := forall_mem_updateWhere h.installations.control_expiry
          fun i hi hp _ => hctl i hi hp }
    leases :=
      { h.leases with
        installation := h.leases.installation.of_parents fun _ _ i hi _ => by
          obtain ⟨i', hi', hl, -⟩ := hstay i hi
          exact ⟨i', hi', hl⟩
        identity := h.leases.identity.of_parents fun _ _ i hi _ => by
          obtain ⟨i', hi', -, he⟩ := hstay i hi
          exact ⟨i', hi', he⟩ }
    jobs :=
      { h.jobs with
        installation := h.jobs.installation.of_parents fun _ _ i hi _ => by
          obtain ⟨i', hi', hl, -⟩ := hstay i hi
          exact ⟨i', hi', hl⟩ } }

theorem insertInstallation {i : InstallationRow}
    (hlook : ∀ r ∈ db.installations, r.installationLookup ≠ i.installationLookup)
    (hid : ∀ r ∈ db.installations, r.installationIdentity ≠ i.installationIdentity)
    (hep : 0 < i.policyEpoch) (hver : ValidKeyVersion i.encryptionKeyVersion)
    (hexp : i.expiresAt ≤ i.refreshedAt + maxLeaseTTL)
    (hctl : i.controlExpiresAt ≤ i.refreshedAt + minute) :
    ({ db with installations := i :: db.installations } : Db).Constraints :=
  { h with
    installations :=
      { key := unique_cons.mpr ⟨hlook, h.installations.key⟩
        identity_key := unique_cons.mpr ⟨hid, h.installations.identity_key⟩
        policy_epoch_pos := List.forall_mem_cons.mpr ⟨hep, h.installations.policy_epoch_pos⟩
        key_version := List.forall_mem_cons.mpr ⟨hver, h.installations.key_version⟩
        expiry := List.forall_mem_cons.mpr ⟨hexp, h.installations.expiry⟩
        control_expiry := List.forall_mem_cons.mpr ⟨hctl, h.installations.control_expiry⟩ }
    leases :=
      { h.leases with
        installation := h.leases.installation.of_parents fun _ _ r hr _ =>
          ⟨r, .tail _ hr, rfl⟩
        identity := h.leases.identity.of_parents fun _ _ r hr _ =>
          ⟨r, .tail _ hr, rfl⟩ }
    jobs :=
      { h.jobs with
        installation := h.jobs.installation.of_parents fun _ _ r hr _ =>
          ⟨r, .tail _ hr, rfl⟩ } }

end Db.Constraints

end NotificationServer
