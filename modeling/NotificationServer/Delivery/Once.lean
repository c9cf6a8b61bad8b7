import NotificationServer.Delivery.Attempts
import NotificationServer.Delivery.Changes
import NotificationServer.Delivery.Dedupe
import NotificationServer.Delivery.Progress
import NotificationServer.Delivery.Steps
import NotificationServer.Gate6.Removal

/-!
# One job per source event

An accepted job leaves a record of its source event that lives as long as the job may.  Until a
transaction runs at or after its expiry, the record is there and stops a second job; what such a
transaction purges has expired by its reading.  So where readings do not go back, jobs of one event
are a job lifetime apart.
-/

namespace NotificationServer

open Relational Tx

namespace DeliveryStore

variable {S : DeliveryStore} {codec : WelcomeCodec} {d d' : DeliveryDb}
  {f : DeliveryTables → DeliveryTables}

theorem onVault_ok {α : Type} {x : VaultTx α} {a : α} :
    onVault x d = .ok (a, d') ↔ ∃ s, x d.session = .ok (a, s) ∧ d' = { d with session := s } := by
  unfold onVault
  cases h : x d.session with
  | error e => simp
  | ok r => simp [Prod.ext_iff, eq_comm]

theorem onTables_ok {u : Unit} :
    onTables f d = .ok (u, d') ↔ d' = { d with tables := f d.tables } := by
  simp [onTables, eq_comm]

/-- A row is inserted exactly if none has its key. -/
theorem insertDedupe_ok {row : DedupeRow} {inserted : Bool}
    (h : insertDedupe row d = .ok (inserted, d')) :
    (inserted = false ∧ d' = d) ∨
      (inserted = true ∧ (∀ other ∈ d.tables.dedupes, other.key ≠ row.key) ∧
        d' = { d with tables := { d.tables with dedupes := row :: d.tables.dedupes } }) := by
  simp only [insertDedupe, bind_ok, read_ok, ite_ok, pure_ok, onTables_ok] at h
  obtain ⟨_, _, ⟨rfl, rfl⟩, ⟨-, rfl, rfl⟩ | ⟨hnew, _, _, rfl, rfl, rfl⟩⟩ := h
  · exact .inl ⟨rfl, rfl⟩
  · refine .inr ⟨rfl, fun other hoth hkey => hnew ?_, rfl⟩
    exact decide_eq_true (List.mem_map.mpr ⟨other, hoth, hkey⟩)

/-- The Welcome statements leave the vault and the dedupe records alone. -/
def Spared (d d' : DeliveryDb) : Prop := d'.session = d.session ∧ d'.tables.dedupes = d.tables.dedupes

instance : Std.Refl Spared := ⟨fun _ => ⟨rfl, rfl⟩⟩

instance : IsTrans DeliveryDb Spared := ⟨fun _ _ _ h h' => ⟨h'.1.trans h.1, h'.2.trans h.2⟩⟩

theorem onTables_spared (hf : ∀ t, (f t).dedupes = t.dedupes) : Moves Spared (onTables f) := by
  intro d _ d' h
  rw [onTables_ok.mp h]
  exact ⟨rfl, hf _⟩

theorem consumeWelcomeBudget_spared (destination : Bytes) (now : Time) :
    Moves Spared (S.consumeWelcomeBudget destination now) := by
  refine .bind (.read _) fun _ => .ite (.pure _) (.require_bind fun _ =>
    .bind (.read _) fun budget => ?_)
  cases budget with
  | none => exact .bind (onTables_spared fun _ => rfl) fun _ => .pure _
  | some b =>
    exact .ite (.pure _) (.ite
      (.bind (onTables_spared fun _ => rfl) fun _ =>
        .bind (onTables_spared fun _ => rfl) fun _ => .pure _)
      (.bind (onTables_spared fun _ => rfl) fun _ => .pure _))

theorem finalizeWelcomeEnqueue_spared (leaseID : Bytes16) (job : SerializedDeliveryJob)
    (now : Time) : Moves Spared (S.finalizeWelcomeEnqueue codec leaseID job now) := by
  refine .require_bind fun _ => .bind (.read _) fun row => ?_
  cases row with
  | none => exact .pure _
  | some row =>
    refine .ite (.pure _) ?_
    cases codec row.authorizationID row.encryptedAuthorization with
    | none => exact .fail _
    | some authorization =>
      exact .ite (.pure _) (.bind (onTables_spared fun _ => rfl) fun _ =>
        consumeWelcomeBudget_spared _ _)

theorem consumeWelcomeTx_spared (r : EnqueueRequest) (now : Time) :
    Moves Spared (S.consumeWelcomeTx codec r now) :=
  .ite (finalizeWelcomeEnqueue_spared _ _ _) (.pure _)

variable {s s' : Session} {k : AttemptClock} {r : EnqueueRequest}
  {route : Option (A9RouteSnapshot × A9CurrentRouteState)}

theorem enqueueGuardTx_leases {trust : TopicTrust} {checkedAgainAt : Time}
    (h : S.enqueueGuardTx trust k checkedAgainAt r s = .ok (route, s')) :
    s'.db.leases = s.db.leases := by
  unfold enqueueGuardTx at h
  cases hsnap : r.job.a9 with
  | none =>
    simp only [hsnap, bind_ok, mapError_ok, pure_ok] at h
    obtain ⟨_, _, hsafe, -, rfl⟩ := h
    rw [(Store.requireRetentionSafeTx_ok.mp hsafe).2.1]
  | some snapshot =>
    simp only [hsnap, enqueueRouteTx, bind_ok, require_ok, mapError_ok, expect_ok, pure_ok] at h
    obtain ⟨_, _, ⟨_, _, ⟨-, rfl⟩, current, t, hcur, _, _, ⟨-, rfl⟩, _, _, ⟨-, rfl⟩, _, _,
      ⟨-, rfl⟩, -, rfl⟩, -, rfl⟩ := h
    rw [(requireA9CurrentRouteTx_value hcur).2]

/-- The checks only read, and find the lease. -/
theorem admitJobTx_ok {expiry : Time × Time} (h : S.admitJobTx k r route s = .ok (expiry, s')) :
    s' = s ∧ ∃ l ∈ s.db.leases, l.leaseID = r.leaseID := by
  simp only [admitJobTx, bind_ok, require_ok, query_ok, expect_ok, pure_ok] at h
  obtain ⟨_, _, ⟨-, rfl⟩, _, _, ⟨rfl, rfl⟩, a, _, ⟨hfd, rfl⟩, matching, s1, hmat, _, _,
    ⟨-, rfl⟩, _, s2, htop, _, _, ⟨-, rfl⟩, -, rfl⟩ := h
  obtain ⟨rfl, -⟩ := deliveryAuthorityMatches_ok hmat
  have hsame : s2 = s1 := by
    cases route with
    | none => exact (pure_ok.mp htop).2.symm
    | some pair =>
      simp only [enqueueTopicTx, bind_ok, require_ok, expect_ok] at htop
      obtain ⟨_, _, ⟨-, rfl⟩, _, _, ⟨-, rfl⟩, -, rfl⟩ := htop
      rfl
  obtain ⟨hmem, hid, -⟩ := enqueueAuthority_eq_some hfd
  exact ⟨hsame, a.lease, hmem, hid⟩

theorem storeJobTx_leases {expiresAt authorityExpiresAt : Time} {result : EnqueueResult}
    (h : S.storeJobTx k r expiresAt authorityExpiresAt route s = .ok (result, s')) :
    s'.db.leases = s.db.leases := by
  simp only [storeJobTx, ite_ok, pure_ok, bind_ok, query_ok, require_ok, exec_ok] at h
  rcases h with ⟨-, -, rfl⟩ | ⟨-, _, _, ⟨-, rfl⟩, ⟨-, -, rfl⟩ | ⟨-, _, _, ⟨-, rfl⟩, _, _,
    ⟨hdb, -⟩, -, rfl⟩⟩
  · rfl
  · rfl
  · rw [hdb]

/-- What a committed enqueue did to the leases and the dedupe records. -/
structure EnqueueRecorded (S : DeliveryStore) (r : EnqueueRequest) (now : Time) (outcome : EnqueueOutcome)
    (d d' : DeliveryDb) : Prop where
  leases : d'.session.db.leases = d.session.db.leases
  lease : ∃ l ∈ d.session.db.leases, l.leaseID = r.leaseID
  dedupes : (outcome = .duplicate ∧ d'.tables.dedupes = (purgeDedupes now d.tables).dedupes) ∨
    ((∀ other ∈ (purgeDedupes now d.tables).dedupes, other.key ≠ (S.dedupeRow r now).key) ∧
      d'.tables.dedupes = S.dedupeRow r now :: (purgeDedupes now d.tables).dedupes)

theorem enqueueTx_ok {trust : TopicTrust} {checkedAgainAt : Time} {outcome : EnqueueOutcome}
    (h : S.enqueueTx codec trust k checkedAgainAt r d = .ok (outcome, d')) :
    EnqueueRecorded S r k.host outcome d d' := by
  simp only [enqueueTx, bind_ok, onVault_ok, onTables_ok] at h
  obtain ⟨route, _, ⟨s1, hguard, rfl⟩, expiry, _, ⟨s2, hadmit, rfl⟩, _, _, rfl, inserted, d1,
    hinsert, h⟩ := h
  obtain ⟨rfl, lease, hlease, hid⟩ := admitJobTx_ok hadmit
  have hls := enqueueGuardTx_leases hguard
  rw [hls] at hlease
  rcases insertDedupe_ok hinsert with ⟨rfl, rfl⟩ | ⟨rfl, hnew, rfl⟩
  · obtain ⟨rfl, rfl⟩ := pure_ok.mp h
    exact ⟨hls, ⟨lease, hlease, hid⟩, .inl ⟨rfl, rfl⟩⟩
  · simp only [Bool.true_eq_false, if_false, bind_ok] at h
    obtain ⟨allowed, d2, hwelcome, h⟩ := h
    have hspared := consumeWelcomeTx_spared _ _ _ _ _ hwelcome
    simp only [ite_ok, pure_ok, bind_ok, onVault_ok, fail_ok, and_false, false_or] at h
    rcases h with ⟨-, rfl, rfl⟩ | ⟨-, stored, _, ⟨s3, hstore, rfl⟩, -, rfl, rfl⟩
    · refine ⟨?_, ⟨lease, hlease, hid⟩, .inr ⟨hnew, hspared.2⟩⟩
      rw [hspared.1]
      exact hls
    · refine ⟨?_, ⟨lease, hlease, hid⟩, .inr ⟨hnew, hspared.2⟩⟩
      rw [storeJobTx_leases hstore, hspared.1]
      exact hls

/-- What a committed sweep did to the leases and the dedupe records. -/
theorem sweepDeliveryTx_ok {clock : SweepClock} {outcome : SweepOutcome}
    (h : S.sweepDeliveryTx clock d = .ok (outcome, d')) :
    (∀ l ∈ d'.session.db.leases, l ∈ d.session.db.leases) ∧
      d'.tables.dedupes = (cascade d.session.db.leases d'.session.db.leases
        (purgeDedupes clock.startedAt d.tables)).dedupes := by
  simp only [sweepDeliveryTx, bind_ok, read_ok, onVault_ok, onTables_ok, pure_ok] at h
  obtain ⟨_, _, ⟨rfl, rfl⟩, _, _, ⟨s, hsweep, rfl⟩, _, _, ⟨rfl, rfl⟩, _, _, rfl, _, _, rfl, rfl,
    rfl⟩ := h
  exact ⟨fun l hl => (((Store.sweepTx_ok hsweep).1.leases l).mp hl).1, rfl⟩

end DeliveryStore

def AcceptedJob.recordKey (S : DeliveryStore) (j : AcceptedJob) :
    Bytes16 × SourceEventLookup × DeliveryTrafficClass :=
  (j.leaseID, ⟨S.lookupRoot, j.leaseID, j.trafficClass, j.sourceEventID⟩, j.trafficClass)

/-- The jobs of one event are stopped by a record, or a transaction has read a time at or after
the end of the job's life, or the lease is gone. -/
def DeliveryState.Covered (S : DeliveryStore) (s : DeliveryState) (j : AcceptedJob) : Prop :=
  (∃ d ∈ s.tables.dedupes, d.key = j.recordKey S ∧
    j.evaluatedAt + maxDeliveryJobLifetime ≤ d.expiresAt) ∨
  (∃ t, (t ∈ s.enqueuedAt ∨ t ∈ s.sweptAt) ∧ j.evaluatedAt + maxDeliveryJobLifetime ≤ t) ∨
  j.leaseID ∉ s.vault.db.leases.map fun l => l.leaseID

/-- Jobs of one event are a job lifetime apart; the latest job stands first. -/
def Apart (jobs : List AcceptedJob) : Prop :=
  jobs.Pairwise fun later earlier =>
    later.event = earlier.event → earlier.evaluatedAt + maxDeliveryJobLifetime ≤ later.evaluatedAt
  deriving Decidable

structure DeliveryState.Once (S : DeliveryStore) (s : DeliveryState) : Prop where
  covered : ∀ j ∈ s.accepted, s.Covered S j
  apart : Apart s.accepted

namespace DeliveryState

open DeliveryStore (purgeDedupes cascade Deleted EnqueueRecorded EnqueueOutcome)

variable {S : DeliveryStore} {codec : WelcomeCodec} {s : DeliveryState} {d : DeliveryDb}
  {writes : List (Bytes16 × AuthorityWrite)} {j : AcceptedJob} {row : DedupeRow}

/-- A record that an expiry purge deletes has expired by its reading. -/
theorem mem_purgeDedupes (now : Time) {t : DeliveryTables} (h : row ∈ t.dedupes) :
    row.expiresAt ≤ now ∨ row ∈ (purgeDedupes now t).dedupes := by
  by_cases hexp : row.expiresAt ≤ now
  · exact .inl hexp
  · exact .inr (mem_deleteWhere.mpr ⟨h, hexp⟩)

section Enqueue

variable {r : EnqueueRequest} {now : Time} {outcome : EnqueueOutcome}
  (hrecorded : EnqueueRecorded S r now outcome ⟨⟨s.vault, writes⟩, s.tables⟩ d)
  (hordered : (∀ t ∈ s.enqueuedAt, t ≤ now) ∧ ∀ t ∈ s.sweptAt, t ≤ now)

include hrecorded hordered

theorem covered_enqueued (h : s.Covered S j) : (s.enqueued r now outcome d).Covered S j := by
  rcases h with ⟨row, hrow, hkey, hlife⟩ | ⟨t, ht, hlife⟩ | hgone
  · rcases mem_purgeDedupes now hrow with hexp | hrow
    · exact .inr (.inl ⟨now, .inl rfl, Int.le_trans hlife hexp⟩)
    · refine .inl ⟨row, ?_, hkey, hlife⟩
      rcases hrecorded.dedupes with ⟨-, hdedupes⟩ | ⟨-, hdedupes⟩
      · exact hdedupes ▸ hrow
      · exact hdedupes ▸ List.mem_cons_of_mem _ hrow
  · refine .inr (.inl ⟨now, .inl rfl, Int.le_trans hlife ?_⟩)
    rcases ht with ht | ht
    · exact hordered.1 t ht
    · exact hordered.2 t ht
  · refine .inr (.inr ?_)
    have hls : d.session.db.leases = s.vault.db.leases := hrecorded.leases
    exact hls ▸ hgone

/-- A job that is not a duplicate comes a job lifetime after every covered job of its event. -/
theorem lifetime_le (houtcome : outcome ≠ .duplicate) (h : s.Covered S j)
    (hevent : (r.leaseID, r.job.trafficClass, r.sourceEventID) = j.event) :
    j.evaluatedAt + maxDeliveryJobLifetime ≤ now := by
  obtain ⟨hls, hcls, hsource⟩ : r.leaseID = j.leaseID ∧ r.job.trafficClass = j.trafficClass ∧
      r.sourceEventID = j.sourceEventID := by
    simpa [AcceptedJob.event] using hevent
  rcases h with ⟨row, hrow, hkey, hlife⟩ | ⟨t, ht, hlife⟩ | hgone
  · rcases mem_purgeDedupes now hrow with hexp | hrow
    · exact Int.le_trans hlife hexp
    · obtain ⟨hnew, -⟩ := hrecorded.dedupes.resolve_left fun hdup => houtcome hdup.1
      refine absurd ?_ (hnew row hrow)
      rw [hkey, AcceptedJob.recordKey, ← hls, ← hcls, ← hsource]
      rfl
  · refine Int.le_trans hlife ?_
    rcases ht with ht | ht
    · exact hordered.1 t ht
    · exact hordered.2 t ht
  · obtain ⟨l, hl, hid⟩ := hrecorded.lease
    exact absurd (List.mem_map.mpr ⟨l, hl, hid.trans hls⟩) hgone

theorem Once.enqueued (h : s.Once S) : (s.enqueued r now outcome d).Once S := by
  cases outcome with
  | duplicate | suppressed => exact ⟨fun j hj => covered_enqueued hrecorded hordered (h.covered j hj), h.apart⟩
  | accepted jobID =>
    constructor
    · intro j hj
      rcases List.mem_cons.mp hj with rfl | hj
      · -- the record of the job itself
        obtain ⟨-, hdedupes⟩ := hrecorded.dedupes.resolve_left fun hdup => by cases hdup.1
        refine .inl ⟨S.dedupeRow r now, ?_, rfl, le_rfl⟩
        exact hdedupes ▸ List.mem_cons_self
      · exact covered_enqueued hrecorded hordered (h.covered j hj)
    · refine List.pairwise_cons.mpr ⟨fun j hj hevent => ?_, h.apart⟩
      exact lifetime_le hrecorded hordered (by simp) (h.covered j hj) hevent

end Enqueue

/-- A record that a cascade deletes had a lease that is gone. -/
theorem mem_cascade (before after : List LeaseRow) {t : DeliveryTables} (h : row ∈ t.dedupes) :
    row.leaseID ∉ (after.map fun l => l.leaseID) ∨ row ∈ (cascade before after t).dedupes := by
  by_cases hdeleted : Deleted before after row.leaseID
  · exact .inl hdeleted.2
  · exact .inr (mem_deleteWhere.mpr ⟨h, hdeleted⟩)

theorem AcceptedJob.leaseID_of_key (h : row.key = j.recordKey S) : row.leaseID = j.leaseID :=
  congrArg Prod.fst h

theorem Once.swept {startedAt : Time} (h : s.Once S)
    (hls : ∀ l ∈ d.session.db.leases, l ∈ s.vault.db.leases)
    (hdedupes : d.tables.dedupes = (cascade s.vault.db.leases d.session.db.leases
      (purgeDedupes startedAt s.tables)).dedupes) : (s.swept startedAt d).Once S := by
  refine ⟨fun j hj => ?_, h.apart⟩
  have hlat : ∃ latest ∈ (s.swept startedAt d).sweptAt, startedAt ≤ latest ∧
      ∀ t ∈ s.sweptAt, t ≤ latest := by
    refine ⟨_, rfl, ?_⟩
    cases s.sweptAt with
    | none => exact ⟨le_rfl, nofun⟩
    | some t =>
      refine ⟨Int.le_max_right _ _, fun t' ht' => ?_⟩
      cases ht'
      exact Int.le_max_left _ _
  obtain ⟨latest, hmem, hstarted, hprev⟩ := hlat
  rcases h.covered j hj with ⟨row, hrow, hkey, hlife⟩ | ⟨t, ht | ht, hlife⟩ | hgone
  · rcases mem_purgeDedupes startedAt hrow with hexp | hrow
    · refine .inr (.inl ⟨latest, .inr hmem, ?_⟩)
      exact Int.le_trans hlife (Int.le_trans hexp hstarted)
    · rcases mem_cascade s.vault.db.leases d.session.db.leases hrow with hgone | hrow
      · exact .inr (.inr (AcceptedJob.leaseID_of_key hkey ▸ hgone))
      · exact .inl ⟨row, hdedupes ▸ hrow, hkey, hlife⟩
  · exact .inr (.inl ⟨t, .inl ht, hlife⟩)
  · exact .inr (.inl ⟨latest, .inr hmem, Int.le_trans hlife (hprev t ht)⟩)
  · refine .inr (.inr fun hback => hgone ?_)
    obtain ⟨l, hl, hid⟩ := List.mem_map.mp hback
    exact List.mem_map.mpr ⟨l, hls l hl, hid⟩

theorem Once.changed {after : Vault} (h : s.Once S) (hfr : s.Fresh after) :
    (s.changed after).Once S := by
  refine ⟨fun j hj => ?_, h.apart⟩
  rcases h.covered j hj with ⟨row, hrow, hkey, hlife⟩ | htime | hgone
  · rcases mem_cascade s.vault.db.leases after.db.leases hrow with hgone | hrow
    · exact .inr (.inr (AcceptedJob.leaseID_of_key hkey ▸ hgone))
    · exact .inl ⟨row, hrow, hkey, hlife⟩
  · exact .inr (.inl htime)
  refine .inr (.inr fun hback => ?_)
  obtain ⟨l, hl, hid⟩ := List.mem_map.mp hback
  rcases hfr l hl with hold | hunused
  · exact hgone (hid ▸ hold)
  · exact hunused j hj hid.symm

theorem once_of_reachable (h : ((S.deliveries codec).restrict SweepsOrdered).Reachable s) :
    s.Once S := by
  refine h.invariant (P := fun s => s.Once S) ?_ ?_
  · rintro s ⟨hnone, -, -⟩
    refine ⟨?_, ?_⟩
    · rw [hnone]
      exact fun j hj => absurd hj List.not_mem_nil
    · rw [hnone]
      exact List.Pairwise.nil
  · rintro s e s' - honce ⟨hstep, henqu, hsweeps⟩
    cases e with
    | enqueue trust k checkedAgainAt r =>
      obtain ⟨writes, outcome, d, htx, rfl⟩ := hstep
      exact honce.enqueued (DeliveryStore.enqueueTx_ok htx) ⟨henqu, hsweeps⟩
    | sweep clock =>
      obtain ⟨writes, outcome, d, htx, rfl⟩ := hstep
      obtain ⟨hls, hdedupes⟩ := DeliveryStore.sweepDeliveryTx_ok htx
      exact honce.swept hls hdedupes
    | vault after =>
      obtain ⟨hfr, rfl⟩ := hstep
      exact honce.changed hfr

end DeliveryState

/-- Rows other than those of `D` stay as they are, and no row is new. -/
structure JobsTouched (D : Bytes16 → Prop) (jobs jobs' : List DeliveryJobRow) : Prop where
  kept : ∀ j ∈ jobs, ¬ D j.jobID → j ∈ jobs'
  origin : ∀ j' ∈ jobs', ∃ j ∈ jobs, j.jobID = j'.jobID ∧ (¬ D j'.jobID → j' = j)

namespace JobsTouched

variable {D : Bytes16 → Prop} {jobs jobs' jobs'' : List DeliveryJobRow}

theorem refl (jobs : List DeliveryJobRow) : JobsTouched D jobs jobs :=
  ⟨fun _ hj _ => hj, fun j hj => ⟨j, hj, rfl, fun _ => rfl⟩⟩

theorem trans (h : JobsTouched D jobs jobs') (h' : JobsTouched D jobs' jobs'') :
    JobsTouched D jobs jobs'' where
  kept j hj hD := h'.kept j (h.kept j hj hD) hD
  origin j'' hj'' := by
    obtain ⟨j', hj', hid', hsame'⟩ := h'.origin j'' hj''
    obtain ⟨j, hj, hid, hsame⟩ := h.origin j' hj'
    refine ⟨j, hj, hid.trans hid', fun hD => ?_⟩
    rw [hsame' hD]
    exact hsame (hid' ▸ hD)

theorem updateWhere {p : DeliveryJobRow → Prop} [DecidablePred p]
    {f : DeliveryJobRow → DeliveryJobRow} (hid : ∀ j, (f j).jobID = j.jobID)
    (hD : ∀ j ∈ jobs, p j → D j.jobID) : JobsTouched D jobs (updateWhere p f jobs) where
  kept j hj hnot := mem_updateWhere.mpr (.inr ⟨hj, fun hp => hnot (hD j hj hp)⟩)
  origin j' hj' := by
    rcases mem_updateWhere.mp hj' with ⟨j, hj, hp, rfl⟩ | ⟨hj, -⟩
    · exact ⟨j, hj, (hid j).symm, fun hnot => absurd (hid j ▸ hD j hj hp) hnot⟩
    · exact ⟨j', hj, rfl, fun _ => rfl⟩

theorem deleteWhere {p : DeliveryJobRow → Prop} [DecidablePred p]
    (hD : ∀ j ∈ jobs, p j → D j.jobID) : JobsTouched D jobs (deleteWhere p jobs) where
  kept j hj hnot := mem_deleteWhere.mpr ⟨hj, fun hp => hnot (hD j hj hp)⟩
  origin j' hj' := ⟨j', (mem_deleteWhere.mp hj').1, rfl, fun _ => rfl⟩

end JobsTouched

namespace DeliveryStore

variable {S : DeliveryStore} {s s' : Session} {now markedAt : Time} {u : Unit}

/-- The rows a recovery and the deletion of markers after it change: live jobs that have expired,
are spent or have lost their lease, claims that have lapsed, and markers. -/
def DueForRecovery (db : Db) (now : Time) (j : DeliveryJobRow) : Prop :=
  Unrecoverable db now j ∨ Lapsed now j ∨ j.state = .final

def dueIDs (db : Db) (now : Time) (jobID : Bytes16) : Prop :=
  ∃ j ∈ db.jobs, DueForRecovery db now j ∧ j.jobID = jobID

/-- A row that is due is among the ids, or was changed before. -/
theorem due_of_touched {db : Db} {jobs : List DeliveryJobRow} {j : DeliveryJobRow}
    (h : JobsTouched (dueIDs db now) db.jobs jobs) (hj : j ∈ jobs)
    (hdue : DueForRecovery db now j) : dueIDs db now j.jobID := by
  obtain ⟨j0, hj0, hid, hsame⟩ := h.origin j hj
  by_cases hD : dueIDs db now j.jobID
  · exact hD
  · rw [hsame hD] at hdue ⊢
    exact ⟨j0, hj0, hdue, rfl⟩

theorem recoverDeliveryJobsTx_touched (h : S.recoverDeliveryJobsTx now markedAt s = .ok (u, s')) :
    JobsTouched (dueIDs s.db now) s.db.jobs s'.db.jobs := by
  simp only [recoverDeliveryJobsTx, bind_ok, query_ok] at h
  obtain ⟨candidates, _, ⟨rfl, rfl⟩, _, s1, hmarks, _, s2, hlap, hunsafe⟩ := h
  have hmk := (forEach_ok (I := fun rest t =>
      (∀ j ∈ rest, j ∈ s.db.jobs ∧ Unrecoverable s.db now j) ∧
        JobsTouched (dueIDs s.db now) s.db.jobs t.db.jobs)
    (fun j rest t t' hI hrd => by
      obtain ⟨hrest, htouched⟩ := hI
      obtain ⟨hmem, hcand⟩ := hrest j (.head _)
      simp only [bind_ok, pure_ok] at hrd
      obtain ⟨_, _, hmark, -, rfl⟩ := hrd
      refine ⟨fun j' hj' => hrest j' (.tail _ hj'), htouched.trans ?_⟩
      rw [markDeliveryJobFinalTx_ok hmark]
      refine .updateWhere (fun _ => rfl) fun j' _ hp => ?_
      exact ⟨j, hmem, .inl hcand, hp.1.symm⟩)
    ⟨fun j hj => by
      obtain ⟨hmem, hcand⟩ := List.mem_filter.mp hj
      exact ⟨hmem, of_decide_eq_true hcand⟩, .refl _⟩ hmarks).2
  have hrele : JobsTouched (dueIDs s.db now) s1.db.jobs s2.db.jobs := by
    rw [(exec_ok.mp hlap).1]
    exact .updateWhere (fun _ => rfl) fun j hj hp => due_of_touched hmk hj (.inr (.inl hp))
  have hsame : s'.db.jobs = s2.db.jobs := by
    rw [(exec_ok.mp hunsafe).1]
    split
    · rfl
    · rfl
  rw [hsame]
  exact hmk.trans hrele

/-- The deletion of markers, after statements that touched the rows due at `now` in `db`. -/
theorem finalizeDeliveryMarkers_touched {db : Db}
    (htouched : JobsTouched (dueIDs db now) db.jobs s.db.jobs)
    (h : Store.finalizeDeliveryMarkers s = .ok (u, s')) :
    s'.db.leases = s.db.leases ∧ JobsTouched (dueIDs db now) db.jobs s'.db.jobs := by
  simp only [Store.finalizeDeliveryMarkers, bind_ok, query_ok] at h
  obtain ⟨_, _, ⟨-, rfl⟩, h⟩ := h
  refine forEach_ok (I := fun _ t => t.db.leases = s.db.leases ∧
      JobsTouched (dueIDs db now) db.jobs t.db.jobs)
    (fun b _ t t' hI hrd => ?_) ⟨rfl, htouched⟩ h
  obtain ⟨hls, hI⟩ := hI
  rw [(exec_ok.mp hrd).1]
  exact ⟨hls, hI.trans (.deleteWhere fun j hj hp => due_of_touched hI hj (.inr (.inr hp.2)))⟩

theorem prepareEnqueue_touched (k : EnqueueClock) (s : Session) :
    (S.prepareEnqueue k s).1.db.leases = s.db.leases ∧
      JobsTouched (dueIDs s.db k.recoveredAt) s.db.jobs (S.prepareEnqueue k s).1.db.jobs := by
  unfold prepareEnqueue
  cases hsafe : S.requireRetentionSafeTx k.checkedAt s with
  | error e => exact ⟨rfl, .refl _⟩
  | ok r1 =>
    have hdb := (Store.requireRetentionSafeTx_ok.mp hsafe).2.1
    have hdue : dueIDs r1.2.db k.recoveredAt = dueIDs s.db k.recoveredAt := by
      rw [hdb]
      rfl
    have hjobs : r1.2.db.jobs = s.db.jobs := by rw [hdb]
    have hls : r1.2.db.leases = s.db.leases := by rw [hdb]
    dsimp only
    cases hrecover : S.recoverDeliveryJobsTx k.recoveredAt k.markedAt r1.2 with
    | error e => exact ⟨hls, hjobs ▸ .refl _⟩
    | ok r2 =>
      have htouched := recoverDeliveryJobsTx_touched hrecover
      rw [hdue, hjobs] at htouched
      have hls2 := (recoverDeliveryJobsTx_authority hrecover).leases.trans hls
      dsimp only
      cases hfin : Store.finalizeDeliveryMarkers r2.2 with
      | error e => exact ⟨hls2, htouched⟩
      | ok r3 =>
        obtain ⟨hls3, htouched⟩ := finalizeDeliveryMarkers_touched htouched hfin
        exact ⟨hls3.trans hls2, htouched⟩

section Call

variable {codec : WelcomeCodec} {trust : TopicTrust} {k : EnqueueClock} {r : EnqueueRequest}
  {d d' : DeliveryDb}

theorem enqueueDeliveryJobOnce_failed {e : EnqueueError}
    (h : S.enqueueDeliveryJobOnce codec trust k r d = (d', .error e)) :
    d'.tables = d.tables ∧
      JobsTouched (dueIDs d.session.db k.recoveredAt) d.session.db.jobs d'.session.db.jobs := by
  unfold enqueueDeliveryJobOnce at h
  split at h
  · obtain ⟨rfl, -⟩ := Prod.mk.inj h
    exact ⟨rfl, .refl _⟩
  · dsimp only at h
    split at h
    · obtain ⟨rfl, -⟩ := Prod.mk.inj h
      exact ⟨rfl, (prepareEnqueue_touched k d.session).2⟩
    · split at h
      · obtain ⟨rfl, -⟩ := Prod.mk.inj h
        exact ⟨rfl, (prepareEnqueue_touched k d.session).2⟩
      · cases h

theorem enqueueDeliveryJobOnce_committed {outcome : EnqueueOutcome}
    (h : S.enqueueDeliveryJobOnce codec trust k r d = (d', .ok outcome)) :
    S.enqueueTx codec trust k.attempt k.checkedAgainAt r
      { d with session := (S.prepareEnqueue k d.session).1 } = .ok (outcome, d') := by
  unfold enqueueDeliveryJobOnce at h
  split at h
  · cases h
  dsimp only at h
  split at h
  · cases h
  split at h
  · cases h
  · rename_i hcommit
    obtain ⟨rfl, hok⟩ := Prod.mk.inj h
    rw [← Except.ok.inj hok]
    exact hcommit

end Call

/-- Nothing cascades from leases that are all there. -/
theorem cascade_of_leases_eq {before after : List LeaseRow} (h : after = before)
    (t : DeliveryTables) : cascade before after t = t := by
  have hnot (leaseID : Bytes16) : ¬ Deleted before after leaseID := fun hd => hd.2 (h ▸ hd.1)
  simp [cascade, Relational.deleteWhere, hnot]

/-- A call that returns without an error is two steps: what it commits before its transaction, and
the transaction. -/
theorem deliveries_path_of_call {codec : WelcomeCodec} {trust : TopicTrust} {k : EnqueueClock}
    {r : EnqueueRequest} {state : DeliveryState} {writes : List (Bytes16 × AuthorityWrite)}
    {outcome : EnqueueOutcome} {d' : DeliveryDb}
    (h : S.enqueueDeliveryJobOnce codec trust k r ⟨⟨state.vault, writes⟩, state.tables⟩ =
      (d', .ok outcome)) :
    ∃ prepared, (S.deliveries codec).step state (.vault prepared.vault) prepared ∧
      (S.deliveries codec).step prepared (.enqueue trust k.attempt k.checkedAgainAt r)
        (prepared.enqueued r k.attempt.host outcome d') := by
  obtain ⟨hls, -⟩ := prepareEnqueue_touched (S := S) k ⟨state.vault, writes⟩
  have hcommit := enqueueDeliveryJobOnce_committed h
  have htables := cascade_of_leases_eq hls state.tables
  refine ⟨state.changed (S.prepareEnqueue k ⟨state.vault, writes⟩).1.vault, ⟨fun l hl => ?_, rfl⟩,
    (S.prepareEnqueue k ⟨state.vault, writes⟩).1.writes, outcome, d', ?_, rfl⟩
  · have hl' : l ∈ state.vault.db.leases := hls ▸ hl
    exact .inl (List.mem_map_of_mem hl')
  · rw [← hcommit]
    simp only [DeliveryState.changed]
    exact congrArg _ (congrArg (DeliveryDb.mk _) htables)

/-- In every interleaving in which no enqueue commits after an enqueue or a sweep that read a later
time, jobs of one lease, class and source event are a job lifetime apart.  A call that fails leaves
the dedupe records, the grants and the budgets as they are, adds no job, and changes only jobs that
its recovery, which commits first, found due. -/
theorem one_job_per_source_event {codec : WelcomeCodec} {state : DeliveryState}
    (h : ((S.deliveries codec).restrict SweepsOrdered).Reachable state) :
    Apart state.accepted ∧ ∀ writes trust k r d' e,
        S.enqueueDeliveryJobOnce codec trust k r ⟨⟨state.vault, writes⟩, state.tables⟩ =
            (d', .error e) →
          d'.tables = state.tables ∧
            JobsTouched (dueIDs state.vault.db k.recoveredAt) state.vault.db.jobs
              d'.session.db.jobs :=
  ⟨(DeliveryState.once_of_reachable h).apart,
    fun _ _ _ _ _ _ hfailed => enqueueDeliveryJobOnce_failed hfailed⟩

end DeliveryStore

namespace DeliverySample

def reserve : Order := change fun db =>
  { db with
    leases := db.leases.map fun l =>
      { l with encryptedNonceState := { l.encryptedNonceState with plaintext := ⟨0, 1⟩ } } }

def noWelcome : WelcomeCodec := fun _ _ => none

def noTrust : TopicTrust :=
  { leases := fun _ _ => false, bindingForEpoch := fun _ _ _ _ _ => .ineligible }

def vacant : Option DeliveryState :=
  (run [reserve]).map fun s => ⟨s.vault, ⟨[], [], [], none⟩, [], none, none⟩

/-- A job of the source event `[1]` that lives for ten minutes. -/
def request (jobID : Bytes16) (evaluated : Int) : EnqueueRequest :=
  ⟨100, { job with expiration := Sample.start + evaluated + 10 * minute }, [1], 8, jobID, false⟩

/-- Transactions of a sample interleaving; times are counted from the start. -/
inductive Move
  | enqueue (jobID : Bytes16) (evaluated checkedAgain : Int)
  /-- A sweep that takes no time. -/
  | sweep (started : Int)
  /-- Another transaction renews the control authority for a minute. -/
  | renew (refreshed : Int)

def Move.perform (s : DeliveryState) : Move → Option (DeliveryEvent × DeliveryState)
  | .enqueue jobID evaluated checkedAgain =>
    match store.enqueueTx noWelcome noTrust (clock (Sample.start + evaluated))
        (Sample.start + checkedAgain) (request jobID evaluated) ⟨⟨s.vault, []⟩, s.tables⟩ with
    | .error _ => none
    | .ok (outcome, d) =>
      some (.enqueue noTrust (clock (Sample.start + evaluated)) (Sample.start + checkedAgain)
        (request jobID evaluated), s.enqueued (request jobID evaluated) (Sample.start + evaluated) outcome d)
  | .sweep started =>
    let at_ : SweepClock := ⟨Sample.start + started, Sample.start + started, Sample.start + started⟩
    match store.sweepDeliveryTx at_ ⟨⟨s.vault, []⟩, s.tables⟩ with
    | .error _ => none
    | .ok (_, d) => some (.sweep at_, s.swept at_.startedAt d)
  | .renew refreshed =>
    let db := s.vault.db
    let at_ : Time := Sample.start + refreshed
    let renewed : Db :=
      { db with
        leases := db.leases.map fun l =>
          { l with refreshedAt := at_, controlExpiresAt := at_ + minute }
        installations := db.installations.map fun i =>
          { i with refreshedAt := at_, controlExpiresAt := at_ + minute } }
    if h : renewed.Constraints then
      if s.Fresh ⟨renewed, h⟩ then some (.vault ⟨renewed, h⟩, s.changed ⟨renewed, h⟩) else none
    else none

theorem Move.perform_step {m : Move} {s s' : DeliveryState} {e : DeliveryEvent}
    (h : m.perform s = some (e, s')) : (store.deliveries noWelcome).step s e s' := by
  cases m with
  | enqueue | sweep =>
    simp only [Move.perform] at h
    split at h
    · cases h
    · rename_i outcome d hcommit
      cases h
      exact ⟨[], outcome, d, hcommit, rfl⟩
  | renew refreshed =>
    simp only [Move.perform] at h
    split at h
    · split at h
      · rename_i hfr
        cases h
        exact ⟨hfr, rfl⟩
      · cases h
    · cases h

/-- The state the moves lead to, if all are possible and meet `P`. -/
def interleave (P : DeliveryState → DeliveryEvent → DeliveryState → Prop)
    [∀ s e s', Decidable (P s e s')] (moves : List Move) : Option DeliveryState :=
  vacant.bind (Machine.follow
    (fun (m : Move) s => (m.perform s).filter fun r => decide (P s r.1 r.2)) moves)

theorem interleave_reachable {P : DeliveryState → DeliveryEvent → DeliveryState → Prop}
    [∀ s e s', Decidable (P s e s')] {moves : List Move} {s : DeliveryState}
    (h : interleave P moves = some s) : ((store.deliveries noWelcome).restrict P).Reachable s := by
  obtain ⟨s0, hs0, h⟩ := Option.bind_eq_some_iff.mp h
  obtain ⟨v, -, rfl⟩ := Option.map_eq_some_iff.mp hs0
  have hinit : ((store.deliveries noWelcome).restrict P).Reachable
      ⟨v.vault, ⟨[], [], [], none⟩, [], none, none⟩ := .init ⟨rfl, rfl, rfl⟩
  refine hinit.path (Machine.follow_path ?_ h)
  intro m s1 e s2 hnext
  obtain ⟨hperform, hP⟩ := Option.filter_eq_some_iff.mp hnext
  exact ⟨Move.perform_step hperform, of_decide_eq_true hP⟩

/-- A call eleven minutes after the start, when the job of `request` has expired, for a lease that
does not exist. -/
def failingCall (s : DeliveryState) : DeliveryDb × Except EnqueueError DeliveryStore.EnqueueOutcome :=
  let late : Time := Sample.start + 11 * minute
  store.enqueueDeliveryJobOnce noWelcome noTrust ⟨clock late, late, late, late, late⟩
    { request 42 (11 * minute) with leaseID := 101 }
    ⟨⟨s.vault, []⟩, s.tables⟩

def failingCallDeletes (s : DeliveryState) : Bool :=
  match failingCall s with
  | (d', .error .invalid) => decide (d'.session.db.jobs ≠ s.vault.db.jobs)
  | _ => false

end DeliverySample

open DeliverySample in
/-- A sweep purges by its own clock.  It starts a job lifetime after the first job was evaluated and
commits before an enqueue that was evaluated one second after that job; the second job of the event
is then committed.  And a call for a lease that does not exist fails after its recovery has removed
a job that had expired. -/
theorem second_job_after_sweep :
    (∃ s, ((store.deliveries noWelcome).restrict EnqueuesOrdered).Reachable s ∧
      ¬ Apart s.accepted) ∧
    ∃ s, ((store.deliveries noWelcome).restrict EnqueuesOrdered).Reachable s ∧
      ∃ d', failingCall s = (d', .error .invalid) ∧ d'.session.db.jobs ≠ s.vault.db.jobs := by
  have hsecond : ∃ s ∈ interleave EnqueuesOrdered [.enqueue 41 0 0, .sweep (15 * minute),
      .enqueue 42 second (15 * minute)], ¬ Apart s.accepted := by
    decide +kernel
  have hfailing : ∃ s ∈ interleave EnqueuesOrdered [.enqueue 41 0 0], failingCallDeletes s := by
    decide +kernel
  refine ⟨?_, ?_⟩
  · obtain ⟨s, hs, hapart⟩ := hsecond
    exact ⟨s, interleave_reachable hs, hapart⟩
  · obtain ⟨s, hs, hcall⟩ := hfailing
    refine ⟨s, interleave_reachable hs, ?_⟩
    unfold failingCallDeletes at hcall
    split at hcall
    · rename_i d' hres
      exact ⟨d', hres, of_decide_eq_true hcall⟩
    · cases hcall

open DeliverySample in
theorem one_job_per_source_event_sample :
    ∃ s, ((store.deliveries noWelcome).restrict SweepsOrdered).Reachable s ∧
      s.accepted.length = 2 ∧ Apart s.accepted := by
  obtain ⟨s, hs, hlen⟩ : ∃ s ∈ interleave SweepsOrdered [.enqueue 41 0 0, .enqueue 42 second second,
      .renew (15 * minute), .sweep minute, .enqueue 43 (15 * minute) (15 * minute)],
      s.accepted.length = 2 := by
    decide +kernel
  have hreach := interleave_reachable hs
  exact ⟨s, hreach, hlen, (DeliveryStore.one_job_per_source_event hreach).1⟩

end NotificationServer
