import NotificationServer.Gate6.Guarded

/-!
# Reapplying deletion tombstones

After a restore the tombstones are imported first and reapplied before the server opens.  From
whatever rows the backup holds, no row that a live fence covers is left, nor a sendable job of one.
On a store that was never restored the pass finds nothing to do for an ACTIVE row: each is above
its fences.
-/

namespace NotificationServer

open Relational Tx

def Db.CoveredInstallation (db : Db) (now : Time) (i : InstallationRow) : Prop :=
  db.Fenced .installation i.installationIdentity i.policyEpoch now
  deriving Decidable

/-- The leases a live fence covers, their own or that of their installation row. -/
def Db.CoveredLease (db : Db) (now : Time) (l : LeaseRow) : Prop :=
  db.Fenced .route l.routeIdentity l.routeKeyEpoch now ∨
    db.LeaseOfInstallation (db.CoveredInstallation now) l

def Db.CoveredJob (db : Db) (now : Time) (j : DeliveryJobRow) : Prop :=
  (∃ l ∈ db.leases, db.CoveredLease now l ∧ j.leaseID = some l.leaseID) ∨
    ∃ i ∈ db.installations, db.CoveredInstallation now i ∧
      j.installationLookup = some i.installationLookup

/-- Jobs that `T` does not select stay, and a job that is sendable afterwards was there before. -/
structure Session.Spares (T : DeliveryJobRow → Prop) (s s' : Session) : Prop where
  live : ∀ j ∈ s'.db.jobs, j.state.Live → j ∈ s.db.jobs
  spared : ∀ j ∈ s.db.jobs, ¬ T j → j ∈ s'.db.jobs

variable {T : DeliveryJobRow → Prop} {s s' : Session} {now : Time} {u : Unit}

theorem Session.Spares.refl (s : Session) : s.Spares T s :=
  ⟨fun _ hj _ => hj, fun _ hj _ => hj⟩

theorem Session.Spares.trans {s1 s2 s3 : Session} (h : s1.Spares T s2) (h' : s2.Spares T s3) :
    s1.Spares T s3 :=
  ⟨fun j hj hlive => h.live j (h'.live j hj hlive) hlive,
    fun j hj hT => h'.spared j (h.spared j hj hT) hT⟩

theorem Session.Spares.of_jobs (h : s'.db.jobs = s.db.jobs) : s.Spares T s' := by
  refine ⟨fun j hj _ => ?_, fun j hj _ => ?_⟩
  · rwa [h] at hj
  · rwa [h]

theorem Session.Spares.of_finalize {p : DeliveryJobRow → Prop} [DecidablePred p]
    {reason : DeliveryJobRow → DeliveryFinalReason} (h : s'.db = s.db.finalizeJobs p now reason)
    (hT : ∀ j ∈ s.db.jobs, p j → T j) : s.Spares T s' := by
  have hjobs : s'.db.jobs = updateWhere (fun j => p j ∧ j.state.Live)
      (fun j => j.finalized now (reason j)) s.db.jobs := congrArg Db.jobs h
  constructor
  · intro j hj hlive
    rw [hjobs] at hj
    rcases mem_updateWhere.mp hj with ⟨a, -, -, rfl⟩ | ⟨hj, -⟩
    · exact absurd hlive (by simp [DeliveryJobRow.finalized, JobState.Live])
    · exact hj
  · intro j hj hnot
    rw [hjobs]
    exact mem_updateWhere.mpr (.inr ⟨hj, fun hp => hnot (hT j hj hp.1)⟩)

theorem Session.Spares.of_delete {p : DeliveryJobRow → Prop}
    (h : ∀ j, j ∈ s'.db.jobs ↔ j ∈ s.db.jobs ∧ ¬ p j) (hT : ∀ j ∈ s.db.jobs, p j → T j) :
    s.Spares T s' where
  live := fun j hj _ => ((h j).mp hj).1
  spared := fun j hj hnot => (h j).mpr ⟨hj, fun hp => hnot (hT j hj hp)⟩

structure Reapplied (now : Time) (s s' : Session) : Prop where
  leases : ∀ l, l ∈ s'.db.leases ↔ l ∈ s.db.leases ∧ ¬ s.db.CoveredLease now l
  installations : s'.db.installations =
    deleteWhere (s.db.CoveredInstallation now) s.db.installations
  fences : s'.db.deletionTombstones ⊆ s.db.deletionTombstones
  jobs : s.Spares (s.db.CoveredJob now) s'

/-- Statements after which the same rows are there and the same of them are covered. -/
structure Session.SameCover (now : Time) (s s' : Session) : Prop where
  leases : s'.db.leases = s.db.leases
  installations : s'.db.installations = s.db.installations
  fences : s'.db.deletionTombstones ⊆ s.db.deletionTombstones
  fenced : ∀ kind identity epoch,
    s'.db.Fenced kind identity epoch now ↔ s.db.Fenced kind identity epoch now

namespace Session.SameCover

instance : Std.Refl (Session.SameCover now) := ⟨fun _ => ⟨rfl, rfl, fun _ => id, fun _ _ _ => .rfl⟩⟩

theorem trans {s1 s2 s3 : Session} (h : s1.SameCover now s2) (h' : s2.SameCover now s3) :
    s1.SameCover now s3 :=
  ⟨h'.leases.trans h.leases, h'.installations.trans h.installations,
    fun _ ht => h.fences (h'.fences ht),
    fun kind identity epoch => (h'.fenced kind identity epoch).trans (h.fenced kind identity epoch)⟩

instance : IsTrans Session (Session.SameCover now) := ⟨fun _ _ _ h h' => h.trans h'⟩

theorem of_eq (hls : s'.db.leases = s.db.leases) (hinst : s'.db.installations = s.db.installations)
    (hfen : s'.db.deletionTombstones = s.db.deletionTombstones) : s.SameCover now s' := by
  refine ⟨hls, hinst, ?_, fun kind identity epoch => ?_⟩
  · rw [hfen]
    exact fun _ => id
  · unfold Db.Fenced
    rw [hfen]

theorem of_exec {f : Db → Db} (hls : ∀ db, (f db).leases = db.leases)
    (hinst : ∀ db, (f db).installations = db.installations)
    (hfen : ∀ db, (f db).deletionTombstones = db.deletionTombstones) :
    Moves (Session.SameCover now) (exec f) := by
  intro s _ s' h
  have hdb := (exec_ok.mp h).1
  exact .of_eq (by rw [hdb, hls]) (by rw [hdb, hinst]) (by rw [hdb, hfen])

theorem coveredInstallation (h : s.SameCover now s') :
    s'.db.CoveredInstallation now = s.db.CoveredInstallation now :=
  funext fun _ => propext (h.fenced _ _ _)

theorem coveredLease (h : s.SameCover now s') : s'.db.CoveredLease now = s.db.CoveredLease now := by
  funext l
  unfold Db.CoveredLease Db.LeaseOfInstallation
  rw [h.coveredInstallation, h.installations, propext (h.fenced _ _ _)]

theorem coveredJob (h : s.SameCover now s') : s'.db.CoveredJob now = s.db.CoveredJob now := by
  funext j
  unfold Db.CoveredJob
  rw [h.coveredLease, h.coveredInstallation, h.leases, h.installations]

end Session.SameCover

theorem Reapplied.after {t : Session} (hcover : s.SameCover now t)
    (hsp : s.Spares (s.db.CoveredJob now) t) (h : Reapplied now t s') : Reapplied now s s' := by
  refine ⟨fun l => ?_, ?_, fun _ ht => hcover.fences (h.fences ht), hsp.trans ?_⟩
  · rw [h.leases, hcover.leases, hcover.coveredLease]
  · rw [h.installations, hcover.installations]
    unfold deleteWhere
    simp only [hcover.coveredInstallation]
  · rw [← hcover.coveredJob]
    exact h.jobs

/-- An expired fence covers nothing, so the purge uncovers nothing. -/
theorem Db.fenced_purge {db : Db} {kind : DeletionTarget} {identity : LookupDigest} {epoch : Nat} :
    Db.Fenced { db with
      deletionTombstones := deleteWhere (fun t => t.expiresAt ≤ now) db.deletionTombstones }
      kind identity epoch now ↔ db.Fenced kind identity epoch now := by
  constructor
  · rintro ⟨t, ht, hkey, hlive, hfence⟩
    exact ⟨t, (mem_deleteWhere.mp ht).1, hkey, hlive, hfence⟩
  · rintro ⟨t, ht, hkey, hlive, hfence⟩
    exact ⟨t, mem_deleteWhere.mpr ⟨ht, Int.not_le.mpr hlive⟩, hkey, hlive, hfence⟩

namespace Store

variable {S : Store}

/-- The jobs of the covered leases are marked. -/
theorem markCoveredLeases_spares {leases : List LeaseRow}
    (hT : ∀ l ∈ leases, ∀ j, j.leaseID = some l.leaseID → T j)
    (h : Tx.forEach leases (fun l => markDeliveryJobsSafetyForLeaseTx now l.leaseID) s =
      .ok (u, s')) : s.Spares T s' := by
  refine (forEach_ok
    (I := fun rest t => (∀ l ∈ rest, l ∈ leases) ∧ s.Spares T t) ?_ ⟨fun _ => id, .refl s⟩ h).2
  rintro l rest t t' ⟨hrest, hsp⟩ hmark
  refine ⟨fun l' hl' => hrest l' (.tail _ hl'), hsp.trans ?_⟩
  exact .of_finalize (exec_ok.mp hmark).1 fun j _ hj => hT l (hrest l (.head _)) j hj

/-- The jobs on leases of the covered installation rows are marked. -/
theorem markCoveredInstallations_spares {installations : List InstallationRow}
    (hT : ∀ i ∈ installations, ∀ j, s.db.JobOnInstallation i.installationLookup j → T j)
    (h : Tx.forEach installations
      (fun i => markDeliveryJobsSafetyForInstallationTx now i.installationLookup) s =
      .ok (u, s')) : s.Spares T s' := by
  refine (forEach_ok
    (I := fun rest t => (∀ i ∈ rest, i ∈ installations) ∧ t.db.leases = s.db.leases ∧
      s.Spares T t) ?_ ⟨fun _ => id, rfl, .refl s⟩ h).2.2
  rintro i rest t t' ⟨hrest, hls, hsp⟩ hmark
  have hdb := (exec_ok.mp hmark).1
  refine ⟨fun i' hi' => hrest i' (.tail _ hi'), ?_, hsp.trans (.of_finalize hdb ?_)⟩
  · rw [hdb]
    exact hls
  · rintro j - ⟨l, hl, hjob⟩
    rw [hls] at hl
    exact hT i (hrest i (.head _)) j ⟨l, hl, hjob⟩

/-- The two DELETEs, with what they cascade to. -/
theorem deleteCovered_ok {s1 : Session} {u' : Unit}
    (hls : exec (fun db => db.deleteLeases fun l =>
      db.Fenced .route l.routeIdentity l.routeKeyEpoch now) s = .ok (u, s1))
    (hinst : exec (fun db => db.deleteInstallations fun i =>
      db.Fenced .installation i.installationIdentity i.policyEpoch now) s1 = .ok (u', s')) :
    Reapplied now s s' := by
  have h1 := (exec_ok.mp hls).1
  have h2 := (exec_ok.mp hinst).1
  have hsp1 : s.Spares (s.db.CoveredJob now) s1 := by
    refine .of_delete (p := fun j => ∃ l ∈ s.db.leases,
      s.db.Fenced .route l.routeIdentity l.routeKeyEpoch now ∧ j.leaseID = some l.leaseID) ?_ ?_
    · intro j
      rw [h1]
      exact mem_deleteWhere
    · rintro j - ⟨l, hl, hfen, hjob⟩
      exact .inl ⟨l, hl, .inl hfen, hjob⟩
  -- the second DELETE sees the installation rows and the fences of the first one's start
  rw [h1] at h2
  have hsp2 : s1.Spares (s.db.CoveredJob now) s' := by
    refine .of_delete (p := fun j => (∃ l ∈ s1.db.leases,
      s.db.LeaseOfInstallation (s.db.CoveredInstallation now) l ∧ j.leaseID = some l.leaseID) ∨
      ∃ i ∈ s.db.installations, s.db.CoveredInstallation now i ∧
        j.installationLookup = some i.installationLookup) ?_ ?_
    · intro j
      rw [h2, not_or, ← and_assoc, h1]
      exact mem_deleteWhere.trans (and_congr_left fun _ => mem_deleteWhere)
    · rintro j - (⟨l, hl, hof, hjob⟩ | hjob)
      · rw [h1] at hl
        exact .inl ⟨l, (mem_deleteWhere.mp hl).1, .inr hof, hjob⟩
      · exact .inr hjob
  refine ⟨fun l => ?_, ?_, ?_, hsp1.trans hsp2⟩
  · rw [h2]
    refine mem_deleteWhere.trans ((and_congr_left fun _ => mem_deleteWhere).trans ?_)
    rw [and_assoc, ← not_or]
    rfl
  · rw [h2]
    rfl
  · rw [h2]
    exact fun _ => id

theorem purgeTombstones_sameCover : Moves (Session.SameCover now) (purgeTombstones now) := by
  intro s _ s' h
  have hdb := (exec_ok.mp h).1
  refine ⟨by rw [hdb], by rw [hdb], ?_, fun kind identity epoch => ?_⟩
  · rw [hdb]
    exact fun t ht => (mem_deleteWhere.mp ht).1
  · rw [hdb]
    exact Db.fenced_purge

theorem reapplyDeletionTombstones_ok (h : S.reapplyDeletionTombstones now s = .ok (u, s')) :
    Reapplied now s s' := by
  simp only [reapplyDeletionTombstones, mapError_ok, bind_ok, query_ok] at h
  obtain ⟨_, s0, hbd, _, s1, hpurge, _, _, ⟨rfl, rfl⟩, _, s2, hmark, _, _, ⟨rfl, rfl⟩,
    _, s3, hmarkRows, _, s4, hls, hrows⟩ := h
  -- each step before the DELETEs leaves the covered rows as they are and marks only their jobs
  refine .after (t := s1) ?_ (.of_jobs ?_) (.after (t := s2) ?_ ?_ (.after (t := s3) ?_ ?_
    (deleteCovered_ok hls hrows)))
  · have hdb := (requireLookupKeyBoundTx_ok.mp hbd).2.1
    have hbind : s.SameCover now s0 := .of_eq (by rw [hdb]) (by rw [hdb]) (by rw [hdb])
    exact hbind.trans (purgeTombstones_sameCover _ _ _ hpurge)
  · rw [(exec_ok.mp hpurge).1, (requireLookupKeyBoundTx_ok.mp hbd).2.1]
  · exact Moves.forEach (fun _ _ => .of_exec (fun _ => rfl) (fun _ => rfl) fun _ => rfl)
      _ _ _ hmark
  · refine markCoveredLeases_spares (fun l hl j hjob => .inl ⟨l, ?_, .inl ?_, hjob⟩) hmark
    · exact List.mem_of_mem_filter hl
    · exact of_decide_eq_true (List.mem_filter.mp hl).2
  · exact Moves.forEach (fun _ _ => .of_exec (fun _ => rfl) (fun _ => rfl) fun _ => rfl)
      _ _ _ hmarkRows
  · refine markCoveredInstallations_spares ?_ hmarkRows
    rintro i hi j ⟨l, hl, hjob, hlook⟩
    obtain ⟨hi, hcov⟩ := List.mem_filter.mp hi
    exact .inl ⟨l, hl, .inr ⟨i, hi, of_decide_eq_true hcov, .inl hlook⟩, hjob⟩

variable {c : Time}

theorem reapplyDeletionTombstones_guarded (hg : s.db.Guarded c)
    (h : S.reapplyDeletionTombstones now s = .ok (u, s')) : s'.db.Guarded c := by
  have hr := reapplyDeletionTombstones_ok h
  have hrows : ∀ i ∈ s'.db.installations, i ∈ s.db.installations := by
    rw [hr.installations]
    exact fun i hi => (mem_deleteWhere.mp hi).1
  refine hg.next (P := noFence) (.of_subset hr.fences) ?_ ?_ ?_
  · rintro l hl ⟨home, hhome, hlook, hact⟩
    exact ⟨l, ((hr.leases l).mp hl).1, ⟨home, hrows home hhome, hlook, hact⟩, rfl, rfl, fun _ => id⟩
  · intro i hi hact
    exact ⟨i, hrows i hi, hact, rfl, rfl, fun _ => id⟩
  · intro l hl hact i hi hlook
    exact hg.homes l ((hr.leases l).mp hl).1 hact i (hrows i hi) hlook

/-- Every transaction of a store without A9, once no clock reading exceeds `c`. -/
theorem body_guarded {op : Op} (hA9 : ¬ op.OfA9) (hop : op.latest ≤ c) (hk : s.db.Kept S c)
    (hg : s.db.Guarded c) (h : S.body op s = .ok (u, s')) : s'.db.Guarded c := by
  cases op with
  | applyControl | applyWatermark | replace | register | keyset => exact absurd trivial hA9
  | refresh clock random r =>
    have hclk : clock.now ≤ c := le_trans (le_max_left _ _) hop
    obtain ⟨_, t, hbody, hpure⟩ := bind_ok.mp h
    obtain ⟨-, rfl⟩ := pure_ok.mp hpure
    exact refresh_guarded hclk hk hg hbody
  | advancePolicy t control => exact advancePolicy_guarded hk hg h
  | beginSweep t =>
    have hmark : markRetentionUnsafe t s = .ok (u, s') := h
    have hrest : s.Rests S (fun _ => False) c s' := markRetentionUnsafe_rests _ _ _ hmark
    exact hg.rests hrest (.of_exec hmark rfl)
  | finishSweep clock =>
    obtain ⟨_, t, hbody, hpure⟩ := bind_ok.mp h
    obtain ⟨-, rfl⟩ := pure_ok.mp hpure
    exact sweepTx_guarded hk hg hbody
  | erase t lookup token =>
    obtain ⟨_, t, hbody, hpure⟩ := bind_ok.mp h
    obtain ⟨-, rfl⟩ := pure_ok.mp hpure
    exact eraseInvalidAPNSToken_guarded hk hg hbody
  | reapply t => exact reapplyDeletionTombstones_guarded hg h
  | requireRetentionSafe t =>
    have hrest : s.Rests S (fun _ => False) c s' := requireRetentionSafeTx_rests _ _ _ h
    exact hg.rests hrest (requireRetentionSafeTx_fences _ _ _ h)
  | worker t w => exact work_guarded hg h

theorem guarded_of_reachable {state : Sys} (hA9 : S.a9Enabled = false)
    (h : S.system.Reachable state) : state.db.Guarded state.clock := by
  refine h.invariant (P := fun s => s.db.Guarded s.clock) ?_ ?_
  · rintro s ⟨hdb, -⟩
    rw [hdb]
    exact ⟨fun l hl => absurd hl List.not_mem_nil, fun i hi => absurd hi List.not_mem_nil,
      fun l hl => absurd hl List.not_mem_nil⟩
  · rintro s e s' hs hg ⟨hop, ⟨t, hbody, hvault, -⟩, hclk⟩
    have hdb : s'.db = t.db := congrArg Vault.db hvault.symm
    have hnot : ¬ e.op.OfA9 := fun hof => absurd (hop hof) (by simp [hA9])
    rw [hdb, hclk]
    exact body_guarded hnot (le_max_right _ _)
      (Kept.mono (reachable_kept hs) s.session.valid (le_max_left _ _))
      (hg.mono (le_max_left _ _)) hbody

variable (S) in
/-- `ReapplyDeletionTombstones` as a whole: its transaction, and after the commit the markers. -/
def reapplyAndFinalize (now : Time) : VaultTx Unit := do
  S.reapplyDeletionTombstones now
  finalizeDeliveryMarkers

theorem finalizeDeliveryMarkers_ok (h : finalizeDeliveryMarkers s = .ok (u, s')) :
    s'.db.leases = s.db.leases ∧ s'.db.installations = s.db.installations ∧
      s.Spares (fun j => j.state = .final) s' := by
  obtain ⟨marked, _, hread, hloop⟩ := bind_ok.mp h
  obtain ⟨-, rfl⟩ := query_ok.mp hread
  refine forEach_ok (I := fun _ t => t.db.leases = s.db.leases ∧
    t.db.installations = s.db.installations ∧ s.Spares (fun j => j.state = .final) t) ?_
    ⟨rfl, rfl, .refl s⟩ hloop
  rintro b _ t t' ⟨hls, hrows, hsp⟩ hdel
  have hdb := (exec_ok.mp hdel).1
  refine ⟨by rw [hdb, ← hls], by rw [hdb, ← hrows], hsp.trans (.of_delete
    (p := fun j => j.jobID = b.jobID ∧ j.state = .final) (fun j => ?_) fun j _ hj => hj.2)⟩
  rw [hdb]
  exact mem_deleteWhere

end Store

/-- No row is left that a fence live at `now` covers, nor a sendable job of a row that is gone. -/
structure Db.Cleared (now : Time) (db db' : Db) : Prop where
  leases : ∀ l ∈ db'.leases, ¬ db.Fenced .route l.routeIdentity l.routeKeyEpoch now
  installations : ∀ i ∈ db'.installations,
    ¬ db.Fenced .installation i.installationIdentity i.policyEpoch now
  jobs : ∀ j ∈ db'.jobs, j.state.Live → j ∈ db.jobs ∧
    ∀ l ∈ db.leases, j.leaseID = some l.leaseID → l ∈ db'.leases ∧
      ∀ i ∈ db.installations, i.installationLookup = l.installationLookup → i ∈ db'.installations

/-- ACTIVE leases and installation rows are still there, and their jobs as they were. -/
structure Db.Undisturbed (db db' : Db) : Prop where
  leases : ∀ l ∈ db.leases, l.state = .active → l ∈ db'.leases
  installations : ∀ i ∈ db.installations, i.state = .active → i ∈ db'.installations
  leaseJobs : ∀ l ∈ db.leases, l.state = .active →
    ∀ j ∈ db.jobs, j.leaseID = some l.leaseID → j ∈ db'.jobs
  installationJobs : ∀ i ∈ db.installations, i.state = .active → ∀ j ∈ db.jobs,
    j.installationLookup = some i.installationLookup ∨
      db.JobOnInstallation i.installationLookup j → j ∈ db'.jobs

namespace Store

variable {S : Store}

/-- A stored job belongs to a lease, to an installation row, or is a final marker. -/
theorem owner_of_job {j : DeliveryJobRow} (hj : j ∈ s.db.jobs) :
    (∃ l ∈ s.db.leases, j.leaseID = some l.leaseID ∧ j.installationLookup = none ∧
      j.state ≠ .final) ∨
    (j.leaseID = none ∧ j.state ≠ .final) ∨
    (j.leaseID = none ∧ j.installationLookup = none ∧ ¬ j.state.Live) := by
  rcases s.valid.jobs.shape j hj with
    ⟨hlive, hls, hnone, -⟩ | ⟨hera, hnone, -⟩ | ⟨hfin, hnone, hnone', -⟩
  · obtain ⟨k, hk⟩ := Option.isSome_iff_exists.mp hls
    obtain ⟨l, hl, rfl⟩ := s.valid.jobs.lease.exists_parent hj hk
    exact .inl ⟨l, hl, hk, hnone, by rcases hlive with h | h <;> simp [h]⟩
  · exact .inr (.inl ⟨hnone, by rcases hera with h | h <;> simp [h]⟩)
  · exact .inr (.inr ⟨hnone, hnone', by simp [hfin, JobState.Live]⟩)

theorem reapplyAndFinalize_cleared (h : S.reapplyAndFinalize now s = .ok (u, s')) :
    s.db.Cleared now s'.db := by
  obtain ⟨_, t, hreapply, hfin⟩ := bind_ok.mp h
  have hr := reapplyDeletionTombstones_ok hreapply
  obtain ⟨hls, hrows, hsp⟩ := finalizeDeliveryMarkers_ok hfin
  refine ⟨fun l hl hfen => ?_, fun i hi hfen => ?_, fun j hj hlive => ?_⟩
  · rw [hls] at hl
    exact ((hr.leases l).mp hl).2 (.inl hfen)
  · rw [hrows, hr.installations] at hi
    exact (mem_deleteWhere.mp hi).2 hfen
  · have hj1 := hsp.live j hj hlive
    refine ⟨hr.jobs.live j hj1 hlive, fun l hl hjob => ?_⟩
    obtain ⟨l', hl', hjob', -⟩ | ⟨hnone, -⟩ | ⟨hnone, -⟩ := owner_of_job hj1
    · -- the lease the job still refers to is the one it referred to
      obtain ⟨hl0, hnot⟩ := (hr.leases l').mp hl'
      obtain rfl : l = l' := s.valid.leases.key.eq_of_key_eq hl hl0
        (Option.mem_unique hjob hjob')
      rw [hls, hrows, hr.installations]
      refine ⟨hl', fun i hi hlook => mem_deleteWhere.mpr ⟨hi, fun hcov => ?_⟩⟩
      exact hnot (.inr ⟨i, hi, hcov, .inl hlook.symm⟩)
    · cases hnone.symm.trans hjob
    · cases hnone.symm.trans hjob

section Undisturbed

variable {c : Time} (hk : s.db.Kept S c) (hg : s.db.Guarded c) (hnow : c ≤ now)

include hk hg in
theorem housed_of_active {l : LeaseRow} (hl : l ∈ s.db.leases) (hact : l.state = .active) :
    s.db.Housed l := by
  obtain ⟨home, hhome, hlook, -⟩ := hk.installation_of_lease hl
  exact ⟨home, hhome, hlook, hg.homes l hl hact home hhome hlook⟩

include hg hnow

theorem not_coveredInstallation {i : InstallationRow} (hi : i ∈ s.db.installations)
    (hact : i.state = .active) : ¬ s.db.CoveredInstallation now i :=
  (hg.rows i hi hact).not_fenced hnow

include hk

/-- The cascade from a covered row does not reach a lease of an ACTIVE one. -/
theorem not_coveredLease {l : LeaseRow} (hl : l ∈ s.db.leases) (hhoused : s.db.Housed l) :
    ¬ s.db.CoveredLease now l := by
  rintro (hfen | ⟨i, hi, hcov, hrefers⟩)
  · exact (hg.leases l hl hhoused).not_fenced hnow hfen
  obtain ⟨home, hhome, hlook, hact⟩ := hhoused
  obtain ⟨home', hhome', hlook', hid, -⟩ := hk.installation_of_lease hl
  obtain rfl : home = home' :=
    s.valid.installations.key.eq_of_key_eq hhome hhome' (hlook.trans hlook'.symm)
  obtain rfl : i = home := by
    rcases hrefers with heq | heq
    · exact s.valid.installations.key.eq_of_key_eq hi hhome (heq.symm.trans hlook.symm)
    · exact s.valid.installations.identity_key.eq_of_key_eq hi hhome
        (heq.symm.trans hid.symm)
  exact not_coveredInstallation hg hnow hi hact hcov

theorem not_coveredJob {j : DeliveryJobRow} (hj : j ∈ s.db.jobs)
    (hjob : (∃ l ∈ s.db.leases, s.db.Housed l ∧ j.leaseID = some l.leaseID) ∨
      ∃ i ∈ s.db.installations, i.state = .active ∧
        j.installationLookup = some i.installationLookup) :
    ¬ s.db.CoveredJob now j ∧ j.state ≠ .final := by
  rcases hjob with ⟨l, hl, hhoused, hjob⟩ | ⟨i, hi, hact, hjob⟩
  · obtain ⟨_, -, -, hnone, hfin⟩ | ⟨hnone, -⟩ | ⟨hnone, -⟩ := owner_of_job hj
    · refine ⟨?_, hfin⟩
      rintro (⟨l', hl', hcov, hjob'⟩ | ⟨i', -, -, hjob'⟩)
      · obtain rfl : l = l' := s.valid.leases.key.eq_of_key_eq hl hl'
          (Option.mem_unique hjob hjob')
        exact not_coveredLease hk hg hnow hl hhoused hcov
      · cases hnone.symm.trans hjob'
    · cases hnone.symm.trans hjob
    · cases hnone.symm.trans hjob
  · obtain ⟨_, -, -, hnone, -⟩ | ⟨hnone, hfin⟩ | ⟨-, hnone, -⟩ := owner_of_job hj
    · cases hnone.symm.trans hjob
    · refine ⟨?_, hfin⟩
      rintro (⟨l', -, -, hjob'⟩ | ⟨i', hi', hcov, hjob'⟩)
      · cases hnone.symm.trans hjob'
      · obtain rfl : i = i' := s.valid.installations.key.eq_of_key_eq hi hi'
          (Option.mem_unique hjob hjob')
        exact not_coveredInstallation hg hnow hi hact hcov
    · cases hnone.symm.trans hjob

theorem reapplyAndFinalize_undisturbed (h : S.reapplyAndFinalize now s = .ok (u, s')) :
    s.db.Undisturbed s'.db := by
  obtain ⟨_, t, hreapply, hfin⟩ := bind_ok.mp h
  have hr := reapplyDeletionTombstones_ok hreapply
  obtain ⟨hls, hrows, hsp⟩ := finalizeDeliveryMarkers_ok hfin
  have hjobs {j : DeliveryJobRow} (hj : j ∈ s.db.jobs)
      (hnot : ¬ s.db.CoveredJob now j ∧ j.state ≠ .final) : j ∈ s'.db.jobs :=
    hsp.spared j (hr.jobs.spared j hj hnot.1) hnot.2
  refine ⟨fun l hl hact => ?_, fun i hi hact => ?_, fun l hl hact j hj hjob => ?_,
    fun i hi hact j hj hjob => ?_⟩
  · rw [hls]
    exact (hr.leases l).mpr
      ⟨hl, not_coveredLease hk hg hnow hl (housed_of_active hk hg hl hact)⟩
  · rw [hrows, hr.installations]
    exact mem_deleteWhere.mpr ⟨hi, not_coveredInstallation hg hnow hi hact⟩
  · exact hjobs hj (not_coveredJob hk hg hnow hj
      (.inl ⟨l, hl, housed_of_active hk hg hl hact, hjob⟩))
  · refine hjobs hj (not_coveredJob hk hg hnow hj ?_)
    rcases hjob with hjob | ⟨l, hl, hjob, hlook⟩
    · exact .inr ⟨i, hi, hact, hjob⟩
    · exact .inl ⟨l, hl, ⟨i, hi, hlook.symm, hact⟩, hjob⟩

end Undisturbed

/-- Whatever rows a store without A9 holds, the pass clears what the fences cover; and in a state
its own operations reach, no ACTIVE row or job of one is among that. -/
theorem reapply_clears_and_spares (hA9 : S.a9Enabled = false) :
    (∀ (s s' : Session) (now : Time), S.reapplyAndFinalize now s = .ok ((), s') →
      s.db.Cleared now s'.db) ∧
    ∀ (state : Sys) (s' : Session) (now : Time), S.system.Reachable state → state.clock ≤ now →
      S.reapplyAndFinalize now state.session = .ok ((), s') → state.db.Undisturbed s'.db := by
  constructor
  · intro s s' now h
    exact reapplyAndFinalize_cleared h
  · intro state s' now hreach hnow h
    have hk : state.session.db.Kept S state.clock := reachable_kept hreach
    have hg : state.session.db.Guarded state.clock := guarded_of_reachable hA9 hreach
    exact reapplyAndFinalize_undisturbed hk hg hnow h

/-- The ACTIVE lease of an installation that was revoked at epoch 2 and refreshed at epoch 3, with
the fences of the revocation on the installation and its route. -/
theorem reapply_spares_refreshed :
    ∃ (state : Sys) (s' : Session), Sample.gate6.system.Reachable state ∧
      state.clock ≤ Sample.start ∧ (state.db.leases.map fun l => l.state) = [.active] ∧
      (state.db.deletionTombstones.map fun t => (t.targetKind, t.fenceEpoch)) =
        [(.installation, 2), (.route, 1)] ∧
      (∀ t ∈ state.db.deletionTombstones, Sample.start < t.expiresAt) ∧
      Sample.gate6.reapplyAndFinalize Sample.start state.session = .ok ((), s') ∧
      state.db.Cleared Sample.start s'.db ∧ state.db.Undisturbed s'.db := by
  obtain ⟨state, hreach, hclk, hact, hfences, hlive, u, s', hrun, -⟩ :=
    exists_reachable (S := Sample.gate6)
    (Sample.refreshed ++ [.advancePolicy Sample.start (Sample.policy 2 .revoked Sample.start),
      .refresh ⟨Sample.start, Sample.start⟩ Sample.random
        (Sample.replacement 70 3 [Sample.subscription 70 1 1 3]).refresh])
    (P := fun s => s.clock ≤ Sample.start ∧ (s.db.leases.map fun l => l.state) = [.active] ∧
      (s.db.deletionTombstones.map fun t => (t.targetKind, t.fenceEpoch)) =
        [(.installation, 2), (.route, 1)] ∧
      (∀ t ∈ s.db.deletionTombstones, Sample.start < t.expiresAt) ∧ ∃ u s',
      Sample.gate6.reapplyAndFinalize Sample.start s.session = .ok (u, s') ∧ True)
    (by decide +kernel)
  obtain ⟨hclears, hsp⟩ := reapply_clears_and_spares (S := Sample.gate6) rfl
  exact ⟨state, s', hreach, hclk, hact, hfences, hlive, hrun, hclears _ _ _ hrun,
    hsp state s' _ hreach hclk hrun⟩

end Store

end NotificationServer
