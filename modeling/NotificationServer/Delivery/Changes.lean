import NotificationServer.Delivery.Authority

/-!
# What a transaction does to the queue

No transaction of a worker creates a job or revives one, and none lowers the
attempts of a live job.  `Changes` says this, and which jobs a transaction may
have touched or finalized for safety; every transaction has one lemma.
-/

namespace NotificationServer

open Relational DeliveryStore Tx

variable {r j : DeliveryJobRow} {reason : DeliveryFinalReason} {u : Unit}
  {deadline availableAt : Time} {claimed : List (Option ClaimedDeliveryJob)}
  {c : Option ClaimedDeliveryJob} {f : DeliveryJobRow → DeliveryJobRow} {g : DeliveryAttemptGuard}

/-- A live row and the row it has become: the same job, with no fewer attempts. -/
structure SameJob (r r' : DeliveryJobRow) : Prop where
  live : r.state.Live
  attempts : r.attempts ≤ r'.attempts
  leaseID : r'.leaseID = r.leaseID
  encryptedJob : r'.encryptedJob = r.encryptedJob
  expiresAt : r'.expiresAt = r.expiresAt
  a9 : r'.a9 = r.a9

theorem SameJob.refl (h : r.state.Live) : SameJob r r :=
  ⟨h, le_rfl, rfl, rfl, rfl, rfl⟩

theorem SameJob.trans {r' r'' : DeliveryJobRow} (h : SameJob r r') (h' : SameJob r' r'') :
    SameJob r r'' where
  live := h.live
  attempts := h.attempts.trans h'.attempts
  leaseID := h'.leaseID.trans h.leaseID
  encryptedJob := h'.encryptedJob.trans h.encryptedJob
  expiresAt := h'.expiresAt.trans h.expiresAt
  a9 := h'.a9.trans h.a9

/-- A queue has moved on: `touched` are the ids of the live rows that may have changed, `marked`
those of the rows that may have been finalized for safety. -/
structure Changes (touched marked : Bytes16 → Prop) (jobs jobs' : List DeliveryJobRow) : Prop where
  origin : ∀ r' ∈ jobs', ∃ r ∈ jobs, r.jobID = r'.jobID ∧ (r'.state.Live → SameJob r r')
  live : ∀ r' ∈ jobs', r'.state.Live → r' ∈ jobs ∨ touched r'.jobID
  safety : ∀ r' ∈ jobs', r'.finalReason = some .safetyInvalidated → r' ∈ jobs ∨ marked r'.jobID

namespace Changes

variable {touched marked touched' marked' : Bytes16 → Prop} {jobs jobs' jobs'' : List DeliveryJobRow}

theorem of_subset (h : ∀ r' ∈ jobs', r' ∈ jobs) : Changes touched marked jobs jobs' where
  origin r' hr' := ⟨r', h r' hr', rfl, .refl⟩
  live r' hr' _ := .inl (h r' hr')
  safety r' hr' _ := .inl (h r' hr')

theorem refl (jobs : List DeliveryJobRow) : Changes touched marked jobs jobs :=
  of_subset fun _ h => h

theorem trans (h : Changes touched marked jobs jobs') (h' : Changes touched marked jobs' jobs'') :
    Changes touched marked jobs jobs'' where
  origin r'' hr'' := by
    obtain ⟨r', hr', hid', hlive'⟩ := h'.origin r'' hr''
    obtain ⟨r, hr, hid, hlive⟩ := h.origin r' hr'
    refine ⟨r, hr, hid.trans hid', fun hl => ?_⟩
    have hsame : SameJob r' r'' := hlive' hl
    exact (hlive hsame.live).trans hsame
  live r'' hr'' hl := by
    rcases h'.live r'' hr'' hl with hr' | ht
    · exact h.live r'' hr' hl
    · exact .inr ht
  safety r'' hr'' hs := by
    rcases h'.safety r'' hr'' hs with hr' | hm
    · exact h.safety r'' hr' hs
    · exact .inr hm

theorem mono (h : Changes touched marked jobs jobs') (ht : ∀ i, touched i → touched' i)
    (hm : ∀ i, marked i → marked' i) : Changes touched' marked' jobs jobs' where
  origin := h.origin
  live r' hr' hl := (h.live r' hr' hl).imp id (ht _)
  safety r' hr' hs := (h.safety r' hr' hs).imp id (hm _)

/-- An UPDATE of rows, each to a row of the same id. -/
theorem updateWhere {p : DeliveryJobRow → Prop} [DecidablePred p]
    {f : DeliveryJobRow → DeliveryJobRow} (hid : ∀ r ∈ jobs, p r → (f r).jobID = r.jobID)
    (hlive : ∀ r ∈ jobs, p r → (f r).state.Live → SameJob r (f r) ∧ touched r.jobID)
    (hsaf : ∀ r ∈ jobs, p r → (f r).finalReason = some .safetyInvalidated → marked r.jobID) :
    Changes touched marked jobs (updateWhere p f jobs) where
  origin r' hr' := by
    rcases mem_updateWhere.mp hr' with ⟨r, hr, hp, rfl⟩ | ⟨hr, -⟩
    · exact ⟨r, hr, (hid r hr hp).symm, fun hl => (hlive r hr hp hl).1⟩
    · exact ⟨r', hr, rfl, .refl⟩
  live r' hr' hl := by
    rcases mem_updateWhere.mp hr' with ⟨r, hr, hp, rfl⟩ | ⟨hr, -⟩
    · rw [hid r hr hp]
      exact .inr (hlive r hr hp hl).2
    · exact .inl hr
  safety r' hr' hs := by
    rcases mem_updateWhere.mp hr' with ⟨r, hr, hp, rfl⟩ | ⟨hr, -⟩
    · rw [hid r hr hp]
      exact .inr (hsaf r hr hp hs)
    · exact .inl hr

end Changes

def Session.Changes (touched marked : Bytes16 → Prop) (s s' : Session) : Prop :=
  NotificationServer.Changes touched marked s.db.jobs s'.db.jobs

section Statements

variable {touched marked : Bytes16 → Prop}

instance : Std.Refl (Session.Changes touched marked) := ⟨fun s => .refl s.db.jobs⟩

instance : IsTrans Session (Session.Changes touched marked) := ⟨fun _ _ _ h h' => h.trans h'⟩

theorem exec_changes {f : List DeliveryJobRow → List DeliveryJobRow} {s s' : Session} {u : Unit}
    (h : exec (fun db => { db with jobs := f db.jobs }) s = .ok (u, s'))
    (hf : Changes touched marked s.db.jobs (f s.db.jobs)) : s.Changes touched marked s' := by
  obtain ⟨hdb, -⟩ := exec_ok.mp h
  unfold Session.Changes
  rw [hdb]
  exact hf

theorem exec_changes_none {f : Db → Db} (hf : ∀ db, (f db).jobs = db.jobs) :
    Moves (Session.Changes touched marked) (exec f) := by
  intro s u s' h
  obtain ⟨hdb, -⟩ := exec_ok.mp h
  unfold Session.Changes
  rw [hdb, hf]
  exact .refl _

end Statements

variable {S : DeliveryStore} {s s' : Session} {now markedAt : Time} {jobID : Bytes16}

theorem DeliveryJobRow.final_of_reason (hr : r ∈ s.db.jobs) (h : r.finalReason = some reason) :
    r.state = .final := by
  rcases s.valid.jobs.shape r hr with hlive | hera | hfin
  · cases h.symm.trans hlive.2.2.2.2.2
  · cases h.symm.trans hera.2.2.2.2
  · exact hfin.1

theorem DeliveryJobRow.lease_of_live (hr : r ∈ s.db.jobs) (hlive : r.state.Live) :
    ∃ l ∈ s.db.leases, r.leaseID = some l.leaseID := by
  have hsome : r.leaseID.isSome := by
    rcases s.valid.jobs.shape r hr with h | ⟨hera, -⟩ | ⟨hfin, -⟩
    · exact h.2.1
    · rcases hlive with h | h <;> rcases hera with h' | h' <;> cases h.symm.trans h'
    · rcases hlive with h | h <;> cases h.symm.trans hfin
  obtain ⟨leaseID, hls⟩ := Option.isSome_iff_exists.mp hsome
  obtain ⟨l, hl, hid⟩ := List.mem_map.mp (s.valid.jobs.lease r hr leaseID hls)
  exact ⟨l, hl, hls.trans (congrArg some hid.symm)⟩

theorem marker_not_live (reason : DeliveryFinalReason) (j : DeliveryJobRow) :
    ¬ (S.marker now reason j).state.Live := by
  rintro (h | h) <;> cases h

/-- A marker says safety only if safety was the reason given. -/
theorem marker_safety (h : (S.marker now reason j).finalReason = some .safetyInvalidated) :
    reason = .safetyInvalidated := by
  have hwhy : finalReason (S.finalTrafficClass j) reason = .safetyInvalidated :=
    Option.some.inj h
  unfold finalReason at hwhy
  split at hwhy
  · cases hwhy
  · exact hwhy

/-- `markDeliveryJobFinalTx` turns the live row of the job into a marker and does nothing else. -/
theorem markDeliveryJobFinalTx_ok {b : Bool}
    (h : S.markDeliveryJobFinalTx now jobID reason s = .ok (b, s')) :
    s'.db = { s.db with
        jobs := updateWhere (fun j => j.jobID = jobID ∧ j.state.Live) (S.marker now reason)
          s.db.jobs } := by
  simp only [markDeliveryJobFinalTx, bind_ok, query_ok] at h
  obtain ⟨row, _, ⟨hrow, rfl⟩, h⟩ := h
  -- without a live row of that id the UPDATE would change nothing
  have hquiet : (∀ j ∈ s.db.jobs, j.jobID = jobID → ¬ j.state.Live) →
      updateWhere (fun j => j.jobID = jobID ∧ j.state.Live) (S.marker now reason) s.db.jobs =
        s.db.jobs := by
    intro hnone
    unfold updateWhere
    conv_rhs => rw [← List.map_id s.db.jobs]
    refine List.map_congr_left fun j hj => ?_
    rw [if_neg fun hp => hnone j hj hp.1 hp.2]
    rfl
  cases row with
  | none =>
    obtain ⟨-, rfl⟩ := pure_ok.mp h
    rw [hquiet fun j hj hid => absurd hid (by simpa using List.find?_eq_none.mp hrow j hj)]
  | some r =>
    obtain ⟨hr, hrid⟩ := found hrow
    have honly : ¬ r.state.Live → ∀ j ∈ s.db.jobs, j.jobID = jobID → ¬ j.state.Live := by
      intro hnot j hj hid
      rwa [s.valid.jobs.key.eq_of_key_eq hj hr (hid.trans hrid.symm)]
    simp only [ite_ok, bind_ok, exec_ok, pure_ok] at h
    rcases h with ⟨hfin, -, rfl⟩ | ⟨-, ⟨hdead, -, rfl⟩ | ⟨-, _, _, ⟨hdb, -⟩, -, rfl⟩⟩
    · rw [hquiet (honly (by rw [hfin]; rintro (h | h) <;> cases h))]
    · rw [hquiet (honly hdead)]
    · exact hdb

theorem markDeliveryJobFinalTx_changes (reason : DeliveryFinalReason) :
    Moves (Session.Changes (fun _ => False) fun i => i = jobID ∧ reason = .safetyInvalidated)
      (S.markDeliveryJobFinalTx now jobID reason) := by
  intro s b s' h
  unfold Session.Changes
  rw [markDeliveryJobFinalTx_ok h]
  refine .updateWhere (fun _ _ _ => rfl) (fun r _ _ hl => absurd hl (marker_not_live reason r)) ?_
  intro r _ hp hs
  exact ⟨hp.1, marker_safety hs⟩

theorem markDeliveryJobFinalTx_dead {b : Bool}
    (h : S.markDeliveryJobFinalTx now jobID reason s = .ok (b, s')) :
    ∀ r ∈ s'.db.jobs, r.jobID = jobID → ¬ r.state.Live := by
  intro r hr hid hlive
  rw [markDeliveryJobFinalTx_ok h] at hr
  rcases mem_updateWhere.mp hr with ⟨r0, -, -, rfl⟩ | ⟨-, hnot⟩
  · exact marker_not_live reason r0 hlive
  · exact hnot ⟨hid, hlive⟩

theorem markOverdueErasureUnsafe_changes {touched marked : Bytes16 → Prop} :
    Moves (Session.Changes touched marked) (markOverdueErasureUnsafe now) := by
  refine exec_changes_none fun db => ?_
  split
  · rfl
  · rfl

/-- A recovery touches the rows whose claim has lapsed.  It finalizes nothing for safety: a lease
is deleted with its jobs. -/
theorem recoverDeliveryJobsTx_changes (h : S.recoverDeliveryJobsTx now markedAt s = .ok (u, s')) :
    s.Changes (fun i => ∃ j ∈ s.db.jobs, Lapsed now j ∧ j.jobID = i) (fun _ => False) s' := by
  simp only [recoverDeliveryJobsTx, bind_ok, query_ok] at h
  obtain ⟨candidates, _, ⟨rfl, rfl⟩, _, s1, hmarks, _, s2, hlap, hunsafe⟩ := h
  have hmk : s.Changes (fun _ => False) (fun _ => False) s1 := by
    refine Moves.forEach (fun j hj => ?_) s _ s1 hmarks
    obtain ⟨hmem, hcand⟩ := List.mem_filter.mp hj
    obtain ⟨hlive, hcau⟩ : Unrecoverable s.db now j := of_decide_eq_true hcand
    refine .bind (fun t b t' ht => ?_) fun _ => .pure _
    refine (markDeliveryJobFinalTx_changes _ t b t' ht).mono (fun _ => id) ?_
    rintro i ⟨-, hwhy⟩
    unfold recoveryReason at hwhy
    split_ifs at hwhy with hatt hexpired
    rcases hcau with hexp | ⟨-, -, hspent⟩ | hls
    · exact hexpired hexp
    · exact hatt hspent
    · exact hls (DeliveryJobRow.lease_of_live hmem hlive)
  have hrele : s1.Changes (fun i => ∃ j ∈ s.db.jobs, Lapsed now j ∧ j.jobID = i)
      (fun _ => False) s2 := by
    refine exec_changes hlap (.updateWhere (fun _ _ _ => rfl) ?_ ?_)
    · intro r hr hl _
      -- the rows still live after the markers are old ones
      have hmem : r ∈ s.db.jobs := (hmk.live r hr (.inr hl.1)).resolve_right id
      exact ⟨⟨.inr hl.1, le_rfl, rfl, rfl, rfl, rfl⟩, r, hmem, hl, rfl⟩
    · intro r hr hl hs
      have hfin : r.state = .final := DeliveryJobRow.final_of_reason hr hs
      cases hl.1.symm.trans hfin
  have hmk' : s.Changes (fun i => ∃ j ∈ s.db.jobs, Lapsed now j ∧ j.jobID = i)
      (fun _ => False) s1 := Changes.mono hmk (fun _ => False.elim) (fun _ => id)
  exact (hmk'.trans hrele).trans (markOverdueErasureUnsafe_changes s2 _ s' hunsafe)

theorem SnapshotAgrees.complete_iff {job : SerializedDeliveryJob} (h : SnapshotAgrees j job) :
    job.a9.isSome = true ↔ SnapshotComplete j.a9 := by
  rcases h with ⟨hrow, hjob⟩ | ⟨snap, hjob, columns, hrow, hcomp, -⟩
  · simp [hrow, hjob, SnapshotComplete]
  · have hsome : job.a9 = some snap := hjob
    rw [hsome]
    exact ⟨fun _ => ⟨columns, hrow, hcomp⟩, fun _ => rfl⟩

def claimedUntil (deadline : Time) (c : ClaimedDeliveryJob) (r : DeliveryJobRow) : DeliveryJobRow :=
  { r with
    state := .claimed, availableAt := min deadline r.expiresAt
    trafficClass := some c.job.trafficClass }

/-- A round of the claim loop finalizes the selected row, for safety only if the job was queued by a
server of the other mode, or claims it. -/
theorem claimRowTx_ok {r : Option ClaimedDeliveryJob}
    (h : S.claimRowTx now markedAt deadline j s = .ok (r, s')) :
    (r = none ∧ ∃ reason,
      (reason = .safetyInvalidated → ∃ c, S.claimOf j = some c ∧ S.a9Enabled ≠ c.job.a9.isSome) ∧
      s'.db = { s.db with
          jobs := updateWhere (fun j' => j'.jobID = j.jobID ∧ j'.state.Live)
            (S.marker markedAt reason) s.db.jobs }) ∨
    ∃ c, r = some c ∧ S.claimOf j = some c ∧ SnapshotAgrees j c.job ∧ s'.db = { s.db with
          jobs := updateWhere (fun j' => j'.jobID = j.jobID ∧ j'.attempts < maxDeliveryAttempts)
            (claimedUntil deadline c) s.db.jobs } := by
  unfold claimRowTx at h
  cases hcl : S.claimOf j with
  | none =>
    simp only [hcl, bind_ok, pure_ok] at h
    obtain ⟨_, _, hmark, rfl, rfl⟩ := h
    exact .inl ⟨rfl, .materialInvalid, (fun h => by cases h), markDeliveryJobFinalTx_ok hmark⟩
  | some c =>
    simp only [hcl, ite_ok, bind_ok, pure_ok, exec_ok] at h
    rcases h with ⟨-, _, _, hmark, rfl, rfl⟩ |
      ⟨hval, ⟨hmode, _, _, hmark, rfl, rfl⟩ | ⟨-, _, _, ⟨hdb, -⟩, rfl, rfl⟩⟩
    · exact .inl ⟨rfl, .materialInvalid, (fun h => by cases h), markDeliveryJobFinalTx_ok hmark⟩
    · refine .inl ⟨rfl, .safetyInvalidated, fun _ => ⟨c, rfl, fun hsame => hmode ?_⟩,
        markDeliveryJobFinalTx_ok hmark⟩
      have hagrees : SnapshotAgrees j c.job := (Decidable.not_not.mp hval).2.2.2.1
      rw [hsame, hagrees.complete_iff]
    · exact .inr ⟨c, rfl, rfl, (Decidable.not_not.mp hval).2.2.2.1, hdb⟩

/-- A claim and the row it was made on: the row is claimed until the deadline as the claim says. -/
structure ClaimedFrom (S : DeliveryStore) (deadline : Time) (j : DeliveryJobRow)
    (c : ClaimedDeliveryJob) : Prop where
  claim : S.claimOf j = some c
  snapshot : SnapshotAgrees j c.job
  attempts : j.attempts < maxDeliveryAttempts

/-- The claim loop between two rounds: the rows still to come are as they were selected. -/
structure ClaimLoop (S : DeliveryStore) (deadline : Time) (s : Session)
    (rest : List DeliveryJobRow) (claimed : List (Option ClaimedDeliveryJob)) (t : Session) :
    Prop where
  distinct : (rest.map fun j => j.jobID).Nodup
  unchanged : ∀ j ∈ rest, j ∈ t.db.jobs ∧ j ∈ s.db.jobs ∧ j.state = .pending ∧
    j.attempts < maxDeliveryAttempts
  changes : s.Changes (fun i => ∃ j ∈ s.db.jobs, j.state = .pending ∧ j.jobID = i)
    (fun i => ∃ j ∈ s.db.jobs, j.state = .pending ∧ j.jobID = i ∧
      ∃ c, S.claimOf j = some c ∧ S.a9Enabled ≠ c.job.a9.isSome) t
  frame : t.db = { s.db with jobs := t.db.jobs }
  apart : (claimed.filterMap id).Pairwise fun c c' => c.jobID ≠ c'.jobID
  claims : ∀ c, some c ∈ claimed → ∃ j ∈ s.db.jobs, j.state = .pending ∧
    ClaimedFrom S deadline j c ∧ j.jobID ∉ rest.map (fun j => j.jobID) ∧
    ∀ r ∈ t.db.jobs, r.jobID = j.jobID → r = claimedUntil deadline c j

theorem ClaimLoop.start {rows : List DeliveryJobRow} (hdist : (rows.map fun j => j.jobID).Nodup)
    (hrows : ∀ j ∈ rows, j ∈ s.db.jobs ∧ j.state = .pending ∧ j.attempts < maxDeliveryAttempts) :
    ClaimLoop S deadline s rows [] s where
  distinct := hdist
  unchanged j hj := ⟨(hrows j hj).1, hrows j hj⟩
  changes := .refl _
  frame := rfl
  apart := .nil
  claims _ hc := by cases hc

/-- The selected row is replaced by `r'`, and every other row stays. -/
theorem ClaimLoop.next {rest : List DeliveryJobRow} {t t' : Session} {p : DeliveryJobRow → Prop}
    [DecidablePred p] (h : ClaimLoop S deadline s (j :: rest) claimed t) (hdb : t'.db =
      { t.db with jobs := updateWhere (fun r => r.jobID = j.jobID ∧ p r) f t.db.jobs }) (hp : p j)
    (hid : (f j).jobID = j.jobID) (hlive : (f j).state.Live → SameJob j (f j))
    (hsaf : (f j).finalReason = some .safetyInvalidated →
      ∃ c, S.claimOf j = some c ∧ S.a9Enabled ≠ c.job.a9.isSome)
    (hcl : ∀ c', c = some c' → ClaimedFrom S deadline j c' ∧ f j = claimedUntil deadline c' j) :
    ClaimLoop S deadline s rest (claimed ++ [c]) t' := by
  obtain ⟨hmem, hst, hpend, hatt⟩ := h.unchanged j (.head _)
  obtain ⟨hfr, hrest⟩ := List.nodup_cons.mp h.distinct
  have hjobs : t'.db.jobs = updateWhere (fun r => r.jobID = j.jobID ∧ p r) f t.db.jobs := by
    rw [hdb]
  -- the row with the selected id is the selected row
  have hsole : ∀ r ∈ t.db.jobs, r.jobID = j.jobID → r = j := fun r hr hrid =>
    t.valid.jobs.key.eq_of_key_eq hr hmem hrid
  have hrow : ∀ r ∈ t'.db.jobs, r = f j ∨ (r ∈ t.db.jobs ∧ r.jobID ≠ j.jobID) := by
    intro r hr
    rw [hjobs] at hr
    rcases mem_updateWhere.mp hr with ⟨r0, hr0, hp0, rfl⟩ | ⟨hr, hnot⟩
    · rw [hsole r0 hr0 hp0.1]
      exact .inl rfl
    · refine .inr ⟨hr, fun hrid => hnot ⟨hrid, ?_⟩⟩
      rw [hsole r hr hrid]
      exact hp
  constructor
  · exact hrest
  · intro j' hj'
    obtain ⟨hmem', hunch⟩ := h.unchanged j' (.tail _ hj')
    refine ⟨?_, hunch⟩
    rw [hjobs]
    refine mem_updateWhere.mpr (.inr ⟨hmem', fun hsame => hfr ?_⟩)
    exact List.mem_map.mpr ⟨j', hj', hsame.1⟩
  · refine h.changes.trans ?_
    rw [hjobs]
    refine .updateWhere (fun r hr hpr => ?_) (fun r hr hpr hl => ?_) fun r hr hpr hs => ?_
    all_goals obtain rfl := hsole r hr hpr.1
    · exact hid
    · exact ⟨hlive hl, r, hst, hpend, rfl⟩
    · exact ⟨r, hst, hpend, rfl, hsaf hs⟩
  · rw [hdb, h.frame]
  · rw [List.filterMap_append]
    refine List.pairwise_append.mpr ⟨h.apart, ?_, fun c1 hc1 c2 hc2 hsame => ?_⟩
    · cases c <;> simp
    obtain ⟨o1, ho1, hc1⟩ := List.mem_filterMap.mp hc1
    obtain ⟨o2, ho2, hc2⟩ := List.mem_filterMap.mp hc2
    obtain rfl : o1 = some c1 := hc1
    obtain rfl : o2 = some c2 := hc2
    obtain ⟨j1, -, -, hfrom1, hout1, -⟩ := h.claims c1 ho1
    obtain ⟨hfrom2, -⟩ := hcl c2 (List.mem_singleton.mp ho2).symm
    obtain ⟨hid1, -⟩ := claimOf_eq_some hfrom1.claim
    obtain ⟨hid2, -⟩ := claimOf_eq_some hfrom2.claim
    refine hout1 (List.mem_map.mpr ⟨j, .head _, ?_⟩)
    exact hid2.trans (hsame.symm.trans hid1.symm)
  · intro c' hc'
    rcases List.mem_append.mp hc' with hold | hnew
    · obtain ⟨j0, hj0, hpend0, hfrom, hout, hrows⟩ := h.claims c' hold
      obtain ⟨hne, hout⟩ := List.ne_and_not_mem_of_not_mem_cons hout
      refine ⟨j0, hj0, hpend0, hfrom, hout, fun r hr hrid => ?_⟩
      rcases hrow r hr with rfl | ⟨hr, -⟩
      · exact absurd (hrid.symm.trans hid) hne
      · exact hrows r hr hrid
    · obtain ⟨hfrom, hset⟩ := hcl c' (List.mem_singleton.mp hnew).symm
      refine ⟨j, hst, hpend, hfrom, hfr, fun r hr hrid => ?_⟩
      rcases hrow r hr with rfl | ⟨-, hoth⟩
      · exact hset
      · exact absurd hrid hoth

theorem ClaimLoop.step {rest : List DeliveryJobRow} {t t' : Session}
    (h : ClaimLoop S deadline s (j :: rest) claimed t)
    (hrd : S.claimRowTx now markedAt deadline j t = .ok (c, t')) :
    ClaimLoop S deadline s rest (claimed ++ [c]) t' := by
  obtain ⟨-, -, hpend, hatt⟩ := h.unchanged j (.head _)
  rcases claimRowTx_ok hrd with ⟨rfl, reason, hwhy, hdb⟩ | ⟨c, rfl, hcl, hsnap, hdb⟩
  · refine h.next hdb (.inl hpend) rfl (fun hl => absurd hl (marker_not_live reason j))
      (fun hs => hwhy (marker_safety hs)) ?_
    rintro c' ⟨⟩
  · refine h.next hdb hatt rfl (fun _ => ⟨.inl hpend, le_rfl, rfl, rfl, rfl, rfl⟩)
      (fun hs => ?_) ?_
    · have hfin : j.state = .final :=
        DeliveryJobRow.final_of_reason (h.unchanged j (.head _)).1 hs
      cases hpend.symm.trans hfin
    · rintro c' ⟨⟩
      exact ⟨⟨hcl, hsnap, hatt⟩, rfl⟩

/-- What `ClaimDeliveryJobs` does: pending rows are claimed or finalized, and every claim returned
is on a pending row that is now claimed until the deadline. -/
theorem claimDeliveryJobsTx_ok {limit : Nat} {claimTTL : Int} {claims : List ClaimedDeliveryJob}
    (h : S.claimDeliveryJobsTx now markedAt limit claimTTL s = .ok (claims, s')) :
    ∃ results, ClaimLoop S (now + claimTTL) s [] results s' ∧ claims = results.filterMap id := by
  simp only [claimDeliveryJobsTx, bind_ok, require_ok, query_ok, pure_ok] at h
  obtain ⟨_, _, ⟨-, rfl⟩, rows, _, ⟨rfl, rfl⟩, results, _, hloop, rfl, rfl⟩ := h
  refine ⟨results, ?_, rfl⟩
  refine collect_invariant (I := ClaimLoop S (now + claimTTL) s)
    (fun _ _ _ _ _ _ hI hrd => hI.step hrd) (.start ?_ fun j hj => ?_) hloop
  · have hsub := (List.take_sublist limit ((s.db.jobs.filter fun j =>
      Claimable s.db now j).insertionSort ClaimedBefore)).map fun j => j.jobID
    refine hsub.nodup (((List.perm_insertionSort _ _).map _).nodup_iff.mpr ?_)
    exact (List.filter_sublist.map _).nodup s.valid.jobs.key
  · have hmem := (List.perm_insertionSort _ _).mem_iff.mp (List.mem_of_mem_take hj)
    obtain ⟨hj, hclai⟩ := List.mem_filter.mp hmem
    obtain ⟨hpend, -, -, hatt, -⟩ : Claimable s.db now j := of_decide_eq_true hclai
    exact ⟨hj, hpend, hatt⟩

theorem releaseDeliveryJobTx_changes (h : S.releaseDeliveryJobTx now jobID s = .ok (u, s')) :
    s.Changes (fun i => i = jobID) (fun _ => False) s' := by
  simp only [releaseDeliveryJobTx, bind_ok, query_ok] at h
  obtain ⟨exhausted, _, ⟨-, rfl⟩, _, s1, hmark, hrelease⟩ := h
  have hmk : s.Changes (fun i => i = jobID) (fun _ => False) s1 := by
    refine Moves.when (.bind (fun t b t' ht => ?_) fun _ => .pure _) s _ s1 hmark
    exact (markDeliveryJobFinalTx_changes _ t b t' ht).mono (fun _ => False.elim)
      fun _ hi => by cases hi.2
  refine hmk.trans (exec_changes hrelease (.updateWhere (fun _ _ _ => rfl) ?_ ?_))
  · intro r _ hr hl
    rcases hr.2 with hcl | hera
    · exact ⟨⟨.inr hcl, le_rfl, rfl, rfl, rfl, rfl⟩, hr.1⟩
    · simp only [released, hera] at hl
      rcases hl with h | h <;> cases h
  · intro r hr hp hs
    have hfin : r.state = .final := DeliveryJobRow.final_of_reason hr hs
    rcases hp.2 with h | h <;> cases h.symm.trans hfin

/-- An installation was blocked with its leases, and jobs on it may have become markers. -/
structure Session.Blocks (s s' : Session) (lookup : LookupDigest) : Prop where
  changes : s.Changes (fun _ => False) (fun i => ∃ r ∈ s.db.jobs, r.jobID = i ∧ r.state.Live ∧
    s.db.JobOnInstallation lookup r) s'
  frame : ∃ now, s'.db = { s.db with
      installations := updateWhere (fun i => i.installationLookup = lookup)
        (fun i => { i with state := .blocked, revokedAt := some (i.revokedAt.getD now) })
        s.db.installations
      leases := updateWhere (fun l => l.installationLookup = lookup)
        (fun l => { l with state := .blocked, revokedAt := some (l.revokedAt.getD now) }) s.db.leases
      jobs := s'.db.jobs }

section Blocks

variable {lookup : LookupDigest} {c : ClaimedDeliveryJob} {trust : TopicTrust} {k : AttemptClock}

/-- The lease of a job that is intact after the block is not on the installation. -/
theorem Session.Blocks.lease (h : s.Blocks s' lookup) {lane : DeliveryTrafficClass}
    {reference : Time} {a : DeliveryAuthority}
    (ha : s'.db.deliveryAuthority c.leaseID lane.lane reference = some a) :
    a.lease ∈ s.db.leases ∧ a.lease.leaseID = c.leaseID ∧ a.lease.installationLookup ≠ lookup := by
  obtain ⟨hfind, -, -, hopen⟩ := deliveryAuthority_lease ha
  obtain ⟨now, hdb⟩ := h.frame
  obtain ⟨hmem, hid⟩ := found hfind
  have hst : a.lease.state = lane.lane.leaseState := hopen.2.2.2.2.2.2.1
  rw [hdb] at hmem
  rcases mem_updateWhere.mp hmem with ⟨l, -, -, hl⟩ | ⟨hmem, hoth⟩
  · rw [← hl] at hst
    cases lane <;> cases hst
  · exact ⟨hmem, hid, hoth⟩

theorem Session.Blocks.intact (h : s.Blocks s' lookup) (hd : S.Intact trust k s'.db c) :
    S.Intact trust k s.db c := by
  obtain ⟨hunexp, a, ha, hage, hmat, hrts⟩ := hd
  obtain ⟨hmem, hid, hoth⟩ := h.lease ha
  obtain ⟨-, hinst, htok, hopen⟩ := deliveryAuthority_lease ha
  obtain ⟨now, hdb⟩ := h.frame
  have hls : (s.db.leases.find? fun l => l.leaseID = c.leaseID) = some a.lease := by
    rw [← hid]
    exact s.valid.leases.key.find?_eq_some hmem
  have hinstall : (s.db.installations.find? fun i =>
      i.installationLookup = a.lease.installationLookup) = some a.installation := by
    rw [hdb] at hinst
    refine (find?_updateWhere_of_not (fun i hi => ?_) _).symm.trans hinst
    exact ⟨fun h => hoth (h.symm.trans hi), fun h => hoth (h.symm.trans hi)⟩
  refine ⟨hunexp, a, ?_, hage, hmat, fun snap hsnap => ?_⟩
  · simp [Db.deliveryAuthority, hls, hinstall, htok, hopen]
  · obtain ⟨hbind, htop, route, hrt, hcur⟩ := hrts snap hsnap
    refine ⟨hbind, htop, route, ?_, hcur⟩
    rw [hdb] at hrt
    exact hrt

end Blocks

theorem blockInstallationTx_blocks {lookup : LookupDigest}
    (h : blockInstallationTx now lookup jobID s = .ok (u, s')) :
    s.Blocks s' lookup ∧ ∀ r ∈ s'.db.jobs, r.jobID = jobID → r ∈ s.db.jobs := by
  simp only [blockInstallationTx, bind_ok] at h
  obtain ⟨_, s1, hinst, _, s2, hls, _, s3, hmark, hdel⟩ := h
  obtain ⟨hdb1, -⟩ := exec_ok.mp hinst
  obtain ⟨hdb2, -⟩ := exec_ok.mp hls
  obtain ⟨hdb3, -⟩ := exec_ok.mp hmark
  obtain ⟨hdb4, -⟩ := exec_ok.mp hdel
  have hjobs : s2.db.jobs = s.db.jobs := by rw [hdb2, hdb1]
  have hls2 : s2.db.leases = updateWhere (fun l => l.installationLookup = lookup)
      (fun l => { l with state := .blocked, revokedAt := some (l.revokedAt.getD now) })
      s.db.leases := by rw [hdb2, hdb1]
  refine ⟨⟨?_, ?_⟩, ?_⟩
  · have hmk : s.Changes (fun _ => False) (fun i => ∃ r ∈ s.db.jobs, r.jobID = i ∧
        r.state.Live ∧ s.db.JobOnInstallation lookup r) s3 := by
      unfold Session.Changes
      rw [hdb3, ← hjobs]
      refine .updateWhere (fun _ _ _ => rfl) (fun r _ _ hl => ?_) fun r hr hp _ => ?_
      · rcases hl with h | h <;> cases h
      obtain ⟨⟨⟨l, hl, hlease, hlook⟩, -⟩, hlive⟩ := hp
      refine ⟨r, hr, rfl, hlive, ?_⟩
      rw [hls2] at hl
      rcases mem_updateWhere.mp hl with ⟨l0, hl0, -, rfl⟩ | ⟨hl, -⟩
      · exact ⟨l0, hl0, hlease, hlook⟩
      · exact ⟨l, hl, hlease, hlook⟩
    refine hmk.trans (.of_subset fun r hr => ?_)
    rw [hdb4] at hr
    exact (mem_deleteWhere.mp hr).1
  · refine ⟨now, ?_⟩
    rw [hdb4, hdb3, hdb2, hdb1]
    rfl
  · intro r hr hrid
    rw [hdb4] at hr
    obtain ⟨hr, -⟩ := mem_deleteWhere.mp hr
    rw [hdb3] at hr
    rcases mem_updateWhere.mp hr with ⟨r0, -, ⟨⟨-, hoth⟩, -⟩, rfl⟩ | ⟨hr, -⟩
    · exact absurd hrid hoth
    · rwa [hjobs] at hr

/-- What `ConvertInvalidTokenToErasure` did. -/
inductive Conversion (S : DeliveryStore) (jobID : Bytes16) (token : Option Bytes) (s s' : Session) :
    Prop
  /-- No claim was stored. -/
  | absent (h : s' = s)
  /-- The installation of the job has another token now. -/
  | replaced (j : DeliveryJobRow) (i : InstallationRow)
      (found : s.db.claimedInstallation jobID = some (j, i))
      (differs : ∀ encrypted current, i.encryptedAPNSToken = some encrypted →
        S.encryption.openValue (.installation i.installationLookup .apnsToken) encrypted =
          some current → token ≠ some current)
      (changes : s.Changes (fun _ => False) (fun i => i = jobID) s')
      (frame : s'.db = { s.db with jobs := s'.db.jobs })
      (dead : ∀ r ∈ s'.db.jobs, r.jobID = jobID → ¬ r.state.Live)
  /-- The job waits for the erasure of the installation. -/
  | converted (lookup : LookupDigest) (blocks : s.Blocks s' lookup)
      (dead : ∀ r ∈ s'.db.jobs, r.jobID = jobID → ¬ r.state.Live)

theorem erasing_not_live (lookup : LookupDigest) (encrypted : Bytes) (availableAt : Time)
    (j : DeliveryJobRow) : ¬ (erasing lookup encrypted availableAt j).state.Live := by
  rintro (h | h) <;> cases h

theorem Session.Blocks.erase {lookup : LookupDigest} {encrypted : Bytes} {p : DeliveryJobRow → Prop}
    [DecidablePred p] {s1 : Session} (h : s.Blocks s1 lookup)
    (hp : ∀ r ∈ s1.db.jobs, p r → r.state ≠ .final) (hdb : s'.db =
      { s1.db with jobs := updateWhere p (erasing lookup encrypted availableAt) s1.db.jobs }) :
    s.Blocks s' lookup := by
  constructor
  · refine h.changes.trans ?_
    rw [hdb]
    refine .updateWhere (fun _ _ _ => rfl) (fun r _ _ hl => ?_) fun r hr hpr hs => ?_
    · exact absurd hl (erasing_not_live lookup encrypted availableAt r)
    · exact absurd (DeliveryJobRow.final_of_reason hr hs) (hp r hr hpr)
  · obtain ⟨now, hfr⟩ := h.frame
    refine ⟨now, ?_⟩
    rw [hdb, hfr]

theorem claimedInstallation_eq_some {db : Db} {i : InstallationRow}
    (h : db.claimedInstallation jobID = some (j, i)) :
    j ∈ db.jobs ∧ j.jobID = jobID ∧ j.state = .claimed ∧
      ∃ l, j.leaseID = some l.leaseID ∧ (db.leases.find? fun l' => l'.leaseID = l.leaseID) = some l ∧
        (db.installations.find? fun i' => i'.installationLookup = l.installationLookup) = some i := by
  simp only [Db.claimedInstallation, Option.bind_eq_bind, Option.bind_eq_some_iff, Option.pure_def,
    Option.some.injEq, Prod.mk.injEq] at h
  obtain ⟨j', hj, leaseID, hls, l, hl, i', hi, rfl, rfl⟩ := h
  obtain ⟨hmem, hid, hst⟩ := found hj
  obtain ⟨-, rfl⟩ := found hl
  exact ⟨hmem, hid, hst, l, hls, hl, hi⟩

theorem convertInvalidTokenToErasureTx_ok {token : Option Bytes}
    {trafficClass : DeliveryTrafficClass} {r : Option LookupDigest}
    (h : S.convertInvalidTokenToErasureTx now jobID token trafficClass availableAt s = .ok (r, s')) :
    Conversion S jobID token s s' := by
  simp only [convertInvalidTokenToErasureTx, bind_ok, expect_ok, require_ok, query_ok] at h
  obtain ⟨failed, _, ⟨htok, rfl⟩, _, _, ⟨-, rfl⟩, found, _, ⟨hfd, rfl⟩, h⟩ := h
  cases found with
  | none =>
    obtain ⟨-, rfl⟩ := pure_ok.mp h
    exact .absent rfl
  | some found =>
    obtain ⟨j, i⟩ := found
    simp only [bind_ok, expect_ok, ite_ok, exec_ok, pure_ok] at h
    obtain ⟨encrypted, _, ⟨hencr, rfl⟩, current, _, ⟨hcur, rfl⟩, h⟩ := h
    rcases h with ⟨hne, _, _, hmark, -, rfl⟩ | ⟨-, _, s1, hblock, _, _, ⟨hdb, -⟩, -, rfl⟩
    · refine .replaced j i hfd ?_ ?_ ?_ (markDeliveryJobFinalTx_dead hmark)
      · intro encrypted' current' hencr' hcur' hsame
        have hseal : encrypted = encrypted' := Option.mem_unique hencr hencr'
        subst hseal
        have hopen : current = current' := Option.mem_unique hcur hcur'
        exact hne (hopen.trans (Option.mem_unique htok hsame).symm)
      · exact (markDeliveryJobFinalTx_changes _ s _ _ hmark).mono (fun _ => id) fun _ hi => hi.1
      · rw [markDeliveryJobFinalTx_ok hmark]
    · obtain ⟨hj, hjid, hcl, -⟩ := claimedInstallation_eq_some hfd
      obtain ⟨hblocks, hspared⟩ := blockInstallationTx_blocks hblock
      refine .converted i.installationLookup (hblocks.erase (fun r hr hrid hfin => ?_) hdb) ?_
      · have hrj : r = j :=
          s.valid.jobs.key.eq_of_key_eq (hspared r hr hrid) hj (hrid.trans hjid.symm)
        rw [hrj] at hfin
        cases hcl.symm.trans hfin
      · intro r hr hrid
        rw [hdb] at hr
        rcases mem_updateWhere.mp hr with ⟨r0, -, -, rfl⟩ | ⟨-, hoth⟩
        · exact erasing_not_live _ _ _ _
        · exact absurd hrid hoth

/-- A guard has committed its attempt on the row it holds. -/
structure Committed (g : DeliveryAttemptGuard) (s s' : Session) : Prop where
  next : g.nextAttempts = g.priorAttempts + 1
  range : Between 1 maxDeliveryAttempts g.nextAttempts
  row : ∃ r ∈ s.db.jobs, g.Holds r
  spent : ∀ r ∈ s'.db.jobs, r.jobID = g.jobID → r.state.Live → r.attempts = g.nextAttempts

theorem onGuardedRow_ok {f : List DeliveryJobRow → List DeliveryJobRow}
    (h : onGuardedRow g f s = .ok (u, s')) :
    (∃ r ∈ s.db.jobs, g.Holds r) ∧ s'.db = { s.db with jobs := f s.db.jobs } := by
  simp only [onGuardedRow, bind_ok, query_ok, exec_ok, require_ok] at h
  obtain ⟨affected, _, ⟨haffe, rfl⟩, _, s1, ⟨hdb, -⟩, htrue, rfl⟩ := h
  rw [htrue] at haffe
  exact ⟨of_decide_eq_true haffe, hdb⟩

/-- The row a guard holds is the only one with its id. -/
theorem holds_of_jobID (hheld : ∃ r ∈ s.db.jobs, g.Holds r) (hr : r ∈ s.db.jobs)
    (hid : r.jobID = g.jobID) : g.Holds r := by
  obtain ⟨r0, hr0, hhold⟩ := hheld
  rwa [s.valid.jobs.key.eq_of_key_eq hr hr0 (hid.trans hhold.1.symm)]

theorem onGuardedRow_update (h : onGuardedRow g (updateWhere g.Holds f) s = .ok (u, s'))
    (hid : ∀ r, (f r).jobID = r.jobID)
    (hlive : ∀ r, g.Holds r → (f r).state.Live → SameJob r (f r) ∧ (f r).attempts = g.nextAttempts)
    (hsaf : ∀ r, g.Holds r → (f r).finalReason = some .safetyInvalidated →
      r.finalReason = some .safetyInvalidated) :
    s.Changes (fun i => i = g.jobID) (fun _ => False) s' ∧
      ∀ r ∈ s'.db.jobs, r.jobID = g.jobID → r.state.Live → r.attempts = g.nextAttempts := by
  obtain ⟨hheld, hdb⟩ := onGuardedRow_ok h
  constructor
  · unfold Session.Changes
    rw [hdb]
    refine .updateWhere (fun r _ _ => hid r) (fun r _ hr hl => ?_) fun r hmem hr hs => ?_
    · exact ⟨(hlive r hr hl).1, hr.1⟩
    · cases hr.2.1.symm.trans (DeliveryJobRow.final_of_reason hmem (hsaf r hr hs))
  · intro r hr hrid hl
    rw [hdb] at hr
    rcases mem_updateWhere.mp hr with ⟨r0, -, hr0, rfl⟩ | ⟨hr, hnot⟩
    · exact (hlive r0 hr0 hl).2
    · exact absurd (holds_of_jobID hheld hr hrid) hnot

/-- The guarded row with the attempt counted. -/
theorem sameJob_of_holds {state : JobState} (hnext : g.nextAttempts = g.priorAttempts + 1)
    (hr : g.Holds r) :
    SameJob r { r with state := state, attempts := g.nextAttempts, availableAt := availableAt } := by
  refine ⟨.inr hr.2.1, ?_, rfl, rfl, rfl, rfl⟩
  show r.attempts ≤ g.nextAttempts
  have hprior : r.attempts = g.priorAttempts := hr.2.2
  omega

theorem recordAttemptTx_ok (h : recordAttemptTx g s = .ok (u, s')) :
    s.Changes (fun i => i = g.jobID) (fun _ => False) s' ∧ Committed g s s' ∧
      s'.db = { s.db with jobs := s'.db.jobs } := by
  simp only [recordAttemptTx, bind_ok, require_ok] at h
  obtain ⟨_, _, ⟨⟨hnext, hrange⟩, rfl⟩, h⟩ := h
  obtain ⟨hheld, hdb⟩ := onGuardedRow_ok h
  obtain ⟨hchg, hspent⟩ := onGuardedRow_update h (fun _ => rfl)
    (fun r hr _ => ⟨sameJob_of_holds hnext hr, rfl⟩) (fun _ _ h => h)
  exact ⟨hchg, ⟨hnext, hrange, hheld, hspent⟩, by rw [hdb]⟩

theorem markFinalTx_ok (hwhy : reason ≠ .safetyInvalidated)
    (h : markFinalTx g now reason s = .ok (u, s')) :
    (∃ r ∈ s.db.jobs, g.Holds r) ∧ s.Changes (fun i => i = g.jobID) (fun _ => False) s' ∧
      (∀ r ∈ s'.db.jobs, r.jobID = g.jobID → ¬ r.state.Live) ∧
      s'.db = { s.db with jobs := s'.db.jobs } := by
  simp only [markFinalTx, bind_ok, require_ok] at h
  obtain ⟨_, _, ⟨-, rfl⟩, h⟩ := h
  obtain ⟨hheld, hdb⟩ := onGuardedRow_ok h
  obtain ⟨hchg, -⟩ := onGuardedRow_update h (fun _ => rfl)
    (fun r _ hl => by rcases hl with h | h <;> cases h)
    (fun _ _ hs => absurd (Option.some.inj hs) hwhy)
  refine ⟨hheld, hchg, fun r hr hrid hlive => ?_, by rw [hdb]⟩
  rw [hdb] at hr
  rcases mem_updateWhere.mp hr with ⟨r0, -, -, rfl⟩ | ⟨hr, hnot⟩
  · rcases hlive with h | h <;> cases h
  · exact hnot (holds_of_jobID hheld hr hrid)

theorem transientReason_ne_safety {retryAt : Time} (h : transientReason g retryAt = some reason) :
    reason ≠ .safetyInvalidated := by
  unfold transientReason at h
  split_ifs at h
  all_goals
    cases h
    simp

/-- An invalid token found by an attempt blocks the installation of the job. -/
theorem convertInvalidTokenTx_ok (h : S.convertInvalidTokenTx g now availableAt s = .ok (u, s')) :
    (∃ r ∈ s.db.jobs, g.Holds r) ∧ s.Blocks s' g.installationLookup ∧
      ∀ r ∈ s'.db.jobs, r.jobID = g.jobID → ¬ r.state.Live := by
  simp only [convertInvalidTokenTx, bind_ok] at h
  obtain ⟨_, s1, hblock, h⟩ := h
  obtain ⟨hblocks, hspared⟩ := blockInstallationTx_blocks hblock
  obtain ⟨hheld, hdb⟩ := onGuardedRow_ok h
  refine ⟨?_, hblocks.erase (fun r _ hr hfin => ?_) hdb, fun r hr hrid => ?_⟩
  · obtain ⟨r, hr, hhold⟩ := hheld
    exact ⟨r, hspared r hr hhold.1, hhold⟩
  · cases hr.2.1.symm.trans hfin
  · rw [hdb] at hr
    rcases mem_updateWhere.mp hr with ⟨r0, -, -, rfl⟩ | ⟨hr, hnot⟩
    · exact erasing_not_live _ _ _ _
    · exact absurd (holds_of_jobID hheld hr hrid) hnot

/-- What a completed attempt does: the row of the guard changes, and an invalid token blocks the
installation too.  Only a transient failure leaves the job live. -/
theorem completeTx_ok {result : DeliveryAttemptResult}
    (h : S.completeTx g now result s = .ok (u, s')) :
    Committed g s s' ∧ ((s.Changes (fun i => i = g.jobID) (fun _ => False) s' ∧
          s'.db = { s.db with jobs := s'.db.jobs }) ∨
        s.Blocks s' g.installationLookup) ∧
      (result.outcome ≠ .transient → ∀ r ∈ s'.db.jobs, r.jobID = g.jobID → ¬ r.state.Live) := by
  simp only [completeTx, bind_ok, require_ok] at h
  obtain ⟨_, _, ⟨⟨hnext, hrange⟩, rfl⟩, h⟩ := h
  have hend : (∃ r ∈ s.db.jobs, g.Holds r) →
      (∀ r ∈ s'.db.jobs, r.jobID = g.jobID → ¬ r.state.Live) → Committed g s s' :=
    fun hheld hdead => ⟨hnext, hrange, hheld, fun r hr hrid hl => absurd hl (hdead r hr hrid)⟩
  cases houtcome : result.outcome with
  | sent =>
    simp only [houtcome] at h
    obtain ⟨hheld, hdb⟩ := onGuardedRow_ok h
    have hjobs : s'.db.jobs = deleteWhere g.Holds s.db.jobs := by rw [hdb]
    have hdead : ∀ r ∈ s'.db.jobs, r.jobID = g.jobID → ¬ r.state.Live := by
      intro r hr hrid
      rw [hjobs] at hr
      obtain ⟨hr, hnot⟩ := mem_deleteWhere.mp hr
      exact absurd (holds_of_jobID hheld hr hrid) hnot
    refine ⟨hend hheld hdead, .inl ⟨.of_subset fun r hr => ?_, ?_⟩, fun _ => hdead⟩
    · rw [hjobs] at hr
      exact (mem_deleteWhere.mp hr).1
    · rw [hdb]
  | rejected =>
    simp only [houtcome] at h
    obtain ⟨hheld, hchg, hdead, hfr⟩ := markFinalTx_ok (by simp) h
    exact ⟨hend hheld hdead, .inl ⟨hchg, hfr⟩, fun _ => hdead⟩
  | transient =>
    simp only [houtcome] at h
    refine and_assoc.mp ⟨?_, fun h => absurd rfl h⟩
    cases hwhy : transientReason g result.retryAt with
    | some reason =>
      simp only [hwhy] at h
      obtain ⟨hheld, hchg, hdead, hfr⟩ :=
        markFinalTx_ok (transientReason_ne_safety hwhy) h
      exact ⟨hend hheld hdead, .inl ⟨hchg, hfr⟩⟩
    | none =>
      simp only [hwhy] at h
      obtain ⟨hheld, hdb⟩ := onGuardedRow_ok h
      obtain ⟨hchg, hspent⟩ := onGuardedRow_update h (fun _ => rfl)
        (fun r hr _ => ⟨sameJob_of_holds hnext hr, rfl⟩) (fun _ _ h => h)
      exact ⟨⟨hnext, hrange, hheld, hspent⟩, .inl ⟨hchg, by rw [hdb]⟩⟩
  | invalidToken =>
    simp only [houtcome, bind_ok, require_ok] at h
    obtain ⟨_, _, ⟨-, rfl⟩, h⟩ := h
    obtain ⟨hheld, hblocks, hdead⟩ := convertInvalidTokenTx_ok h
    exact ⟨hend hheld hdead, .inr hblocks, fun _ => hdead⟩

theorem completeDeliveryFinalizationTx_ok
    (h : completeDeliveryFinalizationTx jobID s = .ok (u, s')) :
    s.Changes (fun _ => False) (fun _ => False) s' ∧ s'.db = { s.db with jobs := s'.db.jobs } := by
  obtain ⟨hdb, -⟩ := exec_ok.mp h
  refine ⟨.of_subset fun r hr => ?_, by rw [hdb]⟩
  rw [hdb] at hr
  exact (mem_deleteWhere.mp hr).1

end NotificationServer
