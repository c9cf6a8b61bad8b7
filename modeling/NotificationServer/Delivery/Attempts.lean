import NotificationServer.Delivery.Steps
import NotificationServer.Run

/-!
# Attempts are counted once

A guard commits the attempt after the last one counted, and a job that is no
longer live never is again.  So over any run of any number of workers every
attempt of a job is committed at most once, and what has been sent, finalized or
converted is not attempted again.
-/

namespace NotificationServer

open Relational DeliveryStore

variable {S : DeliveryStore} {s s' : QueueState} {e : QueueEvent} {g : DeliveryAttemptGuard}
  {attempts : List (Bytes16 × Nat)}

structure QueueState.Advances (s s' : QueueState) : Prop where
  rows : ∀ r' ∈ s'.db.jobs,
    (∃ r ∈ s.db.jobs, r.jobID = r'.jobID ∧ (r'.state.Live → SameJob r r')) ∨ r'.jobID ∉ s.used
  used : s.used ⊆ s'.used
  stored : (∀ r ∈ s.db.jobs, r.jobID ∈ s.used) → ∀ r' ∈ s'.db.jobs, r'.jobID ∈ s'.used

theorem QueueState.Advances.of_changes {touched marked : Bytes16 → Prop}
    (h : Changes touched marked s.db.jobs s'.db.jobs) (hused : s'.used = s.used) :
    s.Advances s' where
  rows r' hr' := .inl (h.origin r' hr')
  used := by
    rw [hused]
    exact List.Subset.refl _
  stored hsto r' hr' := by
    obtain ⟨r, hr, hid, -⟩ := h.origin r' hr'
    rw [hused, ← hid]
    exact hsto r hr

theorem QueueStep.advances (h : QueueStep S s e s') : s.Advances s' := by
  cases h with
  | other vault trust rely =>
    refine ⟨fun r' hr' => ?_, List.subset_append_left _ _, fun _ r' hr' => ?_⟩
    · rcases rely.1 r' hr' with hold | ⟨hdead, r, hr, hid⟩ | ⟨-, -, hfr⟩
      · exact .inl ⟨r', hold, rfl, .refl⟩
      · exact .inl ⟨r, hr, hid, fun hl => absurd hl hdead⟩
      · exact .inr hfr
    · exact List.mem_append_right _ (List.mem_map.mpr ⟨r', hr', rfl⟩)
  | recover now markedAt t _ changes => exact .of_changes changes rfl
  | claim now markedAt limit claimTTL t results loop => exact .of_changes loop.changes rfl
  | completeFinalization jobID t changes => exact .of_changes changes rfl
  | acquire => exact .of_changes (.refl _ : Changes (fun _ => False) (fun _ => False) _ _) rfl
  | expire i now markedAt task t _ _ _ changes | finalize i markedAt k task t _ _ _ changes
  | release i now task t _ _ _ changes => exact .of_changes changes rfl
  | complete i now result task g t _ _ _ effect =>
    rcases effect with ⟨changes, -⟩ | blocks
    · exact .of_changes changes rfl
    · exact .of_changes blocks.changes rfl
  | recordAttempt i task g t _ _ _ changes => exact .of_changes changes rfl
  | remember => exact .of_changes (.refl _ : Changes (fun _ => False) (fun _ => False) _ _) rfl
  | convert i now availableAt task t _ _ _ conversion =>
    cases conversion with
    | absent h =>
      subst h
      exact .of_changes (.refl _ : Changes (fun _ => False) (fun _ => False) _ _) rfl
    | replaced j i found differs changes => exact .of_changes changes rfl
    | converted lookup blocks => exact .of_changes blocks.changes rfl
  | abandon => exact .of_changes (.refl _ : Changes (fun _ => False) (fun _ => False) _ _) rfl

theorem stored_of_reachable (h : S.workers.Reachable s) : ∀ r ∈ s.db.jobs, r.jobID ∈ s.used := by
  refine Machine.Reachable.invariant (P := fun s => ∀ r ∈ s.db.jobs, r.jobID ∈ s.used)
    (fun s hs r hr => ?_) (fun s e s' _ hsto hstep => ?_) h
  · rw [hs.1] at hr
    cases hr
  · exact (perform_step hstep).advances.stored hsto

/-- The job was queued once and is not live: it was sent, finalized, converted or deleted. -/
def QueueState.Done (s : QueueState) (jobID : Bytes16) : Prop :=
  jobID ∈ s.used ∧ ∀ r ∈ s.db.jobs, r.jobID = jobID → ¬ r.state.Live

theorem QueueState.Advances.done {jobID : Bytes16} (h : s.Advances s') (hdone : s.Done jobID) :
    s'.Done jobID := by
  refine ⟨h.used hdone.1, fun r' hr' hid hlive => ?_⟩
  rcases h.rows r' hr' with ⟨r, hr, hrid, hsame⟩ | hfr
  · exact hdone.2 r hr (hrid.trans hid) (hsame hlive).live
  · exact hfr (hid ▸ hdone.1)

theorem done_of_path {jobID : Bytes16} (h : S.workers.Path s s') (hdone : s.Done jobID) :
    s'.Done jobID := by
  induction h with
  | refl => exact hdone
  | tail _ hstep ih => exact (perform_step hstep).advances.done ih

/-- No attempt on a job that is done is granted, whatever claim a worker has kept on it. -/
theorem acquire_of_done {trust : TopicTrust} {k : AttemptClock} {c : ClaimedDeliveryJob}
    {t : Session} (hdone : s.Done c.jobID) :
    S.acquireDeliveryAttempt trust k c s.session ≠ .ok (some g, t) := by
  intro hgranted
  obtain ⟨r, hr, hid, -, hcl, -⟩ := (acquireDeliveryAttempt_granted hgranted).row
  exact hdone.2 r hr hid (.inr hcl)

/-- The attempts a step commits, as the job and the number of the attempt. -/
def committedBy (s : QueueState) : QueueEvent → List (Bytes16 × Nat)
  | .complete i _ _ | .recordAttempt i =>
    ((s.tasks[i]?.bind Task.held).map fun g => (g.jobID, g.nextAttempts)).toList
  | _ => []

def recorded (trace : List (QueueState × QueueEvent × QueueState)) : List (Bytes16 × Nat) :=
  trace.flatMap fun step => committedBy step.1 step.2.1

/-- What the attempts committed so far say about the queue. -/
structure AttemptLedger (attempts : List (Bytes16 × Nat)) (s : QueueState) : Prop where
  once : attempts.Nodup
  range : ∀ a ∈ attempts, Between 1 maxDeliveryAttempts a.2
  used : ∀ a ∈ attempts, a.1 ∈ s.used
  counted : ∀ r ∈ s.db.jobs, r.state.Live → ∀ a ∈ attempts, a.1 = r.jobID → a.2 ≤ r.attempts

theorem AttemptLedger.advance (h : AttemptLedger attempts s) (hmv : s.Advances s') :
    AttemptLedger attempts s' where
  once := h.once
  range := h.range
  used a ha := hmv.used (h.used a ha)
  counted r' hr' hlive a ha hid := by
    rcases hmv.rows r' hr' with ⟨r, hr, hrid, hsame⟩ | hfr
    · have hle : a.2 ≤ r.attempts :=
        h.counted r hr (hsame hlive).live a ha (hid.trans hrid.symm)
      exact hle.trans (hsame hlive).attempts
    · exact absurd (hid ▸ h.used a ha) hfr

/-- A guard commits an attempt that was not committed before. -/
theorem AttemptLedger.commit {t : Session} (h : AttemptLedger attempts s)
    (hsto : ∀ r ∈ s.db.jobs, r.jobID ∈ s.used) (hcomm : Committed g s.session t)
    (hmv : s.Advances s') (hdb : s'.db = t.db) :
    AttemptLedger ((g.jobID, g.nextAttempts) :: attempts) s' := by
  obtain ⟨r, hr, hid, hcl, hatt⟩ := hcomm.row
  have hnext : g.nextAttempts = g.priorAttempts + 1 := hcomm.next
  have hmoved : AttemptLedger attempts s' := h.advance hmv
  constructor
  · refine List.nodup_cons.mpr ⟨fun hmem => ?_, h.once⟩
    have hle : g.nextAttempts ≤ r.attempts := h.counted r hr (.inr hcl) _ hmem hid.symm
    omega
  · intro a ha
    rcases List.mem_cons.mp ha with rfl | ha
    · exact hcomm.range
    · exact h.range a ha
  · intro a ha
    rcases List.mem_cons.mp ha with rfl | ha
    · exact hmv.used (hid ▸ hsto r hr)
    · exact hmoved.used a ha
  · intro r' hr' hlive a ha haid
    rcases List.mem_cons.mp ha with rfl | ha
    · rw [hdb] at hr'
      exact (hcomm.spent r' hr' haid.symm hlive).ge
    · exact hmoved.counted r' hr' hlive a ha haid

theorem AttemptLedger.step (h : AttemptLedger attempts s) (hsto : ∀ r ∈ s.db.jobs, r.jobID ∈ s.used)
    (hstep : QueueStep S s e s') : AttemptLedger (committedBy s e ++ attempts) s' := by
  have hmv : s.Advances s' := hstep.advances
  cases hstep with
  | complete i now result task g t taken attempting committed =>
    have hby : committedBy s (.complete i now result) = [(g.jobID, g.nextAttempts)] := by
      simp [committedBy, taken, Task.held, attempting]
    rw [hby]
    exact h.commit hsto committed hmv rfl
  | recordAttempt i task g t taken attempting committed =>
    have hby : committedBy s (.recordAttempt i) = [(g.jobID, g.nextAttempts)] := by
      simp [committedBy, taken, Task.held, attempting]
    rw [hby]
    exact h.commit hsto committed hmv rfl
  | _ => exact h.advance hmv

theorem ledger_of_run {trace : List (QueueState × QueueEvent × QueueState)}
    (h : S.workers.Run trace s) : AttemptLedger (recorded trace) s := by
  induction h with
  | init =>
    constructor
    · exact List.nodup_nil
    · intro a ha
      cases ha
    · intro a ha
      cases ha
    · intro r _ _ a ha
      cases ha
  | step hrun hstep ih =>
    exact ih.step (stored_of_reachable hrun.reachable) (perform_step hstep)

/-- A job has at most three attempts in a run. -/
theorem AttemptLedger.length_le (h : AttemptLedger attempts s) (jobID : Bytes16) :
    (attempts.filter fun a => a.1 = jobID).length ≤ maxDeliveryAttempts := by
  have hnd : ((attempts.filter fun a => a.1 = jobID).map Prod.snd).Nodup := by
    refine (List.nodup_map_iff_inj_on (h.once.filter _)).mpr fun a ha b hb hab => ?_
    have ha' : a.1 = jobID := of_decide_eq_true (List.mem_filter.mp ha).2
    have hb' : b.1 = jobID := of_decide_eq_true (List.mem_filter.mp hb).2
    exact Prod.ext (ha'.trans hb'.symm) hab
  have hsub : (attempts.filter fun a => a.1 = jobID).map Prod.snd ⊆
      List.range' 1 maxDeliveryAttempts := by
    intro k hk
    obtain ⟨a, ha, rfl⟩ := List.mem_map.mp hk
    obtain ⟨hlow, hhigh⟩ := h.range a (List.mem_filter.mp ha).1
    rw [List.mem_range'_1]
    omega
  have hlen := (List.subperm_of_subset hnd hsub).length_le
  rwa [List.length_map, List.length_range'] at hlen

theorem QueueState.mem_setPhase {i : Nat} {task t' : Task} {phase : TaskPhase}
    (h : t' ∈ (s.setPhase i task phase).tasks) :
    t' ∈ s.tasks ∨ t' = { task with phase := phase } :=
  List.mem_or_eq_of_mem_set h

/-- The job of a task has been queued, and the guard of a task is on its job. -/
def QueueState.Tasked (s : QueueState) (t : Task) : Prop :=
  t.claim.jobID ∈ s.used ∧ ∀ g ∈ t.held, g.jobID = t.claim.jobID

theorem attempt_held {k : AttemptClock} {task : Task}
    (h : g ∈ ({ task with phase := S.attempt s k task.claim } : Task).held) :
    ∃ t, S.acquireDeliveryAttempt s.trust k task.claim s.session = .ok (some g, t) := by
  simp only [Task.held, attempt] at h
  split at h
  · rename_i g' hph
    split at hph
    · rename_i g0 t hacquire
      obtain rfl := TaskPhase.attempting.inj hph
      cases h
      exact ⟨t, hacquire⟩
    · cases hph
    · cases hph
  · cases h

theorem QueueStep.tasked (h : QueueStep S s e s') (hsto : ∀ r ∈ s.db.jobs, r.jobID ∈ s.used)
    (htasks : ∀ t ∈ s.tasks, s.Tasked t) : ∀ t ∈ s'.tasks, s'.Tasked t := by
  have hused : s.used ⊆ s'.used := h.advances.used
  have hkept : ∀ t ∈ s.tasks, s'.Tasked t := fun t ht => ⟨hused (htasks t ht).1, (htasks t ht).2⟩
  -- a worker that is left without a guard
  have hset : ∀ (i : Nat) (task : Task) (vault : Vault) (phase : TaskPhase),
      s.tasks[i]? = some task → ({ task with phase := phase } : Task).held = none →
      ∀ t ∈ ({ s with vault := vault }.setPhase i task phase).tasks, s'.Tasked t := by
    intro i task vault phase taken hph t ht
    rcases QueueState.mem_setPhase ht with ht | rfl
    · exact hkept t ht
    · refine ⟨(hkept task (List.mem_of_getElem? taken)).1, fun g hg => ?_⟩
      rw [hph] at hg
      cases hg
  cases h with
  | other | completeFinalization => exact hkept
  | recover now markedAt t =>
    intro t' ht'
    rcases mem_updateWhere.mp ht' with ⟨t0, ht0, -, rfl⟩ | ⟨ht', -⟩
    · exact hkept t0 ht0
    · exact hkept t' ht'
  | claim now markedAt limit claimTTL t results loop =>
    intro t' ht'
    rcases List.mem_append.mp ht' with hold | hnew
    · exact hkept t' hold
    obtain ⟨c, hc, rfl⟩ := List.mem_map.mp hnew
    obtain ⟨r, hr, hrc⟩ := List.mem_filterMap.mp hc
    obtain ⟨j, hj, -, hfrom, -⟩ := loop.claims c (by rwa [← (hrc : r = some c)])
    obtain ⟨hid, -⟩ := claimOf_eq_some hfrom.claim
    refine ⟨hid ▸ hused (hsto j hj), fun g hg => ?_⟩
    cases hg
  | acquire i k task taken =>
    intro t' ht'
    rcases QueueState.mem_setPhase ht' with ht' | rfl
    · exact hkept t' ht'
    · refine ⟨(hkept task (List.mem_of_getElem? taken)).1, fun g hg => ?_⟩
      obtain ⟨t, hacquire⟩ := attempt_held hg
      obtain ⟨lookup, rfl⟩ := (acquireDeliveryAttempt_granted hacquire).held
      rfl
  | expire i now markedAt task t taken | finalize i markedAt k task t taken
  | release i now task t taken | complete i now result task g t taken
  | recordAttempt i task g t taken => exact hset i task t.vault .ended taken rfl
  | remember i task g taken => exact hset i task s.vault .invalidToken taken rfl
  | convert i now availableAt task t taken => exact hset i task t.vault .ended taken rfl
  | abandon i task taken => exact hset i task s.vault .ended taken rfl

theorem tasked_of_reachable (h : S.workers.Reachable s) : ∀ t ∈ s.tasks, s.Tasked t := by
  refine Machine.Reachable.invariant (P := fun s => ∀ t ∈ s.tasks, s.Tasked t)
    (fun s hs t ht => ?_) (fun s e s' hs htasks hstep => ?_) h
  · rw [hs.2.1] at ht
    cases ht
  · exact (perform_step hstep).tasked (stored_of_reachable hs) htasks

/-- The task whose job the event ends for good: it expires, is finalized, or its attempt is
completed other than by a transient failure. -/
def QueueEvent.ends : QueueEvent → Option Nat
  | .expire i _ _ | .finalize i _ => some i
  | .complete i _ result => if result.outcome = .transient then none else some i
  | _ => none

theorem done_of_ends (hs : S.workers.Reachable s) (hstep : S.perform e s = some s') {i : Nat}
    {task : Task} (hi : e.ends = some i) (htask : s.tasks[i]? = some task) :
    s'.Done task.claim.jobID := by
  have hmem : task ∈ s.tasks := List.mem_of_getElem? htask
  obtain ⟨hused, hheld⟩ := tasked_of_reachable hs task hmem
  cases perform_step hstep with
  | expire i' now markedAt task' t taken _ _ _ _ dead
  | finalize i' markedAt k task' t taken _ _ _ _ dead =>
    cases hi
    obtain rfl := Option.mem_unique htask taken
    exact ⟨hused, dead⟩
  | complete i' now result task' g t taken attempting _ _ dead =>
    simp only [QueueEvent.ends, Option.ite_none_left_eq_some, Option.some.injEq] at hi
    obtain ⟨houtcome, rfl⟩ := hi
    obtain rfl := Option.mem_unique htask taken
    have hjob : g.jobID = task.claim.jobID := hheld g (by simp [Task.held, attempting])
    exact ⟨hused, fun r hr hid => dead houtcome r hr (hid.trans hjob.symm)⟩
  | _ => cases hi

/-- A conversion that changed the database has left an erasure or a marker in the place of the
job. -/
theorem done_of_converted (hs : S.workers.Reachable s) {i : Nat} {now availableAt : Time}
    (hstep : S.perform (.convert i now availableAt) s = some s') (hdb : s'.db ≠ s.db) {task : Task}
    (htask : s.tasks[i]? = some task) : s'.Done task.claim.jobID := by
  have hused := (tasked_of_reachable hs task (List.mem_of_getElem? htask)).1
  cases perform_step hstep with
  | convert _ _ _ task' t taken _ _ conversion =>
    obtain rfl := Option.mem_unique htask taken
    cases conversion with
    | absent h => exact absurd (congrArg Session.db h) hdb
    | replaced j installation found differs changes frame dead => exact ⟨hused, dead⟩
    | converted lookup blocks dead => exact ⟨hused, dead⟩

def QueueState.AttemptsKept (s s' : QueueState) : Prop :=
  ∀ r ∈ s.db.jobs, ∀ r' ∈ s'.db.jobs, r'.jobID = r.jobID → r.state.Live → r'.state.Live →
    r.attempts ≤ r'.attempts

theorem used_of_path (h : S.workers.Path s s') : s.used ⊆ s'.used := by
  induction h with
  | refl => exact List.Subset.refl _
  | tail _ hstep ih => exact List.Subset.trans ih (perform_step hstep).advances.used

/-- The attempts of a job live at both ends of a path have not decreased. -/
theorem attempts_of_path (hs : S.workers.Reachable s) (h : S.workers.Path s s') :
    s.AttemptsKept s' := by
  induction h with
  | refl =>
    intro r hr r' hr' hid _ _
    rw [s.vault.valid.jobs.key.eq_of_key_eq hr' hr hid]
  | @tail t e t' hpath hstep ih =>
    intro r hr r' hr' hid hlive hlive'
    rcases (perform_step hstep).advances.rows r' hr' with ⟨r1, hr1, hid1, hsame⟩ | hfr
    · have hle : r.attempts ≤ r1.attempts :=
        ih r hr r1 hr1 (hid1.trans hid) hlive (hsame hlive').live
      exact hle.trans (hsame hlive').attempts
    · have hused : r.jobID ∈ t.used := used_of_path hpath (stored_of_reachable hs r hr)
      exact absurd (hid ▸ hused) hfr

theorem final_empty {r : DeliveryJobRow} (hr : r ∈ s.db.jobs) (hfin : r.state = .final) :
    r.encryptedJob = [0] ∧ r.leaseID = none ∧ r.installationLookup = none ∧ r.a9 = none := by
  have hsnap : r.a9 = none := by
    by_contra hsome
    obtain ⟨hlive, -⟩ := s.vault.valid.jobs.snapshot_shape r hr (Option.isSome_iff_ne_none.mpr hsome)
    rcases hlive with h | h <;> cases h.symm.trans hfin
  rcases s.vault.valid.jobs.shape r hr with ⟨hlive, -⟩ | ⟨hera, -⟩ | ⟨-, hls, hinstall, henc, -⟩
  · rcases hlive with h | h <;> cases h.symm.trans hfin
  · rcases hera with h | h <;> cases h.symm.trans hfin
  · exact ⟨henc, hls, hinstall, hsnap⟩

/-- In every run of any number of workers: no attempt of a job is committed twice, the attempts are
numbered 1 to 3 and so at most three; the attempts of a live job never decrease; a job that expired,
was finalized, was converted, or was completed other than by a transient failure is done, and no
later attempt on a job that is done is granted; and a marker carries no payload, lease, installation
or A9 reference. -/
theorem attempts_committed_at_most_once {trace : List (QueueState × QueueEvent × QueueState)}
    (h : S.workers.Run trace s) :
    (recorded trace).Nodup ∧ (∀ a ∈ recorded trace, Between 1 3 a.2) ∧
    (∀ jobID, ((recorded trace).filter fun a => a.1 = jobID).length ≤ 3) ∧
    (∀ s', S.workers.Path s s' → s.AttemptsKept s') ∧
    (∀ e s', S.workers.step s e s' → ∀ i task, e.ends = some i → s.tasks[i]? = some task →
      s'.Done task.claim.jobID) ∧
    (∀ i now availableAt s', S.workers.step s (.convert i now availableAt) s' → s'.db ≠ s.db →
      ∀ task, s.tasks[i]? = some task → s'.Done task.claim.jobID) ∧
    (∀ s' c, S.workers.Path s s' → s.Done c.jobID → ∀ trust k g t,
      S.acquireDeliveryAttempt trust k c s'.session ≠ .ok (some g, t)) ∧
    ∀ r ∈ s.db.jobs, r.state = .final →
      r.encryptedJob = [0] ∧ r.leaseID = none ∧ r.installationLookup = none ∧ r.a9 = none := by
  have hled : AttemptLedger (recorded trace) s := ledger_of_run h
  have hs : S.workers.Reachable s := h.reachable
  refine ⟨hled.once, hled.range, hled.length_le, fun s' hpath => attempts_of_path hs hpath, fun e s'
    hstep i task hi htask => done_of_ends hs hstep hi htask, fun i now availableAt s' hstep hdb task
    htask => done_of_converted hs hstep hdb htask, fun s' c hpath hdone trust k g t =>
    acquire_of_done (done_of_path hpath hdone), fun r hr hfin => final_empty hr hfin⟩

/-! ## A sample queue

One job on the lease of `Sample.refreshed`, whose first sequence number is reserved. -/

namespace DeliverySample

def job : SerializedDeliveryJob :=
  { deviceToken := some (bytesOf 32 4), topic := [1], providerTopic := [], payload := [1]
    pushType := "alert", priority := 10, expiration := Sample.start + 10 * minute
    trafficClass := .conversation, policyEpoch := 1, routeKeyEpoch := 1, noncePrefix := 0
    deliverySequence := 0, aliasDay := utcDay Sample.start, routeAlias := List.replicate 16 0
    welcomeAuthorizationID := [], welcomeEnvelopeDigest := [], a9 := none, eraseOnly := false }

def store : DeliveryStore :=
  { Sample.gate6 with
    welcomeEnabled := false
    codec := { sealJob := fun _ _ => [1], openJob := fun _ _ => some job } }

def row : DeliveryJobRow :=
  { jobID := 40, leaseID := some 100, installationLookup := none, encryptedJob := [1]
    state := .pending, attempts := 0, retryExponent := 0, availableAt := Sample.start
    expiresAt := Sample.start + 10 * minute, createdAt := Sample.start
    trafficClass := some .conversation, finalReason := none, a9 := none }

def clock (time : Time) : AttemptClock := ⟨time, time, time, time⟩

/-- A step of a sample run, which may depend on the state it is taken in. -/
abbrev Order := QueueState → Option QueueEvent

def take (e : QueueEvent) : Order := fun _ => some e

def change (f : Db → Db) : Order := fun s =>
  if h : (f s.db).Constraints then some (.other ⟨f s.db, h⟩ s.trust) else none

def enqueue : Order := change fun db =>
  { db with
    jobs := db.jobs ++ [row]
    leases := db.leases.map fun l =>
      { l with encryptedNonceState := { l.encryptedNonceState with plaintext := ⟨0, 1⟩ } } }

def claim (now : Time) : Order := take (.claim now now 1 second)

def initial : Option QueueState :=
  (Sample.gate6.performAll Sample.refreshed .fresh).map fun s =>
    { vault := s.vault, tasks := [], used := []
      trust := { leases := fun _ _ => false, bindingForEpoch := fun _ _ _ _ _ => .ineligible } }

def next (o : Order) (s : QueueState) : Option (QueueEvent × QueueState) :=
  (o s).bind fun e => (store.perform e s).map fun s' => (e, s')

def run (orders : List Order) : Option QueueState := initial.bind (Machine.follow next orders)

theorem next_step {o : Order} (h : next o s = some (e, s')) : store.perform e s = some s' := by
  obtain ⟨e', -, h⟩ := Option.bind_eq_some_iff.mp h
  obtain ⟨s1, hperform, h⟩ := Option.map_eq_some_iff.mp h
  obtain ⟨rfl, rfl⟩ := Prod.mk.inj h
  exact hperform

theorem initial_init (h : initial = some s) : store.workers.init s := by
  obtain ⟨v, hv, rfl⟩ := Option.map_eq_some_iff.mp h
  have hjobs : (Sample.gate6.performAll Sample.refreshed .fresh).all (fun v => v.db.jobs.isEmpty) =
      true := by decide +kernel
  rw [hv] at hjobs
  exact ⟨List.isEmpty_iff.mp hjobs, rfl, rfl⟩

theorem run_reachable {orders : List Order} (h : run orders = some s) :
    store.workers.Reachable s := by
  obtain ⟨s0, hs0, h⟩ := Option.bind_eq_some_iff.mp h
  exact (Machine.Reachable.init (initial_init hs0)).path
    (Machine.follow_path (fun _ _ _ _ hnext => next_step hnext) h)

end DeliverySample

open DeliverySample in
theorem attempts_committed_at_most_once_transient :
    ∃ trace s, store.workers.Run trace s ∧ (∃ r ∈ s.db.jobs, r.state = .pending ∧ r.attempts = 1) ∧
      (recorded trace).Nodup ∧ ∀ s', store.workers.Path s s' → s.AttemptsKept s' := by
  obtain ⟨s, hs, hrow⟩ : ∃ s ∈ run [enqueue, claim Sample.start, take (.acquire 0 (clock
      Sample.start)), take (.complete 0 Sample.start ⟨.transient, Sample.start + second⟩)],
      ∃ r ∈ s.db.jobs, r.state = .pending ∧ r.attempts = 1 := by
    decide +kernel
  obtain ⟨trace, htrace⟩ := (run_reachable hs).run
  obtain ⟨honce, -, -, hkept, -⟩ := attempts_committed_at_most_once htrace
  exact ⟨trace, s, htrace, hrow, honce, hkept⟩

end NotificationServer
