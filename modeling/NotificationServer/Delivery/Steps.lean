import NotificationServer.Delivery.Changes

/-!
# The steps of the workers

`QueueStep` lists what each event does to the queue, to the authority the jobs
were queued under and to the tasks, and `perform_step` reads it off the code.
Every invariant of the workers is proved over it.
-/

namespace NotificationServer

open Relational DeliveryStore

inductive QueueStep (S : DeliveryStore) (s : QueueState) : QueueEvent → QueueState → Prop
  | other (vault : Vault) (trust : TopicTrust) (rely : s.Rely vault.db) :
    QueueStep S s (.other vault trust)
      { s with
        vault := vault, trust := trust, used := s.used ++ vault.db.jobs.map fun j => j.jobID }
  | recover (now markedAt : Time) (t : Session) (waits : ¬ RecoveryWaits s now)
    (changes : s.session.Changes (fun i => ∃ j ∈ s.db.jobs, Lapsed now j ∧ j.jobID = i)
      (fun _ => False) t)
    (authority : SameAuthority s.db t.db) :
    QueueStep S s (.recover now markedAt)
      { s with
        vault := t.vault
        tasks := updateWhere (fun t => t.deadline ≤ now) (fun t => { t with lapsed := true })
          s.tasks }
  | claim (now markedAt : Time) (limit : Nat) (claimTTL : Int) (t : Session)
    (results : List (Option ClaimedDeliveryJob))
    (loop : ClaimLoop S (now + claimTTL) s.session [] results t) :
    QueueStep S s (.claim now markedAt limit claimTTL)
      { s with
        vault := t.vault, tasks := s.tasks ++ (results.filterMap id).map (taskOf now claimTTL) }
  | completeFinalization (jobID : Bytes16) (t : Session)
    (changes : s.session.Changes (fun _ => False) (fun _ => False) t)
    (authority : SameAuthority s.db t.db) :
    QueueStep S s (.completeFinalization jobID) { s with vault := t.vault }
  | acquire (i : Nat) (k : AttemptClock) (task : Task) (taken : s.tasks[i]? = some task)
    (holding : task.phase = .holding) (unlocked : ¬ s.Locked task.claim.jobID) :
    QueueStep S s (.acquire i k) (s.setPhase i task (S.attempt s k task.claim))
  | expire (i : Nat) (now markedAt : Time) (task : Task) (t : Session)
    (taken : s.tasks[i]? = some task) (holding : task.phase = .holding)
    (unlocked : ¬ s.Locked task.claim.jobID)
    (changes : s.session.Changes (fun _ => False) (fun _ => False) t)
    (authority : SameAuthority s.db t.db)
    (dead : ∀ r ∈ t.db.jobs, r.jobID = task.claim.jobID → ¬ r.state.Live) :
    QueueStep S s (.expire i now markedAt)
      ({ s with vault := t.vault }.setPhase i task .ended)
  | finalize (i : Nat) (markedAt : Time) (k : AttemptClock) (task : Task) (t : Session)
    (taken : s.tasks[i]? = some task) (refused : task.phase = .refused k)
    (unlocked : ¬ s.Locked task.claim.jobID)
    (changes : s.session.Changes (fun _ => False) (fun j => j = task.claim.jobID) t)
    (authority : SameAuthority s.db t.db)
    (dead : ∀ r ∈ t.db.jobs, r.jobID = task.claim.jobID → ¬ r.state.Live) :
    QueueStep S s (.finalize i markedAt) ({ s with vault := t.vault }.setPhase i task .ended)
  | release (i : Nat) (now : Time) (task : Task) (t : Session) (taken : s.tasks[i]? = some task)
    (stopped : task.phase = .holding ∨ task.phase = .failed)
    (unlocked : ¬ s.Locked task.claim.jobID)
    (changes : s.session.Changes (fun j => j = task.claim.jobID) (fun _ => False) t)
    (authority : SameAuthority s.db t.db) :
    QueueStep S s (.release i now) ({ s with vault := t.vault }.setPhase i task .ended)
  | complete (i : Nat) (now : Time) (result : DeliveryAttemptResult) (task : Task)
    (g : DeliveryAttemptGuard) (t : Session) (taken : s.tasks[i]? = some task)
    (attempting : task.phase = .attempting g) (committed : Committed g s.session t)
    (effect : (s.session.Changes (fun j => j = g.jobID) (fun _ => False) t ∧
        SameAuthority s.db t.db) ∨ s.session.Blocks t g.installationLookup)
    (dead : result.outcome ≠ .transient → ∀ r ∈ t.db.jobs, r.jobID = g.jobID → ¬ r.state.Live) :
    QueueStep S s (.complete i now result) ({ s with vault := t.vault }.setPhase i task .ended)
  | recordAttempt (i : Nat) (task : Task) (g : DeliveryAttemptGuard) (t : Session)
    (taken : s.tasks[i]? = some task) (attempting : task.phase = .attempting g)
    (committed : Committed g s.session t)
    (changes : s.session.Changes (fun j => j = g.jobID) (fun _ => False) t)
    (authority : SameAuthority s.db t.db) :
    QueueStep S s (.recordAttempt i) ({ s with vault := t.vault }.setPhase i task .ended)
  | remember (i : Nat) (task : Task) (g : DeliveryAttemptGuard) (taken : s.tasks[i]? = some task)
    (attempting : task.phase = .attempting g) :
    QueueStep S s (.remember i) (s.setPhase i task .invalidToken)
  | convert (i : Nat) (now availableAt : Time) (task : Task) (t : Session)
    (taken : s.tasks[i]? = some task) (converting : Converting s task)
    (unlocked : ¬ s.Locked task.claim.jobID)
    (conversion : Conversion S task.claim.jobID task.claim.job.deviceToken s.session t) :
    QueueStep S s (.convert i now availableAt)
      ({ s with vault := t.vault }.setPhase i task .ended)
  | abandon (i : Nat) (task : Task) (taken : s.tasks[i]? = some task) :
    QueueStep S s (.abandon i) (s.setPhase i task .ended)

variable {S : DeliveryStore} {s s' : QueueState} {e : QueueEvent}

theorem SameAuthority.of_jobs {db db' : Db} (h : db' = { db with jobs := db'.jobs }) :
    SameAuthority db db' := by
  rw [h]
  exact ⟨rfl, rfl, rfl, rfl, rfl, rfl, rfl, rfl, rfl, rfl⟩

theorem QueueState.commit_eq_some {α : Type} {x : VaultTx α} {next : α → QueueState → QueueState}
    (h : s.commit x next = some s') :
    ∃ a t, x s.session = .ok (a, t) ∧ s' = next a { s with vault := t.vault } := by
  unfold commit at h
  split at h
  · rename_i a t hx
    exact ⟨a, t, hx, (Option.some.inj h).symm⟩
  · cases h

/-- A recovery changes the queue and the retention state only. -/
theorem recoverDeliveryJobsTx_authority {s s' : Session} {now markedAt : Time} {u : Unit}
    (h : S.recoverDeliveryJobsTx now markedAt s = .ok (u, s')) : SameAuthority s.db s'.db := by
  simp only [recoverDeliveryJobsTx, Tx.bind_ok, query_ok] at h
  obtain ⟨candidates, _, ⟨-, rfl⟩, _, s1, hmarks, _, s2, hlap, hunsafe⟩ := h
  have hmk : SameAuthority s.db s1.db := by
    refine Tx.forEach_ok (I := fun _ t => SameAuthority s.db t.db) (fun j _ t t' ht hrd => ?_)
      ⟨rfl, rfl, rfl, rfl, rfl, rfl, rfl, rfl, rfl, rfl⟩ hmarks
    simp only [Tx.bind_ok, Tx.pure_ok] at hrd
    obtain ⟨_, _, hmark, -, rfl⟩ := hrd
    exact ht.trans (.of_jobs (by rw [markDeliveryJobFinalTx_ok hmark]))
  obtain ⟨hdb2, -⟩ := exec_ok.mp hlap
  obtain ⟨hdb, -⟩ := exec_ok.mp hunsafe
  have hrele : SameAuthority s1.db s2.db := .of_jobs (by rw [hdb2])
  refine (hmk.trans hrele).trans ?_
  rw [hdb]
  split
  · exact ⟨rfl, rfl, rfl, rfl, rfl, rfl, rfl, rfl, rfl, rfl⟩
  · exact ⟨rfl, rfl, rfl, rfl, rfl, rfl, rfl, rfl, rfl, rfl⟩

theorem releaseDeliveryJobTx_authority {s s' : Session} {now : Time} {jobID : Bytes16} {u : Unit}
    (h : S.releaseDeliveryJobTx now jobID s = .ok (u, s')) : SameAuthority s.db s'.db := by
  simp only [releaseDeliveryJobTx, Tx.bind_ok, query_ok] at h
  obtain ⟨exhausted, _, ⟨-, rfl⟩, _, s1, hmark, hrelease⟩ := h
  obtain ⟨hdb, -⟩ := exec_ok.mp hrelease
  have hmk : SameAuthority s.db s1.db := by
    unfold Tx.when at hmark
    simp only [Tx.ite_ok, Tx.bind_ok, Tx.pure_ok] at hmark
    rcases hmark with ⟨-, _, _, hmark, -, rfl⟩ | ⟨-, -, rfl⟩
    · exact .of_jobs (by rw [markDeliveryJobFinalTx_ok hmark])
    · exact ⟨rfl, rfl, rfl, rfl, rfl, rfl, rfl, rfl, rfl, rfl⟩
  exact hmk.trans (.of_jobs (by rw [hdb]))

theorem performTask_step {i : Nat} {task : Task} (taken : s.tasks[i]? = some task)
    (hi : e.task = some i) (h : S.performTask s i task e = some s') : QueueStep S s e s' := by
  cases e with
  | other | recover | claim | completeFinalization => cases hi
  | acquire i' k =>
    cases hi
    simp only [performTask, Option.ite_none_right_eq_some, Option.some.injEq] at h
    obtain ⟨⟨hph, -, hunlo⟩, rfl⟩ := h
    exact .acquire _ k task taken hph hunlo
  | expire i' now markedAt =>
    cases hi
    simp only [performTask, Option.ite_none_right_eq_some] at h
    obtain ⟨⟨hph, -, hunlo⟩, h⟩ := h
    obtain ⟨_, t, htx, rfl⟩ := QueueState.commit_eq_some h
    refine .expire _ now markedAt task t taken hph hunlo ?_
      (.of_jobs (by rw [markDeliveryJobFinalTx_ok htx]; rfl)) (markDeliveryJobFinalTx_dead htx)
    exact (markDeliveryJobFinalTx_changes _ _ _ _ htx).mono (fun _ => id) fun _ hi => nomatch hi.2
  | finalize i' markedAt =>
    cases hi
    simp only [performTask] at h
    split at h
    · rename_i k hph
      simp only [Option.ite_none_right_eq_some] at h
      obtain ⟨hunlo, h⟩ := h
      obtain ⟨_, t, htx, rfl⟩ := QueueState.commit_eq_some h
      refine .finalize _ markedAt k task t taken hph hunlo ?_
        (.of_jobs (by rw [markDeliveryJobFinalTx_ok htx]; rfl)) (markDeliveryJobFinalTx_dead htx)
      exact (markDeliveryJobFinalTx_changes _ _ _ _ htx).mono (fun _ => id) fun _ hi => hi.1
    · cases h
  | release i' now =>
    cases hi
    simp only [performTask, Option.ite_none_right_eq_some] at h
    obtain ⟨⟨hph, hunlo⟩, h⟩ := h
    obtain ⟨_, t, htx, rfl⟩ := QueueState.commit_eq_some h
    exact .release _ now task t taken hph hunlo (releaseDeliveryJobTx_changes htx)
      (releaseDeliveryJobTx_authority htx)
  | complete i' now result =>
    cases hi
    simp only [performTask] at h
    split at h
    · rename_i g hph
      simp only [Option.ite_none_right_eq_some] at h
      obtain ⟨-, h⟩ := h
      obtain ⟨_, t, htx, rfl⟩ := QueueState.commit_eq_some h
      obtain ⟨hcomm, heffect, hdead⟩ := completeTx_ok htx
      refine .complete _ now result task g t taken hph hcomm ?_ hdead
      exact heffect.imp (fun h => ⟨h.1, .of_jobs h.2⟩) id
    · cases h
  | recordAttempt i' =>
    cases hi
    simp only [performTask] at h
    split at h
    · rename_i g hph
      obtain ⟨_, t, htx, rfl⟩ := QueueState.commit_eq_some h
      obtain ⟨hchg, hcomm, hfr⟩ := recordAttemptTx_ok htx
      exact .recordAttempt _ task g t taken hph hcomm hchg (.of_jobs hfr)
    · cases h
  | remember i' =>
    cases hi
    simp only [performTask] at h
    split at h
    · rename_i g hph
      cases h
      exact .remember _ task g taken hph
    · cases h
  | convert i' now availableAt =>
    cases hi
    simp only [performTask, Option.ite_none_right_eq_some] at h
    obtain ⟨⟨hconv, hwaits⟩, h⟩ := h
    obtain ⟨_, t, htx, rfl⟩ := QueueState.commit_eq_some h
    exact .convert _ now availableAt task t taken hconv (fun hl => hwaits (.inl hl))
      (convertInvalidTokenToErasureTx_ok htx)
  | abandon i' =>
    cases hi
    simp only [performTask, Option.ite_none_right_eq_some, Option.some.injEq] at h
    obtain ⟨-, rfl⟩ := h
    exact .abandon _ task taken

/-- Every step of the workers is one of these. -/
theorem perform_step (h : S.perform e s = some s') : QueueStep S s e s' := by
  have htask : ∀ i, e.task = some i →
      (e.task.bind fun i => s.tasks[i]?.bind fun t => S.performTask s i t e) = some s' →
      QueueStep S s e s' := by
    intro i hi h
    rw [hi, Option.bind_some] at h
    obtain ⟨task, taken, h⟩ := Option.bind_eq_some_iff.mp h
    exact performTask_step taken hi h
  cases e with
  | other vault trust =>
    simp only [perform, Option.ite_none_right_eq_some, Option.some.injEq] at h
    obtain ⟨hrely, rfl⟩ := h
    exact .other vault trust hrely
  | recover now markedAt =>
    simp only [perform, Option.ite_none_left_eq_some] at h
    obtain ⟨hwaits, h⟩ := h
    obtain ⟨_, t, htx, rfl⟩ := QueueState.commit_eq_some h
    exact .recover now markedAt t hwaits (recoverDeliveryJobsTx_changes htx)
      (recoverDeliveryJobsTx_authority htx)
  | claim now markedAt limit claimTTL =>
    simp only [perform] at h
    obtain ⟨_, t, htx, rfl⟩ := QueueState.commit_eq_some h
    obtain ⟨results, hloop, rfl⟩ := claimDeliveryJobsTx_ok htx
    exact .claim now markedAt limit claimTTL t results hloop
  | completeFinalization jobID =>
    simp only [perform] at h
    obtain ⟨_, t, htx, rfl⟩ := QueueState.commit_eq_some h
    obtain ⟨hchg, hfr⟩ := completeDeliveryFinalizationTx_ok htx
    exact .completeFinalization jobID t hchg (.of_jobs hfr)
  | acquire i | expire i | finalize i | release i | complete i | recordAttempt i | remember i
  | convert i | abandon i => exact htask i rfl h

end NotificationServer
