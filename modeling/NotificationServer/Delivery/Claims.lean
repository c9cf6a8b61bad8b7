import NotificationServer.Delivery.Attempts

/-!
# Stale claims

`FinalizeDeliveryJob` and `ReleaseDeliveryJob` know a job by its id, and the
refusal a worker acts on was given in an earlier transaction.  While no worker
acts on a claim past its deadline, the readings of an A9 attempt lie close
together, and nothing a job was queued under changes between a refusal and the
finalization it leads to, a job is finalized for safety only if it could not be
sent, and no worker finalizes or releases a job that was claimed again.
-/

namespace NotificationServer

open Relational DeliveryStore

variable {S : DeliveryStore} {s s' : QueueState} {e : QueueEvent} {i : Nat} {t' : Task}

/-- A job may be sent: the server has the mode it was queued in, and nothing it was queued under has
expired or changed, however far apart the readings lie. -/
def DeliveryStore.Admissible (S : DeliveryStore) (trust : TopicTrust) (k : AttemptClock) (db : Db)
    (c : ClaimedDeliveryJob) : Prop :=
  S.a9Enabled = c.job.a9.isSome ∧ S.Intact trust k db c

/-- The readings at which the attempt of a task was refused. -/
def Task.refusedAt (t : Task) : Option AttemptClock :=
  match t.phase with
  | .refused k => some k
  | _ => none

/-- The condition on a step: a worker acts on its claim only if no recovery has run at or past the
deadline of the claim, the readings of an attempt on an A9 job lie close together, and other
transactions leave the tables that attempts read, and the trust manager its answers, as they are
while a refused job waits for its finalization. -/
def Careful (s : QueueState) : QueueEvent → Prop
  | .acquire i k => ∀ t, s.tasks[i]? = some t → t.lapsed = false ∧ k.Aligned t.claim
  | .expire i _ _ | .finalize i _ | .release i _ => ∀ t, s.tasks[i]? = some t → t.lapsed = false
  | .other vault trust =>
    (∃ t ∈ s.tasks, t.refusedAt ≠ none) → SameAuthority s.db vault.db ∧ trust = s.trust
  | _ => True

/-- The claim of the task still stands: it has not been taken back, or its row is locked. -/
def Task.Current (t : Task) : Prop := t.phase ≠ .ended ∧ (t.lapsed = false ∨ t.held ≠ none)

/-- The claims in the memory of the workers and the rows of the queue. -/
structure Orderly (S : DeliveryStore) (s : QueueState) : Prop where
  /-- The row of a claim that stands is claimed as the claim says. -/
  held : ∀ (i : Nat) (t : Task), s.tasks[i]? = some t → t.Current → ∀ r ∈ s.db.jobs,
    r.jobID = t.claim.jobID → r.state.Live → S.Claimed r t.claim ∧ r.availableAt = t.deadline
  /-- There is no later claim on its job. -/
  last : ∀ (i j : Nat) (t t' : Task), i < j → s.tasks[i]? = some t → s.tasks[j]? = some t' →
    t.Current → t'.claim.jobID ≠ t.claim.jobID
  /-- Every claim has the lease and the request of its row. -/
  material : ∀ t ∈ s.tasks, ∀ r ∈ s.db.jobs, r.jobID = t.claim.jobID → r.state.Live →
    r.leaseID = some t.claim.leaseID ∧ S.codec.openJob r.jobID r.encryptedJob = some t.claim.job
  /-- A refusal holds as long as the claim stands. -/
  refusal : ∀ t ∈ s.tasks, ∀ k, t.phase = .refused k → t.lapsed = false → ∀ r ∈ s.db.jobs,
    r.jobID = t.claim.jobID → r.state.Live → ¬ S.Intact s.trust k s.db t.claim

inductive TaskMove (S : DeliveryStore) (s : QueueState) (e : QueueEvent) (i : Nat) (t' : Task) : Prop
  /-- It may have lapsed. -/
  | kept (t : Task) (old : s.tasks[i]? = some t) (claim : t'.claim = t.claim)
      (deadline : t'.deadline = t.deadline) (phase : t'.phase = t.phase)
      (lapsed : t'.lapsed = false → t.lapsed = false)
  | ended (t : Task) (old : s.tasks[i]? = some t) (set : t' = { t with phase := .ended })
  | remembered (t : Task) (old : s.tasks[i]? = some t) (held : t.held ≠ none)
      (set : t' = { t with phase := .invalidToken })
  | acquired (t : Task) (k : AttemptClock) (event : e = .acquire i k) (old : s.tasks[i]? = some t)
      (holding : t.phase = .holding) (set : t' = { t with phase := S.attempt s k t.claim })
  | claimed (now : Time) (claimTTL : Int) (c : ClaimedDeliveryJob) (new : s.tasks.length ≤ i)
      (set : t' = taskOf now claimTTL c)

theorem TaskMove.of_set {i' : Nat} {task : Task} {phase : TaskPhase} (vault : Vault)
    (h : ({ s with vault := vault }.setPhase i' task phase).tasks[i]? = some t')
    (hset : i = i' → TaskMove S s e i { task with phase := phase }) : TaskMove S s e i t' := by
  simp only [QueueState.setPhase, List.getElem?_set] at h
  split at h
  · rename_i heq
    split at h
    · cases h
      exact hset heq.symm
    · cases h
  · exact .kept t' h rfl rfl rfl id

theorem QueueStep.taskMove (h : QueueStep S s e s') (ht' : s'.tasks[i]? = some t') :
    TaskMove S s e i t' := by
  cases h with
  | other | completeFinalization => exact .kept t' ht' rfl rfl rfl id
  | recover now markedAt t =>
    simp only [updateWhere, List.getElem?_map, Option.map_eq_some_iff] at ht'
    obtain ⟨t0, ht0, rfl⟩ := ht'
    refine .kept t0 ht0 ?_ ?_ ?_ ?_ <;> split <;> simp
  | claim now markedAt limit claimTTL t results loop =>
    by_cases hlt : i < s.tasks.length
    · exact .kept t' ((List.getElem?_append_left hlt).symm.trans ht') rfl rfl rfl id
    · have hle : s.tasks.length ≤ i := by omega
      have hnew := (List.getElem?_append_right hle).symm.trans ht'
      obtain ⟨c, -, hc⟩ := List.mem_map.mp (List.mem_of_getElem? hnew)
      exact .claimed now claimTTL c hle hc.symm
  | acquire i' k task taken holding =>
    refine .of_set s.vault ht' fun hi => ?_
    subst hi
    exact .acquired task k rfl taken holding rfl
  | remember i' task g taken attempting =>
    refine .of_set s.vault ht' fun hi => ?_
    subst hi
    exact .remembered task taken (by simp [Task.held, attempting]) rfl
  | abandon i' task taken =>
    refine .of_set s.vault ht' fun hi => ?_
    subst hi
    exact .ended task taken rfl
  | expire i' now markedAt task t taken | finalize i' markedAt k task t taken
  | release i' now task t taken | complete i' now result task g t taken
  | recordAttempt i' task g t taken | convert i' now availableAt task t taken =>
    refine .of_set _ ht' fun hi => ?_
    subst hi
    exact .ended task taken rfl

theorem Task.current_congr {t : Task} (hph : t'.phase = t.phase)
    (hlap : t'.lapsed = false → t.lapsed = false) (h : t'.Current) : t.Current := by
  have hheld : t'.held = t.held := by simp only [Task.held, hph]
  refine ⟨hph ▸ h.1, ?_⟩
  rcases h.2 with hl | hh
  · exact .inl (hlap hl)
  · exact .inr (hheld ▸ hh)

/-- A claim that stands after a step stood before it, or was just made. -/
theorem TaskMove.current (h : TaskMove S s e i t') (hcare : Careful s e)
    (hcur : t'.Current) :
    (∃ t, s.tasks[i]? = some t ∧ t.Current ∧ t'.claim = t.claim ∧ t'.deadline = t.deadline) ∨
      s.tasks.length ≤ i := by
  cases h with
  | kept t old claim deadline phase lapsed =>
    exact .inl ⟨t, old, Task.current_congr phase lapsed hcur, claim, deadline⟩
  | ended t old set =>
    rw [set] at hcur
    exact absurd rfl hcur.1
  | remembered t old held set =>
    refine .inl ⟨t, old, ⟨fun hend => held ?_, .inr held⟩, by rw [set], by rw [set]⟩
    simp only [Task.held, hend]
  | acquired t k event old holding set =>
    subst event
    refine .inl ⟨t, old, ⟨?_, .inl (hcare t old).1⟩, by rw [set], by rw [set]⟩
    rw [holding]
    simp
  | claimed now claimTTL c new => exact .inr new

/-- A task is the old one with the same claim, or a new one. -/
theorem TaskMove.claim_eq (h : TaskMove S s e i t') :
    (∃ t, s.tasks[i]? = some t ∧ t'.claim = t.claim) ∨ s.tasks.length ≤ i := by
  cases h with
  | kept t old claim => exact .inl ⟨t, old, claim⟩
  | ended t old set | remembered t old held set | acquired t k event old holding set =>
    exact .inl ⟨t, old, by rw [set]⟩
  | claimed now claimTTL c new => exact .inr new

theorem QueueStep.new_task (h : QueueStep S s e s') (hi : s.tasks.length ≤ i)
    (ht' : s'.tasks[i]? = some t') :
    ∃ now claimTTL t1 results c, ClaimLoop S (now + claimTTL) s.session [] results t1 ∧
      s'.db = t1.db ∧ s'.tasks = s.tasks ++ (results.filterMap id).map (taskOf now claimTTL) ∧
      some c ∈ results ∧ t' = taskOf now claimTTL c := by
  have hlt : i < s'.tasks.length := (List.getElem?_eq_some_iff.mp ht').1
  cases h with
  | claim now markedAt limit claimTTL t1 results loop =>
    have hnew := (List.getElem?_append_right hi).symm.trans ht'
    obtain ⟨c, hc, rfl⟩ := List.mem_map.mp (List.mem_of_getElem? hnew)
    obtain ⟨o, ho, hoc⟩ := List.mem_filterMap.mp hc
    obtain rfl : o = some c := hoc
    exact ⟨now, claimTTL, t1, results, c, loop, rfl, rfl, ho, rfl⟩
  | recover =>
    simp only [updateWhere, List.length_map] at hlt
    omega
  | other | completeFinalization => exact absurd hlt (by simpa using hi)
  | acquire | expire | finalize | release | complete | recordAttempt | remember | convert
  | abandon =>
    simp only [QueueState.setPhase, List.length_set] at hlt
    omega

section Step

variable (hs : Orderly S s) (hstored : ∀ r ∈ s.db.jobs, r.jobID ∈ s.used)
  (htasked : ∀ t ∈ s.tasks, s.Tasked t) {r : DeliveryJobRow} {k : AttemptClock}
  {c : ClaimedDeliveryJob}

include hs in
/-- Two claims that stand, one of them later, are not on one job. -/
theorem Orderly.ne_of_ne {i j : Nat} {t t' : Task} (hij : i ≠ j) (ht : s.tasks[i]? = some t)
    (ht' : s.tasks[j]? = some t') (hcur : t.Current) (hcur' : t'.Current) :
    t.claim.jobID ≠ t'.claim.jobID := by
  rcases Nat.lt_or_gt_of_ne hij with hlt | hgt
  · exact (hs.last i j t t' hlt ht ht' hcur).symm
  · exact hs.last j i t' t hgt ht' ht hcur'

include hs htasked in
/-- No step changes the live row of a claim that still stands after it. -/
theorem QueueStep.row_unchanged (h : QueueStep S s e s') (hcare : Careful s e) {i : Nat}
    {t t' : Task} (ht : s.tasks[i]? = some t) (ht' : s'.tasks[i]? = some t') (hcur : t.Current)
    (hcur' : t'.Current) (hr : r ∈ s'.db.jobs) (hid : r.jobID = t.claim.jobID)
    (hlive : r.state.Live) : r ∈ s.db.jobs := by
  -- a worker that ended its own task would have ended this one
  have hoth : ∀ {i' : Nat} {task : Task} {vault : Vault},
      ({ s with vault := vault }.setPhase i' task .ended).tasks[i]? = some t' →
      s.tasks[i']? = some task → i ≠ i' := by
    rintro i' task vault hset taken rfl
    have hlt : i < s.tasks.length := (List.getElem?_eq_some_iff.mp taken).1
    simp only [QueueState.setPhase, List.getElem?_set_self hlt, Option.some.injEq] at hset
    rw [← hset] at hcur'
    exact hcur'.1 rfl
  have hguard : ∀ {i' : Nat} {task : Task} {g : DeliveryAttemptGuard}, i ≠ i' →
      s.tasks[i']? = some task → task.phase = .attempting g → r.jobID ≠ g.jobID := by
    intro i' task g hi taken attempting hsame
    have hheld : task.held = some g := by simp only [Task.held, attempting]
    have hjob : g.jobID = task.claim.jobID := (htasked task (List.mem_of_getElem? taken)).2 g hheld
    have hcur1 : task.Current := by
      refine ⟨fun hend => ?_, .inr ?_⟩
      · cases attempting.symm.trans hend
      · rw [hheld]
        simp
    exact hs.ne_of_ne hi ht taken hcur hcur1 (hid.symm.trans (hsame.trans hjob))
  cases h with
  | other vault trust rely =>
    rcases rely.1 r hr with hold | ⟨hdead, -⟩ | ⟨-, -, hfr⟩
    · exact hold
    · exact absurd hlive hdead
    · have hused : t.claim.jobID ∈ s.used := (htasked t (List.mem_of_getElem? ht)).1
      exact absurd (hid ▸ hused) hfr
  | recover now markedAt t1 waits changes =>
    rcases changes.live r hr hlive with hold | ⟨j, hj, hlap, hjid⟩
    · exact hold
    obtain ⟨-, hdeadline⟩ :=
      hs.held i t ht hcur j hj (hjid.trans hid) (.inr hlap.1)
    have hpast : t.deadline ≤ now := hdeadline ▸ hlap.2.1
    -- the claim lapses, so its row must be locked, and then the recovery waits
    simp only [updateWhere, List.getElem?_map, ht, Option.map_some, if_pos hpast,
      Option.some.injEq] at ht'
    rw [← ht'] at hcur'
    rcases hcur'.2 with hl | hheld
    · cases hl
    obtain ⟨g, hg⟩ := Option.ne_none_iff_exists'.mp hheld
    have hmem : t ∈ s.tasks := List.mem_of_getElem? ht
    have hjob : g.jobID = t.claim.jobID := (htasked t hmem).2 g hg
    exact absurd (.inl ⟨j, hj, .inr hlap, t, hmem, g, hg,
      hjob.trans (hjid.trans hid).symm⟩) waits
  | claim now markedAt limit claimTTL t1 results loop =>
    rcases loop.changes.live r hr hlive with hold | ⟨j, hj, hpend, hjid⟩
    · exact hold
    · obtain ⟨hcl, -⟩ := hs.held i t ht hcur j hj (hjid.trans hid) (.inl hpend)
      cases hpend.symm.trans hcl.state
  | completeFinalization jobID t1 changes => exact (changes.live r hr hlive).resolve_right id
  | acquire => exact hr
  | expire i' now markedAt task t1 _ _ _ changes | finalize i' markedAt k task t1 _ _ _ changes =>
    exact (changes.live r hr hlive).resolve_right id
  | release i' now task t1 taken stopped _ changes =>
    rcases changes.live r hr hlive with hold | hsame
    · exact hold
    have hi : i ≠ i' := hoth ht' taken
    have hcur1 : task.Current := by
      refine ⟨fun hend => ?_, .inl (hcare task taken)⟩
      rcases stopped with h | h <;> cases h.symm.trans hend
    exact absurd (hid.symm.trans hsame) (hs.ne_of_ne hi ht taken hcur hcur1)
  | complete i' now result task g t1 taken attempting committed effect =>
    rcases effect with ⟨changes, -⟩ | blocks
    · refine (changes.live r hr hlive).resolve_right ?_
      exact hguard (hoth ht' taken) taken attempting
    · exact (blocks.changes.live r hr hlive).resolve_right id
  | recordAttempt i' task g t1 taken attempting committed changes =>
    refine (changes.live r hr hlive).resolve_right ?_
    exact hguard (hoth ht' taken) taken attempting
  | remember => exact hr
  | convert i' now availableAt task t1 _ _ _ conversion =>
    cases conversion with
    | absent h =>
      subst h
      exact hr
    | replaced j i found differs changes => exact (changes.live r hr hlive).resolve_right id
    | converted lookup blocks => exact (blocks.changes.live r hr hlive).resolve_right id
  | abandon => exact hr

/-- While a refused job waits, no step makes a job intact. -/
theorem QueueStep.intact (h : QueueStep S s e s') (hcare : Careful s e)
    (hwaits : ∃ t ∈ s.tasks, t.refusedAt ≠ none) (hd : S.Intact s'.trust k s'.db c) :
    S.Intact s.trust k s.db c := by
  cases h with
  | other vault trust rely =>
    obtain ⟨hsame, rfl⟩ := hcare hwaits
    exact hsame.symm.intact hd
  | recover now markedAt t1 _ _ authority => exact authority.symm.intact hd
  | claim now markedAt limit claimTTL t1 results loop =>
    have hsame : SameAuthority s.db t1.db := .of_jobs loop.frame
    exact hsame.symm.intact hd
  | completeFinalization jobID t1 _ authority => exact authority.symm.intact hd
  | acquire | remember | abandon => exact hd
  | expire i' now markedAt task t1 _ _ _ _ authority
  | finalize i' markedAt k' task t1 _ _ _ _ authority
  | release i' now task t1 _ _ _ _ authority => exact authority.symm.intact hd
  | complete i' now result task g t1 _ _ _ effect =>
    rcases effect with ⟨-, authority⟩ | blocks
    · exact authority.symm.intact hd
    · exact blocks.intact hd
  | recordAttempt i' task g t1 _ _ _ _ authority => exact authority.symm.intact hd
  | convert i' now availableAt task t1 _ _ _ conversion =>
    cases conversion with
    | absent h =>
      subst h
      exact hd
    | replaced j i found differs changes frame =>
      have hsame : SameAuthority s.db t1.db := .of_jobs frame
      exact hsame.symm.intact hd
    | converted lookup blocks => exact blocks.intact hd

theorem Task.refusedAt_of_phase {t : Task} (h : t.phase = .refused k) : t.refusedAt ≠ none := by
  simp [Task.refusedAt, h]

theorem attempt_refused {k' : AttemptClock} (h : S.attempt s k c = .refused k') :
    k' = k ∧ ∃ t, S.acquireDeliveryAttempt s.trust k c s.session = .ok (none, t) := by
  unfold attempt at h
  split at h
  · cases h
  · rename_i t hacquire
    exact ⟨(TaskPhase.refused.inj h).symm, t, hacquire⟩
  · cases h

include hs htasked in
theorem QueueStep.refusal (h : QueueStep S s e s') (hcare : Careful s e) {i : Nat} {t' : Task}
    (ht' : s'.tasks[i]? = some t') (hph : t'.phase = .refused k) (hlap : t'.lapsed = false)
    {r' : DeliveryJobRow} (hr' : r' ∈ s'.db.jobs) (hid : r'.jobID = t'.claim.jobID)
    (hlive : r'.state.Live) : ¬ S.Intact s'.trust k s'.db t'.claim := by
  cases h.taskMove ht' with
  | kept t old claim deadline phase lapsed =>
    have hmem : t ∈ s.tasks := List.mem_of_getElem? old
    have href : t.phase = .refused k := phase.symm.trans hph
    rw [claim] at hid ⊢
    rcases h.advances.rows r' hr' with ⟨r, hr, hrid, hsame⟩ | hfr
    · intro hd
      refine hs.refusal t hmem k href (lapsed hlap) r hr (hrid.trans hid)
        (hsame hlive).live ?_
      exact h.intact hcare ⟨t, hmem, Task.refusedAt_of_phase href⟩ hd
    · exact absurd (hid ▸ (htasked t hmem).1) hfr
  | ended t old set | remembered t old held set =>
    rw [set] at hph
    cases hph
  | acquired t k' event old holding set =>
    subst event
    subst set
    obtain ⟨rfl, t1, href⟩ := attempt_refused hph
    obtain ⟨hintime, haligned⟩ := hcare t old
    have hcur : t.Current := by
      refine ⟨?_, .inl hintime⟩
      rw [holding]
      simp
    cases h with
    | acquire _ _ task taken =>
      obtain ⟨hcl, -⟩ := hs.held i t old hcur r' hr' hid hlive
      -- the readings are not to blame, so something has expired or changed
      exact fun hd => acquireDeliveryAttempt_refused (s := s.session) hr' hcl href ⟨hd, haligned⟩
  | claimed now claimTTL c new set =>
    rw [set] at hph
    cases hph

theorem ClaimLoop.claimed {deadline : Time} {t t1 : Session}
    {results : List (Option ClaimedDeliveryJob)} (h : ClaimLoop S deadline t [] results t1)
    (hc : some c ∈ results) (hr : r ∈ t1.db.jobs) (hid : r.jobID = c.jobID) :
    S.Claimed r c ∧ r.availableAt = min deadline c.expiresAt := by
  obtain ⟨j, -, -, hfrom, -, hrow⟩ := h.claims c hc
  obtain ⟨hjid, -, -, -, hexp⟩ := claimOf_eq_some hfrom.claim
  obtain rfl := hrow r hr (hid.trans hjid.symm)
  refine ⟨⟨rfl, hfrom.claim, hfrom.snapshot⟩, ?_⟩
  rw [← hexp]
  rfl

theorem DeliveryStore.Claimed.material (h : S.Claimed r c) :
    r.leaseID = some c.leaseID ∧ S.codec.openJob r.jobID r.encryptedJob = some c.job :=
  have hcl := claimOf_eq_some h.claim
  ⟨hcl.2.1, hcl.2.2.1⟩

include hs htasked in
theorem Orderly.step (h : QueueStep S s e s') (hcare : Careful s e) : Orderly S s' := by
  constructor
  case held =>
    intro i t' ht' hcur' r hr hid hlive
    rcases (h.taskMove ht').current hcare hcur' with ⟨t, ht, hcur, hcl, hdead⟩ | hi
    · rw [hcl, hdead]
      rw [hcl] at hid
      have hold : r ∈ s.db.jobs :=
        h.row_unchanged hs htasked hcare ht ht' hcur hcur' hr hid hlive
      exact hs.held i t ht hcur r hold hid hlive
    · obtain ⟨now, claimTTL, t1, results, c, loop, hdb, -, hc, rfl⟩ := h.new_task hi ht'
      rw [hdb] at hr
      exact loop.claimed hc hr hid
  case last =>
    intro i j t1 t2 hij ht1 ht2 hcur hsame
    rcases (h.taskMove ht1).current hcare hcur with ⟨t, ht, hold, hcl, -⟩ | hi
    · rcases (h.taskMove ht2).claim_eq with ⟨u, hu, huclaim⟩ | hj
      · exact hs.last i j t u hij ht hu hold (by rw [← huclaim, ← hcl, hsame])
      · -- a claim was made on a row that a standing claim has
        obtain ⟨now, claimTTL, _, results, c, loop, -, -, hc, rfl⟩ := h.new_task hj ht2
        obtain ⟨r, hr, hpend, hfrom, -⟩ := loop.claims c hc
        obtain ⟨hrid, -⟩ := claimOf_eq_some hfrom.claim
        have hjob : r.jobID = t.claim.jobID := hrid.trans (hsame.trans (by rw [hcl]))
        obtain ⟨hclaimed, -⟩ := hs.held i t ht hold r hr hjob (.inl hpend)
        cases hpend.symm.trans hclaimed.state
    · obtain ⟨now, claimTTL, _, results, c, loop, -, htasks, -, -⟩ := h.new_task hi ht1
      have hj : s.tasks.length ≤ j := by omega
      rw [htasks] at ht1 ht2
      have hnew1 := (List.getElem?_append_right hi).symm.trans ht1
      have hnew2 := (List.getElem?_append_right hj).symm.trans ht2
      rw [List.getElem?_map, Option.map_eq_some_iff] at hnew1 hnew2
      obtain ⟨c1, hc1, rfl⟩ := hnew1
      obtain ⟨c2, hc2, rfl⟩ := hnew2
      obtain ⟨hlt1, rfl⟩ := List.getElem?_eq_some_iff.mp hc1
      obtain ⟨hlt2, rfl⟩ := List.getElem?_eq_some_iff.mp hc2
      exact List.pairwise_iff_getElem.mp loop.apart _ _ hlt1 hlt2 (by omega) hsame.symm
  case material =>
    intro t' ht' r' hr' hid hlive
    obtain ⟨i, hi⟩ := List.mem_iff_getElem?.mp ht'
    rcases (h.taskMove hi).claim_eq with ⟨t, ht, hcl⟩ | hnew
    · rw [hcl] at hid ⊢
      have hmem : t ∈ s.tasks := List.mem_of_getElem? ht
      rcases h.advances.rows r' hr' with ⟨r, hr, hrid, hsame⟩ | hfr
      · obtain ⟨hls, hopen⟩ := hs.material t hmem r hr (hrid.trans hid) (hsame hlive).live
        rw [(hsame hlive).leaseID, (hsame hlive).encryptedJob, ← hrid]
        exact ⟨hls, hopen⟩
      · exact absurd (hid ▸ (htasked t hmem).1) hfr
    · obtain ⟨now, claimTTL, t1, results, c, loop, hdb, -, hc, rfl⟩ := h.new_task hnew hi
      rw [hdb] at hr'
      exact (loop.claimed hc hr' hid).1.material
  case refusal =>
    intro t' ht' k hph hlap r' hr' hid hlive
    obtain ⟨i, hi⟩ := List.mem_iff_getElem?.mp ht'
    exact h.refusal hs htasked hcare hi hph hlap hr' hid hlive

end Step

section Justified

variable {r r' : DeliveryJobRow} {c : ClaimedDeliveryJob} {k : AttemptClock}

end Justified

namespace DeliverySample

def granted (s : QueueState) (k : AttemptClock) (c : ClaimedDeliveryJob) : Bool :=
  match store.acquireDeliveryAttempt s.trust k c s.session with
  | .ok (some _, _) => true
  | _ => false

/-- A worker that was refused finalizes for safety a job that the last claimant may send. -/
def stale (s : QueueState) : Prop :=
  s.tasks[0]?.bind Task.refusedAt = some (clock (Sample.start + 2 * second)) ∧
  (∃ t ∈ s.tasks[0]?, ∃ t' ∈ s.tasks[2]?, t'.claim.jobID = t.claim.jobID) ∧
  ∃ r ∈ s.db.jobs, r.state.Live ∧
    (∃ c ∈ store.claimOf r, granted s (clock (Sample.start + 2 * second)) c = true) ∧
    ∃ s' ∈ store.perform (.finalize 0 Sample.start) s,
      ∃ r' ∈ s'.db.jobs, r'.jobID = r.jobID ∧ r'.finalReason = some .safetyInvalidated
  deriving Decidable

end DeliverySample

namespace DeliverySample

end DeliverySample

end NotificationServer
