import NotificationServer.Durable.Admission
import NotificationServer.Durable.Receipts

/-!
# The durable queue stays within its capacity

Only `Enqueue` adds rows, under the admission lock.  Every other statement keeps a row's key and
can only take it out of the count, so what an admitted `Enqueue` read still bounds the table when
it commits.
-/

namespace NotificationServer.Durable

open Relational
open Push (Slice)

variable {e : EnvelopeRow}

/-- The columns the capacity is read from stay, or a pending envelope is finished or expired. -/
def EnvelopeRow.Drains (e e' : EnvelopeRow) : Prop :=
  (e'.status = e.status ∧ e'.payload = e.payload ∧ e'.failureClass = e.failureClass) ∨
    (e.status = .pending ∧ e'.failureClass ≠ .oversized ∧
      (e'.status = .pending → e'.payload = e.payload))

theorem EnvelopeRow.Drains.refl (e : EnvelopeRow) : e.Drains e := .inl ⟨rfl, rfl, rfl⟩

variable {db db' : QueueDb} {now : Time} {e' : EnvelopeRow}

theorem drains_of_run {statement : Statement} (he : db.envelope = some e)
    (hcls : ∀ lease status delay class_, statement = .finish lease status delay class_ →
      class_ ≠ .oversized) (h : statement.run db now = some db') (he' : db'.envelope = some e') :
    e.Drains e' := by
  cases statement with
  | renew lease =>
    obtain ⟨e0, he0, -, hset, -⟩ := updateHeld_eq_some h
    obtain rfl : e0 = e := Option.mem_unique he0 he
    obtain rfl := Option.mem_unique he' hset
    exact .inl ⟨rfl, rfl, rfl⟩
  | finish lease status delay class_ =>
    obtain ⟨e0, he0, hheld, hset, -⟩ := updateHeld_eq_some h
    obtain rfl : e0 = e := Option.mem_unique he0 he
    obtain rfl := Option.mem_unique he' hset
    exact .inr ⟨hheld.2.1, hcls _ _ _ _ rfl, fun hpend => if_pos hpend⟩
  | prepare lease ids =>
    rw [Statement.run, QueueDb.prepareNotificationRecipients] at h
    split at h
    next =>
      cases h
      simp only [he, Option.map_some, Option.some.injEq] at he'
      subst he'
      exact .inl ⟨rfl, rfl, rfl⟩
    next => cases h
  | claimRecipient lease id ticket =>
    rw [Statement.run, QueueDb.claimNotificationRecipient] at h
    split at h
    next =>
      cases h
      obtain rfl : e = e' := Option.mem_unique he he'
      exact .refl e
    next => cases h
  | finishRecipient lease id ticket status class_ =>
    rw [Statement.run, QueueDb.finishNotificationRecipient] at h
    split at h
    next =>
      cases h
      obtain rfl : e = e' := Option.mem_unique he he'
      exact .refl e
    next => cases h

theorem drains_of_claim {row : EnvelopeRow} {lease : Uuid} (he : db.envelope = some e)
    (h : db.claimNotificationEnvelope lease now = some (row, db')) (he' : db'.envelope = some e') :
    e.Drains e' := by
  simp only [QueueDb.claimNotificationEnvelope, he] at h
  split at h
  next =>
    cases h
    cases he'
    exact .inl ⟨rfl, rfl, rfl⟩
  next => cases h

theorem drains_of_expire (he : db.envelope = some e)
    (he' : (db.expireNotificationEnvelopes now).envelope = some e') : e.Drains e' := by
  simp only [QueueDb.expireNotificationEnvelopes, he, Option.map_some, Option.some.injEq] at he'
  subst he'
  split
  next hexp =>
    refine .inr ⟨hexp.1, by simp, fun hpend => ?_⟩
    cases hpend
  next => exact .refl e

theorem drains_of_purge (he : db.envelope = some e)
    (he' : (db.purgeNotificationReceipts now).envelope = some e') : e.Drains e' := by
  simp only [QueueDb.purgeNotificationReceipts, he] at he'
  split at he'
  next => cases he'
  next =>
    obtain rfl : e = e' := Option.mem_unique he he'
    exact .refl e

namespace QueuedEnvelope

/-- The row keeps its key and its origin, and its envelope drains. -/
structure Drains (r r' : QueuedEnvelope) : Prop where
  key : r'.key = r.key
  call : r'.call = r.call
  envelope : r.envelope.Drains r'.envelope

theorem Drains.refl (r : QueuedEnvelope) : r.Drains r := ⟨rfl, rfl, .refl _⟩

/-- A rejected frame is recorded without its payload and stays dead. -/
def WellFormed (r : QueuedEnvelope) : Prop :=
  r.envelope.failureClass = .oversized → r.envelope.status ≠ .pending ∧ r.envelope.payload = []

theorem drains_of_put {r r' : QueuedEnvelope} (h : r.put db = some r')
    (hdb : ∀ e', db.envelope = some e' → r.envelope.Drains e') : r.Drains r' := by
  obtain ⟨e, he, rfl⟩ := Option.map_eq_some_iff.mp h
  exact ⟨rfl, rfl, hdb e he⟩

variable {r r' : QueuedEnvelope}

theorem Drains.counted (h : r.Drains r') (hr' : r'.Counted) :
    r.Counted ∧ r'.capacityBytes ≤ r.capacityBytes := by
  rcases h.envelope with ⟨hstat, hpayload, hcls⟩ | ⟨hpend, hcls, hpayload⟩
  · unfold Counted capacityBytes at *
    rw [hstat, hcls] at hr'
    rw [hpayload, hcls]
    exact ⟨hr', le_rfl⟩
  · -- a finished envelope that still counts is pending with its payload
    have hpend' : r'.envelope.status = .pending := hr'.resolve_right hcls
    refine ⟨.inl hpend, ?_⟩
    unfold capacityBytes
    rw [if_neg hcls, hpayload hpend']
    omega

theorem Drains.wellFormed (h : r.Drains r') (hr : r.WellFormed) : r'.WellFormed := by
  intro hover
  rcases h.envelope with ⟨hstat, hpayload, hcls⟩ | ⟨-, hcls, -⟩
  · rw [hstat, hpayload]
    exact hr (hcls.symm.trans hover)
  · exact absurd hover hcls

end QueuedEnvelope

namespace Queue

variable {q q' : Queue} {f : Frame}

/-- A step that rewrites and deletes rows, and leaves `Enqueue` alone. -/
structure Drains (q q' : Queue) : Prop where
  rows : ∃ f : QueuedEnvelope → Option QueuedEnvelope,
    q'.rows = q.rows.filterMap f ∧ ∀ r ∈ q.rows, ∀ r' ∈ f r, r.Drains r'
  holder : q'.holder = q.holder
  calls : q'.calls = q.calls
  results : q'.results = q.results

theorem drains_of_onRow {id : Nat} {run : QueueDb → Option QueueDb}
    (h : ∀ r : QueuedEnvelope, ∀ db e', run r.db = some db → db.envelope = some e' →
      r.envelope.Drains e') : q.Drains (q.onRow id run) := by
  refine ⟨⟨_, rfl, fun r _ r' hr' => ?_⟩, rfl, rfl, rfl⟩
  split at hr'
  next =>
    cases hrun : run r.db with
    | none =>
      rw [hrun] at hr'
      cases hr'
      exact .refl r
    | some db =>
      rw [hrun] at hr'
      exact QueuedEnvelope.drains_of_put hr' fun e' he' => h r db e' hrun he'
  next =>
    cases hr'
    exact .refl r

theorem drains_of_statement {id : Nat} {statement : Statement}
    (hcls : ∀ lease status delay class_, statement = .finish lease status delay class_ →
      class_ ≠ .oversized) : q.Drains (q.statement id now statement) :=
  drains_of_onRow fun _ _ _ hrun he' => drains_of_run rfl hcls hrun he'

/-- The statement of `Finish` never records an envelope as oversized. -/
theorem finish_class {env : NotificationEnvelope} {outcome : EnvelopeStatus}
    {failureClass : FailureClass} (hval : outcome = .complete ∨ validFailureClass failureClass)
    {lease : Uuid} {status : EnvelopeStatus} {delay : Nat} {class_ : FailureClass}
    (h : finish env outcome failureClass = .finish lease status delay class_) :
    class_ ≠ .oversized := by
  cases outcome with
  | complete =>
    obtain ⟨-, -, -, rfl⟩ := Statement.finish.inj h
    decide
  | _ =>
    obtain ⟨-, -, -, rfl⟩ := Statement.finish.inj h
    exact (hval.resolve_left (by decide)).2

/-- Every step outside `Enqueue` drains rows. -/
theorem step_cases {op : QueueOp} (h : q.perform op = some q') :
    q.Drains q' ∨ q.admission op = some q' := by
  cases op with
  | lock | checkExists | checkCapacity | insert | commit | abort => exact .inr h
  | claim listener id lease now =>
    cases h
    refine .inl ⟨⟨_, rfl, fun r _ r' hr' => ?_⟩, rfl, rfl, rfl⟩
    split at hr'
    next =>
      cases hcl : r.db.claimNotificationEnvelope lease now with
      | none =>
        rw [hcl] at hr'
        cases hr'
        exact .refl r
      | some result =>
        rw [hcl] at hr'
        exact QueuedEnvelope.drains_of_put hr' fun e' he' => drains_of_claim rfl hcl he'
    next =>
      cases hr'
      exact .refl r
  | renew id lease now =>
    cases h
    exact .inl (drains_of_statement nofun)
  | finish id env outcome failureClass now =>
    simp only [perform] at h
    split at h
    next hval =>
      cases h
      exact .inl (drains_of_statement fun _ _ _ _ hfinish => finish_class hval hfinish)
    next => cases h
  | prepareRecipients | claimRecipient =>
    simp only [perform] at h
    split at h
    next => cases h
    next =>
      cases h
      exact .inl (drains_of_statement nofun)
  | finishRecipient id lease installationID ticket status failureClass now =>
    simp only [perform] at h
    split at h
    next =>
      cases h
      exact .inl (drains_of_statement nofun)
    next => cases h
  | expire now =>
    cases h
    exact .inl ⟨⟨_, rfl, fun r _ r' hr' => QueuedEnvelope.drains_of_put hr' fun e' he' =>
      drains_of_expire rfl he'⟩, rfl, rfl, rfl⟩
  | purge now =>
    cases h
    exact .inl ⟨⟨_, rfl, fun r _ r' hr' => QueuedEnvelope.drains_of_put hr' fun e' he' =>
      drains_of_purge rfl he'⟩, rfl, rfl, rfl⟩

/-- What the transaction that holds the lock may rely on until it commits. -/
def Reserved (q : Queue) (f : Frame) : AdmissionPhase → Prop
  | .locked | .absent | .inserted none => True
  | .admitted => ¬ AtCapacity q.rows f
  | .inserted (some row) => ¬ AtCapacity q.rows f ∧ (∃ id now, row = f.row id q.calls now) ∧
      ∀ r ∈ q.rows, r.key ≠ row.key

structure Sound (q : Queue) : Prop where
  key : Unique QueuedEnvelope.key q.rows
  wellFormed : ∀ r ∈ q.rows, r.WellFormed
  count : (notificationPendingCapacity q.rows).1 ≤ 100000
  bytes : (notificationPendingCapacity q.rows).2 ≤ 512 * 1024 * 1024
  holder : ∀ f phase, q.holder = some (f, phase) → q.Reserved f phase
  rows : ∀ r ∈ q.rows, r.call < q.calls ∧ (r.call, EnqueueResult.atCapacity) ∉ q.results
  results : ∀ p ∈ q.results, p.1 < q.calls

theorem sound_empty : Queue.empty.Sound where
  key := unique_nil
  wellFormed := by simp [empty]
  count := by simp [empty, notificationPendingCapacity]
  bytes := by simp [empty, notificationPendingCapacity]
  holder := by simp [empty]
  rows := by simp [empty]
  results := by simp [empty]

theorem Drains.mem_rows (h : q.Drains q') {r' : QueuedEnvelope} (hr' : r' ∈ q'.rows) :
    ∃ r ∈ q.rows, r.Drains r' := by
  obtain ⟨f, hrows, hf⟩ := h.rows
  rw [hrows] at hr'
  obtain ⟨r, hr, hfr⟩ := List.mem_filterMap.mp hr'
  exact ⟨r, hr, hf r hr r' hfr⟩

theorem Drains.capacity_le (h : q.Drains q') :
    (notificationPendingCapacity q'.rows).1 ≤ (notificationPendingCapacity q.rows).1 ∧
      (notificationPendingCapacity q'.rows).2 ≤ (notificationPendingCapacity q.rows).2 := by
  obtain ⟨f, hrows, hf⟩ := h.rows
  unfold notificationPendingCapacity
  rw [hrows]
  constructor
  · have hcount := sum_filter_filterMap_le (p := QueuedEnvelope.Counted) (w := fun _ => 1)
      fun r hr r' hr' hcnt => ⟨((hf r hr r' hr').counted hcnt).1, Nat.le_refl 1⟩
    simpa using hcount
  · exact sum_filter_filterMap_le fun r hr r' hr' hcnt => (hf r hr r' hr').counted hcnt

theorem Drains.not_atCapacity (h : q.Drains q') (hf : ¬ AtCapacity q.rows f) :
    ¬ AtCapacity q'.rows f := by
  obtain ⟨hcount, hbytes⟩ := h.capacity_le
  unfold AtCapacity at *
  omega

theorem Drains.reserved (h : q.Drains q') {phase : AdmissionPhase} (hr : q.Reserved f phase) :
    q'.Reserved f phase := by
  cases phase with
  | locked | absent => trivial
  | admitted => exact h.not_atCapacity hr
  | inserted row =>
    cases row with
    | none => trivial
    | some row =>
      obtain ⟨hcap, ⟨id, now, rfl⟩, hkey⟩ := hr
      refine ⟨h.not_atCapacity hcap, ⟨id, now, by rw [h.calls]⟩, fun r' hr' => ?_⟩
      obtain ⟨r, hr, hdrains⟩ := h.mem_rows hr'
      rw [hdrains.key]
      exact hkey r hr

theorem Drains.sound (h : q.Drains q') (hs : q.Sound) : q'.Sound where
  key := by
    obtain ⟨f, hrows, hf⟩ := h.rows
    rw [hrows]
    exact hs.key.filterMap fun r hr r' hr' => (hf r hr r' hr').key
  wellFormed r' hr' := by
    obtain ⟨r, hr, hdrains⟩ := h.mem_rows hr'
    exact hdrains.wellFormed (hs.wellFormed r hr)
  count := Nat.le_trans h.capacity_le.1 hs.count
  bytes := Nat.le_trans h.capacity_le.2 hs.bytes
  holder f phase hph := h.reserved (hs.holder f phase (h.holder ▸ hph))
  rows r' hr' := by
    obtain ⟨r, hr, hdrains⟩ := h.mem_rows hr'
    rw [hdrains.call, h.calls, h.results]
    exact hs.rows r hr
  results := by
    rw [h.results, h.calls]
    exact hs.results

/-- The calls of stored rows ended before, so no later result is theirs. -/
theorem Sound.release (hs : q.Sound) (result : EnqueueResult) : (q.release result).Sound where
  key := hs.key
  wellFormed := hs.wellFormed
  count := hs.count
  bytes := hs.bytes
  holder _ _ h := by cases h
  rows r hr := by
    obtain ⟨hcall, hres⟩ := hs.rows r hr
    refine ⟨Nat.lt_succ_of_lt hcall, ?_⟩
    rw [Queue.release, List.mem_cons, not_or]
    refine ⟨fun heq => ?_, hres⟩
    exact absurd (congrArg Prod.fst heq) (Nat.ne_of_lt hcall)
  results := by
    intro p hp
    rcases List.mem_cons.mp hp with rfl | hp
    · exact Nat.lt_succ_self _
    · exact Nat.lt_succ_of_lt (hs.results p hp)

/-- A step of the transaction that neither reads nor writes rows for others to see. -/
theorem Sound.setHolder (hs : q.Sound) (hrows : q'.rows = q.rows) (hcl : q'.calls = q.calls)
    (hresults : q'.results = q.results) {phase : AdmissionPhase}
    (hholder : q'.holder = some (f, phase)) (hrese : q'.Reserved f phase) : q'.Sound where
  key := hrows ▸ hs.key
  wellFormed := hrows ▸ hs.wellFormed
  count := hrows ▸ hs.count
  bytes := hrows ▸ hs.bytes
  holder f' phase' hholder' := by
    obtain ⟨rfl, rfl⟩ := Prod.mk.inj (Option.mem_unique hholder hholder')
    exact hrese
  rows := by
    rw [hrows, hcl, hresults]
    exact hs.rows
  results := by
    rw [hcl, hresults]
    exact hs.results

theorem row_wellFormed (f : Frame) (id call : Nat) (now : Time) :
    (f.row id call now).WellFormed := by
  unfold QueuedEnvelope.WellFormed Frame.row
  by_cases hover : f.Oversized
  · simp [hover, EnvelopeRow.rejected, EnvelopeRow.enqueued]
  · simp [hover, EnvelopeRow.enqueued]

/-- A new row counts, with what its frame was charged for. -/
theorem row_counted (f : Frame) (id call : Nat) (now : Time) :
    (f.row id call now).Counted ∧ (f.row id call now).capacityBytes = f.chargedBytes := by
  unfold QueuedEnvelope.Counted QueuedEnvelope.capacityBytes Frame.row Frame.chargedBytes
  by_cases hover : f.Oversized
  · simp [hover, EnvelopeRow.rejected, EnvelopeRow.enqueued]
  · simp [hover, EnvelopeRow.enqueued]

theorem capacity_row (f : Frame) (id call : Nat) (now : Time) (rows : List QueuedEnvelope) :
    notificationPendingCapacity (f.row id call now :: rows) =
      ((notificationPendingCapacity rows).1 + 1,
        f.chargedBytes + (notificationPendingCapacity rows).2) := by
  obtain ⟨hcnt, hbytes⟩ := row_counted f id call now
  simp [notificationPendingCapacity, hcnt, hbytes]

theorem Sound.commitRow (hs : q.Sound) {row : QueuedEnvelope}
    (hr : q.Reserved f (.inserted (some row))) {result : EnqueueResult}
    (hres : result ≠ .atCapacity) :
    (({ q with rows := row :: q.rows } : Queue).release result).Sound := by
  obtain ⟨hcap, ⟨id, now, rfl⟩, hkey⟩ := hr
  have hadded := capacity_row f id q.calls now q.rows
  unfold AtCapacity at hcap
  refine ⟨unique_cons.mpr ⟨hkey, hs.key⟩, ?_, ?_, ?_, ?_, ?_, ?_⟩
  · intro r hr
    rcases List.mem_cons.mp hr with rfl | hr
    · exact row_wellFormed f id q.calls now
    · exact hs.wellFormed r hr
  · simp only [Queue.release, hadded]
    omega
  · simp only [Queue.release, hadded]
    omega
  · intro _ _ h
    cases h
  · intro r hr
    rcases List.mem_cons.mp hr with rfl | hr
    · refine ⟨Nat.lt_succ_self _, ?_⟩
      rw [Queue.release, List.mem_cons, not_or]
      refine ⟨fun heq => hres (congrArg Prod.snd heq).symm, fun hold => ?_⟩
      exact absurd (hs.results _ hold) (Nat.lt_irrefl _)
    · exact (hs.release result).rows r hr
  · exact (hs.release result).results

theorem admission_sound {op : QueueOp} (hs : q.Sound) (h : q.admission op = some q') : q'.Sound := by
  cases op with
  | lock request =>
    simp only [admission] at h
    split at h
    next f _ _ =>
      cases h
      exact hs.setHolder rfl rfl rfl rfl trivial
    next => cases h
  | checkExists =>
    simp only [admission] at h
    split at h
    next f _ =>
      cases h
      refine hs.setHolder rfl rfl rfl rfl ?_
      split
      · trivial
      · trivial
    next => cases h
  | checkCapacity =>
    simp only [admission] at h
    split at h
    next f _ =>
      cases h
      by_cases hcap : AtCapacity q.rows f
      · rw [if_pos hcap]
        exact hs.release .atCapacity
      · rw [if_neg hcap]
        exact hs.setHolder rfl rfl rfl rfl hcap
    next => cases h
  | insert now =>
    simp only [admission] at h
    split at h
    next f hholder =>
      cases h
      refine hs.setHolder rfl rfl rfl rfl ?_
      split
      next => trivial
      next hconf =>
        have hcap : ¬ AtCapacity q.rows f := hs.holder f .admitted hholder
        refine ⟨hcap, ⟨_, _, rfl⟩, fun r hr hkey => hconf ?_⟩
        exact List.any_eq_true.mpr ⟨r, hr, decide_eq_true hkey⟩
    next => cases h
  | commit answered =>
    simp only [admission] at h
    split at h
    next f row hholder =>
      cases h
      cases row with
      | none => exact hs.release _
      | some row =>
        refine hs.commitRow (hs.holder f _ hholder) ?_
        split
        · split <;> decide
        · decide
    next => cases h
  | abort =>
    obtain ⟨_, -, rfl⟩ := Option.map_eq_some_iff.mp h
    exact hs.release .failed
  | _ => cases h

theorem sound_of_reachable (h : Queue.system.Reachable q) : q.Sound := by
  refine h.invariant (P := Queue.Sound) ?_ ?_
  · rintro q rfl
    exact sound_empty
  · intro q op q' _ hs hstep
    rcases step_cases hstep with hdrains | hadmit
    · exact hdrains.sound hs
    · exact admission_sound hs hadmit

/-- The payload of a pending envelope, and a fixed charge for an oversized one. -/
def charge (r : QueuedEnvelope) : Nat :=
  (if r.envelope.status = .pending then r.envelope.payload.length else 0) +
    if r.envelope.failureClass = .oversized then 512 else 0

/-- The bytes of `NotificationPendingCapacity` are the charges of the whole table. -/
theorem sum_charge {rows : List QueuedEnvelope} (h : ∀ r ∈ rows, r.WellFormed) :
    (rows.map charge).sum = (notificationPendingCapacity rows).2 := by
  unfold notificationPendingCapacity
  induction rows with
  | nil => rfl
  | cons r rows ih =>
    have hrest := ih fun r hr => h r (.tail _ hr)
    have hr := h r (.head _)
    by_cases hcnt : r.Counted
    · have hcharge : charge r = r.capacityBytes := by
        unfold charge QueuedEnvelope.capacityBytes
        by_cases hover : r.envelope.failureClass = .oversized
        · simp [hover, hr hover, rejectedEnvelopeMetadataBytes]
        · rw [if_neg hover, if_neg hover, if_pos (hcnt.resolve_right hover)]
      simp [hcnt, hcharge, hrest]
    · have hcharge : charge r = 0 := by
        unfold QueuedEnvelope.Counted at hcnt
        rw [not_or] at hcnt
        simp [charge, hcnt]
      simp [hcnt, hcharge, hrest]

/-- In every reachable state, whoever runs the queue's calls and however they interleave. -/
theorem queue_within_capacity (h : Queue.system.Reachable q) :
    (q.rows.filter fun r =>
      r.envelope.status = .pending ∨ r.envelope.failureClass = .oversized).length ≤ 100000 ∧
    (q.rows.map charge).sum ≤ 512 * 1024 * 1024 ∧
    (q.rows.map fun r => (r.listener, r.messageKey)).Nodup ∧
    ∀ call, (call, EnqueueResult.atCapacity) ∈ q.results → ∀ r ∈ q.rows, r.call ≠ call := by
  have hs := sound_of_reachable h
  refine ⟨hs.count, ?_, hs.key, ?_⟩
  · rw [sum_charge hs.wellFormed]
    exact hs.bytes
  · rintro call hfailed r hr rfl
    exact (hs.rows r hr).2 hfailed

/-- One `Enqueue` up to its commit. -/
def enqueue (listener : Listener) (payload : Bytes) (now : Time) : List QueueOp :=
  [.lock ⟨some listener, [1], payload⟩, .checkExists, .checkCapacity, .insert now, .commit true]

def run (ops : List QueueOp) : Option Queue :=
  Machine.follow (fun op q => (q.perform op).map fun q' => (op, q')) ops .empty

theorem run_reachable {ops : List QueueOp} (h : run ops = some q) : Queue.system.Reachable q := by
  refine (Machine.Reachable.init rfl).path (Machine.follow_path ?_ h)
  intro op q op' q' hnext
  obtain ⟨t, ht, heq⟩ := Option.map_eq_some_iff.mp hnext
  cases heq
  exact ht

/-- One key on both listeners: the first envelope is claimed and completed while the second is
admitted. -/
def interleaved : List QueueOp :=
  enqueue .v3 [5, 6] 0 ++ [.claim .v3 1 9 1] ++ (enqueue .v4 [7] 2).take 3 ++
    [.finish 1 ⟨[5, 6], 1, 9, false⟩ .complete .none 3] ++ (enqueue .v4 [7] 2).drop 3

/-- The arguments a frame is read from. -/
def requestOf (f : Frame) : EnqueueRequest := ⟨some f.listener, f.key, f.payload⟩

theorem frame_requestOf (f : Frame) : (requestOf f).frame = some f := by
  unfold EnqueueRequest.frame
  exact dif_pos ⟨f.key_ne, f.key_le, f.payload_ne⟩

/-- `Enqueue` of a new key, without interruption. -/
theorem reaches_enqueued (h : Queue.system.Reachable q) (hfree : q.holder = none)
    (hnew : ∀ r ∈ q.rows, r.key ≠ (f.listener, f.key)) :
    Queue.system.Reachable (if AtCapacity q.rows f then q.release .atCapacity else
      ({ q with nextID := q.nextID + 1, rows := f.row q.nextID q.calls 0 :: q.rows } :
        Queue).release (if f.Oversized then .tooLarge else .accepted)) := by
  have hany : (q.rows.any fun r => r.key = (f.listener, f.key)) = false := by
    simpa using hnew
  have hlocked : Queue.system.Reachable { q with holder := some (f, .locked) } := by
    refine h.step (l := .lock (requestOf f)) ?_
    show perform _ _ = _
    simp only [perform, admission, hfree, frame_requestOf]
  have habsent : Queue.system.Reachable { q with holder := some (f, .absent) } := by
    refine hlocked.step (l := .checkExists) ?_
    show perform _ _ = _
    simp only [perform, admission, hany]
    rfl
  by_cases hcap : AtCapacity q.rows f
  · rw [if_pos hcap]
    refine habsent.step (l := .checkCapacity) ?_
    show perform _ _ = _
    simp only [perform, admission, if_pos hcap]
    rfl
  · have hadmitted : Queue.system.Reachable { q with holder := some (f, .admitted) } := by
      refine habsent.step (l := .checkCapacity) ?_
      show perform _ _ = _
      simp only [perform, admission, if_neg hcap]
    have hinserted : Queue.system.Reachable
        { q with
          nextID := q.nextID + 1
          holder := some (f, .inserted (some (f.row q.nextID q.calls 0))) } := by
      refine hadmitted.step (l := .insert 0) ?_
      show perform _ _ = _
      simp only [perform, admission, hany]
      rfl
    rw [if_neg hcap]
    refine hinserted.step (l := .commit true) ?_
    show perform _ _ = _
    rfl

/-- An oversized frame.  Its payload is too long to be computed with: only its length is used. -/
def oversized (n : Nat) : Frame where
  listener := .v3
  key := Framing.bigEndian 3 n
  payload := List.replicate (maxEnvelopeBytes + 1) 0
  key_ne := by simp [← List.length_pos_iff]
  key_le := by simp
  payload_ne := by simp

theorem oversized_oversized (n : Nat) : (oversized n).Oversized := by
  simp [Frame.Oversized, oversized]

/-- A table of `n` oversized envelopes, with keys left for more. -/
theorem reaches_filled {n : Nat} (hn : n ≤ 100000) :
    ∃ q, Queue.system.Reachable q ∧ q.holder = none ∧ q.rows.length = n ∧
      (∀ r ∈ q.rows, r.envelope.failureClass = .oversized) ∧
      (∀ m, n ≤ m → m < 256 ^ 3 → ∀ r ∈ q.rows,
        r.key ≠ ((oversized m).listener, (oversized m).key)) ∧
      notificationPendingCapacity q.rows = (n, 512 * n) := by
  induction n with
  | zero => exact ⟨.empty, .init rfl, rfl, rfl, by simp [empty], by simp [empty], rfl⟩
  | succ n ih =>
    obtain ⟨q, hq, hfree, hlen, hover, hnew, hread⟩ := ih (by omega)
    have hcharged : (oversized n).chargedBytes = 512 := if_pos (oversized_oversized n)
    have hreach := reaches_enqueued hq hfree (hnew n le_rfl (by omega))
    rw [if_neg (by rw [AtCapacity, hread, hcharged]; omega)] at hreach
    refine ⟨_, hreach, rfl, congrArg Nat.succ hlen, ?_, ?_, ?_⟩
    · refine List.forall_mem_cons.mpr ⟨?_, hover⟩
      simp [Frame.row, oversized_oversized, EnvelopeRow.rejected]
    · intro m hm hlt
      refine List.forall_mem_cons.mpr ⟨fun heq => ?_, hnew m (by omega) hlt⟩
      have hsame : n = m := Framing.bigEndian_injective (by omega) hlt (congrArg Prod.snd heq)
      omega
    · refine (capacity_row (oversized n) q.nextID q.calls 0 q.rows).trans ?_
      rw [hread, hcharged, Nat.mul_succ, Nat.add_comm 512]

/-- Two listeners that share a key; and a table full of oversized envelopes, where an `Enqueue` is
refused. -/
theorem queue_within_capacity_two_listeners :
    (∃ q, run interleaved = some q ∧
      q.rows.map charge = [1, 0] ∧ (q.rows.map charge).sum ≤ 512 * 1024 * 1024 ∧
      (q.rows.map fun r => (r.listener, r.messageKey)).Nodup) ∧
    ∃ q call, Queue.system.Reachable q ∧ q.rows.length = 100000 ∧
      (∀ r ∈ q.rows, r.envelope.failureClass = .oversized) ∧
      (call, EnqueueResult.atCapacity) ∈ q.results ∧ ∀ r ∈ q.rows, r.call ≠ call := by
  constructor
  · obtain ⟨q, hq, hcharges⟩ : ∃ q ∈ run interleaved, q.rows.map charge = [1, 0] := by
      decide +kernel
    obtain ⟨-, hbytes, hkeys, -⟩ := queue_within_capacity (run_reachable hq)
    exact ⟨q, hq, hcharges, hbytes, hkeys⟩
  · obtain ⟨q, hq, hfree, hlen, hover, hnew, hread⟩ := reaches_filled (Nat.le_refl 100000)
    have hrefused := reaches_enqueued hq hfree (hnew 100000 le_rfl (by decide))
    rw [if_pos (.inl (by rw [hread]))] at hrefused
    obtain ⟨-, -, -, hnone⟩ := queue_within_capacity hrefused
    exact ⟨_, q.calls, hrefused, hlen, hover, .head _, hnone q.calls (.head _)⟩

end Queue

end NotificationServer.Durable
