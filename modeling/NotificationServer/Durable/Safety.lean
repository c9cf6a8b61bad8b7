import NotificationServer.Durable.Receipts
import NotificationServer.Push.Binding

/-!
# Safety of a durable envelope

An attempt that can still succeed has settled every request it is past, for as
long as its lease is the stored one: a receipt could only be added by its own
preparation, which is behind it, and decided receipts do not change.  A
preparation whose caller gave up belongs to an attempt that has failed.
-/

namespace NotificationServer.Durable

open Relational
open Push (Slice SendRequest Primitives)

variable {T D : Type} {s' : QueueState T} {statement : Statement} {lease : Uuid} {a : Attempt T}
  {snapshot : Option (List Slice)} {db : QueueDb} {now : Time} {P : Primitives T D}

/-- How `process` ended, if it has. -/
def Attempt.result (a : Attempt T) : Option ProcessResult :=
  match a.phase with
  | .returned result => some result
  | .closed result => some result
  | _ => none

/-- The requests still to be settled by an attempt that can still succeed. -/
def Attempt.open (a : Attempt T) : Option (List (SendRequest T)) :=
  match a.phase with
  | .dispatching remaining => if a.failed then none else some remaining
  | .missed req remaining => if a.failed then none else some (req :: remaining)
  | .claimed req remaining _ => if a.failed then none else some (req :: remaining)
  | .finishing req remaining _ _ => if a.failed then none else some (req :: remaining)
  | .returned .succeeded => some []
  | .closed .succeeded => some []
  | _ => none

/-- The envelope and its receipts against the recipients that were prepared. -/
structure DbOk (db : QueueDb) (snapshot : Option (List Slice)) : Prop where
  unique : Unique (·.installationID) db.receipts
  purged : db.envelope = none → db.receipts = []
  unprepared : snapshot = none → db.receipts = [] ∧ ∀ e ∈ db.envelope, e.recipientsPrepared = false
  prepared : ∀ ids, snapshot = some ids → ∀ e ∈ db.envelope,
    e.recipientsPrepared = true ∧ db.receipts.map (·.installationID) = ids.dedup

structure AttemptOk (s : QueueState T) (lease : Uuid) (a : Attempt T) : Prop where
  env : a.env.leaseID = lease
  claimed : lease ∈ s.envelopeClaims
  settled : ∀ rest, a.open = some rest → s.db.Holds lease →
    ∀ req ∈ a.requests, req ∈ rest ∨ s.db.Settled req
  ticket : ∀ req remaining ticket, a.phase = .claimed req remaining ticket →
    ⟨lease, req.installation.id, ticket, some .pending⟩ ∈ s.recipientClaims

def StatementOk (s : QueueState T) : Statement → Prop
  | .prepare lease _ => ∃ a, s.attempts lease = some a ∧ a.result = some .failed
  | .finish lease .complete _ _ => ∃ a, s.attempts lease = some a ∧ a.result = some .succeeded
  | _ => True

/-- Every receipt is decided or not addressed by the attempt that completed the envelope. -/
def Completed (s : QueueState T) : Prop :=
  ∃ lease a, s.completedBy = some lease ∧ s.attempts lease = some a ∧ a.result = some .succeeded ∧
    ∀ r ∈ s.db.receipts, r.status ≠ .pending ∨
      ∀ req ∈ a.requests, req.installation.id ≠ r.installationID

structure QueueOk (s : QueueState T) : Prop where
  db : DbOk s.db s.snapshot
  bound : s.envelopeClaims.length ≤ 12
  count : ∀ e ∈ s.db.envelope, e.attempts = s.envelopeClaims.length
  lease : ∀ e ∈ s.db.envelope, ∀ lease ∈ e.leaseID, lease ∈ s.envelopeClaims
  attempts : ∀ lease a, s.attempts lease = some a → AttemptOk s lease a
  inFlight : ∀ statement ∈ s.inFlight, StatementOk s statement
  calls : ∀ call ∈ s.providerCalls,
    ⟨call.lease, call.installationID, call.ticket, some .pending⟩ ∈ s.recipientClaims
  complete : ∀ e ∈ s.db.envelope, e.status = .complete → Completed s

/-- Once recipients are prepared they stay so, and decided receipts do not change. -/
structure Advances (s s' : QueueState T) : Prop where
  snapshot : ∀ ids, s.snapshot = some ids → s'.snapshot = some ids
  kept : ∀ ids, s.snapshot = some ids → Kept s.db.receipts s'.db.receipts

theorem Advances.refl (s : QueueState T) : Advances s s := ⟨fun _ h => h, fun _ _ => Kept.refl _⟩

theorem Advances.trans {s s'' : QueueState T} (h : Advances s s') (h' : Advances s' s'') :
    Advances s s'' where
  snapshot ids hids := h'.snapshot ids (h.snapshot ids hids)
  kept ids hids := (h.kept ids hids).trans (h'.kept ids (h.snapshot ids hids))

variable {s : QueueState T}

theorem StatementOk.of_attempts (h : StatementOk s statement)
    (hfin : ∀ lease a result, s.attempts lease = some a → a.result = some result →
      ∃ a', s'.attempts lease = some a' ∧ a'.result = some result) : StatementOk s' statement := by
  cases statement with
  | prepare lease ids =>
    obtain ⟨a, ha, hres⟩ := h
    exact hfin lease a _ ha hres
  | finish lease status delaySeconds failureClass =>
    cases status with
    | complete =>
      obtain ⟨a, ha, hres⟩ := h
      exact hfin lease a _ ha hres
    | _ => trivial
  | _ => trivial

/-- An attempt goes on; one whose `process` has returned keeps its result and its requests. -/
theorem QueueOk.setAttempt (hs : QueueOk s) {a' : Attempt T}
    (hfin : ∀ a result, s.attempts lease = some a → a.result = some result →
      a'.result = some result ∧ a'.requests = a.requests) (hok : AttemptOk s lease a') :
    QueueOk (s.setAttempt lease a') := by
  have hself : (s.setAttempt lease a').attempts lease = some a' := Function.update_self ..
  have hoth : ∀ lease', lease' ≠ lease →
      (s.setAttempt lease a').attempts lease' = s.attempts lease' :=
    fun lease' hne => Function.update_of_ne hne ..
  have hresults : ∀ lease' b result, s.attempts lease' = some b → b.result = some result →
      ∃ b', (s.setAttempt lease a').attempts lease' = some b' ∧ b'.result = some result ∧
        b'.requests = b.requests := by
    intro lease' b result hb hres
    by_cases hsame : lease' = lease
    · subst hsame
      exact ⟨a', hself, hfin b result hb hres⟩
    · exact ⟨b, (hoth lease' hsame).trans hb, hres, rfl⟩
  refine ⟨hs.db, hs.bound, hs.count, hs.lease, ?_, ?_, hs.calls, ?_⟩
  · intro lease' b hb
    by_cases hsame : lease' = lease
    · subst hsame
      rw [hself] at hb
      cases hb
      exact ⟨hok.env, hok.claimed, hok.settled, hok.ticket⟩
    · rw [hoth lease' hsame] at hb
      have hbok := hs.attempts lease' b hb
      exact ⟨hbok.env, hbok.claimed, hbok.settled, hbok.ticket⟩
  · intro statement hstmt
    refine (hs.inFlight statement hstmt).of_attempts fun lease' b result hb hres => ?_
    obtain ⟨b', hb', hres', -⟩ := hresults lease' b result hb hres
    exact ⟨b', hb', hres'⟩
  · intro e he hcomp
    obtain ⟨lease', b, hby, hb, hres, hrecs⟩ := hs.complete e he hcomp
    obtain ⟨b', hb', hres', hreqs⟩ := hresults lease' b _ hb hres
    exact ⟨lease', b', hby, hb', hres', by rw [hreqs]; exact hrecs⟩

/-- An attempt keeps its invariant while its lease is not taken up and receipts are kept. -/
theorem AttemptOk.kept (h : AttemptOk s lease a)
    (hclaims : ∀ lease ∈ s.envelopeClaims, lease ∈ s'.envelopeClaims)
    (hreci : ∀ claim ∈ s.recipientClaims, claim ∈ s'.recipientClaims)
    (hset : s'.db.Holds lease → ∀ rest, a.open = some rest →
      s.db.Holds lease ∧ Kept s.db.receipts s'.db.receipts) : AttemptOk s' lease a where
  env := h.env
  claimed := hclaims lease h.claimed
  settled rest hopen hhold req hreq := by
    obtain ⟨hheld, hkept⟩ := hset hhold rest hopen
    exact (h.settled rest hopen hheld req hreq).imp_right fun hs => hs.kept hkept
  ticket req remaining ticket hph := hreci _ (h.ticket req remaining ticket hph)

/-- A statement may run: a preparation for an attempt that cannot succeed any more or has not got
past it, a completion for one whose `process` has succeeded. -/
def Issued (s : QueueState T) : Statement → Prop
  | .prepare lease _ => ∃ a, s.attempts lease = some a ∧ a.open = none
  | .finish lease .complete _ _ => ∃ a, s.attempts lease = some a ∧ a.result = some .succeeded
  | _ => True

theorem Attempt.open_of_result {result : ProcessResult} (h : a.result = some result) :
    a.open = if result = .succeeded then some [] else none := by
  unfold Attempt.result at h
  unfold Attempt.open
  split at h
  next hph =>
    cases h
    rw [hph]
    cases result <;> rfl
  next hph =>
    cases h
    rw [hph]
    cases result <;> rfl
  next => cases h

theorem StatementOk.issued (h : StatementOk s statement) : Issued s statement := by
  cases statement with
  | prepare lease ids =>
    obtain ⟨a, ha, hres⟩ := h
    exact ⟨a, ha, by rw [Attempt.open_of_result hres]; rfl⟩
  | finish lease status delaySeconds failureClass =>
    cases status with
    | complete => exact h
    | _ => trivial
  | _ => trivial

/-- The recipients on record after a statement that matched. -/
def Statement.prepares (snapshot : Option (List Slice)) : Statement → Option (List Slice)
  | .prepare _ ids => some ids
  | _ => snapshot

theorem Statement.prepares_of_ne (h : ∀ lease ids, statement ≠ .prepare lease ids) :
    statement.prepares snapshot = snapshot := by
  cases statement with
  | prepare lease ids => exact absurd rfl (h lease ids)
  | _ => rfl

/-- The database after a fenced statement, against the recipients on record after it. -/
theorem DbOk.run {db' : QueueDb} (h : DbOk db snapshot) (hrun : statement.run db now = some db') :
    DbOk db' (statement.prepares snapshot) := by
  obtain ⟨e, e', hfen⟩ := fenced_of_run hrun
  have hpurged : db'.envelope = none → db'.receipts = [] := fun hnone => by
    rw [hfen.left] at hnone
    cases hnone
  by_cases hprep : ∃ lease ids, statement = .prepare lease ids
  · obtain ⟨lease, ids, rfl⟩ := hprep
    obtain ⟨hunpr, hprepared, hrecs⟩ := prepare_run hrun
    have hsnap : snapshot = none := by
      cases hsome : snapshot with
      | none => rfl
      | some ids' =>
        have htrue := (h.prepared ids' hsome e hfen.found).1
        rw [hunpr e hfen.found] at htrue
        cases htrue
    obtain ⟨hnil, -⟩ := h.unprepared hsnap
    have hids : db'.receipts.map (·.installationID) = ids.dedup := by
      rw [hrecs, hnil]
      simp [Function.comp_def, ReceiptRow.initial]
    refine ⟨?_, hpurged, fun hnone => (Option.some_ne_none _ hnone).elim, ?_⟩
    · rw [Relational.Unique, hids]
      exact List.nodup_dedup ids
    · intro ids' hsome f hf
      cases hsome
      exact ⟨hprepared f hf, hids⟩
  · have hne : ∀ lease ids, statement ≠ .prepare lease ids :=
      fun lease ids heq => hprep ⟨lease, ids, heq⟩
    have hoth := unprepared_of_run hrun hne
    rw [Statement.prepares_of_ne hne]
    refine ⟨?_, hpurged, ?_, ?_⟩
    · have huniq := h.unique
      rwa [Relational.Unique, ← hoth.ids] at huniq
    · intro hnone
      obtain ⟨hnil, hfalse⟩ := h.unprepared hnone
      have hids := hoth.ids
      rw [hnil, List.map_nil, List.map_eq_nil_iff] at hids
      exact ⟨hids, fun f hf => by
        rw [hoth.prepared e hfen.found f hf]
        exact hfalse e hfen.found⟩
    · intro ids hsome f hf
      obtain ⟨htrue, hids⟩ := h.prepared ids hsome e hfen.found
      rw [hoth.prepared e hfen.found f hf, hoth.ids]
      exact ⟨htrue, hids⟩

theorem record_db (db : QueueDb) (statement : Statement) : (s.record db statement).db = db := by
  cases statement <;> rfl

theorem record_attempts (db : QueueDb) (statement : Statement) :
    (s.record db statement).attempts = s.attempts := by
  cases statement <;> rfl

theorem record_envelopeClaims (db : QueueDb) (statement : Statement) :
    (s.record db statement).envelopeClaims = s.envelopeClaims := by
  cases statement <;> rfl

theorem record_inFlight (db : QueueDb) (statement : Statement) :
    (s.record db statement).inFlight = s.inFlight := by
  cases statement <;> rfl

theorem record_providerCalls (db : QueueDb) (statement : Statement) :
    (s.record db statement).providerCalls = s.providerCalls := by
  cases statement <;> rfl

theorem record_snapshot (db : QueueDb) (statement : Statement) :
    (s.record db statement).snapshot = statement.prepares s.snapshot := by
  cases statement <;> rfl

theorem mem_recipientClaims_record {claim : RecipientClaim} (db : QueueDb) (statement : Statement)
    (h : claim ∈ s.recipientClaims) : claim ∈ (s.record db statement).recipientClaims := by
  cases statement with
  | claimRecipient lease id ticket => exact .tail _ h
  | _ => exact h

/-- A completion settles the envelope: its attempt has nothing open. -/
theorem completed_of_finish (hs : QueueOk s) {delaySeconds : Nat} {failureClass : FailureClass}
    (hiss : Issued s (.finish lease .complete delaySeconds failureClass))
    (hrun : (Statement.finish lease .complete delaySeconds failureClass).run s.db now = some db) :
    Completed (s.record db (.finish lease .complete delaySeconds failureClass)) := by
  obtain ⟨a, ha, hres⟩ := hiss
  obtain ⟨e, he, hheld, -, hrecs⟩ := updateHeld_eq_some hrun
  have hopen : a.open = some [] := by rw [Attempt.open_of_result hres]; rfl
  refine ⟨lease, a, rfl, ha, hres, ?_⟩
  intro r hr
  change r ∈ db.receipts at hr
  rw [hrecs] at hr
  by_cases haddr : ∃ req ∈ a.requests, req.installation.id = r.installationID
  · obtain ⟨req, hreq, hid⟩ := haddr
    rcases (hs.attempts lease a ha).settled [] hopen ⟨e, he, hheld.1⟩ req hreq with hnil | hset
    · cases hnil
    · exact Or.inl (hset r hr hid.symm)
  · exact Or.inr fun req hreq hid => haddr ⟨req, hreq, hid⟩

theorem QueueOk.record (hs : QueueOk s) (hiss : Issued s statement)
    (hrun : statement.run s.db now = some db) : QueueOk (s.record db statement) := by
  obtain ⟨e, e', hfen⟩ := fenced_of_run hrun
  refine ⟨?_, ?_, ?_, ?_, ?_, ?_, ?_, ?_⟩
  · rw [record_db, record_snapshot]
    exact hs.db.run hrun
  · rw [record_envelopeClaims]
    exact hs.bound
  · intro f hf
    rw [record_db, hfen.left, Option.mem_some_iff] at hf
    rw [record_envelopeClaims, ← hf, hfen.attempts]
    exact hs.count e hfen.found
  · intro f hf lease hls
    rw [record_db, hfen.left, Option.mem_some_iff] at hf
    subst hf
    rw [record_envelopeClaims]
    exact hs.lease e hfen.found lease (hfen.lease lease hls)
  · intro lease a ha
    rw [record_attempts] at ha
    refine (hs.attempts lease a ha).kept
      (by rw [record_envelopeClaims]; exact fun _ h => h)
      (fun _ h => mem_recipientClaims_record db statement h) ?_
    rintro ⟨f, hf, hls⟩ rest hopen
    rw [record_db, hfen.left, Option.some.injEq] at hf
    subst hf
    have hhold : e.leaseID = some lease := hfen.lease lease hls
    refine ⟨⟨e, hfen.found, hhold⟩, ?_⟩
    rw [record_db]
    by_cases hprep : ∃ lease' ids, statement = .prepare lease' ids
    · -- Only the holder prepares, and it is not past its preparation.
      obtain ⟨lease', ids, rfl⟩ := hprep
      have hsame : some lease' = some lease := hfen.held.1.symm.trans hhold
      cases hsame
      obtain ⟨b, hb, hnone⟩ := hiss
      rw [ha] at hb
      cases hb
      rw [hnone] at hopen
      cases hopen
    · exact (unprepared_of_run hrun fun lease' ids heq => hprep ⟨lease', ids, heq⟩).kept
  · intro statement' hstmt'
    rw [record_inFlight] at hstmt'
    refine (hs.inFlight statement' hstmt').of_attempts fun lease a result ha hres => ?_
    rw [record_attempts]
    exact ⟨a, ha, hres⟩
  · intro call hcall
    rw [record_providerCalls] at hcall
    exact mem_recipientClaims_record db statement (hs.calls call hcall)
  · intro f hf hcomp
    rw [record_db, hfen.left, Option.mem_some_iff] at hf
    subst hf
    rw [hfen.status] at hcomp
    cases statement with
    | finish lease status delaySeconds failureClass =>
      cases hcomp
      exact completed_of_finish hs hiss hrun
    | _ => cases hcomp

theorem advances_record (hs : QueueOk s) (hrun : statement.run s.db now = some db) :
    Advances s (s.record db statement) := by
  by_cases hprep : ∃ lease ids, statement = .prepare lease ids
  · obtain ⟨lease, ids, rfl⟩ := hprep
    obtain ⟨e, e', hfen⟩ := fenced_of_run hrun
    have hfr : ∀ ids', s.snapshot ≠ some ids' := by
      intro ids' hsome
      have htrue := (hs.db.prepared ids' hsome e hfen.found).1
      rw [(prepare_run hrun).1 e hfen.found] at htrue
      cases htrue
    exact ⟨fun ids' hsome => absurd hsome (hfr ids'), fun ids' hsome => absurd hsome (hfr ids')⟩
  · have hne : ∀ lease ids, statement ≠ .prepare lease ids :=
      fun lease ids heq => hprep ⟨lease, ids, heq⟩
    refine ⟨fun ids hsome => ?_, fun ids hsome => ?_⟩
    · rwa [record_snapshot, Statement.prepares_of_ne hne]
    · rw [record_db]
      exact (unprepared_of_run hrun hne).kept

structure Moves (s s' : QueueState T) : Prop where
  ok : QueueOk s'
  advances : Advances s s'

theorem Moves.trans {s'' : QueueState T} (h : Moves s s') (h' : Moves s' s'') : Moves s s'' :=
  ⟨h'.ok, h.advances.trans h'.advances⟩

theorem QueueOk.execute (hs : QueueOk s) (now : Time) (hiss : Issued s statement) :
    Moves s (s.execute statement now).2 := by
  rw [QueueState.execute]
  cases hrun : statement.run s.db now with
  | none => exact ⟨hs, Advances.refl s⟩
  | some db => exact ⟨hs.record hiss hrun, advances_record hs hrun⟩

theorem execute_attempts (statement : Statement) (now : Time) :
    (s.execute statement now).2.attempts = s.attempts := by
  rw [QueueState.execute]
  cases statement.run s.db now with
  | none => rfl
  | some db => exact record_attempts db statement

theorem QueueOk.executed (hs : QueueOk s) (ha : s.attempts lease = some a) (now : Time)
    (statement : Statement) (hiss : Issued s statement) :
    Moves s (s.execute statement now).2 ∧ (s.execute statement now).2.attempts lease = some a :=
  ⟨hs.execute now hiss, by rw [execute_attempts, ha]⟩

/-- Nothing in the invariant but their own clauses depends on the statements in flight and on the
provider calls. -/
theorem QueueOk.setRest (hs : QueueOk s) {inFlight : List Statement}
    {providerCalls : List ProviderCall}
    (hstmts : ∀ statement ∈ inFlight, StatementOk s statement)
    (hcl : ∀ call ∈ providerCalls,
      ⟨call.lease, call.installationID, call.ticket, some .pending⟩ ∈ s.recipientClaims) :
    QueueOk { s with inFlight := inFlight, providerCalls := providerCalls } := by
  refine ⟨hs.db, hs.bound, hs.count, hs.lease, fun lease a ha => ?_, fun statement hstmt => ?_,
    hcl, hs.complete⟩
  · have hok := hs.attempts lease a ha
    exact ⟨hok.env, hok.claimed, hok.settled, hok.ticket⟩
  · exact (hstmts statement hstmt).of_attempts fun lease a result ha hres => ⟨a, ha, hres⟩

theorem QueueOk.post (hs : QueueOk s) (h : StatementOk s statement) : QueueOk (s.post statement) :=
  hs.setRest (List.forall_mem_cons.mpr ⟨h, hs.inFlight⟩) hs.calls

/-- The attempt of a lease changes and nothing else does. -/
theorem QueueOk.moveAttempt (hs : QueueOk s) {a' : Attempt T} (ha : s.attempts lease = some a)
    (henv : a'.env = a.env) (hfin : ∀ result, a.result = some result →
      a'.result = some result ∧ a'.requests = a.requests)
    (hset : ∀ rest, a'.open = some rest → s.db.Holds lease →
      ∀ req ∈ a'.requests, req ∈ rest ∨ s.db.Settled req)
    (hticket : ∀ req remaining ticket, a'.phase = .claimed req remaining ticket →
      ⟨lease, req.installation.id, ticket, some .pending⟩ ∈ s.recipientClaims) :
    Moves s (s.setAttempt a.env.leaseID a') := by
  have hok := hs.attempts lease a ha
  rw [hok.env]
  refine ⟨hs.setAttempt (fun b result hb hres => ?_)
    ⟨by rw [henv, hok.env], hok.claimed, hset, hticket⟩, fun _ h => h, fun _ _ => Kept.refl _⟩
  rw [ha] at hb
  cases hb
  exact hfin result hres

/-- An attempt whose `process` has not returned goes on in a phase in which nothing more is open. -/
theorem QueueOk.goto (hs : QueueOk s) {phase : Phase T} (ha : s.attempts lease = some a)
    (hres : a.result = none)
    (hset : ∀ rest, { a with phase := phase }.open = some rest → s.db.Holds lease →
      ∀ req ∈ a.requests, req ∈ rest ∨ s.db.Settled req)
    (hticket : ∀ req remaining ticket, phase = .claimed req remaining ticket →
      ⟨lease, req.installation.id, ticket, some .pending⟩ ∈ s.recipientClaims) :
    Moves s (s.goto a phase) :=
  hs.moveAttempt ha rfl (fun result h => by rw [hres] at h; cases h) hset hticket

/-- A dispatch fails: the attempt cannot succeed any more. -/
theorem QueueOk.failNext (hs : QueueOk s) (ha : s.attempts lease = some a)
    (hres : a.result = none) (remaining : List (SendRequest T)) :
    Moves s (s.failNext a remaining) :=
  hs.moveAttempt ha rfl (fun result h => by rw [hres] at h; cases h)
    (fun rest hopen => by cases hopen) fun req remaining' ticket hph => by cases hph

theorem claimNotificationEnvelope_eq_some {db' : QueueDb} {row : EnvelopeRow}
    (h : db.claimNotificationEnvelope lease now = some (row, db')) :
    ∃ e, db.envelope = some e ∧ e.Claimable now ∧ db' = { db with envelope := some row } ∧
      row.attempts = e.attempts + 1 ∧ row.leaseID = some lease ∧ row.status = e.status ∧
      row.recipientsPrepared = e.recipientsPrepared := by
  rw [QueueDb.claimNotificationEnvelope] at h
  split at h
  next => cases h
  next e he =>
    split at h
    next hclai =>
      cases h
      exact ⟨e, he, hclai, rfl, rfl, rfl, rfl, rfl⟩
    next => cases h

/-- The envelope changes, and neither its receipts nor whether they were prepared. -/
theorem DbOk.setEnvelope (h : DbOk db snapshot) {envelope : Option EnvelopeRow}
    (hpurged : envelope = none → db.envelope = none)
    (hrow : ∀ e' ∈ envelope, ∃ e ∈ db.envelope, e'.recipientsPrepared = e.recipientsPrepared) :
    DbOk { db with envelope := envelope } snapshot where
  unique := h.unique
  purged hnone := h.purged (hpurged hnone)
  unprepared hnone := by
    refine ⟨(h.unprepared hnone).1, fun e' he' => ?_⟩
    obtain ⟨e, he, hprep⟩ := hrow e' he'
    exact hprep.trans ((h.unprepared hnone).2 e he)
  prepared ids hids e' he' := by
    obtain ⟨e, he, hprep⟩ := hrow e' he'
    rw [hprep]
    exact h.prepared ids hids e he

/-- The envelope is claimed under a new lease. -/
theorem QueueOk.claimed (hs : QueueOk s) {e row : EnvelopeRow} (hfr : lease ∉ s.envelopeClaims)
    (he : s.db.envelope = some e) (hclai : e.Claimable now)
    (hatt : row.attempts = e.attempts + 1) (hls : row.leaseID = some lease)
    (hstat : row.status = e.status) (hprep : row.recipientsPrepared = e.recipientsPrepared) :
    QueueOk { s with
      db := { s.db with envelope := some row }
      envelopeClaims := lease :: s.envelopeClaims } := by
  refine ⟨hs.db.setEnvelope (fun hnone => by cases hnone) fun f hf => ⟨e, he, ?_⟩,
    ?_, ?_, ?_, ?_, ?_, hs.calls, ?_⟩
  · cases hf
    exact hprep
  · have hcount := hs.count e he
    have hlimit := hclai.2.1
    rw [List.length_cons]
    omega
  · intro f hf
    cases hf
    rw [hatt, hs.count e he, List.length_cons]
  · intro f hf lease' hls'
    cases hf
    rw [hls, Option.mem_some_iff] at hls'
    exact hls' ▸ List.mem_cons_self
  · intro lease' a ha
    refine (hs.attempts lease' a ha).kept (fun _ h => .tail _ h) (fun _ h => h) ?_
    -- No attempt had the new lease.
    rintro ⟨f, hf, hheld⟩
    cases hf
    rw [hls, Option.some.injEq] at hheld
    subst hheld
    exact absurd (hs.attempts lease a ha).claimed hfr
  · intro statement hstmt
    exact (hs.inFlight statement hstmt).of_attempts
      fun lease' a result ha hres => ⟨a, ha, hres⟩
  · intro f hf hcomp
    cases hf
    rw [hstat, hclai.1] at hcomp
    cases hcomp

theorem claim_moves (hs : QueueOk s) {answered : Bool} (h : claim s lease now answered = some s') :
    Moves s s' := by
  rw [claim] at h
  split at h
  next => cases h
  next hfr =>
    split at h
    next => cases h
    next row db hclaim =>
      obtain ⟨e, he, hclai, rfl, hatt, hls, hstat, hprep⟩ :=
        claimNotificationEnvelope_eq_some hclaim
      have hcl := hs.claimed hfr he hclai hatt hls hstat hprep
      split at h
      next =>
        cases h
        refine ⟨hcl.setAttempt (fun a result ha => ?_) ⟨rfl, .head _, fun rest hopen => ?_, fun req
          remaining ticket hph => ?_⟩, fun _ h => h, fun _ _ => Kept.refl _⟩
        · exact absurd (hs.attempts lease a ha).claimed hfr
        · cases hopen
        · cases hph
      next =>
        cases h
        exact ⟨hcl, fun _ h => h, fun _ _ => Kept.refl _⟩

/-- The database changes without a new lease, a completion or a new receipt. -/
theorem QueueOk.setDb (hs : QueueOk s) (hdb : DbOk db s.snapshot)
    (henv : ∀ e' ∈ db.envelope, ∃ e ∈ s.db.envelope, e'.attempts = e.attempts ∧
      (∀ lease ∈ e'.leaseID, lease ∈ e.leaseID) ∧ (e'.status = .complete → e.status = .complete))
    (hkept : Kept s.db.receipts db.receipts) : Moves s { s with db := db } := by
  refine ⟨⟨hdb, hs.bound, ?_, ?_, ?_, ?_, hs.calls, ?_⟩, fun _ h => h, fun _ _ => hkept⟩
  · intro e' he'
    obtain ⟨e, he, hatt, -, -⟩ := henv e' he'
    exact hatt.trans (hs.count e he)
  · intro e' he' lease hlease
    obtain ⟨e, he, -, hls, -⟩ := henv e' he'
    exact hs.lease e he lease (hls lease hlease)
  · intro lease a ha
    refine (hs.attempts lease a ha).kept (fun _ h => h) (fun _ h => h) ?_
    rintro ⟨e', he', hlease⟩ rest -
    obtain ⟨e, he, -, hls, -⟩ := henv e' he'
    exact ⟨⟨e, he, hls lease hlease⟩, hkept⟩
  · intro statement hstmt
    exact (hs.inFlight statement hstmt).of_attempts
      fun lease a result ha hres => ⟨a, ha, hres⟩
  · intro e' he' hcomp
    obtain ⟨e, he, -, -, hstat⟩ := henv e' he'
    obtain ⟨lease, a, hby, ha, hres, hrecs⟩ := hs.complete e he (hstat hcomp)
    refine ⟨lease, a, hby, ha, hres, fun r' hr' => ?_⟩
    obtain ⟨r, hr, hid, hsame⟩ := hkept r' hr'
    rcases hrecs r hr with hdec | habsent
    · exact Or.inl (by rw [hsame hdec]; exact hdec)
    · exact Or.inr (hid ▸ habsent)

theorem expire_moves (hs : QueueOk s) (now : Time) :
    Moves s { s with db := s.db.expireNotificationEnvelopes now } := by
  have hrow : ∀ e' ∈ (s.db.expireNotificationEnvelopes now).envelope, ∃ e ∈ s.db.envelope,
      e'.attempts = e.attempts ∧ (∀ lease ∈ e'.leaseID, lease ∈ e.leaseID) ∧
      (e'.status = .complete → e.status = .complete) ∧
      e'.recipientsPrepared = e.recipientsPrepared := by
    intro e' he'
    obtain ⟨e, he, rfl⟩ := Option.mem_map.mp he'
    refine ⟨e, he, ?_⟩
    split
    next =>
      refine ⟨rfl, fun _ h => (Option.not_mem_none _ h).elim, fun hcomp => ?_, rfl⟩
      cases hcomp
    next => exact ⟨rfl, fun _ h => h, fun h => h, rfl⟩
  refine hs.setDb (hs.db.setEnvelope Option.map_eq_none_iff.mp fun e' he' => ?_) ?_ (Kept.refl _)
  · obtain ⟨e, he, -, -, -, hprep⟩ := hrow e' he'
    exact ⟨e, he, hprep⟩
  · intro e' he'
    obtain ⟨e, he, hatt, hls, hstat, -⟩ := hrow e' he'
    exact ⟨e, he, hatt, hls, hstat⟩

theorem purge_moves (hs : QueueOk s) (now : Time) :
    Moves s { s with db := s.db.purgeNotificationReceipts now } := by
  rw [QueueDb.purgeNotificationReceipts]
  split
  next => exact ⟨hs, Advances.refl s⟩
  next e he =>
    split
    next =>
      refine hs.setDb ⟨unique_nil, fun _ => rfl, fun _ => ⟨rfl, ?_⟩, ?_⟩ ?_ (kept_nil _)
      · intro f hf
        cases hf
      · intro ids hids f hf
        cases hf
      · intro f hf
        cases hf
    next => exact ⟨hs, Advances.refl s⟩

theorem late_moves (hs : QueueOk s) (now : Time) (h : statement ∈ s.inFlight) :
    Moves s { (s.execute statement now).2 with inFlight := s.inFlight.erase statement } := by
  obtain ⟨hok, hadva⟩ := hs.execute now (hs.inFlight statement h).issued
  refine ⟨hok.setRest (fun statement' hstmt' => ?_) hok.calls, hadva.snapshot, hadva.kept⟩
  refine (hs.inFlight statement' (List.mem_of_mem_erase hstmt')).of_attempts
    fun lease a result ha hres => ⟨a, ?_, hres⟩
  rw [execute_attempts]
  exact ha

/-- A provider call goes on record with the claim it was made under. -/
theorem QueueOk.call (hs : QueueOk s) {call : ProviderCall}
    (h : ⟨call.lease, call.installationID, call.ticket, some .pending⟩ ∈ s.recipientClaims) :
    QueueOk { s with providerCalls := call :: s.providerCalls } :=
  hs.setRest hs.inFlight (List.forall_mem_cons.mpr ⟨h, hs.calls⟩)

section Attempts

variable {P : Primitives T D} {lease : Uuid} {a : Attempt T} {req : SendRequest T}
  {remaining : List (SendRequest T)} {ticket : Uuid} (hs : QueueOk s)
  (ha : s.attempts lease = some a)

include hs ha

theorem loseLease_moves (noticed : Bool) : Moves s (loseLease s a noticed) := by
  rw [loseLease]
  split
  next =>
    have hok := hs.attempts lease a ha
    exact hs.moveAttempt ha rfl (fun result hres => ⟨hres, rfl⟩) hok.settled hok.ticket
  next => exact ⟨hs, Advances.refl s⟩

theorem renew_moves (now : Time) (noticed : Bool) : Moves s (renew s a now noticed) := by
  obtain ⟨hmv, ha'⟩ := hs.executed ha now (.renew a.env.leaseID) trivial
  rw [renew]
  split
  next s' hexec =>
    rw [hexec] at hmv
    exact hmv
  next s' hexec =>
    rw [hexec] at hmv ha'
    exact hmv.trans (loseLease_moves hmv.ok ha' noticed)

theorem lookup_moves (hph : a.phase = .processing) (found : Lookup T) :
    Moves s (lookup s a found) := by
  have hres : a.result = none := by rw [Attempt.result, hph]
  cases found with
  | invalidEnvelope =>
    exact hs.goto ha hres (fun rest hopen => by cases hopen) fun _ _ _ h => by cases h
  | failed => exact hs.goto ha hres (fun rest hopen => by cases hopen) fun _ _ _ h => by cases h
  | nothing =>
    refine hs.moveAttempt ha rfl (fun result h => ?_) (fun rest hopen hhold req hreq => ?_)
      fun _ _ _ h => by cases h
    · rw [hres] at h
      cases h
    · cases hreq
  | requests requests =>
    refine hs.moveAttempt ha rfl (fun result h => ?_) (fun rest hopen => by cases hopen)
      fun _ _ _ h => by cases h
    rw [hres] at h
    cases h

/-- The loop over the requests starts with all of them open. -/
theorem startDispatch_moves (hres : a.result = none) :
    Moves s (s.goto a (.dispatching a.requests)) := by
  refine hs.goto ha hres (fun rest hopen hhold req hreq => ?_) fun _ _ _ h => by cases h
  simp only [Attempt.open] at hopen
  split at hopen
  next => cases hopen
  next =>
    cases hopen
    exact Or.inl hreq

theorem prepareRecipients_moves (hph : a.phase = .preparing) (now : Time) :
    Moves s (prepareRecipients P s a now) := by
  have hres : a.result = none := by rw [Attempt.result, hph]
  have hopen : a.open = none := by rw [Attempt.open, hph]
  have henv := (hs.attempts lease a ha).env
  rw [prepareRecipients]
  split
  next => exact startDispatch_moves hs ha hres
  next =>
    split
    next => exact hs.goto ha hres (fun rest hopen => by cases hopen) fun _ _ _ h => by cases h
    next =>
      obtain ⟨hmv, ha'⟩ := hs.executed ha now
        (.prepare a.env.leaseID (recipients P a.requests)) ⟨a, henv ▸ ha, hopen⟩
      exact hmv.trans (startDispatch_moves hmv.ok ha' hres)

/-- An attempt goes on with the request it was at, which stays open. -/
theorem stay_moves (hres : a.result = none) {phase : Phase T}
    (hopen : { a with phase := phase }.open = a.open)
    (hticket : ∀ req remaining ticket, phase = .claimed req remaining ticket →
      ⟨lease, req.installation.id, ticket, some .pending⟩ ∈ s.recipientClaims) :
    Moves s (s.goto a phase) :=
  hs.goto ha hres (fun rest hrest => (hs.attempts lease a ha).settled rest (hopen ▸ hrest)) hticket

/-- The request an attempt was at is settled, and the loop goes on. -/
theorem next_moves (hres : a.result = none)
    (hopen : a.open = if a.failed then none else some (req :: remaining))
    (hset : s.db.Settled req) : Moves s (s.goto a (.dispatching remaining)) := by
  refine hs.goto ha hres (fun rest hrest hhold other hoth => ?_) fun _ _ _ h => by cases h
  simp only [Attempt.open] at hrest
  split at hrest
  next => cases hrest
  next hfailed =>
    cases hrest
    rw [if_neg hfailed] at hopen
    rcases (hs.attempts lease a ha).settled _ hopen hhold other hoth with hmem | hdone
    · rcases List.mem_cons.mp hmem with rfl | hmem
      · exact Or.inr hset
      · exact Or.inl hmem
    · exact Or.inr hdone

theorem claimRecipient_moves (hph : a.phase = .dispatching (req :: remaining)) (ticket : Uuid)
    (now : Time) : Moves s (claimRecipient s a req remaining ticket now) := by
  have hres : a.result = none := by rw [Attempt.result, hph]
  have henv := (hs.attempts lease a ha).env
  rw [claimRecipient]
  split
  next => exact hs.failNext ha hres remaining
  next =>
    obtain ⟨hmv, ha'⟩ := hs.executed ha now
      (.claimRecipient a.env.leaseID req.installation.id ticket) trivial
    split
    next s' hexec =>
      rw [hexec] at hmv ha'
      refine hmv.trans (stay_moves hmv.ok ha' hres ?_ ?_)
      · simp only [Attempt.open, hph]
      intro req' remaining' ticket' heq
      cases heq
      rw [QueueState.execute] at hexec
      split at hexec
      next => cases hexec
      next db hrun =>
        cases hexec
        have hpend := claimRecipient_pending hs.db.unique hrun
        rw [QueueState.record, hpend, henv]
        exact .head _
    next s' hexec =>
      rw [hexec] at hmv ha'
      refine hmv.trans (stay_moves hmv.ok ha' hres ?_ fun _ _ _ h => by cases h)
      simp only [Attempt.open, hph]

theorem recipientStatus_moves (hph : a.phase = .missed req remaining) :
    Moves s (recipientStatus s a req remaining) := by
  have hres : a.result = none := by rw [Attempt.result, hph]
  have hopen : a.open = if a.failed then none else some (req :: remaining) := by
    rw [Attempt.open, hph]
  have hnext : s.db.getNotificationRecipientStatus req.installation.id ≠ some .pending →
      Moves s (s.goto a (.dispatching remaining)) := fun hstat =>
    next_moves hs ha hres hopen (settled_of_status hs.db.unique hstat)
  rw [recipientStatus]
  split
  next hstat => exact hnext (by rw [hstat]; decide)
  next hstat => exact hnext (by rw [hstat]; decide)
  next hstat => exact hnext (by rw [hstat]; decide)
  next => exact hs.failNext ha hres remaining

theorem send_moves (hph : a.phase = .claimed req remaining ticket) (result : SendResult) :
    Moves s (send P s a req remaining ticket result) := by
  have hres : a.result = none := by rw [Attempt.result, hph]
  have hok := hs.attempts lease a ha
  have hstay : ∀ outcome, Moves s (s.goto a (.finishing req remaining ticket outcome)) := by
    intro outcome
    refine stay_moves hs ha hres ?_ fun _ _ _ h => by cases h
    simp only [Attempt.open, hph]
  have hcl := hok.ticket req remaining ticket hph
  rw [send]
  split
  next => exact hstay _
  next =>
    split
    next => exact hstay _
    next =>
      obtain ⟨hgone, hadva⟩ := hstay result.outcome
      refine ⟨hgone.call ?_, hadva.snapshot, hadva.kept⟩
      rw [hok.env]
      exact hcl

theorem finishRecipient_moves {outcome : Outcome}
    (hph : a.phase = .finishing req remaining ticket outcome) (now : Time) :
    Moves s (finishRecipient s a req remaining ticket outcome now) := by
  have hres : a.result = none := by rw [Attempt.result, hph]
  obtain ⟨hmv, ha'⟩ := hs.executed ha now (.finishRecipient a.env.leaseID req.installation.id
    ticket outcome.status outcome.failureClass) trivial
  rw [finishRecipient]
  split
  next s' hexec =>
    rw [hexec] at hmv ha'
    exact hmv.trans (hmv.ok.failNext ha' hres remaining)
  next s' hexec =>
    rw [hexec] at hmv ha'
    split
    next => exact hmv.trans (hmv.ok.failNext ha' hres remaining)
    next hdec =>
      rw [QueueState.execute] at hexec
      split at hexec
      next => cases hexec
      next db hrun =>
        cases hexec
        have hset := finishRecipient_settled hs.db.unique hdec hrun
        refine hmv.trans (next_moves hmv.ok ha' hres ?_ hset)
        rw [Attempt.open, hph]

/-- `process` returns, panics or is abandoned: an attempt that was not past its requests has not
succeeded. -/
theorem end_moves (hres : a.result = none) {result : ProcessResult}
    (hres' : result = .succeeded → a.open = some []) : Moves s (s.goto a (.returned result)) := by
  refine hs.goto ha hres (fun rest hopen hhold req hreq => ?_) fun _ _ _ h => by cases h
  cases result with
  | succeeded =>
    cases hopen
    exact (hs.attempts lease a ha).settled [] (hres' rfl) hhold req hreq
  | _ => cases hopen

/-- The worker is done with an attempt whose `process` has returned. -/
theorem close_moves {result : ProcessResult} (hph : a.phase = .returned result) :
    Moves s (s.goto a (.closed result)) := by
  have hres : a.result = some result := by rw [Attempt.result, hph]
  have hopen : { a with phase := .closed result }.open = a.open := by
    rw [Attempt.open_of_result hres]
    exact Attempt.open_of_result rfl
  refine hs.moveAttempt ha rfl (fun result' h => ?_)
    (fun rest hrest => (hs.attempts lease a ha).settled rest (hopen ▸ hrest))
    fun _ _ _ h => by cases h
  rw [hres] at h
  exact ⟨h, rfl⟩

/-- `Finish` is asked to complete only after a success. -/
theorem closing_ok {result : ProcessResult} (hph : a.phase = .returned result) :
    StatementOk s (closing a.env result) := by
  have henv := (hs.attempts lease a ha).env
  cases result with
  | succeeded => exact ⟨a, henv ▸ ha, by rw [Attempt.result, hph]⟩
  | invalidEnvelope | recipientLimit => trivial
  | failed =>
    simp only [closing, finish]
    split
    next => trivial
    next => trivial
  | panicked => trivial

theorem giveUp_moves {s' : QueueState T} (h : giveUp P s a ticket = some s') : Moves s s' := by
  have hpost : ∀ statement, StatementOk s statement → Moves s (s.post statement) :=
    fun statement hstmt => ⟨hs.post hstmt, fun _ h => h, fun _ _ => Kept.refl _⟩
  have henv := (hs.attempts lease a ha).env
  rw [giveUp] at h
  split at h
  next hph =>
    have hres : a.result = none := by rw [Attempt.result, hph]
    split at h
    next => cases h
    next =>
      cases h
      have hmv : Moves s (s.goto a (.returned .failed)) :=
        end_moves hs ha hres fun hsucc => by cases hsucc
      have hfailed : StatementOk (s.goto a (.returned .failed))
          (.prepare a.env.leaseID (recipients P a.requests)) :=
        ⟨{ a with phase := .returned .failed }, Function.update_self .., rfl⟩
      exact ⟨hmv.ok.post hfailed, hmv.advances.snapshot, hmv.advances.kept⟩
  next req remaining hph =>
    have hres : a.result = none := by rw [Attempt.result, hph]
    split at h
    next => cases h
    next =>
      cases h
      have hmv := hpost (.claimRecipient a.env.leaseID req.installation.id ticket) trivial
      exact hmv.trans (hmv.ok.failNext ha hres remaining)
  next req remaining hph =>
    have hres : a.result = none := by rw [Attempt.result, hph]
    cases h
    exact hs.failNext ha hres remaining
  next req remaining ticket' outcome hph =>
    have hres : a.result = none := by rw [Attempt.result, hph]
    cases h
    have hmv := hpost (.finishRecipient a.env.leaseID req.installation.id ticket'
      outcome.status outcome.failureClass) trivial
    exact hmv.trans (hmv.ok.failNext ha hres remaining)
  next result hph =>
    split at h
    next =>
      cases h
      have hmv := hpost _ (closing_ok hs ha hph)
      exact hmv.trans (close_moves hmv.ok ha hph)
    next => cases h
  next => cases h

theorem performAttempt_moves {event : QueueEvent T} {s' : QueueState T}
    (h : performAttempt P s a event = some s') : Moves s s' := by
  unfold performAttempt at h
  -- Each event is for one phase, or for all but the last; in the others it is refused.
  split at h <;> try split at h <;> try cases h
  next now noticed _ _ => exact renew_moves hs ha now noticed
  next noticed _ _ =>
    have hposted : QueueOk (s.post (.renew a.env.leaseID)) := hs.post trivial
    have hmv := loseLease_moves hposted ha noticed
    exact ⟨hmv.ok, hmv.advances.snapshot, hmv.advances.kept⟩
  next found _ hph => exact lookup_moves hs ha hph found
  next now _ hph => exact prepareRecipients_moves hs ha hph now
  next ticket now _ req remaining hph => exact claimRecipient_moves hs ha hph ticket now
  next _ _ req remaining hph => exact recipientStatus_moves hs ha hph
  next result _ req remaining ticket hph => exact send_moves hs ha hph result
  next now _ req remaining ticket outcome hph => exact finishRecipient_moves hs ha hph now
  next _ _ hph =>
    refine end_moves hs ha (by rw [Attempt.result, hph]) fun hsucc => ?_
    rw [Attempt.open, hph]
    cases hfailed : a.failed with
    | true =>
      rw [hfailed] at hsucc
      cases hsucc
    | false => rfl
  next _ _ hretu hclosed =>
    refine end_moves hs ha ?_ fun hsucc => by cases hsucc
    unfold Attempt.result
    split
    next result hph => exact absurd hph (hretu result)
    next result hph => exact absurd hph (hclosed result)
    next => rfl
  next now _ result hph =>
    split at h <;> cases h
    obtain ⟨hmv, ha'⟩ := hs.executed ha now _ (closing_ok hs ha hph).issued
    exact hmv.trans (close_moves hmv.ok ha' hph)
  next _ result hph => exact close_moves hs ha hph
  next _ ticket => exact giveUp_moves hs ha h
  next => cases h

end Attempts

theorem step_moves (hs : QueueOk s) {event : QueueEvent T} (h : (system P).step s event s') :
    Moves s s' := by
  change perform P s event = some s' at h
  cases event with
  | claim lease now answered => exact claim_moves hs h
  | late statement now =>
    simp only [perform] at h
    split at h
    next hmem =>
      cases h
      exact late_moves hs now hmem
    next => cases h
  | expire now =>
    cases h
    exact expire_moves hs now
  | purge now =>
    cases h
    exact purge_moves hs now
  | _ =>
    simp only [perform] at h
    split at h
    next => cases h
    next lease hls =>
      split at h
      next => cases h
      next a ha => exact performAttempt_moves hs ha h

theorem queueOk_of_reachable (h : (system P).Reachable s) : QueueOk s := by
  refine h.invariant (P := QueueOk) ?_ fun s event s' _ hs hstep => (step_moves hs hstep).ok
  rintro s ⟨⟨payload, now, henv⟩, hrecs, hatt, hinFl, hsnap, hclaims, hreci, hcl, hby⟩
  have hrow : ∀ e ∈ s.db.envelope, e.attempts = 0 ∧ e.leaseID = none ∧ e.status ≠ .complete ∧
      e.recipientsPrepared = false := by
    intro e he
    rcases henv with hpend | hreje
    · rw [hpend] at he
      cases he
      exact ⟨rfl, rfl, (fun hcomp => nomatch hcomp), rfl⟩
    · rw [hreje] at he
      cases he
      exact ⟨rfl, rfl, (fun hcomp => nomatch hcomp), rfl⟩
  refine ⟨⟨?_, fun _ => hrecs, fun _ => ⟨hrecs, fun e he => (hrow e he).2.2.2⟩, ?_⟩,
    ?_, ?_, ?_, ?_, ?_, ?_, ?_⟩
  · rw [hrecs]
    exact unique_nil
  · intro ids hids
    rw [hsnap] at hids
    cases hids
  · rw [hclaims]
    exact Nat.zero_le 12
  · intro e he
    rw [(hrow e he).1, hclaims, List.length_nil]
  · intro e he lease hls
    rw [(hrow e he).2.1] at hls
    cases hls
  · intro lease a ha
    rw [hatt lease] at ha
    cases ha
  · intro statement hstmt
    rw [hinFl] at hstmt
    cases hstmt
  · intro call hcall
    rw [hcl] at hcall
    cases hcall
  · intro e he hcomp
    exact absurd hcomp (hrow e he).2.2.1

theorem advances_of_path (hs : (system P).Reachable s) (h : (system P).Path s s') :
    Advances s s' := by
  refine h.invariant (P := Advances s) hs (fun t event t' ht hadva hstep => ?_)
    (Advances.refl s)
  exact hadva.trans (step_moves (queueOk_of_reachable ht) hstep).advances

/-- `Finish` under a lease would commit. -/
def QueueDb.CommitsEnvelope (db : QueueDb) (lease : Uuid) (now : Time) : Prop :=
  ∃ status delaySeconds failureClass,
    (db.finishNotificationEnvelope lease status delaySeconds failureClass now).isSome

/-- `FinishRecipient` under an envelope lease and a ticket would commit. -/
def QueueDb.CommitsRecipient (db : QueueDb) (lease : Uuid) (installationID : Slice) (ticket : Uuid)
    (now : Time) : Prop :=
  ∃ status failureClass,
    (db.finishNotificationRecipient lease installationID ticket status failureClass now).isSome

theorem holds_of_commitsEnvelope (h : db.CommitsEnvelope lease now) : db.Holds lease := by
  obtain ⟨status, delaySeconds, failureClass, hsome⟩ := h
  obtain ⟨db', hfinish⟩ := Option.isSome_iff_exists.mp hsome
  obtain ⟨e, he, hheld, -⟩ := updateHeld_eq_some hfinish
  exact ⟨e, he, hheld.1⟩

theorem ticket_of_commitsRecipient {ticket : Uuid} {id : Slice}
    (h : db.CommitsRecipient lease id ticket now) :
    db.Holds lease ∧ ∃ r ∈ db.receipts, r.installationID = id ∧ r.leaseID = some ticket := by
  obtain ⟨status, failureClass, hsome⟩ := h
  obtain ⟨db', hfinish⟩ := Option.isSome_iff_exists.mp hsome
  rw [QueueDb.finishNotificationRecipient] at hfinish
  split at hfinish
  next hexists =>
    obtain ⟨r, hr, hid, hticket, -, -, hheld⟩ := hexists
    obtain ⟨e, he, hheld⟩ := QueueDb.heldBy_iff.mp hheld
    exact ⟨⟨e, he, hheld.1⟩, r, hr, hid, hticket⟩
  next => cases hfinish

theorem QueueDb.Holds.unique {lease' : Uuid} (h : db.Holds lease) (h' : db.Holds lease') :
    lease = lease' := by
  obtain ⟨e, he, hls⟩ := h
  obtain ⟨e', he', hls'⟩ := h'
  rw [he, Option.some.injEq] at he'
  rw [← he', hls, Option.some.injEq] at hls'
  exact hls'

/-- In every run of any number of workers on one envelope: there are no receipts until a
preparation takes effect, then exactly one for each of its recipients, for as long as the envelope
is kept; later preparations change nothing; decided receipts do not change; the envelope is claimed
at most twelve times; at most one envelope lease, and with it at most one recipient lease for each
installation, can commit an outcome; providers are called only under a claim that found the receipt
pending; and a complete envelope has no pending receipt that the attempt which completed it
addressed. -/
theorem durable_envelope_safe {P : Primitives T D} (h : (system P).Reachable s) :
    (s.snapshot = none → s.db.receipts = []) ∧
    (∀ ids, s.snapshot = some ids → (s.db.envelope = none ∧ s.db.receipts = []) ∨
        s.db.receipts.map (·.installationID) = ids.dedup) ∧
    (∀ s', (system P).Path s s' → (∀ ids, s.snapshot = some ids → s'.snapshot = some ids) ∧
      (∀ r ∈ s.db.receipts, r.status ≠ .pending →
        ∀ r' ∈ s'.db.receipts, r'.installationID = r.installationID → r' = r)) ∧
    s.envelopeClaims.length ≤ 12 ∧
    (∀ now lease lease', s.db.CommitsEnvelope lease now → s.db.CommitsEnvelope lease' now →
      lease = lease') ∧
    (∀ now id lease lease' ticket ticket', s.db.CommitsRecipient lease id ticket now →
      s.db.CommitsRecipient lease' id ticket' now → lease = lease' ∧ ticket = ticket') ∧
    (∀ call ∈ s.providerCalls, ∃ claim ∈ s.recipientClaims, claim.lease = call.lease ∧
      claim.installationID = call.installationID ∧ claim.ticket = call.ticket ∧
      claim.status = some .pending) ∧
    (∀ e ∈ s.db.envelope, e.status = .complete →
      ∃ lease a, s.completedBy = some lease ∧ s.attempts lease = some a ∧
        ∀ r ∈ s.db.receipts, r.status ≠ .pending ∨
          ∀ req ∈ a.requests, req.installation.id ≠ r.installationID) := by
  have hs := queueOk_of_reachable h
  refine ⟨?_, ?_, ?_, hs.bound, ?_, ?_, ?_, ?_⟩
  · intro hnone
    exact (hs.db.unprepared hnone).1
  · intro ids hids
    cases he : s.db.envelope with
    | none => exact Or.inl ⟨rfl, hs.db.purged he⟩
    | some e => exact Or.inr (hs.db.prepared ids hids e he).2
  · intro s' hpath
    have hadva := advances_of_path h hpath
    refine ⟨hadva.snapshot, fun r hr hdec r' hr' hid => ?_⟩
    cases hsnap : s.snapshot with
    | none =>
      rw [(hs.db.unprepared hsnap).1] at hr
      cases hr
    | some ids =>
      obtain ⟨q, hq, hqid, hsame⟩ := hadva.kept ids hsnap r' hr'
      have heq : q = r := hs.db.unique.eq_of_key_eq hq hr (hqid.trans hid)
      subst heq
      exact hsame hdec
  · intro now lease lease' hcommits hcommits'
    exact (holds_of_commitsEnvelope hcommits).unique (holds_of_commitsEnvelope hcommits')
  · intro now id lease lease' ticket ticket' hcommits hcommits'
    obtain ⟨hhold, r, hr, hid, hticket⟩ := ticket_of_commitsRecipient hcommits
    obtain ⟨hhold', r', hr', hid', hticket'⟩ := ticket_of_commitsRecipient hcommits'
    have heq : r = r' := hs.db.unique.eq_of_key_eq hr hr' (hid.trans hid'.symm)
    rw [heq, hticket', Option.some.injEq] at hticket
    exact ⟨hhold.unique hhold', hticket.symm⟩
  · intro call hcall
    exact ⟨_, hs.calls call hcall, rfl, rfl, rfl, rfl⟩
  · intro e he hcomp
    obtain ⟨lease, a, hby, ha, -, hrecs⟩ := hs.complete e he hcomp
    exact ⟨lease, a, hby, ha, hrecs⟩

namespace QueueSample

open Push.PolicySample

def start : QueueState Nat where
  db := ⟨some (.enqueued [1] 0), []⟩
  attempts _ := none
  inFlight := []
  snapshot := none
  envelopeClaims := []
  recipientClaims := []
  providerCalls := []
  completedBy := none

/-- One attempt from its claim to its `Finish`, a second apart from each other. -/
def attempt (lease ticket : Uuid) (now : Time) (result : SendResult) : List (QueueEvent Nat) :=
  [.claim lease now true, .lookup lease (.requests [welcome 1]), .prepareRecipients lease now,
    .claimRecipient lease ticket now, .send lease result, .finishRecipient lease (now + second),
    .processReturns lease, .finish lease (now + second)]

/-- A first attempt whose provider call fails, and a retry that is accepted. -/
def retried : List (QueueEvent Nat) :=
  attempt 1 11 0 .transientFailure ++ attempt 2 12 (20 * second) .accepted

def run (events : List (QueueEvent Nat)) : Option (QueueState Nat) :=
  Machine.follow (fun e s => (perform primitives s e).map fun s' => (e, s')) events start

theorem run_reachable {events : List (QueueEvent Nat)} {s : QueueState Nat}
    (h : run events = some s) : (system primitives).Reachable s := by
  have hinit : (system primitives).init start :=
    ⟨⟨[1], 0, Or.inl rfl⟩, rfl, fun _ => rfl, rfl, rfl, rfl, rfl, rfl, rfl⟩
  refine (Machine.Reachable.init hinit).path (Machine.follow_path ?_ h)
  intro e s e' s' hnext
  obtain ⟨t, ht, heq⟩ := Option.map_eq_some_iff.mp hnext
  cases heq
  exact ht

end QueueSample

open QueueSample Push.PolicySample

/-- After the retry the envelope is complete, claimed twice, and its receipt accepted. -/
theorem durable_envelope_retried :
    ∃ s, run retried = some s ∧ (s.db.envelope.map (·.status) = some .complete ∧
      s.db.receipts.map (·.status) = [.accepted] ∧ s.providerCalls.length = 2) ∧
    s.envelopeClaims.length ≤ 12 ∧
    (∀ call ∈ s.providerCalls, ∃ claim ∈ s.recipientClaims, claim.lease = call.lease ∧
      claim.installationID = call.installationID ∧ claim.ticket = call.ticket ∧
      claim.status = some .pending) := by
  obtain ⟨s, hs, hfacts⟩ : ∃ s ∈ run retried, s.db.envelope.map (·.status) = some .complete ∧
      s.db.receipts.map (·.status) = [.accepted] ∧ s.providerCalls.length = 2 := by
    decide +kernel
  obtain ⟨-, -, -, hclaims, -, -, hcl, -⟩ := durable_envelope_safe (run_reachable hs)
  exact ⟨s, hs, hfacts, hclaims, hcl⟩

end NotificationServer.Durable
