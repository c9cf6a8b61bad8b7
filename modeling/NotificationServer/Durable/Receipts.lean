import NotificationServer.Durable.Worker

/-!
# What a statement does to an envelope and its receipts

A fenced statement writes only while its lease is the stored one, the envelope
is pending and the lease is live.  Apart from the one that inserts them, no
statement adds a receipt or touches a decided one.
-/

namespace NotificationServer.Durable

open Relational
open Push (Slice SendRequest)

variable {T D : Type} {set : ReceiptRow → ReceiptRow} {req : SendRequest T}

/-- No receipt is added and none that is decided is changed. -/
def Kept (receipts receipts' : List ReceiptRow) : Prop :=
  ∀ r' ∈ receipts', ∃ r ∈ receipts, r.installationID = r'.installationID ∧
    (r.status ≠ .pending → r' = r)

theorem Kept.refl (receipts : List ReceiptRow) : Kept receipts receipts :=
  fun r hr => ⟨r, hr, rfl, fun _ => rfl⟩

theorem Kept.trans {receipts1 receipts2 receipts3 : List ReceiptRow} (h : Kept receipts1 receipts2)
    (h' : Kept receipts2 receipts3) : Kept receipts1 receipts3 := by
  intro r3 hr3
  obtain ⟨r2, hr2, hid2, hsame2⟩ := h' r3 hr3
  obtain ⟨r1, hr1, hid1, hsame1⟩ := h r2 hr2
  refine ⟨r1, hr1, hid1.trans hid2, fun hdec => ?_⟩
  have heq := hsame1 hdec
  rw [hsame2 (heq ▸ hdec), heq]

theorem kept_nil (receipts : List ReceiptRow) : Kept receipts [] := by
  intro r hr
  cases hr

theorem kept_updateWhere {receipts : List ReceiptRow} {p : ReceiptRow → Prop} [DecidablePred p]
    (hpend : ∀ r, p r → r.status = .pending)
    (hid : ∀ r, (set r).installationID = r.installationID) :
    Kept receipts (updateWhere p set receipts) := by
  intro r' hr'
  obtain ⟨r, hr, rfl⟩ := List.mem_map.mp hr'
  refine ⟨r, hr, ?_, ?_⟩
  · by_cases hp : p r
    · rw [if_pos hp, hid]
    · rw [if_neg hp]
  · intro hdec
    rw [if_neg fun hp => hdec (hpend r hp)]

theorem map_installationID_updateWhere {receipts : List ReceiptRow} {p : ReceiptRow → Prop}
    [DecidablePred p] (hid : ∀ r, (set r).installationID = r.installationID) :
    (updateWhere p set receipts).map (·.installationID) = receipts.map (·.installationID) := by
  rw [updateWhere, List.map_map]
  refine List.map_congr_left fun r _ => ?_
  by_cases hp : p r
  · simp [hp, hid]
  · simp [hp]

def QueueDb.Settled (db : QueueDb) (req : SendRequest T) : Prop :=
  ∀ r ∈ db.receipts, r.installationID = req.installation.id → r.status ≠ .pending

theorem QueueDb.Settled.kept {db db' : QueueDb} (h : db.Settled req)
    (hkept : Kept db.receipts db'.receipts) : db'.Settled req := by
  intro r' hr' hid
  obtain ⟨r, hr, hsame, hdec⟩ := hkept r' hr'
  have hstat := h r hr (hsame.trans hid)
  rw [hdec hstat]
  exact hstat

def QueueDb.Holds (db : QueueDb) (lease : Uuid) : Prop :=
  ∃ e, db.envelope = some e ∧ e.leaseID = some lease

theorem QueueDb.heldBy_iff {db : QueueDb} {lease : Uuid} {now : Time} :
    db.HeldBy lease now ↔ ∃ e, db.envelope = some e ∧ e.HeldBy lease now := by
  rw [QueueDb.HeldBy]
  cases db.envelope with
  | _ => simp

def Statement.lease : Statement → Uuid
  | .renew lease => lease
  | .finish lease _ _ _ => lease
  | .prepare lease _ => lease
  | .claimRecipient lease _ _ => lease
  | .finishRecipient lease _ _ _ _ => lease

def Statement.leaves : Statement → EnvelopeStatus
  | .finish _ status _ _ => status
  | _ => .pending

/-- A statement that matches: the envelope it finds and the one it leaves. -/
structure Fenced (db : QueueDb) (now : Time) (statement : Statement) (db' : QueueDb)
    (e e' : EnvelopeRow) : Prop where
  found : db.envelope = some e
  held : e.HeldBy statement.lease now
  left : db'.envelope = some e'
  attempts : e'.attempts = e.attempts
  lease : ∀ lease, e'.leaseID = some lease → e.leaseID = some lease
  status : e'.status = statement.leaves

variable {db db' : QueueDb} {now : Time} {statement : Statement}

theorem updateHeld_eq_some {lease : Uuid} {set : EnvelopeRow → EnvelopeRow}
    (h : db.updateHeld lease now set = some db') :
    ∃ e, db.envelope = some e ∧ e.HeldBy lease now ∧ db'.envelope = some (set e) ∧
      db'.receipts = db.receipts := by
  rw [QueueDb.updateHeld] at h
  split at h
  next hheld =>
    cases h
    obtain ⟨e, he, hheld⟩ := QueueDb.heldBy_iff.mp hheld
    exact ⟨e, he, hheld, by rw [he]; rfl, rfl⟩
  next => cases h

/-- Every fenced statement finds its lease and leaves the envelope's attempts alone. -/
theorem fenced_of_run (h : statement.run db now = some db') :
    ∃ e e', Fenced db now statement db' e e' := by
  cases statement with
  | renew lease =>
    obtain ⟨e, he, hheld, he', -⟩ := updateHeld_eq_some h
    exact ⟨e, _, he, hheld, he', rfl, fun _ hl => hl, hheld.2.1⟩
  | finish lease status delaySeconds failureClass =>
    obtain ⟨e, he, hheld, he', -⟩ := updateHeld_eq_some h
    exact ⟨e, _, he, hheld, he', rfl, fun _ hnone => (Option.some_ne_none _ hnone.symm).elim, rfl⟩
  | prepare lease ids =>
    rw [Statement.run, QueueDb.prepareNotificationRecipients] at h
    split at h
    next hprep =>
      cases h
      obtain ⟨e, he, hheld⟩ := QueueDb.heldBy_iff.mp hprep.1
      exact ⟨e, { e with recipientsPrepared := true }, he, hheld, by rw [he]; rfl, rfl,
        fun _ hl => hl, hheld.2.1⟩
    next => cases h
  | claimRecipient lease id ticket =>
    rw [Statement.run, QueueDb.claimNotificationRecipient] at h
    split at h
    next hexists =>
      cases h
      obtain ⟨r, -, hclai⟩ := hexists
      obtain ⟨e, he, hheld⟩ := QueueDb.heldBy_iff.mp hclai.2.2.2
      exact ⟨e, e, he, hheld, he, rfl, fun _ hl => hl, hheld.2.1⟩
    next => cases h
  | finishRecipient lease id ticket status failureClass =>
    rw [Statement.run, QueueDb.finishNotificationRecipient] at h
    split at h
    next hexists =>
      cases h
      obtain ⟨r, -, hfini⟩ := hexists
      obtain ⟨e, he, hheld⟩ := QueueDb.heldBy_iff.mp hfini.2.2.2.2
      exact ⟨e, e, he, hheld, he, rfl, fun _ hl => hl, hheld.2.1⟩
    next => cases h

/-- What a statement that is not a preparation does to the receipts. -/
structure Unprepared (db db' : QueueDb) : Prop where
  kept : Kept db.receipts db'.receipts
  ids : db'.receipts.map (·.installationID) = db.receipts.map (·.installationID)
  prepared : ∀ e ∈ db.envelope, ∀ e' ∈ db'.envelope, e'.recipientsPrepared = e.recipientsPrepared

theorem unprepared_of_run (h : statement.run db now = some db')
    (hstmt : ∀ lease ids, statement ≠ .prepare lease ids) : Unprepared db db' := by
  cases statement with
  | renew | finish =>
    obtain ⟨e, he, -, he', hrecs⟩ := updateHeld_eq_some h
    refine ⟨hrecs ▸ Kept.refl _, by rw [hrecs], ?_⟩
    intro f hf f' hf'
    rw [he, Option.mem_some_iff] at hf
    rw [he', Option.mem_some_iff] at hf'
    rw [← hf', ← hf]
  | prepare lease ids => exact absurd rfl (hstmt lease ids)
  | claimRecipient lease id ticket =>
    rw [Statement.run, QueueDb.claimNotificationRecipient] at h
    split at h
    next =>
      cases h
      refine ⟨kept_updateWhere (fun r hr => hr.2.1) fun _ => rfl,
        map_installationID_updateWhere fun _ => rfl, ?_⟩
      intro f hf f' hf'
      rw [Option.mem_unique hf hf']
    next => cases h
  | finishRecipient lease id ticket status failureClass =>
    rw [Statement.run, QueueDb.finishNotificationRecipient] at h
    split at h
    next =>
      cases h
      refine ⟨kept_updateWhere (fun r hr => hr.2.2.1) fun _ => rfl,
        map_installationID_updateWhere fun _ => rfl, ?_⟩
      intro f hf f' hf'
      rw [Option.mem_unique hf hf']
    next => cases h

/-- The preparation finds the envelope unprepared and inserts the recipients that have no receipt. -/
theorem prepare_run {lease : Uuid} {ids : List Slice}
    (h : (Statement.prepare lease ids).run db now = some db') :
    (∀ e ∈ db.envelope, e.recipientsPrepared = false) ∧
    (∀ e ∈ db'.envelope, e.recipientsPrepared = true) ∧
    db'.receipts = db.receipts ++
      (ids.dedup.filter fun id => id ∉ db.receipts.map (·.installationID)).map
        ReceiptRow.initial := by
  rw [Statement.run, QueueDb.prepareNotificationRecipients] at h
  split at h
  next hprep =>
    cases h
    refine ⟨hprep.2, ?_, rfl⟩
    intro e he
    obtain ⟨f, -, rfl⟩ := Option.mem_map.mp he
    rfl
  next => cases h

/-- A recipient that is claimed has a pending receipt. -/
theorem claimRecipient_pending {lease : Uuid} {id : Slice} {ticket : Uuid}
    (huniq : Unique (·.installationID) db.receipts)
    (h : (Statement.claimRecipient lease id ticket).run db now = some db') :
    db.getNotificationRecipientStatus id = some .pending := by
  rw [Statement.run, QueueDb.claimNotificationRecipient] at h
  split at h
  next hexists =>
    obtain ⟨r, hr, hid, hpend, -⟩ := hexists
    have hfind := huniq.find?_eq_some hr
    rw [hid] at hfind
    rw [QueueDb.getNotificationRecipientStatus, hfind, Option.map_some, hpend]
  next => cases h

/-- A recipient outcome that is recorded decides the receipt. -/
theorem finishRecipient_settled {lease : Uuid} {ticket : Uuid} {status : ReceiptStatus}
    {failureClass : FailureClass} (huniq : Unique (·.installationID) db.receipts)
    (hdec : status ≠ .pending)
    (h : (Statement.finishRecipient lease req.installation.id ticket status failureClass).run db now =
      some db') : db'.Settled req := by
  rw [Statement.run, QueueDb.finishNotificationRecipient] at h
  split at h
  next hexists =>
    cases h
    obtain ⟨r, hr, hfini⟩ := hexists
    intro r' hr' hid
    obtain ⟨q, hq, rfl⟩ := List.mem_map.mp hr'
    by_cases hmatch : db.Finishable lease req.installation.id ticket now q
    · rw [if_pos hmatch]
      exact hdec
    · rw [if_neg hmatch] at hid
      have hsame : q = r := huniq.eq_of_key_eq hq hr (hid.trans hfini.1.symm)
      exact absurd (hsame ▸ hfini) hmatch
  next => cases h

/-- A request whose receipt the status query does not find pending is settled. -/
theorem settled_of_status (huniq : Unique (·.installationID) db.receipts)
    (h : db.getNotificationRecipientStatus req.installation.id ≠ some .pending) :
    db.Settled req := by
  intro r hr hid hpend
  have hfind := huniq.find?_eq_some hr
  rw [hid] at hfind
  rw [QueueDb.getNotificationRecipientStatus, hfind, Option.map_some, hpend] at h
  exact h rfl

end NotificationServer.Durable
