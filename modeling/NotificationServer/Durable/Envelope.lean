import Mathlib.Data.List.Dedup
import NotificationServer.Lib.Relational
import NotificationServer.Push.Policy

/-!
# One durable envelope and its recipient receipts

The rows of `notification_queue` that belong to one admitted envelope, and the
statements of `notification_queue.sql` on them.  Every statement is its own
transaction; it reads the database clock, which is an argument here and need not
be monotone.  The listener and message key only select the envelope and are left
out.
-/

namespace NotificationServer.Durable

open Relational
open Push (Slice)

inductive EnvelopeStatus
  | pending
  | complete
  | dead
  deriving DecidableEq

inductive ReceiptStatus
  | pending
  | accepted
  | rejected
  deriving DecidableEq

/-- The texts of `failure_class`; `none` is the empty one. -/
inductive FailureClass
  | none
  | providerTransient
  | providerPermanent
  | tokenCleanup
  | processing
  | invalidEnvelope
  | suppressed
  | noProvider
  | recipientLimit
  | processingPanic
  | expired
  | oversized
  deriving DecidableEq

/-- The text of a random UUID, as `uuid.NewString` returns it. -/
abbrev Uuid := Bytes16

def maxAttempts : Nat := 12
def maxRecipients : Nat := 10000

/-- A row of `notification_envelopes`.  The empty `lease_id` is `none`, and so is a `lease_until`
of minus infinity. -/
structure EnvelopeRow where
  payload : Bytes
  status : EnvelopeStatus
  createdAt : Time
  nextAttemptAt : Time
  attempts : Nat
  leaseID : Option Uuid
  leaseUntil : Option Time
  failureClass : FailureClass
  recipientsPrepared : Bool
  deriving DecidableEq

/-- A row of `notification_recipient_receipts`. -/
structure ReceiptRow where
  installationID : Slice
  status : ReceiptStatus
  leaseID : Option Uuid
  leaseUntil : Option Time
  failureClass : FailureClass
  deriving DecidableEq

/-- A receipt as `PrepareNotificationRecipients` inserts it. -/
def ReceiptRow.initial (installationID : Slice) : ReceiptRow :=
  ⟨installationID, .pending, none, none, .none⟩

structure QueueDb where
  envelope : Option EnvelopeRow
  receipts : List ReceiptRow
  deriving DecidableEq

/-- `lease_until < clock_timestamp()` -/
def Lapsed (leaseUntil : Option Time) (now : Time) : Prop :=
  match leaseUntil with
  | none => True
  | some t => t < now

instance (leaseUntil : Option Time) (now : Time) : Decidable (Lapsed leaseUntil now) := by
  unfold Lapsed
  split <;> infer_instance

/-- `lease_until > clock_timestamp()` -/
def Live (leaseUntil : Option Time) (now : Time) : Prop :=
  match leaseUntil with
  | none => False
  | some t => now < t

instance (leaseUntil : Option Time) (now : Time) : Decidable (Live leaseUntil now) := by
  unfold Live
  split <;> infer_instance

/-- `EnqueueNotificationEnvelope` -/
def EnvelopeRow.enqueued (payload : Bytes) (now : Time) : EnvelopeRow where
  payload := payload
  status := .pending
  createdAt := now
  nextAttemptAt := now
  attempts := 0
  leaseID := none
  leaseUntil := none
  failureClass := .none
  recipientsPrepared := false

/-- `RecordRejectedNotificationEnvelope`, for an oversized frame. -/
def EnvelopeRow.rejected (now : Time) : EnvelopeRow :=
  { EnvelopeRow.enqueued [] now with status := .dead, failureClass := .oversized }

/-- The candidates of `ClaimNotificationEnvelope`. -/
def EnvelopeRow.Claimable (e : EnvelopeRow) (now : Time) : Prop :=
  e.status = .pending ∧ e.attempts < 12 ∧ now - 24 * hour ≤ e.createdAt ∧ e.nextAttemptAt ≤ now ∧
    Lapsed e.leaseUntil now
  deriving Decidable

/-- The envelope lease a write is fenced by: the captured one, pending and not over. -/
def EnvelopeRow.HeldBy (e : EnvelopeRow) (lease : Uuid) (now : Time) : Prop :=
  e.leaseID = some lease ∧ e.status = .pending ∧ Live e.leaseUntil now
  deriving Decidable

namespace QueueDb

def HeldBy (db : QueueDb) (lease : Uuid) (now : Time) : Prop :=
  match db.envelope with
  | none => False
  | some e => e.HeldBy lease now

instance (db : QueueDb) (lease : Uuid) (now : Time) : Decidable (db.HeldBy lease now) := by
  unfold HeldBy
  split <;> infer_instance

/-- `ClaimNotificationEnvelope`: the claimed row and the new database. -/
def claimNotificationEnvelope (db : QueueDb) (lease : Uuid) (now : Time) :
    Option (EnvelopeRow × QueueDb) :=
  match db.envelope with
  | none => none
  | some e =>
    if e.Claimable now then
      let claimed :=
        { e with
          attempts := e.attempts + 1
          leaseID := some lease
          leaseUntil := some (now + 90 * second) }
      some (claimed, { db with envelope := some claimed })
    else none

/-- An update of the envelope under its lease; `none` if no row matches. -/
def updateHeld (db : QueueDb) (lease : Uuid) (now : Time) (set : EnvelopeRow → EnvelopeRow) :
    Option QueueDb :=
  if db.HeldBy lease now then some { db with envelope := db.envelope.map set } else none

def renewNotificationLease (db : QueueDb) (lease : Uuid) (now : Time) : Option QueueDb :=
  db.updateHeld lease now fun e => { e with leaseUntil := some (now + 90 * second) }

def finishNotificationEnvelope (db : QueueDb) (lease : Uuid) (status : EnvelopeStatus)
    (delaySeconds : Nat) (failureClass : FailureClass) (now : Time) : Option QueueDb :=
  db.updateHeld lease now fun e =>
    { e with
      status := status
      payload := if status = .pending then e.payload else []
      nextAttemptAt := now + delaySeconds * second
      failureClass := failureClass
      leaseID := none
      leaseUntil := none }

def expireNotificationEnvelopes (db : QueueDb) (now : Time) : QueueDb :=
  { db with
    envelope := db.envelope.map fun e =>
      if e.status = .pending ∧ Lapsed e.leaseUntil now ∧
          (e.createdAt < now - 24 * hour ∨ 12 ≤ e.attempts) then
        { e with
          status := .dead
          payload := []
          failureClass := .expired
          leaseID := none
          leaseUntil := none }
      else e }

/-- `PurgeNotificationReceipts`; the receipts go with the envelope. -/
def purgeNotificationReceipts (db : QueueDb) (now : Time) : QueueDb :=
  match db.envelope with
  | none => db
  | some e =>
    if e.status ≠ .pending ∧ e.createdAt < now - 7 * day then ⟨none, []⟩ else db

/-- The envelope matches the first part of `PrepareNotificationRecipients`. -/
def Preparable (db : QueueDb) (lease : Uuid) (now : Time) : Prop :=
  db.HeldBy lease now ∧ ∀ e ∈ db.envelope, e.recipientsPrepared = false
  deriving Decidable

/-- `PrepareNotificationRecipients`: one receipt for each distinct recipient, once. -/
def prepareNotificationRecipients (db : QueueDb) (lease : Uuid) (installationIDs : List Slice)
    (now : Time) : Option QueueDb :=
  if db.Preparable lease now then
    some
      { envelope := db.envelope.map fun e => { e with recipientsPrepared := true }
        receipts := db.receipts ++
          (installationIDs.dedup.filter fun id => id ∉ db.receipts.map (·.installationID)).map
            ReceiptRow.initial }
  else none

/-- The receipt matches `ClaimNotificationRecipient`. -/
def Claimable (db : QueueDb) (lease : Uuid) (installationID : Slice) (now : Time)
    (r : ReceiptRow) : Prop :=
  r.installationID = installationID ∧ r.status = .pending ∧ Lapsed r.leaseUntil now ∧
    db.HeldBy lease now

instance (db : QueueDb) (lease : Uuid) (installationID : Slice) (now : Time) :
    DecidablePred (db.Claimable lease installationID now) :=
  fun _ => inferInstanceAs (Decidable (_ ∧ _ ∧ _ ∧ _))

/-- `ClaimNotificationRecipient` -/
def claimNotificationRecipient (db : QueueDb) (lease : Uuid) (installationID : Slice)
    (ticket : Uuid) (now : Time) : Option QueueDb :=
  if ∃ r ∈ db.receipts, db.Claimable lease installationID now r then
    some { db with
      receipts := updateWhere (db.Claimable lease installationID now)
        (fun r => { r with leaseID := some ticket, leaseUntil := some (now + 30 * second) })
        db.receipts }
  else none

def getNotificationRecipientStatus (db : QueueDb) (installationID : Slice) : Option ReceiptStatus :=
  (db.receipts.find? fun r => r.installationID = installationID).map (·.status)

/-- The receipt matches `FinishNotificationRecipient`. -/
def Finishable (db : QueueDb) (lease : Uuid) (installationID : Slice) (ticket : Uuid) (now : Time)
    (r : ReceiptRow) : Prop :=
  r.installationID = installationID ∧ r.leaseID = some ticket ∧ r.status = .pending ∧
    Live r.leaseUntil now ∧ db.HeldBy lease now
  deriving Decidable

/-- `FinishNotificationRecipient` -/
def finishNotificationRecipient (db : QueueDb) (lease : Uuid) (installationID : Slice)
    (ticket : Uuid) (status : ReceiptStatus) (failureClass : FailureClass) (now : Time) :
    Option QueueDb :=
  if ∃ r ∈ db.receipts, db.Finishable lease installationID ticket now r then
    some { db with
      receipts := updateWhere (db.Finishable lease installationID ticket now)
        (fun r => { r with status := status, failureClass := failureClass, leaseUntil := none })
        db.receipts }
  else none

end QueueDb

end NotificationServer.Durable
