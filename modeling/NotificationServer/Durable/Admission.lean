import NotificationServer.Durable.Worker
import NotificationServer.Lib.Transition

/-!
# Admission to the durable queue

The whole table of envelopes, with every listener and message key.  `Enqueue` is one transaction at
READ COMMITTED: it takes the admission lock, looks the key up, reads the pending capacity, inserts
and commits, and between its statements any other statement of the queue may commit.  A call that
waits for the lock has read nothing, so a call is here from the lock on; its rows become visible
with its commit, and the lock is released after that.  All other queue calls are one statement
each.
-/

namespace NotificationServer.Durable

open Relational
open Push (Slice)

def maxEnvelopeBytes : Nat := 2 * 1024 * 1024

def rejectedEnvelopeMetadataBytes : Nat := 512

inductive Listener
  | v3
  | v4
  deriving DecidableEq

/-- The arguments of `Enqueue`; `none` is a listener text other than the two. -/
structure EnqueueRequest where
  listener : Option Listener
  key : Bytes
  payload : Bytes

/-- A frame that passed the first check of `Enqueue`. -/
structure Frame where
  listener : Listener
  key : Bytes
  payload : Bytes
  key_ne : key ≠ []
  key_le : key.length ≤ 128
  payload_ne : payload ≠ []
  deriving DecidableEq

/-- The first check of `Enqueue`; `none` is `ErrInvalidNotificationEnvelope`. -/
def EnqueueRequest.frame (r : EnqueueRequest) : Option Frame :=
  match r.listener with
  | none => none
  | some listener =>
    if h : r.key ≠ [] ∧ r.key.length ≤ 128 ∧ r.payload ≠ [] then
      some ⟨listener, r.key, r.payload, h.1, h.2.1, h.2.2⟩
    else none

def Frame.Oversized (f : Frame) : Prop := maxEnvelopeBytes < f.payload.length
  deriving Decidable

def Frame.chargedBytes (f : Frame) : Nat :=
  if f.Oversized then rejectedEnvelopeMetadataBytes else f.payload.length

/-- A row of `notification_envelopes` and its receipts.  `call` is the number of the `Enqueue` that
inserted it, which the database does not store. -/
structure QueuedEnvelope where
  id : Nat
  listener : Listener
  messageKey : Bytes
  envelope : EnvelopeRow
  receipts : List ReceiptRow
  call : Nat
  deriving DecidableEq

namespace QueuedEnvelope

def key (r : QueuedEnvelope) : Listener × Bytes := (r.listener, r.messageKey)

def db (r : QueuedEnvelope) : QueueDb := ⟨some r.envelope, r.receipts⟩

def put (r : QueuedEnvelope) (db : QueueDb) : Option QueuedEnvelope :=
  db.envelope.map fun e => { r with envelope := e, receipts := db.receipts }

/-- `status = 'pending' OR failure_class = 'oversized'` -/
def Counted (r : QueuedEnvelope) : Prop :=
  r.envelope.status = .pending ∨ r.envelope.failureClass = .oversized
  deriving Decidable

/-- The summand of `NotificationPendingCapacity`. -/
def capacityBytes (r : QueuedEnvelope) : Nat :=
  r.envelope.payload.length +
    if r.envelope.failureClass = .oversized then rejectedEnvelopeMetadataBytes else 0

end QueuedEnvelope

/-- `NotificationPendingCapacity`: `count` and `bytes`. -/
def notificationPendingCapacity (rows : List QueuedEnvelope) : Nat × Nat :=
  ((rows.filter (·.Counted)).length, ((rows.filter (·.Counted)).map (·.capacityBytes)).sum)

/-- The check of `Enqueue` on the capacity it read. -/
def AtCapacity (rows : List QueuedEnvelope) (f : Frame) : Prop :=
  100000 ≤ (notificationPendingCapacity rows).1 ∨
    512 * 1024 * 1024 < (notificationPendingCapacity rows).2 + f.chargedBytes
  deriving Decidable

/-- `EnqueueNotificationEnvelope`, or `RecordRejectedNotificationEnvelope`. -/
def Frame.row (f : Frame) (id call : Nat) (now : Time) : QueuedEnvelope where
  id := id
  listener := f.listener
  messageKey := f.key
  envelope := if f.Oversized then .rejected now else .enqueued f.payload now
  receipts := []
  call := call

/-- Where the transaction that holds the admission lock stands. -/
inductive AdmissionPhase
  | locked
  | absent
  | admitted
  | inserted (row : Option QueuedEnvelope)

inductive EnqueueResult
  | accepted
  | tooLarge
  | atCapacity
  | failed
  deriving DecidableEq

/-- The committed rows, the next value of the id sequence, the transaction that holds the admission
lock, how many `Enqueue` calls have ended after taking it, and what each returned. -/
structure Queue where
  rows : List QueuedEnvelope
  nextID : Nat
  holder : Option (Frame × AdmissionPhase)
  calls : Nat
  results : List (Nat × EnqueueResult)

def Queue.empty : Queue := ⟨[], 1, none, 0, []⟩

def validFailureClass (c : FailureClass) : Prop := c ≠ .expired ∧ c ≠ .oversized
  deriving Decidable

/-- The calls of the queue, with those of `Enqueue` and `Maintain` split into their statements.
`SKIP LOCKED` may pass over any rows, so which row a claim takes is free; in an UPDATE or DELETE
of many rows each row meets its own clock reading. -/
inductive QueueOp
  | lock (request : EnqueueRequest)
  | checkExists
  | checkCapacity
  | insert (now : Time)
  | commit (answered : Bool)
  | abort
  | claim (listener : Listener) (id : Nat) (lease : Uuid) (now : Time)
  | renew (id : Nat) (lease : Uuid) (now : Time)
  | finish (id : Nat) (env : NotificationEnvelope) (outcome : EnvelopeStatus)
      (failureClass : FailureClass) (now : Time)
  | prepareRecipients (id : Nat) (env : NotificationEnvelope) (ids : List Slice) (now : Time)
  | claimRecipient (id : Nat) (lease : Uuid) (installationID : Slice) (ticket : Uuid) (now : Time)
  | finishRecipient (id : Nat) (lease : Uuid) (installationID : Slice) (ticket : Uuid)
      (status : ReceiptStatus) (failureClass : FailureClass) (now : Time)
  | expire (now : Nat → Time)
  | purge (now : Nat → Time)

namespace Queue

variable (q : Queue)

def release (result : EnqueueResult) : Queue :=
  { q with holder := none, calls := q.calls + 1, results := (q.calls, result) :: q.results }

/-- A statement on the row of an id; a statement that matches nothing changes nothing. -/
def onRow (id : Nat) (run : QueueDb → Option QueueDb) : Queue :=
  { q with
    rows := q.rows.filterMap fun r =>
      if r.id = id then
        match run r.db with
        | none => some r
        | some db => r.put db
      else some r }

def statement (id : Nat) (now : Time) (statement : Statement) : Queue :=
  q.onRow id fun db => statement.run db now

/-- The statements of `Enqueue`. -/
def admission : QueueOp → Option Queue
  | .lock request =>
    match q.holder, request.frame with
    | none, some f => some { q with holder := some (f, .locked) }
    | _, _ => none
  | .checkExists =>
    match q.holder with
    | some (f, .locked) =>
      let exists_ := q.rows.any fun r => r.key = (f.listener, f.key)
      some { q with holder := some (f, if exists_ then .inserted none else .absent) }
    | _ => none
  | .checkCapacity =>
    match q.holder with
    | some (f, .absent) =>
      some (if AtCapacity q.rows f then q.release .atCapacity
        else { q with holder := some (f, .admitted) })
    | _ => none
  | .insert now =>
    match q.holder with
    | some (f, .admitted) =>
      -- ON CONFLICT DO NOTHING
      let conflict := q.rows.any fun r => r.key = (f.listener, f.key)
      some { q with
        nextID := q.nextID + 1
        holder := some (f, .inserted (if conflict then none
          else some (f.row q.nextID q.calls now))) }
    | _ => none
  | .commit answered =>
    match q.holder with
    | some (f, .inserted row) =>
      some (({ q with rows := row.toList ++ q.rows } : Queue).release
        (if answered then (if f.Oversized then .tooLarge else .accepted) else .failed))
    | _ => none
  | .abort => q.holder.map fun _ => q.release .failed
  | _ => none

def perform : QueueOp → Option Queue
  | .claim listener id lease now =>
    some { q with
      rows := q.rows.filterMap fun r =>
        if r.id = id ∧ r.listener = listener then
          match r.db.claimNotificationEnvelope lease now with
          | none => some r
          | some (_, db) => r.put db
        else some r }
  | .renew id lease now => some (q.statement id now (.renew lease))
  | .finish id env outcome failureClass now =>
    -- `Finish` drops the failure class of a completed envelope before it checks it
    if outcome = .complete ∨ validFailureClass failureClass then
      some (q.statement id now (finish env outcome failureClass))
    else none
  | .prepareRecipients id env ids now =>
    if env.recipientsPrepared = true ∨ maxRecipients < ids.length then none
    else some (q.statement id now (.prepare env.leaseID ids))
  | .claimRecipient id lease installationID ticket now =>
    if installationID.1 = [] then none
    else some (q.statement id now (.claimRecipient lease installationID ticket))
  | .finishRecipient id lease installationID ticket status failureClass now =>
    if validFailureClass failureClass then
      some (q.statement id now (.finishRecipient lease installationID ticket status failureClass))
    else none
  | .expire now =>
    some { q with
      rows := q.rows.filterMap fun r => r.put (r.db.expireNotificationEnvelopes (now r.id)) }
  | .purge now =>
    some { q with
      rows := q.rows.filterMap fun r => r.put (r.db.purgeNotificationReceipts (now r.id)) }
  | op => q.admission op

def system : Machine Queue QueueOp where
  init q := q = .empty
  step q op q' := q.perform op = some q'

end Queue

end NotificationServer.Durable
