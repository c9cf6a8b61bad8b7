import NotificationServer.Durable.Envelope

/-!
# Attempts on a durable envelope

Any number of workers run `processDurableEnvelopeWithHeartbeat` on claims of one
envelope.  A queue call either runs its statement and returns, or its caller
gives up on it and the statement stays in flight, to run at any later time or
never.  The worker's own steps (lookups, the push policy, provider calls) are
between the statements.
-/

namespace NotificationServer.Durable

open Push (Slice SendRequest Primitives)

variable {T D : Type}

/-- `NotificationEnvelope`, as far as an attempt reads it. -/
structure NotificationEnvelope where
  payload : Bytes
  attempts : Nat
  leaseID : Uuid
  recipientsPrepared : Bool
  deriving DecidableEq

/-- How `process` ended. -/
inductive ProcessResult
  | succeeded
  | invalidEnvelope
  | recipientLimit
  | failed
  | panicked
  deriving DecidableEq

/-- What a provider made of a message: no service matched, or `Send`'s result. -/
inductive SendResult
  | unmatched
  | accepted
  | tokenCleanup
  | permanentFailure
  | transientFailure
  deriving DecidableEq

structure Outcome where
  status : ReceiptStatus
  failureClass : FailureClass
  deriving DecidableEq

/-- Where an attempt stands: `dispatching` is the loop over the send requests, `missed` the status
query of `ClaimRecipient`, `claimed` and `finishing` are inside `dispatchContext`. -/
inductive Phase (T : Type)
  | processing
  | preparing
  | dispatching (remaining : List (SendRequest T))
  | missed (req : SendRequest T) (remaining : List (SendRequest T))
  | claimed (req : SendRequest T) (remaining : List (SendRequest T)) (ticket : Uuid)
  | finishing (req : SendRequest T) (remaining : List (SendRequest T)) (ticket : Uuid)
      (outcome : Outcome)
  | returned (result : ProcessResult)
  | closed (result : ProcessResult)

/-- One attempt: what it captured, its send requests once they are built, whether a dispatch has
failed, and whether its heartbeat still thinks it holds the lease. -/
structure Attempt (T : Type) where
  env : NotificationEnvelope
  requests : List (SendRequest T)
  failed : Bool
  leaseHealthy : Bool
  phase : Phase T

inductive Statement
  | renew (lease : Uuid)
  | finish (lease : Uuid) (status : EnvelopeStatus) (delaySeconds : Nat)
      (failureClass : FailureClass)
  | prepare (lease : Uuid) (installationIDs : List Slice)
  | claimRecipient (lease : Uuid) (installationID : Slice) (ticket : Uuid)
  | finishRecipient (lease : Uuid) (installationID : Slice) (ticket : Uuid)
      (status : ReceiptStatus) (failureClass : FailureClass)
  deriving DecidableEq

/-- The database after a statement; `none` if no row matched. -/
def Statement.run (db : QueueDb) (now : Time) : Statement → Option QueueDb
  | .renew lease => db.renewNotificationLease lease now
  | .finish lease status delaySeconds failureClass =>
    db.finishNotificationEnvelope lease status delaySeconds failureClass now
  | .prepare lease installationIDs => db.prepareNotificationRecipients lease installationIDs now
  | .claimRecipient lease installationID ticket =>
    db.claimNotificationRecipient lease installationID ticket now
  | .finishRecipient lease installationID ticket status failureClass =>
    db.finishNotificationRecipient lease installationID ticket status failureClass now

/-- A claim of a recipient, with the status its receipt had before. -/
structure RecipientClaim where
  lease : Uuid
  installationID : Slice
  ticket : Uuid
  status : Option ReceiptStatus
  deriving DecidableEq

structure ProviderCall where
  lease : Uuid
  installationID : Slice
  ticket : Uuid
  deriving DecidableEq

/-- The database, the attempts by lease, the statements in flight, and a record of what happened:
the recipients of the `PrepareRecipients` that took effect, the leases the envelope was claimed
under, the claims of recipients, the provider calls, and the attempt that completed the
envelope. -/
structure QueueState (T : Type) where
  db : QueueDb
  attempts : Uuid → Option (Attempt T)
  inFlight : List Statement
  snapshot : Option (List Slice)
  envelopeClaims : List Uuid
  recipientClaims : List RecipientClaim
  providerCalls : List ProviderCall
  completedBy : Option Uuid

namespace QueueState

variable (s : QueueState T)

def record (db : QueueDb) : Statement → QueueState T
  | .renew _ => { s with db := db }
  | .finish lease status _ _ =>
    { s with
      db := db
      completedBy := if status = .complete then some lease else s.completedBy }
  | .prepare _ installationIDs => { s with db := db, snapshot := some installationIDs }
  | .claimRecipient lease installationID ticket =>
    { s with
      db := db
      recipientClaims :=
        ⟨lease, installationID, ticket, s.db.getNotificationRecipientStatus installationID⟩ ::
          s.recipientClaims }
  | .finishRecipient .. => { s with db := db }

/-- Runs a statement: whether a row matched, and the new state. -/
def execute (statement : Statement) (now : Time) : Bool × QueueState T :=
  match statement.run s.db now with
  | none => (false, s)
  | some db => (true, s.record db statement)

def post (statement : Statement) : QueueState T := { s with inFlight := statement :: s.inFlight }

def setAttempt (lease : Uuid) (a : Attempt T) : QueueState T :=
  { s with attempts := Function.update s.attempts lease (some a) }

def goto (a : Attempt T) (phase : Phase T) : QueueState T :=
  s.setAttempt a.env.leaseID { a with phase := phase }

/-- A dispatch returned an error: the loop goes on with the next request. -/
def failNext (a : Attempt T) (remaining : List (SendRequest T)) : QueueState T :=
  s.setAttempt a.env.leaseID { a with failed := true, phase := .dispatching remaining }

end QueueState

/-- `retryDelay`, in seconds. -/
def retryDelay (attempt : Nat) : Nat :=
  min (5 * 2 ^ (min (max attempt 1) maxAttempts - 1)) 3600

/-- The statement of `Finish`. -/
def finish (env : NotificationEnvelope) (outcome : EnvelopeStatus) (failureClass : FailureClass) :
    Statement :=
  match outcome with
  | .complete => .finish env.leaseID .complete (retryDelay env.attempts) .none
  | .dead => .finish env.leaseID .dead (retryDelay env.attempts) failureClass
  | .pending =>
    .finish env.leaseID (if maxAttempts ≤ env.attempts then .dead else .pending)
      (retryDelay env.attempts) failureClass

/-- What the worker asks `Finish` for after `process`. -/
def closing (env : NotificationEnvelope) : ProcessResult → Statement
  | .succeeded => finish env .complete .none
  | .invalidEnvelope => finish env .dead .invalidEnvelope
  | .recipientLimit => finish env .dead .recipientLimit
  | .failed => finish env .pending .processing
  | .panicked => finish env .dead .processingPanic

def SendResult.outcome : SendResult → Outcome
  | .unmatched => ⟨.rejected, .noProvider⟩
  | .accepted => ⟨.accepted, .none⟩
  | .tokenCleanup => ⟨.pending, .tokenCleanup⟩
  | .permanentFailure => ⟨.rejected, .providerPermanent⟩
  | .transientFailure => ⟨.pending, .providerTransient⟩

/-- What `process` makes of the payload before it prepares recipients: a frame that does not
decode, a failed query, nothing to send (an envelope that is ignored, or one without subscribers),
or send requests. -/
inductive Lookup (T : Type)
  | invalidEnvelope
  | failed
  | nothing
  | requests (requests : List (SendRequest T))

inductive QueueEvent (T : Type)
  /-- The envelope is claimed; the claim reaches a worker or is lost. -/
  | claim (lease : Uuid) (now : Time) (answered : Bool)
  /-- A renewal; if the lease is lost the heartbeat notices, unless `process` has ended. -/
  | renew (lease : Uuid) (now : Time) (noticed : Bool)
  | renewFails (lease : Uuid) (noticed : Bool)
  | lookup (lease : Uuid) (found : Lookup T)
  | prepareRecipients (lease : Uuid) (now : Time)
  | claimRecipient (lease : Uuid) (ticket : Uuid) (now : Time)
  | recipientStatus (lease : Uuid)
  | send (lease : Uuid) (result : SendResult)
  | finishRecipient (lease : Uuid) (now : Time)
  | processReturns (lease : Uuid)
  | processPanics (lease : Uuid)
  | finish (lease : Uuid) (now : Time)
  /-- The worker stops without `Finish`. -/
  | abandon (lease : Uuid)
  /-- The queue call an attempt is in fails; its statement, if one was sent, stays in flight. -/
  | giveUp (lease : Uuid) (ticket : Uuid)
  | late (statement : Statement) (now : Time)
  | expire (now : Time)
  | purge (now : Time)

section Steps

variable (P : Primitives T D) (s : QueueState T)

/-- `prepareRecipients`: the installations of the eligible requests. -/
def recipients (requests : List (SendRequest T)) : List Slice :=
  (requests.filter fun req => req.eligible P).map fun req => req.installation.id

/-- `PrepareRecipients`, when the call returns. -/
def prepareRecipients (a : Attempt T) (now : Time) : QueueState T :=
  if a.env.recipientsPrepared then s.goto a (.dispatching a.requests)
  else if maxRecipients < (recipients P a.requests).length then s.goto a (.returned .recipientLimit)
  else
    -- The statement reports no row count: a lost lease goes unnoticed here.
    (s.execute (.prepare a.env.leaseID (recipients P a.requests)) now).2.goto a
      (.dispatching a.requests)

/-- The claim statement of `ClaimRecipient`. -/
def claimRecipient (a : Attempt T) (req : SendRequest T) (remaining : List (SendRequest T))
    (ticket : Uuid) (now : Time) : QueueState T :=
  if req.installation.id.val = [] then s.failNext a remaining
  else
    match s.execute (.claimRecipient a.env.leaseID req.installation.id ticket) now with
    | (true, s') => s'.goto a (.claimed req remaining ticket)
    | (false, s') => s'.goto a (.missed req remaining)

/-- The status query of `ClaimRecipient`, after no row was claimed. -/
def recipientStatus (a : Attempt T) (req : SendRequest T) (remaining : List (SendRequest T)) :
    QueueState T :=
  match s.db.getNotificationRecipientStatus req.installation.id with
  | none => s.goto a (.dispatching remaining)
  | some .accepted => s.goto a (.dispatching remaining)
  | some .rejected => s.goto a (.dispatching remaining)
  | some .pending => s.failNext a remaining

def send (a : Attempt T) (req : SendRequest T) (remaining : List (SendRequest T)) (ticket : Uuid)
    (result : SendResult) : QueueState T :=
  if !req.eligible P then s.goto a (.finishing req remaining ticket ⟨.rejected, .suppressed⟩)
  else if result = .unmatched then s.goto a (.finishing req remaining ticket result.outcome)
  else
    { s.goto a (.finishing req remaining ticket result.outcome) with
      providerCalls := ⟨a.env.leaseID, req.installation.id, ticket⟩ :: s.providerCalls }

/-- `finishRecipient`: an outcome that is not recorded, or that is to be retried, is an error. -/
def finishRecipient (a : Attempt T) (req : SendRequest T) (remaining : List (SendRequest T))
    (ticket : Uuid) (outcome : Outcome) (now : Time) : QueueState T :=
  match s.execute
      (.finishRecipient a.env.leaseID req.installation.id ticket outcome.status
        outcome.failureClass) now with
  | (false, s') => s'.failNext a remaining
  | (true, s') =>
    if outcome.status = .pending then s'.failNext a remaining
    else s'.goto a (.dispatching remaining)

/-- The queue call an attempt is in fails; the statement it sent stays in flight. -/
def giveUp (a : Attempt T) (ticket : Uuid) : Option (QueueState T) :=
  match a.phase with
  | .preparing =>
    if a.env.recipientsPrepared ∨ maxRecipients < (recipients P a.requests).length then none
    else
      some ((s.goto a (.returned .failed)).post (.prepare a.env.leaseID (recipients P a.requests)))
  | .dispatching (req :: remaining) =>
    if req.installation.id.val = [] then none
    else
      some ((s.post (.claimRecipient a.env.leaseID req.installation.id ticket)).failNext a
        remaining)
  | .missed _ remaining => some (s.failNext a remaining)
  | .finishing req remaining ticket outcome =>
    some ((s.post (.finishRecipient a.env.leaseID req.installation.id ticket outcome.status
      outcome.failureClass)).failNext a remaining)
  | .returned result =>
    if a.leaseHealthy then some ((s.post (closing a.env result)).goto a (.closed result)) else none
  | _ => none

def claim (lease : Uuid) (now : Time) (answered : Bool) : Option (QueueState T) :=
  -- A fresh UUID is not one drawn before.
  if lease ∈ s.envelopeClaims then none
  else
    match s.db.claimNotificationEnvelope lease now with
    | none => none
    | some (row, db) =>
      let claimed := { s with db := db, envelopeClaims := lease :: s.envelopeClaims }
      if answered then
        some (claimed.setAttempt lease
          { env := ⟨row.payload, row.attempts, lease, row.recipientsPrepared⟩
            requests := []
            failed := false
            leaseHealthy := true
            phase := .processing })
      else some claimed

/-- `process` up to `prepareRecipients`. -/
def lookup (a : Attempt T) : Lookup T → QueueState T
  | .invalidEnvelope => s.goto a (.returned .invalidEnvelope)
  | .failed => s.goto a (.returned .failed)
  | .nothing =>
    s.setAttempt a.env.leaseID { a with requests := [], phase := .returned .succeeded }
  | .requests requests =>
    s.setAttempt a.env.leaseID { a with requests := requests, phase := .preparing }

def loseLease (a : Attempt T) (noticed : Bool) : QueueState T :=
  if noticed then s.setAttempt a.env.leaseID { a with leaseHealthy := false } else s

def renew (a : Attempt T) (now : Time) (noticed : Bool) : QueueState T :=
  match s.execute (.renew a.env.leaseID) now with
  | (true, s') => s'
  | (false, s') => loseLease s' a noticed

def performAttempt (a : Attempt T) : QueueEvent T → Option (QueueState T)
  | .renew _ now noticed =>
    match a.phase with
    | .closed _ => none
    | _ => some (renew s a now noticed)
  | .renewFails _ noticed =>
    match a.phase with
    | .closed _ => none
    | _ => some (loseLease (s.post (.renew a.env.leaseID)) a noticed)
  | .lookup _ found =>
    match a.phase with
    | .processing => some (lookup s a found)
    | _ => none
  | .prepareRecipients _ now =>
    match a.phase with
    | .preparing => some (prepareRecipients P s a now)
    | _ => none
  | .claimRecipient _ ticket now =>
    match a.phase with
    | .dispatching (req :: remaining) => some (claimRecipient s a req remaining ticket now)
    | _ => none
  | .recipientStatus _ =>
    match a.phase with
    | .missed req remaining => some (recipientStatus s a req remaining)
    | _ => none
  | .send _ result =>
    match a.phase with
    | .claimed req remaining ticket => some (send P s a req remaining ticket result)
    | _ => none
  | .finishRecipient _ now =>
    match a.phase with
    | .finishing req remaining ticket outcome =>
      some (finishRecipient s a req remaining ticket outcome now)
    | _ => none
  | .processReturns _ =>
    match a.phase with
    | .dispatching [] => some (s.goto a (.returned (if a.failed then .failed else .succeeded)))
    | _ => none
  | .processPanics _ =>
    match a.phase with
    | .returned _ => none
    | .closed _ => none
    | _ => some (s.goto a (.returned .panicked))
  | .finish _ now =>
    match a.phase with
    | .returned result =>
      if a.leaseHealthy then
        some ((s.execute (closing a.env result) now).2.goto a (.closed result))
      else none
    | _ => none
  | .abandon _ =>
    match a.phase with
    | .returned result => some (s.goto a (.closed result))
    | _ => none
  | .giveUp _ ticket => giveUp P s a ticket
  | _ => none

def QueueEvent.lease : QueueEvent T → Option Uuid
  | .renew lease _ _ => some lease
  | .renewFails lease _ => some lease
  | .lookup lease _ => some lease
  | .prepareRecipients lease _ => some lease
  | .claimRecipient lease _ _ => some lease
  | .recipientStatus lease => some lease
  | .send lease _ => some lease
  | .finishRecipient lease _ => some lease
  | .processReturns lease => some lease
  | .processPanics lease => some lease
  | .finish lease _ => some lease
  | .abandon lease => some lease
  | .giveUp lease _ => some lease
  | _ => none

def perform : QueueEvent T → Option (QueueState T)
  | .claim lease now answered => claim s lease now answered
  | .late statement now =>
    if statement ∈ s.inFlight then
      some { (s.execute statement now).2 with inFlight := s.inFlight.erase statement }
    else none
  | .expire now => some { s with db := s.db.expireNotificationEnvelopes now }
  | .purge now => some { s with db := s.db.purgeNotificationReceipts now }
  | event =>
    match event.lease with
    | none => none
    | some lease =>
      match s.attempts lease with
      | none => none
      | some a => performAttempt P s a event

def system : Machine (QueueState T) (QueueEvent T) where
  init s :=
    (∃ payload now, s.db.envelope = some (.enqueued payload now) ∨
      s.db.envelope = some (.rejected now)) ∧ s.db.receipts = [] ∧
    (∀ lease, s.attempts lease = none) ∧ s.inFlight = [] ∧ s.snapshot = none ∧
    s.envelopeClaims = [] ∧ s.recipientClaims = [] ∧ s.providerCalls = [] ∧ s.completedBy = none
  step s event s' := perform P s event = some s'

end Steps

end NotificationServer.Durable
