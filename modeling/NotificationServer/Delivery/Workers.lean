import NotificationServer.Delivery.Queue
import NotificationServer.Lib.Transition

/-!
# Delivery workers

`runReliableWorker` and `processClaimedJob` (`apns_reliable.go`) for any number
of workers on one queue.  A task is one claim in the memory of a worker with how
far the worker has come; a step is one committed transaction, or the end of an
attempt that holds locks.  A transaction that would wait for a lock is no step,
and what other transactions do to the vault between two steps is one of their
own.  Host clocks are read freely at every step.
-/

namespace NotificationServer

open Relational DeliveryStore

inductive TaskPhase
  | holding
  /-- The attempt was refused at these readings; `FinalizeDeliveryJob` is next. -/
  | refused (clock : AttemptClock)
  /-- The attempt returned an error; `ReleaseDeliveryJob` is next. -/
  | failed
  /-- The attempt was granted, and its transaction is open. -/
  | attempting (held : DeliveryAttemptGuard)
  /-- APNS rejected the token, and the attempt could not be completed. -/
  | invalidToken
  | ended
  deriving DecidableEq

structure Task where
  claim : ClaimedDeliveryJob
  /-- `available_at` of the row when it was claimed. -/
  deadline : Time
  /-- A recovery has run at or past the deadline. -/
  lapsed : Bool
  phase : TaskPhase

def Task.held (t : Task) : Option DeliveryAttemptGuard :=
  match t.phase with
  | .attempting g => some g
  | _ => none

/-- The vault, the answers of the trust manager and every claim made so far, the latest last;
`used` are the job ids the queue ever had. -/
structure QueueState where
  vault : Vault
  trust : TopicTrust
  tasks : List Task
  used : List Bytes16

namespace QueueState

def db (s : QueueState) : Db := s.vault.db

def session (s : QueueState) : Session := ⟨s.vault, []⟩

def Locked (s : QueueState) (jobID : Bytes16) : Prop :=
  ∃ t ∈ s.tasks, ∃ g ∈ t.held, g.jobID = jobID
  deriving Decidable

/-- An open attempt other than that of task `i` shares the rows of the installation. -/
def Shared (s : QueueState) (i : Nat) (lookup : LookupDigest) : Prop :=
  ∃ t ∈ s.tasks.eraseIdx i, ∃ g ∈ t.held, g.installationLookup = lookup
  deriving Decidable

def setPhase (s : QueueState) (i : Nat) (t : Task) (phase : TaskPhase) : QueueState :=
  { s with tasks := s.tasks.set i { t with phase := phase } }

def commit {α : Type} (s : QueueState) (x : VaultTx α) (next : α → QueueState → QueueState) :
    Option QueueState :=
  match x s.session with
  | .ok (a, t) => some (next a { s with vault := t.vault })
  | .error _ => none

end QueueState

/-- The rows a guard has locked besides those of the A9 route. -/
def Db.lockedRows (db : Db) (g : DeliveryAttemptGuard) :
    List DeliveryJobRow × List LeaseRow × List InstallationRow × RetentionStateRow :=
  (db.jobs.filter fun j => j.jobID = g.jobID, db.leases.filter fun l => l.leaseID = g.leaseID,
    db.installations.filter fun i => i.installationLookup = g.installationLookup, db.retention)

def Db.lockedRoute (db : Db) (g : DeliveryAttemptGuard) (s : A9RouteSnapshot) :
    Option KeysetStateRow × List AuthorityRow × List BindingRow × List RouteRow :=
  (db.keysetState, db.authorities.filter fun a => a.installationBindingID = s.installationBindingID,
    db.bindings.filter fun b => b.installationBindingID = s.installationBindingID ∧
      b.bindingID = s.bindingID,
    db.routes.filter fun r => r.leaseID = g.leaseID)

def Db.SameLocked (db db' : Db) (g : DeliveryAttemptGuard) : Prop :=
  db'.lockedRows g = db.lockedRows g ∧ ∀ s ∈ g.job.a9, db'.lockedRoute g s = db.lockedRoute g s
  deriving Decidable

/-- What the other transactions of the vault do to the queue: they keep jobs, delete them, turn
them into markers or move erasure jobs, and enqueue jobs under ids never used before.  They leave
locked rows alone. -/
def QueueState.Rely (s : QueueState) (db : Db) : Prop :=
  (∀ j ∈ db.jobs, j ∈ s.db.jobs ∨ (¬ j.state.Live ∧ ∃ r ∈ s.db.jobs, r.jobID = j.jobID) ∨ (j.state =
    .pending ∧ j.attempts = 0 ∧ j.jobID ∉ s.used)) ∧
  ∀ t ∈ s.tasks, ∀ g ∈ t.held, s.db.SameLocked db g
  deriving Decidable

inductive QueueEvent
  /-- Another transaction of the vault, or a change of trust. -/
  | other (vault : Vault) (trust : TopicTrust)
  | recover (now markedAt : Time)
  | claim (now markedAt : Time) (limit : Nat) (claimTTL : Int)
  /-- A marker is deleted. -/
  | completeFinalization (jobID : Bytes16)
  | acquire (i : Nat) (clock : AttemptClock)
  /-- The worker finds its claim expired and finalizes it. -/
  | expire (i : Nat) (now markedAt : Time)
  /-- The worker finalizes a job whose attempt was refused. -/
  | finalize (i : Nat) (markedAt : Time)
  /-- The worker gives up before the attempt or after it failed. -/
  | release (i : Nat) (now : Time)
  | complete (i : Nat) (now : Time) (result : DeliveryAttemptResult)
  | recordAttempt (i : Nat)
  /-- APNS rejected the token and `Complete` failed. -/
  | remember (i : Nat)
  | convert (i : Nat) (now availableAt : Time)
  /-- The worker stops, or its transaction fails. -/
  | abandon (i : Nat)

def QueueEvent.task : QueueEvent → Option Nat
  | .other .. | .recover .. | .claim .. | .completeFinalization .. => none
  | .acquire i _ | .expire i _ _ | .finalize i _ | .release i _ | .complete i _ _
  | .recordAttempt i | .remember i | .convert i _ _ | .abandon i => some i

namespace DeliveryStore

variable (S : DeliveryStore)

def taskOf (now : Time) (claimTTL : Int) (c : ClaimedDeliveryJob) : Task :=
  { claim := c, deadline := min (now + claimTTL) c.expiresAt, lapsed := false, phase := .holding }

/-- `RecoverDeliveryJobs` waits for the rows it wants to change. -/
def RecoveryWaits (s : QueueState) (now : Time) : Prop :=
  (∃ j ∈ s.db.jobs, (Unrecoverable s.db now j ∨ Lapsed now j) ∧ s.Locked j.jobID) ∨
    (s.db.OverdueErasure now ∧ ∃ t ∈ s.tasks, t.held ≠ none)
  deriving Decidable

/-- `AcquireDeliveryAttempt` and what the worker does next. -/
def attempt (s : QueueState) (k : AttemptClock) (c : ClaimedDeliveryJob) : TaskPhase :=
  match S.acquireDeliveryAttempt s.trust k c s.session with
  | .ok (some g, _) => .attempting g
  | .ok (none, _) => .refused k
  | .error _ => .failed

/-- The worker may run `persistAndProcessInvalidToken` for a task. -/
def Converting (s : QueueState) (t : Task) : Prop :=
  t.phase = .invalidToken ∨
    (t.phase = .holding ∧ ∃ u ∈ s.tasks, u.phase = .invalidToken ∧ u.claim.jobID = t.claim.jobID)
  deriving Decidable

/-- A conversion waits for an open attempt on the job or on its installation. -/
def ConversionWaits (s : QueueState) (i : Nat) (jobID : Bytes16) : Prop :=
  s.Locked jobID ∨ ∃ found ∈ s.db.claimedInstallation jobID, s.Shared i found.2.installationLookup
  deriving Decidable

/-- A step of the worker of task `i`. -/
def performTask (s : QueueState) (i : Nat) (t : Task) : QueueEvent → Option QueueState
  | .acquire _ k =>
    if t.phase = .holding ∧ k.host < t.claim.expiresAt ∧ ¬ s.Locked t.claim.jobID then
      some (s.setPhase i t (S.attempt s k t.claim))
    else none
  | .expire _ now markedAt =>
    if t.phase = .holding ∧ t.claim.expiresAt ≤ now ∧ ¬ s.Locked t.claim.jobID then
      s.commit (S.markDeliveryJobFinalTx markedAt t.claim.jobID .ttlExpired)
        fun _ s' => s'.setPhase i t .ended
    else none
  | .finalize _ markedAt =>
    match t.phase with
    | .refused _ =>
      if ¬ s.Locked t.claim.jobID then
        s.commit (S.markDeliveryJobFinalTx markedAt t.claim.jobID .safetyInvalidated)
          fun _ s' => s'.setPhase i t .ended
      else none
    | _ => none
  | .release _ now =>
    if (t.phase = .holding ∨ t.phase = .failed) ∧ ¬ s.Locked t.claim.jobID then
      s.commit (S.releaseDeliveryJobTx now t.claim.jobID) fun _ s' => s'.setPhase i t .ended
    else none
  | .complete _ now result =>
    match t.phase with
    | .attempting g =>
      if result.outcome = .invalidToken → ¬ s.Shared i g.installationLookup then
        s.commit (S.completeTx g now result) fun _ s' => s'.setPhase i t .ended
      else none
    | _ => none
  | .recordAttempt _ =>
    match t.phase with
    | .attempting g => s.commit (recordAttemptTx g) fun _ s' => s'.setPhase i t .ended
    | _ => none
  | .remember _ =>
    match t.phase with
    | .attempting _ => some (s.setPhase i t .invalidToken)
    | _ => none
  | .convert _ now availableAt =>
    if Converting s t ∧ ¬ ConversionWaits s i t.claim.jobID then
      s.commit (S.convertInvalidTokenToErasureTx now t.claim.jobID t.claim.job.deviceToken
        t.claim.job.trafficClass availableAt) fun _ s' => s'.setPhase i t .ended
    else none
  | .abandon _ => if t.phase ≠ .ended then some (s.setPhase i t .ended) else none
  | _ => none

def perform (e : QueueEvent) (s : QueueState) : Option QueueState :=
  match e with
  | .other vault trust =>
    if s.Rely vault.db then
      some
        { s with
          vault := vault, trust := trust, used := s.used ++ vault.db.jobs.map fun j => j.jobID }
    else none
  | .recover now markedAt =>
    if RecoveryWaits s now then none
    else s.commit (S.recoverDeliveryJobsTx now markedAt) fun _ s' =>
      { s' with
        tasks := updateWhere (fun t => t.deadline ≤ now) (fun t => { t with lapsed := true })
          s'.tasks }
  | .claim now markedAt limit claimTTL =>
    s.commit (S.claimDeliveryJobsTx now markedAt limit claimTTL) fun claimed s' =>
      { s' with tasks := s'.tasks ++ claimed.map (taskOf now claimTTL) }
  | .completeFinalization jobID => s.commit (completeDeliveryFinalizationTx jobID) fun _ s' => s'
  | _ => e.task.bind fun i => s.tasks[i]?.bind fun t => S.performTask s i t e

/-- Any number of workers on one queue, which is empty at first. -/
def workers : Machine QueueState QueueEvent where
  init s := s.db.jobs = [] ∧ s.tasks = [] ∧ s.used = []
  step s e s' := S.perform e s = some s'

end DeliveryStore

end NotificationServer
