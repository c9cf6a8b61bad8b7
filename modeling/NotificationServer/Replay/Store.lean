import NotificationServer.Keyset.Store

/-!
# The replay stores

`A9ReplayStore` and `A10ReplayStore` (`db/a9_store.go`, `db/a10_store.go`) fence
the `jti` of a service token until its retention deadline.  Their transactions
run at READ COMMITTED, so one step here is one statement: clock samples, the
INSERT, COMMIT and the row-by-row DELETE of a purge interleave freely.  The two
stores have one code over two tables and differ in the error they return.
-/

namespace NotificationServer.Replay

open Keyset Trust

inductive ReplayStore
  | a9
  | a10
  deriving DecidableEq

/-- `errA9DatabaseUnavailable` and `a10registration.ErrUnavailable`. -/
inductive ReplayError
  | a9DatabaseUnavailable
  | a10Unavailable
  deriving DecidableEq

def ReplayStore.unavailable : ReplayStore → ReplayError
  | .a9 => .a9DatabaseUnavailable
  | .a10 => .a10Unavailable

/-- The arguments of `Consume` and `ConsumeA10Registration`; `now` is the caller's clock. -/
structure ConsumeRequest where
  environment : String
  jti : String
  retainUntil : Time
  now : Time
  deriving DecidableEq

def validCanonicalA9UUID (value : String) : Prop :=
  let cs := textBytes value
  cs.length = 36 ∧ ∀ i ∈ List.range 36, if i = 8 ∨ i = 13 ∨ i = 18 ∨ i = 23 then cs[i]? = some 45
    else (cs[i]?.bind hexValue).isSome
  deriving Decidable

def ConsumeRequest.Admissible (r : ConsumeRequest) : Prop :=
  (a9EnvironmentID r.environment).isSome ∧ validCanonicalA9UUID r.jti ∧
  r.retainUntil ≠ zeroTime ∧ r.now ≠ zeroTime ∧ r.now ≤ r.retainUntil
  deriving Decidable

abbrev Key := Option Environment × String

def ConsumeRequest.key (r : ConsumeRequest) : Key := (a9EnvironmentID r.environment, r.jti)

/-- A row of `a9_service_jti_receipts` or `a10_registration_replays`. -/
structure ReceiptRow where
  key : Key
  jwtExpiresAt : Time
  deleteAfter : Time
  consumedAt : Time
  deriving DecidableEq

def ReceiptRow.Shape (r : ReceiptRow) : Prop :=
  r.deleteAfter = r.jwtExpiresAt + 5 * second ∧ r.consumedAt ≤ r.deleteAfter
  deriving Decidable

def ConsumeRequest.row (r : ConsumeRequest) (databaseNow : Time) : ReceiptRow :=
  { key := r.key, jwtExpiresAt := r.retainUntil - 5 * second, deleteAfter := r.retainUntil
    consumedAt := databaseNow }

/-- How far a call has come; a phase with a time carries the first clock sample. -/
inductive Phase
  | begun
  | sampled (databaseNow : Time)
  /-- The INSERT affected one row, which is not committed. -/
  | inserted (databaseNow : Time)
  /-- The INSERT met a row and affected none. -/
  | skipped
  /-- The second clock sample was in time. -/
  | confirmed (databaseNow : Time)
  | returned (result : Except ReplayError Bool)

structure Call where
  request : ConsumeRequest
  phase : Phase

def Call.pending (c : Call) : Option ReceiptRow :=
  match c.phase with
  | .inserted t | .confirmed t => some (c.request.row t)
  | _ => none

/-- A run of `PurgeExpired`: the keys whose rows its DELETE has removed so far. -/
inductive Purge
  | running (deleted : List Key)
  | ended
  deriving DecidableEq

def Purge.deleting : Purge → List Key
  | .running deleted => deleted
  | .ended => []

/-- The clock of PostgreSQL, the committed rows and the transactions; a call or a purge is known by
its position. -/
structure ReplayState where
  clock : Time
  receipts : List ReceiptRow
  calls : List Call
  purges : List Purge

/-- A transaction that has not ended wrote the row of a key. -/
def ReplayState.Writing (s : ReplayState) (key : Key) : Prop :=
  (∃ c ∈ s.calls, ∃ r ∈ c.pending.toList, r.key = key) ∨ ∃ p ∈ s.purges, key ∈ p.deleting
  deriving Decidable

def ReplayState.setPhase (s : ReplayState) (i : Nat) (c : Call) (phase : Phase) : ReplayState :=
  { s with calls := s.calls.set i { c with phase := phase } }

inductive ReplayEvent
  | tick (clock : Time)
  | call (request : ConsumeRequest)
  /-- The first `SELECT clock_timestamp()` of a call. -/
  | sampleDatabaseNow (i : Nat)
  | insert (i : Nat)
  /-- The second `SELECT clock_timestamp()` of a call. -/
  | sampleCommitClock (i : Nat)
  /-- COMMIT; the caller may not learn that it succeeded. -/
  | commit (i : Nat) (acknowledged : Bool)
  /-- Any statement of a call fails, and its transaction is rolled back. -/
  | fail (i : Nat)
  | purge
  /-- The DELETE of a purge reaches one row. -/
  | delete (p : Nat) (key : Key)
  | commitPurge (p : Nat)
  | failPurge (p : Nat)

namespace ReplayStore

variable (store : ReplayStore)

/-- `SELECT clock_timestamp()`, then the check that the deadline has not passed. -/
def sample (s : ReplayState) (i : Nat) (c : Call) (next : Phase) : ReplayState :=
  s.setPhase i c
    (if c.request.retainUntil < s.clock then .returned (.error store.unavailable) else next)

/-- `INSERT … ON CONFLICT (environment, jti) DO NOTHING`; `none` is a statement that waits for a
transaction that wrote the same key. -/
def insertReceipt (s : ReplayState) (i : Nat) (c : Call) (databaseNow : Time) :
    Option ReplayState :=
  if s.Writing c.request.key then none
  else if ∃ r ∈ s.receipts, r.key = c.request.key then some (s.setPhase i c .skipped)
  else if (c.request.row databaseNow).Shape then some (s.setPhase i c (.inserted databaseNow))
  else some (s.setPhase i c (.returned (.error store.unavailable)))

def committed (rows : Bool) (acknowledged : Bool) : Phase :=
  .returned (if acknowledged then .ok rows else .error store.unavailable)

def performCall (s : ReplayState) (i : Nat) (c : Call) : ReplayEvent → Option ReplayState
  | .sampleDatabaseNow _ =>
    match c.phase with
    | .begun => some (store.sample s i c (.sampled s.clock))
    | _ => none
  | .insert _ =>
    match c.phase with
    | .sampled databaseNow => store.insertReceipt s i c databaseNow
    | _ => none
  | .sampleCommitClock _ =>
    match c.phase with
    | .inserted databaseNow => some (store.sample s i c (.confirmed databaseNow))
    | _ => none
  | .commit _ acknowledged =>
    match c.phase with
    | .skipped => some (s.setPhase i c (store.committed false acknowledged))
    | .confirmed databaseNow =>
      some
        { s.setPhase i c (store.committed true acknowledged) with
          receipts := c.request.row databaseNow :: s.receipts }
    | _ => none
  | .fail _ =>
    match c.phase with
    | .returned _ => none
    | _ => some (s.setPhase i c (.returned (.error store.unavailable)))
  | _ => none

/-- A statement of a running purge: `DELETE … WHERE delete_after < clock_timestamp()`, which the
trigger on the table checks again for each row. -/
def performPurge (s : ReplayState) (p : Nat) (deleted : List Key) : ReplayEvent → Option ReplayState
  | .delete _ key =>
    if ¬ s.Writing key ∧ ∃ r ∈ s.receipts, r.key = key ∧ r.deleteAfter < s.clock then
      some { s with purges := s.purges.set p (.running (key :: deleted)) }
    else none
  | .commitPurge _ =>
    some
      { s with
        receipts := s.receipts.filter fun r => r.key ∉ deleted, purges := s.purges.set p .ended }
  | .failPurge _ => some { s with purges := s.purges.set p .ended }
  | _ => none

def perform (e : ReplayEvent) (s : ReplayState) : Option ReplayState :=
  match e with
  | .tick clock => if s.clock ≤ clock then some { s with clock := clock } else none
  | .call request =>
    some
      { s with
        calls := s.calls ++ [⟨request, if request.Admissible then .begun
          else .returned (.error store.unavailable)⟩] }
  | .sampleDatabaseNow i | .insert i | .sampleCommitClock i | .commit i _ | .fail i =>
    s.calls[i]?.bind fun c => store.performCall s i c e
  | .purge => some { s with purges := s.purges ++ [.running []] }
  | .delete p _ | .commitPurge p | .failPurge p =>
    s.purges[p]?.bind fun q =>
      match q with
      | .running deleted => performPurge s p deleted e
      | .ended => none

/-- A replay store under any number of replicas, from an empty table and at any time. -/
def replays : Machine ReplayState ReplayEvent where
  init s := s.receipts = [] ∧ s.calls = [] ∧ s.purges = []
  step s e s' := store.perform e s = some s'

end ReplayStore

end NotificationServer.Replay
