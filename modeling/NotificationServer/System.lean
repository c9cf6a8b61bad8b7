import NotificationServer.A9.Control
import NotificationServer.A9.Current
import NotificationServer.A9.Registration
import NotificationServer.A9.Watermark
import NotificationServer.Gate6.Retention
import NotificationServer.Lib.Transition

/-!
# The vault as a transition system

One step is one committed transaction; a transaction that fails leaves the state
it started from and is no step.  Clock readings are free: hosts and the database
may disagree and clocks may run backwards.  The state carries the latest reading
any step has made, so that "at a later time" can be said.  The delivery queue's
own operations are covered by one step that may do all that they do to the
modelled tables.
-/

namespace NotificationServer

open Relational

/-- What routing, enqueueing, claiming, sending and converting jobs may change. -/
structure WorkerUpdate where
  /-- The queue afterwards. -/
  jobs : List DeliveryJobRow
  /-- Installations an invalid-token conversion blocks, and when. -/
  blockedAt : LookupDigest → Option Time
  /-- Leases whose nonce sequence is exhausted. -/
  exhausted : Bytes16 → Bool
  /-- Nonce states after routing allocated sequences. -/
  nonce : Bytes16 → Option NonceState
  /-- An overdue erasure was observed. -/
  overdue : Bool

def InstallationRow.worked (w : WorkerUpdate) (i : InstallationRow) : InstallationRow :=
  match w.blockedAt i.installationLookup with
  | none => i
  | some t => { i with state := .blocked, revokedAt := some (i.revokedAt.getD t) }

def LeaseRow.worked (k : Keyring) (w : WorkerUpdate) (l : LeaseRow) : LeaseRow :=
  { l with
    state := if (w.blockedAt l.installationLookup).isSome then .blocked
      else if w.exhausted l.leaseID then .blockedRekeyNeeded else l.state
    revokedAt := l.revokedAt.or (w.blockedAt l.installationLookup)
    encryptedNonceState := match w.nonce l.leaseID with
      | none => l.encryptedNonceState
      | some n => k.sealValue (.lease l.leaseID .nonceState) n }

def Db.work (k : Keyring) (w : WorkerUpdate) (db : Db) : Db :=
  { db with
    jobs := w.jobs
    installations := db.installations.map (.worked w)
    leases := db.leases.map (.worked k w)
    retention := if w.overdue = true
      then { db.retention with isSafe := false, outcomeComplete := false } else db.retention }

inductive Op
  | applyControl (clock : Clock) (event : VerifiedControl)
  | applyWatermark (clock : Clock) (watermark : VerifiedWatermark)
  | replace (clock : Clock) (random : Bytes → LeaseDraw) (request : ReplaceRequest)
      (keyset : KeysetReceipt)
  | register (clock : Clock) (installation : Bytes16) (installationID : Bytes32) (token : Bytes)
  | keyset (update : KeysetUpdate)
  | refresh (clock : RefreshClock) (random : Bytes → LeaseDraw) (request : RefreshRequest)
  | advancePolicy (now : Time) (control : PolicyControl)
  | beginSweep (startedAt : Time)
  | finishSweep (clock : SweepClock)
  | erase (now : Time) (lookup : LookupDigest) (failedToken : Bytes)
  | reapply (now : Time)
  | requireRetentionSafe (now : Time)
  | worker (now : Time) (update : WorkerUpdate)

namespace Op

def latest : Op → Time
  | .applyControl c _ | .applyWatermark c _ | .replace c _ _ _ | .register c _ _ _ =>
    max c.host c.db
  | .refresh c _ _ => max c.now c.markedAt
  | .keyset u => u.refreshedAt
  | .advancePolicy t _ | .beginSweep t | .erase t _ _ | .reapply t | .requireRetentionSafe t
  | .worker t _ => t
  | .finishSweep c => max c.startedAt (max c.markedAt c.completedAt)

def OfA9 : Op → Prop
  | .applyControl .. | .applyWatermark .. | .replace .. | .register .. | .keyset .. => True
  | _ => False

end Op

structure Sys where
  vault : Vault
  clock : Time

def Sys.db (s : Sys) : Db := s.vault.db

def Sys.session (s : Sys) : Session := ⟨s.vault, []⟩

/-- A committed transaction and the authority statements it ran, the latest first. -/
structure Event where
  op : Op
  writes : List (Bytes16 × AuthorityWrite)

def Db.empty : Db :=
  { acceptedKeysets := [], onlineKeys := [], commitmentKeys := [], keysetState := none
    receipts := [], authorities := [], watermarks := [], gate6Bindings := [], controlEvents := []
    assertions := [], bindings := [], tombstones := [], routes := [], keyBinding := none
    installations := [], routeKeyHistory := [], leases := [], deletionTombstones := [], jobs := []
    retention :=
      { lastStartedAt := none, lastCompletedAt := none, nextDeadlineAt := none, isSafe := false
        outcomeComplete := false } }

namespace Store

variable (S : Store)

def body : Op → VaultTx Unit
  | .applyControl c e => do let _ ← S.applyControl c e
  | .applyWatermark c w => do let _ ← S.applyWatermark c w
  | .replace c random r k => do let _ ← S.replace c random r k
  | .register c i id token => S.registerVerified c i id token
  | .keyset u => updateKeysetTx u
  | .refresh c random r => do let _ ← S.refresh c random r
  | .advancePolicy t control => S.advancePolicy t control
  | .beginSweep t => markRetentionUnsafe t
  | .finishSweep c => do let _ ← S.sweepTx c
  | .erase t lookup token => do let _ ← S.eraseInvalidAPNSToken t lookup token
  | .reapply t => S.reapplyDeletionTombstones t
  | .requireRetentionSafe t => S.requireRetentionSafeTx t
  | .worker _ w => exec (Db.work S.encryption w)

/-- The transition system of a store, from an empty database. -/
def system : Machine Sys Event where
  init s := s.db = Db.empty ∧ zeroTime < s.clock
  step s e s' :=
    (e.op.OfA9 → S.a9Enabled = true) ∧
    (∃ t, S.body e.op s.session = .ok ((), t) ∧ t.vault = s'.vault ∧ t.writes = e.writes) ∧
    s'.clock = max s.clock e.op.latest

end Store

end NotificationServer
