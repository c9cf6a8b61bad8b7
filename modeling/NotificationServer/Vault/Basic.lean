import Mathlib.Algebra.GroupWithZero.Nat
import Mathlib.Algebra.Ring.Int.Defs
import Mathlib.Tactic.Common

/-!
# Identifiers, time, enumerations and errors

The fixed-width identifiers of the Go source are bit vectors, whose unsigned
order is the order `bytes.Compare` gives on arrays of one length.  Times are
microseconds since the Unix epoch, the resolution of PostgreSQL's TIMESTAMPTZ.
Durable enumerations are inductive types; their numeric encodings are those of
the migrations and occur nowhere else.
-/

namespace NotificationServer

/-- `[16]byte`, and the UUIDs whose canonical text spells 16 bytes. -/
abbrev Bytes16 := BitVec 128

/-- `[32]byte`. -/
abbrev Bytes32 := BitVec 256

/-- `[]byte`. -/
abbrev Bytes := List UInt8

/-- A point in time, in microseconds since 1970-01-01T00:00:00Z.  The database keeps microseconds;
readings of the host's clock, which the code takes in nanoseconds, are whole microseconds here. -/
abbrev Time := Int

def second : Int := 1000000
def minute : Int := 60 * second
def hour : Int := 60 * minute
def day : Int := 24 * hour

/-- Go's zero `time.Time`, 0001-01-01T00:00:00Z. -/
def zeroTime : Time := -62135596800 * second

/-- `a9MaxSafeInteger`, `maxIJSONInteger` and `maxInstallationTombstoneFenceEpoch`. -/
def maxSafeInteger : Nat := 9007199254740991

/-- `maxRouteKeyEpoch` and the bound on topic key epochs. -/
def maxUint32 : Nat := 4294967295

inductive Environment
  | dev
  | production
  deriving DecidableEq

/-- The sentinel errors of the vault; `database` is any statement PostgreSQL rejects. -/
inductive VaultError
  | storeUnavailable
  | refreshInvalid
  | refreshConflict
  | lookupUnavailable
  | retentionUnavailable
  | retentionUnsafe
  | deliveryJobInvalid
  | deliveryQueueUnavailable
  | database
  deriving DecidableEq

inductive ControlAction
  | upsert
  | revoke
  deriving DecidableEq

inductive ControlReason
  | none
  | authorityRevoked
  | authorityExpired
  | authorityReplaced
  deriving DecidableEq

inductive WatermarkStatus
  | current
  | uncertain
  deriving DecidableEq

inductive WatermarkUncertaintyReason
  | none
  | sourceUnavailable
  | outboxGap
  | replicaAmbiguity
  | overflow
  | clock
  deriving DecidableEq

inductive ResultState
  | active
  | revoked
  | uncertain
  deriving DecidableEq

inductive ResultOutcome
  | applied
  | replay
  | stale
  | gap
  | conflict
  | inconclusive
  deriving DecidableEq

/-- `a9OperationControl` and `a9OperationReplace`. -/
inductive Operation
  | control
  | replace
  deriving DecidableEq

/-- `state` of `a9_installation_authority`; the code never stores a third value. -/
inductive AuthorityState
  | active
  | uncertain
  deriving DecidableEq

/-- `uncertainty_reason` of `a9_installation_authority`; `none` is the stored 0. -/
inductive UncertaintyReason
  | none
  | controlGap
  | idempotency
  | controlRegression
  | epoch
  | watermarkGap
  | watermarkRollback
  | artifactExpired
  | signedWatermark
  | bindingConflict
  | authorityReference
  deriving DecidableEq

end NotificationServer
