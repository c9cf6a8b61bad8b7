import NotificationServer.Vault.Artifact

/-!
# Lookup digests, sealed values and lookup epochs

HMAC-SHA-256 under the lookup root and AES-GCM under the keyring are idealised:
a digest is its key together with everything it was computed from, and a sealed
value is its key version, its context and its plaintext.  Equality of digests is
then equality of inputs, and opening a value succeeds exactly under the context
it was sealed for and a key version the keyring holds.
-/

namespace NotificationServer

/-- The domain-separated inputs the vault computes lookup digests of. -/
inductive LookupInput
  | rootBinding
  | installation (environment : Environment) (epoch : Nat) (installationID : Bytes32)
  | incarnation (environment : Environment) (epoch : Nat) (accountIncarnationID : Bytes16)
  | topic (environment : Environment) (epoch : Nat) (topic : Bytes)
  | routeKeyCommitment (environment : Environment) (routeKey : Bytes)
  | installationDeletion (environment : Environment) (installationID : Bytes32)
  | routeHistory (environment : Environment) (installationID : Bytes32) (topic : Bytes)
  deriving DecidableEq

/-- A digest of a `LookupInput` under a lookup root. -/
structure LookupDigest where
  root : Bytes32
  input : LookupInput
  deriving DecidableEq

def lookupRotationSeconds : Nat := 604800

/-- `LookupEpoch`: `uint64(at.Unix())` divided by the period, the conversion wrapping. -/
def lookupEpoch (at_ : Time) : Nat :=
  (at_ / second % 2 ^ 64).toNat / lookupRotationSeconds

/-- `CandidateEpochs`: the current and the immediately previous lookup period. -/
def candidateEpochs (at_ : Time) : List Nat :=
  let current := lookupEpoch at_
  if current = 0 then [0] else [current, current - 1]

inductive InstallationField
  | apnsToken
  deriving DecidableEq

inductive LeaseField
  | topic
  | routeKey
  | nonceState
  | hmacKeys
  | capability
  deriving DecidableEq

/-- `installationContext` and `leaseContext`. -/
inductive SealContext
  | installation (lookup : LookupDigest) (field : InstallationField)
  | lease (leaseID : Bytes16) (field : LeaseField)
  deriving DecidableEq

structure Sealed (α : Type) where
  keyVersion : Nat
  context : SealContext
  plaintext : α
  deriving DecidableEq

/-- The versions a keyring holds a root key for; the active one is among them, a `uint32`, not 0. -/
structure Keyring where
  activeVersion : Nat
  versions : List Nat
  active_mem : activeVersion ∈ versions
  active_pos : 0 < activeVersion
  active_lt : activeVersion < 2 ^ 32

namespace Keyring

variable {α : Type}

def sealValue (k : Keyring) (context : SealContext) (plaintext : α) : Sealed α :=
  { keyVersion := k.activeVersion, context := context, plaintext := plaintext }

/-- `Keyring.Open`. -/
def openValue (k : Keyring) (context : SealContext) (v : Sealed α) : Option α :=
  if v.keyVersion ∈ k.versions ∧ v.context = context then some v.plaintext else none

@[simp] theorem openValue_sealValue (k : Keyring) (context : SealContext) (plaintext : α) :
    k.openValue context (k.sealValue context plaintext) = some plaintext := by
  simp [openValue, sealValue, k.active_mem]

/-- `int32(ActiveVersion())`, the value the INTEGER column receives. -/
def activeVersionColumn (k : Keyring) : Int := (BitVec.ofNat 32 k.activeVersion).toInt

end Keyring

structure NonceState where
  noncePrefix : BitVec 32
  nextSequence : Nat
  deriving DecidableEq

end NotificationServer
