import Mathlib.Data.List.MinMax
import NotificationServer.A3.Consistency
import NotificationServer.Keyset.Store
import NotificationServer.Lib.Transition

/-!
# The directory witness

`AcceptDirectoryTreeHead` (`db/a3_witness_store.go`) signs a tree head if it
extends the latest head it has stored.  The transaction takes an advisory lock
and reads at READ COMMITTED, so one step here is one statement: calls of any
number of replicas interleave between them.  SHA-256 and Ed25519 are parameters;
the hexadecimal texts of a head are decoded where the code decodes them.
-/

namespace NotificationServer.A3

open Trust Keyset

structure TreeHead where
  domain : String
  environment : String
  priorRootHash : String
  priorTreeSize : Nat
  protocol : Nat
  rootHash : String
  timestampMS : Nat
  treeSize : Nat
  deriving DecidableEq

/-- `lowerHex32Pattern`. -/
def LowerHex32 (value : String) : Prop :=
  (textBytes value).length = 64 ∧ ∀ c ∈ textBytes value, (hexValue c).isSome
  deriving Decidable

def validTreeHead (head : TreeHead) : Prop :=
  head.domain = "hytch.directory.tree-head/v1" ∧ head.protocol = 1 ∧
  (head.environment = "dev" ∨ head.environment = "production") ∧
  0 < head.treeSize ∧ head.treeSize ≤ maxSafeInteger ∧ head.priorTreeSize < head.treeSize ∧
  head.timestampMS ≤ maxSafeInteger ∧ LowerHex32 head.rootHash ∧ LowerHex32 head.priorRootHash
  deriving Decidable

def TreeHead.body (head : TreeHead) : Json :=
  .object [("domain", .string head.domain), ("environment", .string head.environment),
    ("prior_root_hash", .string head.priorRootHash),
    ("prior_tree_size", .number (toString head.priorTreeSize)),
    ("protocol_version", .number (toString head.protocol)),
    ("root_hash", .string head.rootHash),
    ("timestamp_ms", .number (toString head.timestampMS)),
    ("tree_size", .number (toString head.treeSize))]

/-- `binary.BigEndian.AppendUint32`. -/
def uint32Bytes (n : Nat) : Bytes :=
  [n / 2 ^ 24 % 256, n / 2 ^ 16 % 256, n / 2 ^ 8 % 256, n % 256].map UInt8.ofNat

def canonicalTreeHead (head : TreeHead) : Option Bytes := do
  guard (validTreeHead head)
  let canonical ← canonicalize head.body
  guard (canonical.length ≤ maxUint32)
  some (textBytes "hytch-directory-tree-head-v1\x00" ++ uint32Bytes canonical.length ++ canonical)

def decodeHash (value : String) : Option Bytes32 := decodeA9LowerHex value ""

/-- `WitnessProposal`; `none` is the zero time. -/
structure WitnessProposal where
  head : TreeHead
  canonicalHead : Bytes
  consistencyProof : List Bytes32
  notBefore : Option Time
  notAfter : Option Time
  deriving DecidableEq

structure WitnessAcceptance where
  keyID : String
  signature : Bytes
  replay : Bool
  deriving DecidableEq

/-- `ErrUnavailable` and `ErrFork`. -/
inductive WitnessError
  | unavailable
  | fork
  deriving DecidableEq

/-- A row of `a3_directory_witness_heads`; the proof is a concatenation of 32-byte hashes. -/
structure HeadRow where
  treeSize : Nat
  rootHash : Bytes32
  priorTreeSize : Nat
  priorRootHash : Bytes32
  timestampMS : Nat
  canonicalHead : Bytes
  consistencyProof : List Bytes32
  keyID : String
  signature : Bytes
  deriving DecidableEq

def HeadRow.Checks (r : HeadRow) : Prop :=
  (1 ≤ r.treeSize ∧ r.treeSize ≤ maxSafeInteger) ∧ r.priorTreeSize ≤ maxSafeInteger ∧
  r.timestampMS ≤ maxSafeInteger ∧
  (1 ≤ r.canonicalHead.length ∧ r.canonicalHead.length ≤ 4096) ∧
  r.consistencyProof.length ≤ 64 ∧ (decodeA9LowerHex r.keyID "ed25519-sha256:").isSome ∧
  r.signature.length = 64 ∧ r.priorTreeSize < r.treeSize
  deriving Decidable

/-- The witness key that the replicas of one environment share, and SHA-256. -/
structure Witness where
  environment : String
  keyID : String
  /-- `ed25519.Sign` under the private key. -/
  sign : Bytes → Bytes
  /-- `ed25519.Verify` under the public key. -/
  verify : Bytes → Bytes → Bool
  hash : Merkle.Input Bytes Bytes32 → Bytes32
  verify_sign : ∀ message, verify message (sign message) = true

namespace Witness

variable (W : Witness)

/-- `VerifyWitnessExtension`; `none` if it does not return. -/
def verifyWitnessExtension (head : TreeHead) (proof : List Bytes32) : Option Bool :=
  match decodeHash head.priorRootHash, decodeHash head.rootHash with
  | some oldRoot, some newRoot =>
    if head.priorTreeSize = 0 then some (decide (proof = [] ∧ oldRoot = W.hash .empty))
    else verifyConsistency W.hash head.priorTreeSize head.treeSize oldRoot newRoot proof
  | _, _ => some false

/-- The checks of `AcceptDirectoryTreeHead` before its transaction. -/
def Admissible (p : WitnessProposal) : Prop :=
  p.head.environment = W.environment ∧ (a9EnvironmentID p.head.environment).isSome ∧
  canonicalTreeHead p.head = some p.canonicalHead ∧
  W.verifyWitnessExtension p.head p.consistencyProof = some true
  deriving Decidable

def proposalTimeValidForStore (p : WitnessProposal) (now : Time) : Prop :=
  (∃ t ∈ p.notBefore, t ≤ now) ∧ ∃ t ∈ p.notAfter, now ≤ t
  deriving Decidable

def storedHead (r : HeadRow) : TreeHead :=
  { domain := "hytch.directory.tree-head/v1", environment := W.environment
    priorRootHash := hexEncode r.priorRootHash, priorTreeSize := r.priorTreeSize, protocol := 1
    rootHash := hexEncode r.rootHash, timestampMS := r.timestampMS, treeSize := r.treeSize }

def validStoredA3Witness (r : HeadRow) : Prop :=
  r.keyID = W.keyID ∧ r.canonicalHead ≠ [] ∧ r.consistencyProof.length ≤ 64 ∧
  canonicalTreeHead (W.storedHead r) = some r.canonicalHead ∧
  W.verifyWitnessExtension (W.storedHead r) r.consistencyProof = some true ∧
  W.verify r.canonicalHead r.signature = true
  deriving Decidable

/-- The row of `readLatestA3Witness`. -/
def latest (heads : List HeadRow) : Option HeadRow := heads.argmax fun r => r.treeSize

/-- What `readLatestA3Witness` accepts of a row. -/
def Readable (r : HeadRow) : Prop :=
  1 ≤ r.treeSize ∧ r.priorTreeSize < r.treeSize ∧ r.signature.length = 64 ∧ r.keyID ≠ ""
  deriving Decidable

inductive Branch
  | fails (e : WitnessError)
  | extend
  | replay
  deriving DecidableEq

/-- The branches of `AcceptDirectoryTreeHead` on the latest head. -/
def branch (p : WitnessProposal) (now : Time) : Option HeadRow → Branch
  | none =>
    if ¬ proposalTimeValidForStore p now then .fails .unavailable
    else if p.head.priorTreeSize ≠ 0 ∨ p.consistencyProof ≠ [] ∨
        decodeHash p.head.priorRootHash ≠ some (W.hash .empty) then .fails .fork
    else .extend
  | some current =>
    if ¬ Readable current then .fails .unavailable
    else if current.keyID ≠ W.keyID ∨ ¬ W.validStoredA3Witness current then .fails .unavailable
    else if p.head.treeSize ≤ current.treeSize then .replay
    else if ¬ proposalTimeValidForStore p now then .fails .unavailable
    else if p.head.priorTreeSize ≠ current.treeSize ∨
        p.head.priorRootHash ≠ hexEncode current.rootHash ∨
        p.head.timestampMS < current.timestampMS then .fails .fork
    else .extend

/-- The comparisons with the row of the position that `readA3WitnessAtPosition` returns. -/
def replayed (p : WitnessProposal) : Option HeadRow → Except WitnessError WitnessAcceptance
  | none => .error .fork
  | some stored =>
    if ¬ (1 ≤ stored.treeSize ∧ stored.signature.length = 64) then .error .unavailable
    else if stored.canonicalHead ≠ p.canonicalHead ∨
        stored.consistencyProof ≠ p.consistencyProof then .error .fork
    else if stored.keyID ≠ W.keyID ∨ ¬ W.verify stored.canonicalHead stored.signature = true then
      .error .unavailable
    else .ok ⟨stored.keyID, stored.signature, true⟩

def signedRow (p : WitnessProposal) : Option HeadRow := do
  let rootHash ← decodeHash p.head.rootHash
  let priorRootHash ← decodeHash p.head.priorRootHash
  let signature := W.sign p.canonicalHead
  guard (signature.length = 64)
  some ⟨p.head.treeSize, rootHash, p.head.priorTreeSize, priorRootHash, p.head.timestampMS,
    p.canonicalHead, p.consistencyProof, W.keyID, signature⟩

end Witness

inductive CallPhase
  | idle
  /-- The checks passed; the transaction waits for the advisory lock. -/
  | waiting (p : WitnessProposal)
  | locked (p : WitnessProposal)
  /-- The head at or below the latest one is to be read. -/
  | replaying (p : WitnessProposal)
  /-- The stored acceptance is to be returned once the transaction ends. -/
  | replayed (p : WitnessProposal) (accepted : WitnessAcceptance)
  | extending (p : WitnessProposal)
  /-- The INSERT is done and not committed. -/
  | inserted (p : WitnessProposal) (row : HeadRow)

/-- The committed heads of one environment, the holder of its lock, the calls of all replicas, and
what calls have returned. -/
structure WitnessState where
  heads : List HeadRow
  lock : Option Nat
  calls : Nat → CallPhase
  results : List (WitnessProposal × Except WitnessError WitnessAcceptance)

inductive WitnessEvent
  | call (id : Nat) (p : WitnessProposal)
  | acquire (id : Nat)
  | readLatest (id : Nat) (now : Time)
  | readPosition (id : Nat)
  | insert (id : Nat) (now : Time)
  | commitReplay (id : Nat)
  /-- The commit takes effect; the call may still see an error. -/
  | commitInsert (id : Nat) (answered : Bool)
  /-- A call fails between two statements, its transaction is rolled back. -/
  | abort (id : Nat)

namespace WitnessState

variable (s : WitnessState)

def set (id : Nat) (phase : CallPhase) : WitnessState :=
  { s with calls := fun i => if i = id then phase else s.calls i }

/-- The transaction ends, which releases the lock if it had it. -/
def finish (id : Nat) (p : WitnessProposal) (result : Except WitnessError WitnessAcceptance) :
    WitnessState :=
  { s.set id .idle with
    lock := if s.lock = some id then none else s.lock, results := (p, result) :: s.results }

end WitnessState

namespace Witness

variable (W : Witness)

def perform (s : WitnessState) : WitnessEvent → Option WitnessState
  | .call id p =>
    match s.calls id with
    | .idle =>
      if W.Admissible p then some (s.set id (.waiting p))
      else some (s.finish id p (.error .unavailable))
    | _ => none
  | .acquire id =>
    match s.calls id, s.lock with
    | .waiting p, none => some { s.set id (.locked p) with lock := some id }
    | _, _ => none
  | .readLatest id now =>
    match s.calls id with
    | .locked p =>
      match W.branch p now (latest s.heads) with
      | .fails e => some (s.finish id p (.error e))
      | .replay => some (s.set id (.replaying p))
      | .extend => some (s.set id (.extending p))
    | _ => none
  | .readPosition id =>
    match s.calls id with
    | .replaying p =>
      match W.replayed p (s.heads.find? fun r => r.treeSize = p.head.treeSize) with
      | .error e => some (s.finish id p (.error e))
      | .ok accepted => some (s.set id (.replayed p accepted))
    | _ => none
  | .insert id now =>
    match s.calls id with
    | .extending p =>
      if ¬ proposalTimeValidForStore p now then some (s.finish id p (.error .unavailable))
      else match W.signedRow p with
        | none => some (s.finish id p (.error .unavailable))
        | some row =>
          if row.Checks ∧ ∀ r ∈ s.heads, r.treeSize ≠ row.treeSize then
            some (s.set id (.inserted p row))
          else some (s.finish id p (.error .unavailable))
    | _ => none
  | .commitReplay id =>
    match s.calls id with
    | .replayed p accepted => some (s.finish id p (.ok accepted))
    | _ => none
  | .commitInsert id answered =>
    match s.calls id with
    | .inserted p row =>
      some ({ s with heads := row :: s.heads }.finish id p
        (if answered = true then .ok ⟨row.keyID, row.signature, false⟩ else .error .unavailable))
    | _ => none
  | .abort id =>
    match s.calls id with
    | .idle => none
    | .waiting p | .locked p | .replaying p | .replayed p _ | .extending p | .inserted p _ =>
      some (s.finish id p (.error .unavailable))

def system : Machine WitnessState WitnessEvent where
  init s := s.heads = [] ∧ s.lock = none ∧ (∀ id, s.calls id = .idle) ∧ s.results = []
  step s e s' := W.perform s e = some s'

end Witness

end NotificationServer.A3
