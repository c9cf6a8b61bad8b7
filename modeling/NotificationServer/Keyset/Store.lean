import NotificationServer.Lib.Relational
import NotificationServer.Lib.Transaction
import NotificationServer.Lib.Transition
import NotificationServer.Trust.Keyset

/-!
# The A9 keyset store

`AcceptKeyset` and `LatchKeysetUncertainty` (`db/a9_store.go`) over the rows of
one environment.  A transaction is SERIALIZABLE and takes the environment's
advisory lock, so one that commits is one atomic step; one that fails, or that a
retry repeats, leaves the tables as they were.  A rejected candidate commits: its
transaction is the one that latches uncertainty.
-/

namespace NotificationServer.Keyset

open Relational Trust

/-- `a9_accepted_keysets`. -/
structure AcceptedRow where
  keysetSequence : Nat
  signedKeysetHash : Bytes32
  signedKeysetJCS : Bytes
  rootSigningKeyID : Bytes32
  issuedAt : Time
  expiresAt : Time
  deriving DecidableEq

/-- `a9_online_key_descriptors`. -/
structure OnlineKeyDescriptor where
  keysetSequence : Nat
  keyUse : OnlineKeyUse
  keyState : KeyState
  keyID : Bytes32
  publicKey : Bytes
  notBefore : Time
  notAfter : Time
  deriving DecidableEq

/-- `a9_commitment_key_descriptors`. -/
structure CommitmentKeyDescriptor where
  keysetSequence : Nat
  purpose : CommitmentPurpose
  keyID : Bytes32
  topicKeyEpoch : Option Nat
  notBefore : Time
  notAfter : Time
  deriving DecidableEq

/-- `state` of a keyset state row. -/
inductive Status
  | current
  | uncertain
  deriving DecidableEq

/-- `uncertainty_reason` of a keyset state row; `none` is the stored 0. -/
inductive Reason
  | none
  | keyState
  | rollback
  | rotation
  deriving DecidableEq

/-- `a9_keyset_state`. -/
structure StateRow where
  keysetSequence : Nat
  signedKeysetHash : Option Bytes32
  state : Status
  uncertaintyReason : Reason
  expiresAt : Option Time
  refreshedAt : Time
  deriving DecidableEq

/-- The rows of one environment; tables list the latest row first. -/
structure Tables where
  accepted : List AcceptedRow
  online : List OnlineKeyDescriptor
  commitments : List CommitmentKeyDescriptor
  state : Option StateRow
  deriving DecidableEq

/-- The CHECK of `a9_keyset_state`. -/
def StateRow.Shape (r : StateRow) : Prop :=
  if r.state = .current then
    1 ≤ r.keysetSequence ∧ r.keysetSequence ≤ maxSafeInteger ∧ r.signedKeysetHash.isSome ∧
      r.expiresAt.isSome ∧ r.uncertaintyReason = .none
  else r.uncertaintyReason ≠ .none ∧
    ((r.keysetSequence = 0 ∧ r.signedKeysetHash = none ∧ r.expiresAt = none) ∨
      (1 ≤ r.keysetSequence ∧ r.keysetSequence ≤ maxSafeInteger ∧ r.signedKeysetHash.isSome ∧
        r.expiresAt.isSome))
  deriving Decidable

/-- The columns the foreign key of `a9_keyset_state` compares, when none is null. -/
def StateRow.keyset (r : StateRow) : Option (Nat × Bytes32) :=
  r.signedKeysetHash.map fun h => (r.keysetSequence, h)

/-- The constraints of migration 00012 on the keyset tables. -/
@[mk_iff]
structure Tables.Constraints (db : Tables) : Prop where
  accepted_key : Unique (fun k => k.keysetSequence) db.accepted
  accepted_hash : Unique (fun k => k.signedKeysetHash) db.accepted
  accepted_shape : ∀ k ∈ db.accepted, (1 ≤ k.keysetSequence ∧ k.keysetSequence ≤ maxSafeInteger) ∧
    (1 ≤ k.signedKeysetJCS.length ∧ k.signedKeysetJCS.length ≤ 262144) ∧
    k.issuedAt < k.expiresAt ∧ k.expiresAt ≤ k.issuedAt + 24 * hour
  online_key : Unique (fun k => (k.keysetSequence, k.keyID)) db.online
  online_sole : Unique (fun k => (k.keysetSequence, k.keyUse))
    (db.online.filter fun k => k.keyState = .sign)
  online_keyset : References (fun k => some k.keysetSequence) db.online
    (fun k => k.keysetSequence) db.accepted
  online_shape : ∀ k ∈ db.online, k.publicKey.length = 32 ∧ k.notBefore < k.notAfter
  commitment_key : Unique (fun k => (k.keysetSequence, k.keyID)) db.commitments
  commitment_keyset : References (fun k => some k.keysetSequence) db.commitments
    (fun k => k.keysetSequence) db.accepted
  commitment_shape : ∀ k ∈ db.commitments, k.notBefore < k.notAfter ∧
    if k.purpose = .topic then (k.topicKeyEpoch.any fun e => 1 ≤ e ∧ e ≤ maxUint32) = true
    else k.topicKeyEpoch = none
  state_keyset : References StateRow.keyset db.state.toList
    (fun k => (k.keysetSequence, k.signedKeysetHash)) db.accepted
  state_shape : ∀ r ∈ db.state.toList, r.Shape

instance (db : Tables) : Decidable db.Constraints := decidable_of_iff' _ db.constraints_iff

/-- Any error of the store but a rejection; its transaction is rolled back. -/
inductive StoreError
  | unavailable
  deriving DecidableEq

abbrev KeysetTx := Tx Tables StoreError

def statement (f : Tables → Tables) : KeysetTx Unit := Tx.change Tables.Constraints f .unavailable

structure AcceptedKeyset where
  environment : String
  sequence : Nat
  objectHash : String
  canonicalSignedObject : Bytes
  issuedAt : Time
  expiresAt : Time
  rootKeyID : String
  onlineKeys : List OnlineKey
  commitmentKeys : List CommitmentKey

/-- The candidate `validateCandidate` (`manager.go`) makes of a keyset it fetched and checked. -/
def candidateOf (P : Primitives) (environment rootKeyID : String) (object : JsonObject) :
    Option AcceptedKeyset := do
  let canonical ← canonicalize (.object object)
  let sequence ← (positiveInteger (object.lookup "keyset_sequence")).toOption
  let issuedAt ← parseWireTime (objectString object "issued_at")
  let expiresAt ← parseWireTime (objectString object "expires_at")
  let onlineKeys ← parseOnlineKeys (object.lookup "keys")
  let commitmentKeys ← parseCommitmentKeys (object.lookup "commitment_keys")
  some
    { environment := environment, sequence := sequence, objectHash := P.sha256LowerHex canonical
      canonicalSignedObject := canonical, issuedAt := issuedAt, expiresAt := expiresAt
      rootKeyID := rootKeyID, onlineKeys := onlineKeys, commitmentKeys := commitmentKeys }

structure KeysetState where
  environment : String
  sequence : Nat
  objectHash : String
  expiresAt : Time
  uncertain : Bool
  deriving DecidableEq

/-- `a9ValidatedCandidate`; its descriptors get their sequence when they are inserted. -/
structure ValidatedCandidate where
  objectHash : Bytes32
  rootKeyID : Bytes32
  object : JsonObject
  online : List OnlineKeyDescriptor
  commitments : List CommitmentKeyDescriptor

def environmentText : Environment → String
  | .dev => "dev"
  | .production => "production"

def a9EnvironmentID (environment : String) : Option Environment :=
  [Environment.dev, .production].find? fun e => environmentText e = environment

def a9OnlineUseCode (use : String) : Option OnlineKeyUse :=
  [OnlineKeyUse.artifact, .service].find? fun u => u.text = use

def a9OnlineStateCode (state : String) : Option KeyState :=
  [KeyState.sign, .verifyOnly].find? fun s => s.text = state

def a9CommitmentPurposeCode (purpose : String) : Option CommitmentPurpose :=
  [CommitmentPurpose.roster, .tuple, .topic].find? fun p => p.text = purpose

/-- `a9ObjectUint`: 0 stands for a field that is no integer of the profile. -/
def a9ObjectUint (object : JsonObject) (field : String) : Nat :=
  match object.lookup field with
  | some (.number raw) => ((decimal (textBytes raw)).filter (· ≤ maxSafeInteger)).getD 0
  | _ => 0

/-- One round of `validateA9OnlineKeys`: an item of the object and the key the caller read. -/
def validateA9OnlineKey (P : Primitives) (sequence : Nat) :
    Json × OnlineKey → Option OnlineKeyDescriptor
  | (.object object, expected) => do
    let keyID := objectString object "key_id"
    let publicKey ← decodeBase64URL (objectString object "public_key_base64url") 32
    let notBefore ← parseWireTime (objectString object "not_before")
    let notAfter ← parseWireTime (objectString object "not_after")
    guard (notBefore < notAfter)
    let keyIDBytes ← decodeA9LowerHex keyID "ed25519-sha256:"
    guard (P.ed25519KeyID publicKey = some keyID)
    let use ← a9OnlineUseCode (objectString object "use")
    let state ← a9OnlineStateCode (objectString object "state")
    guard (expected =
      { keyID := keyID, use := objectString object "use", publicKey := publicKey
        notBefore := notBefore, notAfter := notAfter, state := objectString object "state" })
    some
      { keysetSequence := sequence, keyUse := use, keyState := state, keyID := keyIDBytes
        publicKey := publicKey, notBefore := notBefore, notAfter := notAfter }
  | _ => none

def validateA9OnlineKeys (P : Primitives) (sequence : Nat) (raw : Option Json)
    (expected : List OnlineKey) : Option (List OnlineKeyDescriptor) :=
  match raw with
  | some (.array items) => do
    guard (items.length = expected.length)
    let validated ← (items.zip expected).mapM (validateA9OnlineKey P sequence)
    guard (validated.map fun k => k.keyID).Nodup
    some validated
  | _ => none

/-- The `topic_key_epoch` of a commitment key; the outer `none` is a value that is no epoch. -/
def a9TopicKeyEpoch (value : Option Json) : Option (Option Nat) :=
  match value with
  | none | some .null => some none
  | some (.number raw) => do
    let epoch ← decimal (textBytes raw)
    guard (epoch ≠ 0 ∧ epoch ≤ maxUint32)
    some (some epoch)
  | _ => none

/-- One round of `validateA9CommitmentKeys`. -/
def validateA9CommitmentKey (sequence : Nat) : Json × CommitmentKey → Option CommitmentKeyDescriptor
  | (.object object, expected) => do
    let keyID := objectString object "key_id"
    let keyIDBytes ← decodeA9LowerHex keyID "hmac-sha256:"
    let purpose ← a9CommitmentPurposeCode (objectString object "purpose")
    let epoch ← a9TopicKeyEpoch (object.lookup "topic_key_epoch")
    guard (purpose = .topic ↔ epoch.isSome)
    let notBefore ← parseWireTime (objectString object "not_before")
    let notAfter ← parseWireTime (objectString object "not_after")
    guard (notBefore < notAfter)
    guard (expected =
      { purpose := objectString object "purpose", keyID := keyID, topicKeyEpoch := epoch
        notBefore := notBefore, notAfter := notAfter })
    some
      { keysetSequence := sequence, purpose := purpose, keyID := keyIDBytes
        topicKeyEpoch := epoch, notBefore := notBefore, notAfter := notAfter }
  | _ => none

def validateA9CommitmentKeys (sequence : Nat) (raw : Option Json) (expected : List CommitmentKey) :
    Option (List CommitmentKeyDescriptor) :=
  match raw with
  | some (.array items) => do
    guard (items.length = expected.length)
    let validated ← (items.zip expected).mapM (validateA9CommitmentKey sequence)
    guard (validated.map fun k => k.keyID).Nodup
    some validated
  | _ => none

/-- The checks of `validateA9AcceptedKeyset` on the candidate alone. -/
def AcceptedKeyset.Plausible (c : AcceptedKeyset) : Prop :=
  (a9EnvironmentID c.environment).isSome ∧ c.sequence ≠ 0 ∧ c.sequence ≤ maxSafeInteger ∧
  c.issuedAt ≠ zeroTime ∧ c.expiresAt ≠ zeroTime ∧ c.issuedAt < c.expiresAt ∧
  c.expiresAt - c.issuedAt ≤ 24 * hour ∧
  c.canonicalSignedObject ≠ [] ∧ c.canonicalSignedObject.length ≤ 262144
  deriving Decidable

/-- `validateA9AcceptedKeyset`: the candidate says what its signed bytes say. -/
def validateA9AcceptedKeyset (P : Primitives) (c : AcceptedKeyset) : Option ValidatedCandidate := do
  guard c.Plausible
  let object ← P.parseA9CanonicalObject c.canonicalSignedObject
  guard (P.sha256LowerHex c.canonicalSignedObject = c.objectHash ∧
    objectString object "environment" = c.environment ∧
    a9ObjectUint object "keyset_sequence" = c.sequence ∧
    objectString object "root_signing_key_id" = c.rootKeyID)
  guard (parseWireTime (objectString object "issued_at") = some c.issuedAt)
  guard (parseWireTime (objectString object "expires_at") = some c.expiresAt)
  let objectHash ← decodeA9LowerHex c.objectHash ""
  let rootKeyID ← decodeA9LowerHex c.rootKeyID "ed25519-sha256:"
  let online ← validateA9OnlineKeys P c.sequence (object.lookup "keys") c.onlineKeys
  let commitments ←
    validateA9CommitmentKeys c.sequence (object.lookup "commitment_keys") c.commitmentKeys
  some
    { objectHash := objectHash, rootKeyID := rootKeyID, object := object, online := online
      commitments := commitments }

/-- `scanA9KeysetState` of a state row and the joined `signed_keyset_jcs`. -/
def scanA9KeysetState (environment : String) (row : StateRow) (canonical : Option Bytes) :
    Option (KeysetState × Bytes) :=
  if maxSafeInteger < row.keysetSequence then none
  else if row.keysetSequence = 0 then
    if row.state = .uncertain ∧ row.signedKeysetHash = none ∧ row.expiresAt = none ∧
        canonical.getD [] = [] then
      some ({ environment := environment, sequence := 0, objectHash := "", expiresAt := zeroTime
              uncertain := true }, [])
    else none
  else
    match row.signedKeysetHash, row.expiresAt, canonical with
    | some hash, some expiresAt, some jcs =>
      if jcs = [] then none
      else some ({ environment := environment, sequence := row.keysetSequence
                   objectHash := hexEncode hash, expiresAt := expiresAt
                   uncertain := row.state = .uncertain }, jcs)
    | _, _, _ => none

/-- The LEFT JOIN of a state row with its accepted keyset. -/
def Tables.canonicalOf (db : Tables) (row : StateRow) : Option Bytes :=
  (db.accepted.find? fun k => row.keyset = some (k.keysetSequence, k.signedKeysetHash)).map
    fun k => k.signedKeysetJCS

/-- `readA9KeysetStateForUpdate`; `none` is `sql.ErrNoRows`. -/
def readA9KeysetStateForUpdate (environment : String) : KeysetTx (Option (KeysetState × Bytes)) :=
  fun db =>
    match db.state with
    | none => .ok (none, db)
    | some row =>
      match scanA9KeysetState environment row (db.canonicalOf row) with
      | none => .error .unavailable
      | some found => .ok (some found, db)

/-- The state row after `UPDATE … SET state = 2`. -/
def StateRow.latched (reason : Reason) (now : Time) (row : StateRow) : StateRow :=
  { row with state := .uncertain, uncertaintyReason := reason, refreshedAt := now }

def AcceptedRow.stateRow (k : AcceptedRow) (now : Time) : StateRow :=
  { keysetSequence := k.keysetSequence, signedKeysetHash := some k.signedKeysetHash
    state := .current, uncertaintyReason := .none, expiresAt := some k.expiresAt
    refreshedAt := now }

/-- `latchA9KeysetStateTx`: an UPDATE of the current row, which has to exist. -/
def latchA9KeysetStateTx (now : Time) (reason : Reason) : KeysetTx Unit := do
  let row ← Tx.read fun db => db.state
  Tx.require (∃ r ∈ row.toList, r.state = .current) .unavailable
  statement fun db => { db with state := db.state.map (.latched reason now) }

/-- The row a WHERE clause on sequence, hash and `state = 1` finds. -/
def StateRow.Selected (current : KeysetState) (r : StateRow) : Prop :=
  r.keysetSequence = current.sequence ∧ r.signedKeysetHash.isSome ∧
  r.signedKeysetHash = decodeA9LowerHex current.objectHash "" ∧ r.state = .current
  deriving Decidable

def refreshA9KeysetStateTx (now : Time) (current : KeysetState) : KeysetTx Unit := do
  let row ← Tx.read fun db => db.state
  Tx.require (∃ r ∈ row.toList, r.Selected current) .unavailable
  statement fun db => { db with state := db.state.map fun r => { r with refreshedAt := now } }

/-- The row `appendA9KeysetTx` inserts first. -/
def AcceptedKeyset.row (c : AcceptedKeyset) (v : ValidatedCandidate) : AcceptedRow :=
  { keysetSequence := c.sequence, signedKeysetHash := v.objectHash
    signedKeysetJCS := c.canonicalSignedObject, rootSigningKeyID := v.rootKeyID
    issuedAt := c.issuedAt, expiresAt := c.expiresAt }

/-- The last statement of `appendA9KeysetTx`: an INSERT of the first state row, or an UPDATE of the
row that was read. -/
def setA9KeysetStateTx (now : Time) (k : AcceptedRow) (current : Option KeysetState) :
    KeysetTx Unit := do
  match current with
  | none => do
    let row ← Tx.read fun db => db.state
    Tx.require (row = none) .unavailable
  | some state => do
    let row ← Tx.read fun db => db.state
    Tx.require (∃ r ∈ row.toList, r.Selected state) .unavailable
  statement fun db => { db with state := some (k.stateRow now) }

def appendA9KeysetTx (now : Time) (c : AcceptedKeyset) (v : ValidatedCandidate)
    (current : Option KeysetState) : KeysetTx Unit := do
  statement fun db => { db with accepted := c.row v :: db.accepted }
  Tx.forEach v.online fun key => statement fun db => { db with online := key :: db.online }
  Tx.forEach v.commitments fun key =>
    statement fun db => { db with commitments := key :: db.commitments }
  setA9KeysetStateTx now (c.row v) current

/-- How `AcceptKeyset` ends when its transaction commits; the state of a rejection is empty when
the candidate did not validate. -/
inductive Acceptance
  | accepted (state : KeysetState)
  | rejected (state : Option KeysetState)
  deriving DecidableEq

/-- The rejection of a candidate: uncertainty is latched in the same transaction. -/
def rejectTx (now : Time) (current : KeysetState) (reason : Reason) : KeysetTx Acceptance := do
  latchA9KeysetStateTx now reason
  pure (.rejected (some { current with uncertain := true }))

/-- The rotation check of `acceptKeysetOnce` against the stored bytes of the current keyset. -/
def rotationEligible (P : Primitives) (previousCanonical : Bytes) (object : JsonObject) : Prop :=
  match P.parseA9CanonicalObject previousCanonical with
  | none => False
  | some previous => validateOnlineRotation previous object = .eligible

instance (P : Primitives) (previousCanonical : Bytes) (object : JsonObject) :
    Decidable (rotationEligible P previousCanonical object) := by
  unfold rotationEligible
  cases P.parseA9CanonicalObject previousCanonical <;> infer_instance

/-- The state `AcceptKeyset` returns for a keyset it appended. -/
def AcceptedKeyset.state (c : AcceptedKeyset) : KeysetState :=
  { environment := c.environment, sequence := c.sequence, objectHash := c.objectHash
    expiresAt := c.expiresAt, uncertain := false }

def acceptKeysetOnce (P : Primitives) (now : Time) (c : AcceptedKeyset) (v : ValidatedCandidate) :
    KeysetTx Acceptance := do
  let found ← readA9KeysetStateForUpdate c.environment
  match found with
  | none => do
    appendA9KeysetTx now c v none
    pure (.accepted c.state)
  | some (current, previousCanonical) =>
    if current.uncertain then pure (.rejected (some current))
    else if c.sequence < current.sequence ∨
        (c.sequence = current.sequence ∧ c.objectHash ≠ current.objectHash) then
      rejectTx now current .rollback
    else if c.sequence = current.sequence then
      if c.expiresAt ≠ current.expiresAt then rejectTx now current .rollback
      else do
        refreshA9KeysetStateTx now current
        pure (.accepted current)
    else if ¬ rotationEligible P previousCanonical v.object then
      rejectTx now current .rotation
    else do
      appendA9KeysetTx now c v (some current)
      pure (.accepted c.state)

def a9UncertaintyReason (reason : String) : Reason :=
  if reason = "KEYSET_ROLLBACK" then .rollback
  else if reason = "ONLINE_ROTATION" then .rotation
  else .keyState

/-- `latchKeysetUncertaintyOnce`: the first reason wins. -/
def latchKeysetUncertaintyOnce (environment : String) (now : Time) (reason : Reason) :
    KeysetTx Unit := do
  let found ← readA9KeysetStateForUpdate environment
  match found with
  | none =>
    statement fun db =>
      { db with
        state := some
          { keysetSequence := 0, signedKeysetHash := none, state := .uncertain
            uncertaintyReason := reason, expiresAt := none, refreshedAt := now } }
  | some (current, _) =>
    if current.uncertain then pure () else latchA9KeysetStateTx now reason

def latchKeysetUncertainty (environment reason : String) (now : Time) : KeysetTx Unit :=
  latchKeysetUncertaintyOnce environment now (a9UncertaintyReason reason)

/-- `AcceptKeyset`: a candidate that does not validate latches uncertainty, unless its environment
is unknown.  Serialization failures are retried; the attempt that commits is this body. -/
def acceptKeyset (P : Primitives) (now : Time) (c : AcceptedKeyset) : KeysetTx Acceptance :=
  match validateA9AcceptedKeyset P c with
  | none => do
    Tx.when (a9EnvironmentID c.environment).isSome
      (latchKeysetUncertainty c.environment "KEY_STATE" now)
    pure (.rejected none)
  | some v => acceptKeysetOnce P now c v

inductive KeysetEvent
  | accept (candidate : AcceptedKeyset) (now : Time) (outcome : Acceptance)
  | latch (reason : String) (now : Time)

def Tables.empty : Tables := ⟨[], [], [], none⟩

/-- The keyset store of an environment: any replica may commit either transaction at any time. -/
def a9Keysets (P : Primitives) (environment : Environment) : Machine Tables KeysetEvent where
  init s := s = .empty
  step s e s' :=
    match e with
    | .accept c now outcome =>
      c.environment = environmentText environment ∧ acceptKeyset P now c s = .ok (outcome, s')
    | .latch reason now =>
      latchKeysetUncertainty (environmentText environment) reason now s = .ok ((), s')

inductive KeysetCall
  | accept (candidate : AcceptedKeyset) (now : Time)
  | latch (reason : String) (now : Time)

def KeysetCall.perform (P : Primitives) (environment : Environment) (call : KeysetCall)
    (s : Tables) : Option (KeysetEvent × Tables) :=
  match call with
  | .accept c now =>
    if c.environment = environmentText environment then
      (acceptKeyset P now c s).toOption.map fun r => (.accept c now r.1, r.2)
    else none
  | .latch reason now =>
    (latchKeysetUncertainty (environmentText environment) reason now s).toOption.map
      fun r => (.latch reason now, r.2)

theorem KeysetCall.perform_step {P : Primitives} {environment : Environment} {call : KeysetCall}
    {s s' : Tables} {e : KeysetEvent} (h : call.perform P environment s = some (e, s')) :
    (a9Keysets P environment).step s e s' := by
  cases call with
  | accept c now =>
    simp only [KeysetCall.perform, Option.ite_none_right_eq_some, Option.map_eq_some_iff,
      Tx.toOption_eq_some, Prod.mk.injEq] at h
    obtain ⟨henv, r, hr, rfl, rfl⟩ := h
    exact ⟨henv, hr⟩
  | latch reason now =>
    simp only [KeysetCall.perform, Option.map_eq_some_iff, Tx.toOption_eq_some, Prod.mk.injEq] at h
    obtain ⟨r, hr, rfl, rfl⟩ := h
    exact hr

end NotificationServer.Keyset
