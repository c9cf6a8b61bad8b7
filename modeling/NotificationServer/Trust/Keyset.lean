import NotificationServer.Trust.Json
import NotificationServer.Vault.Tables

/-!
# Keysets and the rotation of online keys

`a9trust/keyset.go`: what a root-signed keyset has to look like, which of its
keys verifies or signs at a time, and which online key changes two accepted
keysets may show.  Uses, states and purposes are the strings of the object until
a check has read them.
-/

namespace NotificationServer

/-- The `use` of an online key. -/
def OnlineKeyUse.text : OnlineKeyUse → String
  | .artifact => "A9_CONTROL"
  | .service => "SERVICE_AUTH"

/-- The `purpose` of a commitment key. -/
def CommitmentPurpose.text : CommitmentPurpose → String
  | .roster => "ROSTER"
  | .tuple => "TUPLE"
  | .topic => "TOPIC"

namespace Trust

/-- The `state` of an online key. -/
inductive KeyState
  | sign
  | verifyOnly
  deriving DecidableEq

def KeyState.text : KeyState → String
  | .sign => "SIGN"
  | .verifyOnly => "VERIFY_ONLY"

structure OnlineKey where
  keyID : String
  use : String
  publicKey : Bytes
  notBefore : Time
  notAfter : Time
  state : String
  deriving DecidableEq

structure CommitmentKey where
  purpose : String
  keyID : String
  topicKeyEpoch : Option Nat
  notBefore : Time
  notAfter : Time
  deriving DecidableEq

def parseOnlineKey : Json → Option OnlineKey
  | .object object => do
    guard (object.length = 6)
    let publicKey ← decodeBase64URL (objectString object "public_key_base64url") 32
    let notBefore ← parseWireTime (objectString object "not_before")
    let notAfter ← parseWireTime (objectString object "not_after")
    some
      { keyID := objectString object "key_id", use := objectString object "use"
        publicKey := publicKey, notBefore := notBefore, notAfter := notAfter
        state := objectString object "state" }
  | _ => none

def parseOnlineKeys (value : Option Json) : Option (List OnlineKey) :=
  match value with
  | some (.array items) => items.mapM parseOnlineKey
  | _ => none

/-- The epoch of a commitment key; the outer `none` is a value that is no epoch. -/
def parseTopicKeyEpoch (value : Option Json) : Option (Option Nat) :=
  match value with
  | none | some .null => some none
  | some v =>
    match positiveInteger (some v) with
    | .ok n => if maxUint32 < n then none else some (some n)
    | .error _ => none

def parseCommitmentKey : Json → Option CommitmentKey
  | .object object => do
    guard (object.length = 5)
    let epoch ← parseTopicKeyEpoch (object.lookup "topic_key_epoch")
    let notBefore ← parseWireTime (objectString object "not_before")
    let notAfter ← parseWireTime (objectString object "not_after")
    some
      { purpose := objectString object "purpose", keyID := objectString object "key_id"
        topicKeyEpoch := epoch, notBefore := notBefore, notAfter := notAfter }
  | _ => none

def parseCommitmentKeys (value : Option Json) : Option (List CommitmentKey) :=
  match value with
  | some (.array items) => items.mapM parseCommitmentKey
  | _ => none

def leftPadUint (value width : Nat) : String :=
  let digits := toString value
  String.ofList (List.replicate (width - (textBytes digits).length) '0') ++ digits

/-- A time in the layout `2006-01-02T15:04:05.000Z`. -/
def formatWireTime (t : Time) : String :=
  let days := t / day
  let ms := ((t % day) / 1000).toNat
  -- The date by the 400-year cycle counted from 0000-03-01.
  let era := (days + 719468) / 146097
  let doe := ((days + 719468) % 146097).toNat
  let yoe := (doe - doe / 1460 + doe / 36524 - doe / 146096) / 365
  let doy := doe - (365 * yoe + yoe / 4 - yoe / 100)
  let mp := (5 * doy + 2) / 153
  let month := if mp < 10 then mp + 3 else mp - 9
  let year := (yoe + era * 400 + if month ≤ 2 then 1 else 0).toNat
  leftPadUint year 4 ++ "-" ++ leftPadUint month 2 ++ "-" ++
    leftPadUint (doy - (153 * mp + 2) / 5 + 1) 2 ++ "T" ++ leftPadUint (ms / 3600000) 2 ++ ":" ++
    leftPadUint (ms / 60000 % 60) 2 ++ ":" ++ leftPadUint (ms / 1000 % 60) 2 ++ "." ++
    leftPadUint (ms % 1000) 3 ++ "Z"

def onlineSortKey (key : OnlineKey) : Bytes :=
  textBytes (key.use ++ "\x00" ++ key.state ++ "\x00" ++ key.keyID)

def commitmentSortKey (key : CommitmentKey) : Bytes :=
  textBytes (key.purpose ++ "\x00" ++ (key.topicKeyEpoch.map fun e => leftPadUint e 10).getD "" ++
    "\x00" ++ formatWireTime key.notBefore ++ "\x00" ++ key.keyID)

/-- `sort.SliceIsSorted`: no element is below the one before it. -/
def SliceIsSorted {α : Type} (sortKey : α → Bytes) (keys : List α) : Prop :=
  (keys.map sortKey).IsChain fun a b => ¬ b < a
  deriving Decidable

def onlineKeysOrdered (keys : List OnlineKey) : Prop := SliceIsSorted onlineSortKey keys
  deriving Decidable

def commitmentKeysOrdered (keys : List CommitmentKey) : Prop := SliceIsSorted commitmentSortKey keys
  deriving Decidable

/-- The loops that select a descriptor: a second match is a failure. -/
def sole (p : OnlineKey → Prop) [DecidablePred p] (keys : List OnlineKey) : Option OnlineKey :=
  match keys.filter p with
  | [key] => some key
  | _ => none

def soleSigningKeyForUse (keys : List OnlineKey) (use : String) : Option OnlineKey :=
  sole (fun key => key.use = use ∧ key.state = KeyState.sign.text) keys

def findOnlineKey (keys : List OnlineKey) (use excludedKeyID keyID : String) : Option OnlineKey :=
  sole (fun key => key.use = use ∧ key.keyID ≠ excludedKeyID ∧ key.keyID = keyID) keys

def onlineKeyByID (keys : List OnlineKey) (use keyID : String) : Option OnlineKey :=
  sole (fun key => key.use = use ∧ key.keyID = keyID) keys

def sameOnlineKeyMaterial (left right : OnlineKey) : Prop :=
  left.keyID = right.keyID ∧ left.publicKey = right.publicKey ∧
  left.notBefore = right.notBefore ∧ left.notAfter = right.notAfter
  deriving Decidable

/-- `OnlineKeyAt`: both states verify, inside the half-open window. -/
def onlineKeyAt (keyset : JsonObject) (keyID use : String) (at' : Time) : Except Verdict Bytes :=
  match parseOnlineKeys (keyset.lookup "keys") with
  | none => .error (.invalid .keyState)
  | some keys =>
    match keys.find? fun key => key.keyID = keyID ∧ key.use = use with
    | none => .error (.invalid .keyState)
    | some key =>
      if at' < key.notBefore ∨ key.notAfter ≤ at' then .error (.invalid .keyState)
      else .ok key.publicKey

def signingKeyAt (keyset : JsonObject) (use : String) (at' : Time) : Except Verdict OnlineKey :=
  match parseOnlineKeys (keyset.lookup "keys") with
  | none => .error (.invalid .keyState)
  | some keys =>
    match sole (fun key => key.use = use ∧ key.state = KeyState.sign.text ∧
        key.notBefore ≤ at' ∧ at' < key.notAfter) keys with
    | none => .error (.invalid .keyState)
    | some key => .ok key

/-- A failed check of a keyset is always the same verdict. -/
def Verdict.ofChecks (checks : Option Unit) : Verdict :=
  match checks with
  | some _ => .eligible
  | none => .inconclusive .keyState

def signCount (online : List OnlineKey) (use : OnlineKeyUse) : Nat :=
  online.countP fun key => key.use = use.text ∧ key.state = KeyState.sign.text

def purposeCount (commitments : List CommitmentKey) (purpose : CommitmentPurpose) : Nat :=
  commitments.countP fun key => key.purpose = purpose.text

def CommitmentKey.EpochShape (key : CommitmentKey) : Prop :=
  if key.purpose = CommitmentPurpose.topic.text then key.topicKeyEpoch.any (· ≠ 0) = true
  else (key.purpose = CommitmentPurpose.roster.text ∨ key.purpose = CommitmentPurpose.tuple.text) ∧
    key.topicKeyEpoch = none
  deriving Decidable

namespace Primitives

variable (P : Primitives)

/-- The loop of `ValidateKeyset` over the online keys and the counts it checks afterwards. -/
def OnlineKeysValid (online : List OnlineKey) : Prop :=
  (2 ≤ online.length ∧ online.length ≤ 4) ∧ onlineKeysOrdered online ∧
  (online.map fun key => key.keyID).Nodup ∧
  (∀ key ∈ online, (key.use = OnlineKeyUse.artifact.text ∨ key.use = OnlineKeyUse.service.text) ∧
    (key.state = KeyState.sign.text ∨ key.state = KeyState.verifyOnly.text) ∧ key.notBefore <
    key.notAfter ∧ P.ed25519KeyID key.publicKey = some key.keyID) ∧
  signCount online .artifact = 1 ∧ signCount online .service = 1
  deriving Decidable

/-- The loop of `ValidateKeyset` over the commitment keys and the counts it checks afterwards. -/
def CommitmentKeysValid (commitments : List CommitmentKey) : Prop :=
  (3 ≤ commitments.length ∧ commitments.length ≤ 6) ∧ commitmentKeysOrdered commitments ∧
  (commitments.map fun key => key.keyID).Nodup ∧
  (∀ key ∈ commitments, key.notBefore < key.notAfter ∧
    (decodeA9LowerHex key.keyID "hmac-sha256:").isSome ∧ key.EpochShape) ∧
  (∀ purpose ∈ [CommitmentPurpose.roster, .topic, .tuple],
    1 ≤ purposeCount commitments purpose ∧ purposeCount commitments purpose ≤ 2)
  deriving Decidable

def keysetSignatureDomain : Bytes := textBytes "Hytch A9 bridge keyset v1\x00"

def HeaderValid (object : JsonObject) (pinnedRootPublic : Bytes)
    (pinnedRootKeyID environment : String) : Prop :=
  objectString object "protocol" = "hytch.a9-bridge-keyset" ∧
  objectIntegerEquals object "schema_version" 1 ∧
  objectString object "environment" = environment ∧
  objectString object "root_signature_algorithm" = "Ed25519" ∧
  P.ed25519KeyID pinnedRootPublic = some pinnedRootKeyID ∧
  objectString object "root_signing_key_id" = pinnedRootKeyID
  deriving Decidable

/-- `ValidateKeyset`; the zero time leaves out the check that the keyset is current. -/
def validateKeyset (object : JsonObject) (pinnedRootPublic : Bytes)
    (pinnedRootKeyID environment : String) (now : Time) : Verdict :=
  .ofChecks do
    guard (P.HeaderValid object pinnedRootPublic pinnedRootKeyID environment)
    let issued ← parseWireTime (objectString object "issued_at")
    let expires ← parseWireTime (objectString object "expires_at")
    guard (issued < expires ∧ expires - issued ≤ 24 * hour ∧
      (now ≠ zeroTime → issued ≤ now ∧ now < expires))
    let _ ← (positiveInteger (object.lookup "keyset_sequence")).toOption
    let online ← parseOnlineKeys (object.lookup "keys")
    guard (P.OnlineKeysValid online)
    let _ ← (signingKeyAt object OnlineKeyUse.artifact.text issued).toOption
    let _ ← (signingKeyAt object OnlineKeyUse.service.text issued).toOption
    let commitments ← parseCommitmentKeys (object.lookup "commitment_keys")
    guard (CommitmentKeysValid commitments)
    guard (P.verifyObject object "root_signature_base64url" keysetSignatureDomain
      pinnedRootPublic = .eligible)

end Primitives

/-- `validateVerifyOnlyContinuity` for a key of the earlier keyset. -/
def KeptVerifyOnly (after : List OnlineKey) (use : String) (transitionIssued cutoverIssued : Time)
    (key : OnlineKey) : Prop :=
  ¬ (transitionIssued < key.notBefore ∧ key.notBefore ≤ cutoverIssued) ∧
  match onlineKeyByID after use key.keyID with
  | none => key.notAfter ≤ cutoverIssued
  | some next => sameOnlineKeyMaterial key next ∧
    (cutoverIssued < key.notAfter → next.state = KeyState.verifyOnly.text)

instance (after : List OnlineKey) (use : String) (transitionIssued cutoverIssued : Time)
    (key : OnlineKey) :
    Decidable (KeptVerifyOnly after use transitionIssued cutoverIssued key) := by
  unfold KeptVerifyOnly
  cases onlineKeyByID after use key.keyID <;> infer_instance

/-- `validateVerifyOnlyContinuity`; no key has the empty ID that an unchanged use passes. -/
def validateVerifyOnlyContinuity (before after : List OnlineKey) (use : String)
    (transitionIssued cutoverIssued : Time) (promotedKeyID retiredKeyID : String) : Prop :=
  (∀ key ∈ before, key.use = use → key.state = KeyState.verifyOnly.text →
    key.keyID ≠ promotedKeyID → KeptVerifyOnly after use transitionIssued cutoverIssued key) ∧
  (∀ key ∈ after, key.use = use → key.state = KeyState.verifyOnly.text → key.keyID ≠ retiredKeyID →
    onlineKeyByID before use key.keyID = none → 24 * hour ≤ key.notBefore - cutoverIssued)
  deriving Decidable

/-- How long a retired key stays published.  A service token lives for 60 seconds, is accepted for
5 more, and its key is kept for another 60. -/
def retention (use : String) : Int :=
  if use = OnlineKeyUse.service.text then 125 * second else 90 * second

def validateOnlineRotationForUse (before after : List OnlineKey) (use : String)
    (transitionIssued cutoverIssued : Time) : Option Unit := do
  let oldSign ← soleSigningKeyForUse before use
  let newSign ← soleSigningKeyForUse after use
  if oldSign.keyID = newSign.keyID then
    guard (sameOnlineKeyMaterial oldSign newSign)
    guard (validateVerifyOnlyContinuity before after use transitionIssued cutoverIssued "" "")
  else
    let staged ← findOnlineKey before use oldSign.keyID newSign.keyID
    guard (staged.state = KeyState.verifyOnly.text ∧ 24 * hour ≤ staged.notBefore - transitionIssued
      ∧ staged.notBefore ≤ cutoverIssued ∧ sameOnlineKeyMaterial staged newSign)
    let oldVerify ← findOnlineKey after use newSign.keyID oldSign.keyID
    guard (oldVerify.state = KeyState.verifyOnly.text ∧ sameOnlineKeyMaterial oldSign oldVerify)
    guard (cutoverIssued + retention use ≤ oldVerify.notAfter)
    guard (validateVerifyOnlyContinuity before after use transitionIssued cutoverIssued
      staged.keyID oldVerify.keyID)

def validateOnlineRotation (transition cutover : JsonObject) : Verdict :=
  .ofChecks do
    let transitionSequence ← (positiveInteger (transition.lookup "keyset_sequence")).toOption
    let cutoverSequence ← (positiveInteger (cutover.lookup "keyset_sequence")).toOption
    guard (transitionSequence < cutoverSequence)
    let transitionIssued ← parseWireTime (objectString transition "issued_at")
    let cutoverIssued ← parseWireTime (objectString cutover "issued_at")
    let before ← parseOnlineKeys (transition.lookup "keys")
    let after ← parseOnlineKeys (cutover.lookup "keys")
    guard (transitionIssued ≤ cutoverIssued)
    validateOnlineRotationForUse before after OnlineKeyUse.artifact.text transitionIssued
      cutoverIssued
    validateOnlineRotationForUse before after OnlineKeyUse.service.text transitionIssued
      cutoverIssued

end Trust

end NotificationServer
