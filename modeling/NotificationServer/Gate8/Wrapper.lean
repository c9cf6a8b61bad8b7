import NotificationServer.Gate8.Header
import NotificationServer.Lib.Traced

/-!
# Sealing and opening push wrappers

The inner frame with its codec, the derivations of the route alias and the day
key, and `Seal` and `Open` (`gate8wrapper/wrapper.go`, `replay.go`).  SHA-256,
HMAC-SHA256 and AES-256-GCM are parameters over an abstract type of digests,
which are also the keys of the cipher; `aes.NewCipher` does not fail on them.
-/

namespace NotificationServer.Gate8

open Trust Framing

def maxCapabilityBytes : Nat := 64 * 1024

def maxXMTPCiphertextBytes : Nat := 1024 * 1024

def maxPaddingBytes : Nat := 4 * 1024

def innerFrameVersion : UInt8 := 1

def innerFrameFixedBytes : Nat := 14

def gcmTagBytes : Nat := 16

def maxSealedCiphertextBytes : Nat :=
  innerFrameFixedBytes + maxCapabilityBytes + maxXMTPCiphertextBytes + maxPaddingBytes + gcmTagBytes

/-- `DeliveryMode`, a string type: the two constants and any other text. -/
inductive DeliveryMode
  | ciphertextInline
  | foregroundSync
  | other (text : String)
  deriving DecidableEq

structure Plaintext where
  capability : Bytes
  deliveryMode : DeliveryMode
  xmtpEnvelope : Bytes
  randomPadding : Bytes
  deriving DecidableEq

structure SizeEstimate where
  mode : DeliveryMode
  headerAADBytes : Nat
  innerPlaintextBytes : Nat
  sealedCiphertextBytes : Nat
  standardBase64CiphertextBytes : Nat
  deriving DecidableEq

def validatePlaintextParts (capability message padding : Bytes) (messageRequired : Bool) :
    Except WrapperError Unit := do
  reject (capability.length = 0) .invalidCapability
  reject (maxCapabilityBytes < capability.length ∨ maxXMTPCiphertextBytes < message.length ∨
    maxPaddingBytes < padding.length) .sizeLimit
  reject (messageRequired = true ∧ message.length = 0) .invalidPayload

/-- `validatePlaintextLengths`; the lengths are those of slices or 32-bit numbers, not negative. -/
def validatePlaintextLengths (mode : DeliveryMode)
    (capabilityBytes messageBytes paddingBytes : Nat) : Except WrapperError Unit := do
  reject (capabilityBytes = 0) .invalidCapability
  reject (maxCapabilityBytes < capabilityBytes ∨ maxXMTPCiphertextBytes < messageBytes ∨
    maxPaddingBytes < paddingBytes) .sizeLimit
  match mode with
  | .ciphertextInline => reject (messageBytes = 0) .invalidPayload
  | .foregroundSync => reject (messageBytes ≠ 0) .invalidPayload
  | .other _ => .error .invalidPayload

/-- `EncodedLen` of padded Base64. -/
def base64EncodedLen (n : Nat) : Nat := (n + 2) / 3 * 4

def estimateSize (mode : DeliveryMode) (aadBytes capabilityBytes messageBytes paddingBytes : Nat) :
    Except WrapperError SizeEstimate := do
  validatePlaintextLengths mode capabilityBytes messageBytes paddingBytes
  let plaintextBytes := innerFrameFixedBytes + capabilityBytes + messageBytes + paddingBytes
  let sealedBytes := plaintextBytes + gcmTagBytes
  .ok
    { mode := mode, headerAADBytes := aadBytes, innerPlaintextBytes := plaintextBytes
      sealedCiphertextBytes := sealedBytes
      standardBase64CiphertextBytes := base64EncodedLen sealedBytes }

def encodeMode : DeliveryMode → Except WrapperError UInt8
  | .ciphertextInline => .ok 1
  | .foregroundSync => .ok 2
  | .other _ => .error .invalidPayload

def decodeMode (value : UInt8) : Except WrapperError DeliveryMode :=
  if value = 1 then .ok .ciphertextInline
  else if value = 2 then .ok .foregroundSync
  else .error .invalidPayload

def encodePlaintext (plaintext : Plaintext) : Except WrapperError Bytes := do
  validatePlaintextParts plaintext.capability plaintext.xmtpEnvelope plaintext.randomPadding
    (plaintext.deliveryMode = .ciphertextInline)
  reject (plaintext.deliveryMode = .foregroundSync ∧ plaintext.xmtpEnvelope.length ≠ 0)
    .invalidPayload
  let modeCode ← encodeMode plaintext.deliveryMode
  .ok ([innerFrameVersion, modeCode] ++ bigEndian 4 plaintext.capability.length ++
    bigEndian 4 plaintext.xmtpEnvelope.length ++ bigEndian 4 plaintext.randomPadding.length ++
    plaintext.capability ++ plaintext.xmtpEnvelope ++ plaintext.randomPadding)

/-- `binary.BigEndian.Uint32` of the four bytes at an offset. -/
def uint32At (encoded : Bytes) (offset : Nat) : Nat :=
  ofBigEndian ((encoded.drop offset).take 4)

def decodePlaintext (encoded : Bytes) : Except WrapperError Plaintext := do
  reject (encoded.length < innerFrameFixedBytes ∨ encoded[0]? ≠ some innerFrameVersion)
    .invalidPayload
  let mode ← decodeMode (encoded.getD 1 0)
  let capabilityLength := uint32At encoded 2
  let messageLength := uint32At encoded 6
  let paddingLength := uint32At encoded 10
  validatePlaintextLengths mode capabilityLength messageLength paddingLength
  reject
    (innerFrameFixedBytes + capabilityLength + messageLength + paddingLength ≠ encoded.length)
    .invalidPayload
  let body := encoded.drop innerFrameFixedBytes
  .ok
    { capability := body.take capabilityLength
      deliveryMode := mode
      xmtpEnvelope := (body.drop capabilityLength).take messageLength
      randomPadding := (body.drop (capabilityLength + messageLength)).take paddingLength }

abbrev Nonce := Octets 12

structure Primitives (D : Type) where
  /-- HMAC-SHA256, keyed with bytes or with a digest. -/
  hmacSHA256 : Bytes ⊕ D → Bytes → D
  sha256 : Bytes → D
  /-- The first sixteen bytes of a digest. -/
  truncate128 : D → RouteAlias
  /-- AES-256-GCM, of a key, a nonce, a plaintext and additional data. -/
  gcmSeal : D → Nonce → Bytes → Bytes → Bytes
  gcmSeal_length : ∀ key nonce plaintext aad,
    (gcmSeal key nonce plaintext aad).length = plaintext.length + gcmTagBytes

def domainBytes (name : String) : Bytes := textBytes name ++ [0]

/-- What `DeriveRouteAlias` authenticates. -/
def routeAliasInput (topic : Bytes) (environment : Environment) (aliasDay : String) : Bytes :=
  domainBytes "hytch.push.route-alias.v1" ++ bigEndian 4 topic.length ++ topic ++ [0] ++
    textBytes environment.text ++ [0] ++ textBytes aliasDay

/-- `saltInput` of `DeriveDayKey`. -/
def wrapperSaltInput (environment : Environment) (aliasDay : String) : Bytes :=
  domainBytes "hytch.push.wrapper.salt.v1" ++ textBytes environment.text ++ [0] ++
    textBytes aliasDay

/-- `info` of `DeriveDayKey`. -/
def wrapperInfo (routeAlias : RouteAlias) (routeKeyEpoch : UInt32) : Bytes :=
  domainBytes "hytch.push.wrapper.aes-gcm.v1" ++ routeAlias.bytes ++
    bigEndian 4 routeKeyEpoch.toNat

theorem length_nonce (noncePrefix : NoncePrefix) (deliverySequence : UInt64) :
    (noncePrefix.bytes ++ bigEndian 8 deliverySequence.toNat).length = 12 := by
  simp [noncePrefix.length_eq]

def buildNonce (noncePrefix : NoncePrefix) (deliverySequence : UInt64) :
    Except WrapperError Nonce :=
  if maxCanonicalInteger < deliverySequence.toNat then .error .invalidSequence
  else .ok
    ⟨noncePrefix.bytes ++ bigEndian 8 deliverySequence.toNat,
      length_nonce noncePrefix deliverySequence⟩

namespace Primitives

variable {D : Type} (P : Primitives D)

def deriveRouteAlias (routeKey topic : Bytes) (environment : Environment) (aliasDay : String) :
    Except WrapperError RouteAlias := do
  validateRouteInputs routeKey topic environment aliasDay
  .ok (P.truncate128 (P.hmacSHA256 (.inl routeKey) (routeAliasInput topic environment aliasDay)))

def deriveDayKey (routeKey : Bytes) (environment : Environment) (aliasDay : String)
    (routeAlias : RouteAlias) (routeKeyEpoch : UInt32) : Except WrapperError D := do
  reject (routeKey.length ≠ routeKeySize) .invalidRouteKey
  validateEnvironment environment
  validateAliasDay aliasDay
  reject (routeKeyEpoch = 0) .invalidHeader
  let salt := P.sha256 (wrapperSaltInput environment aliasDay)
  let pseudorandomKey := P.hmacSHA256 (.inr salt) routeKey
  .ok (P.hmacSHA256 (.inr pseudorandomKey) (wrapperInfo routeAlias routeKeyEpoch ++ [1]))

end Primitives

structure Envelope where
  header : Header
  ciphertext : Bytes
  deriving DecidableEq

structure SealRequest where
  routeKey : Bytes
  topic : Bytes
  environment : Environment
  aliasDay : String
  routeKeyEpoch : UInt32
  noncePrefix : NoncePrefix
  deliverySequence : UInt64
  capability : Bytes
  xmtpEnvelope : Bytes
  inlinePadding : Bytes
  foregroundPadding : Bytes
  fitsWrapper : Option (SizeEstimate → Bool)
  hasForegroundHook : Bool

structure GcmCall (D : Type) where
  key : D
  nonce : Nonce
  plaintext : Bytes
  aad : Bytes
  deriving DecidableEq

/-- What a call of `Seal` does outside of itself. -/
inductive SealEvent (D : Type)
  | fits (estimate : SizeEstimate)
  | gcm (call : GcmCall D)
  | onForegroundSync

/-- A computation of `Seal`. -/
abbrev Sealing (D α : Type) := Traced (SealEvent D) WrapperError α

open Traced (emit lift fail)

/-- One call of `FitsWrapper`. -/
def askFits {D : Type} (fits : SizeEstimate → Bool) (estimate : SizeEstimate) :
    Sealing D Bool := do
  emit (.fits estimate)
  pure (fits estimate)

namespace SealRequest

variable (request : SealRequest)

def inlinePlaintext : Plaintext :=
  { capability := request.capability, deliveryMode := .ciphertextInline
    xmtpEnvelope := request.xmtpEnvelope, randomPadding := request.inlinePadding }

def foregroundPlaintext : Plaintext :=
  { capability := request.capability, deliveryMode := .foregroundSync
    xmtpEnvelope := [], randomPadding := request.foregroundPadding }

/-- Whether the message goes inline: the callback is not asked about an empty one. -/
def askInline {D : Type} (fits : SizeEstimate → Bool) (inlineSize : SizeEstimate) :
    Sealing D Bool :=
  if request.xmtpEnvelope.length = 0 then pure false else askFits fits inlineSize

/-- The fallback in `Seal`. -/
def chooseForeground {D : Type} (fits : SizeEstimate → Bool) (aadBytes : Nat) :
    Sealing D Plaintext := do
  let foregroundSize ← lift (estimateSize .foregroundSync aadBytes request.capability.length 0
    request.foregroundPadding.length)
  let foreground ← askFits fits foregroundSize
  if foreground = true then pure request.foregroundPlaintext else fail .payloadTooLarge

/-- The choice of the mode in `Seal`. -/
def choosePlaintext {D : Type} (fits : SizeEstimate → Bool) (aadBytes : Nat) :
    Sealing D Plaintext := do
  let inlineSize ← lift (estimateSize .ciphertextInline aadBytes request.capability.length
    request.xmtpEnvelope.length request.inlinePadding.length)
  let inline ← request.askInline fits inlineSize
  if inline = true then pure request.inlinePlaintext
  else request.chooseForeground fits aadBytes

def header (routeAlias : RouteAlias) : Header :=
  { schemaVersion := Gate8.schemaVersion, environment := request.environment
    aliasDay := request.aliasDay, routeAlias := routeAlias
    routeKeyEpoch := request.routeKeyEpoch, noncePrefix := request.noncePrefix
    deliverySequence := request.deliverySequence }

end SealRequest

/-- The end of `Seal`: the length check and the hook. -/
def finishSeal {D : Type} (request : SealRequest) (header : Header) (mode : DeliveryMode)
    (ciphertext : Bytes) : Sealing D Envelope :=
  if maxSealedCiphertextBytes < ciphertext.length then fail .sizeLimit
  else if mode = .foregroundSync ∧ request.hasForegroundHook = true then do
    emit .onForegroundSync
    pure ⟨header, ciphertext⟩
  else pure ⟨header, ciphertext⟩

namespace Primitives

variable {D : Type} (P : Primitives D)

/-- `Seal` up to the size estimates: the checks, the header and its text. -/
def sealHeader (request : SealRequest) : Except WrapperError (Header × Bytes) := do
  validateRouteInputs request.routeKey request.topic request.environment request.aliasDay
  reject (maxCanonicalInteger < request.deliverySequence.toNat) .invalidSequence
  validatePlaintextParts request.capability request.xmtpEnvelope request.inlinePadding false
  reject (maxPaddingBytes < request.foregroundPadding.length) .sizeLimit
  let routeAlias ← P.deriveRouteAlias request.routeKey request.topic request.environment
    request.aliasDay
  let header := request.header routeAlias
  let aad ← header.canonicalAAD
  .ok (header, aad)

/-- The encryption in `Seal`. -/
def sealPlaintext (request : SealRequest) (header : Header) (aad : Bytes) (plaintext : Plaintext) :
    Sealing D Envelope := do
  let encoded ← lift (encodePlaintext plaintext)
  let dayKey ← lift (P.deriveDayKey request.routeKey request.environment request.aliasDay
    header.routeAlias request.routeKeyEpoch)
  let nonce ← lift (buildNonce request.noncePrefix request.deliverySequence)
  emit (.gcm ⟨dayKey, nonce, encoded, aad⟩)
  finishSeal request header plaintext.deliveryMode (P.gcmSeal dayKey nonce encoded aad)

/-- `Seal`. -/
def sealEnvelope (request : SealRequest) : Sealing D Envelope :=
  match request.fitsWrapper with
  | none => fail .budgetRequired
  | some fits => do
    let (header, aad) ← lift (P.sealHeader request)
    let plaintext ← request.choosePlaintext fits aad.length
    P.sealPlaintext request header aad plaintext

end Primitives

/-- `ReplayState`: the scope of a window and its high-water mark. -/
structure ReplayState where
  environment : Environment
  aliasDay : String
  routeAlias : RouteAlias
  routeKeyEpoch : UInt32
  noncePrefix : NoncePrefix
  highestSequence : UInt64
  deriving DecidableEq

/-- `ReplayWindow`; without a state it is not initialized. -/
structure ReplayWindow where
  state : Option ReplayState
  deriving DecidableEq

def Header.replayState (header : Header) : ReplayState :=
  { environment := header.environment, aliasDay := header.aliasDay
    routeAlias := header.routeAlias, routeKeyEpoch := header.routeKeyEpoch
    noncePrefix := header.noncePrefix, highestSequence := header.deliverySequence }

def ReplayState.InScope (state : ReplayState) (header : Header) : Prop :=
  state.environment = header.environment ∧ state.aliasDay = header.aliasDay ∧
    state.routeAlias = header.routeAlias ∧ state.routeKeyEpoch = header.routeKeyEpoch ∧
    state.noncePrefix = header.noncePrefix
  deriving Decidable

/-- `CompareAndAdvanceAuthenticated`, and the window it leaves. -/
def ReplayWindow.compareAndAdvanceAuthenticated (window : ReplayWindow) (header : Header) :
    Except WrapperError ReplayWindow :=
  match window.state with
  | none => .ok ⟨some header.replayState⟩
  | some state =>
    if ¬ state.InScope header then .error .replayState
    else if header.deliverySequence ≤ state.highestSequence then .error .replay
    else .ok ⟨some { state with highestSequence := header.deliverySequence }⟩

/-- `OpenRequest`, without the replay window. -/
structure OpenRequest where
  routeKey : Bytes
  topic : Bytes
  expectedEnvironment : Environment
  expectedAliasDay : String
  expectedRouteKeyEpoch : UInt32
  envelope : Envelope

namespace Primitives

variable {D : Type} (P : Primitives D)

/-- `Open` up to the authentication, with `Open` of AES-GCM as a parameter. -/
def authenticate (gcmOpen : D → Nonce → Bytes → Bytes → Option Bytes) (request : OpenRequest) :
    Except WrapperError Bytes := do
  let header := request.envelope.header
  let ciphertext := request.envelope.ciphertext
  validateRouteInputs request.routeKey request.topic header.environment header.aliasDay
  header.validate
  reject (request.expectedEnvironment.text = "" ∨ request.expectedAliasDay = "" ∨
    request.expectedRouteKeyEpoch = 0 ∨ header.environment ≠ request.expectedEnvironment ∨
    header.aliasDay ≠ request.expectedAliasDay ∨
    header.routeKeyEpoch ≠ request.expectedRouteKeyEpoch) .routeMismatch
  reject (ciphertext.length < gcmTagBytes ∨ maxSealedCiphertextBytes < ciphertext.length) .sizeLimit
  let expectedAlias ← P.deriveRouteAlias request.routeKey request.topic header.environment
    header.aliasDay
  reject (expectedAlias ≠ header.routeAlias) .routeMismatch
  let aad ← header.canonicalAAD
  let dayKey ← P.deriveDayKey request.routeKey header.environment header.aliasDay
    header.routeAlias header.routeKeyEpoch
  let nonce ← buildNonce header.noncePrefix header.deliverySequence
  match gcmOpen dayKey nonce ciphertext aad with
  | none => .error .authentication
  | some opened => .ok opened

/-- `Open` on a replay window, and the window it leaves; `none` is a nil protector. -/
def openEnvelope (gcmOpen : D → Nonce → Bytes → Bytes → Option Bytes) (request : OpenRequest)
    (replay : Option ReplayWindow) : Except WrapperError Plaintext × Option ReplayWindow :=
  match replay with
  | none => (.error .replayState, none)
  | some window =>
    match P.authenticate gcmOpen request with
    | .error e => (.error e, some window)
    | .ok opened =>
      match window.compareAndAdvanceAuthenticated request.envelope.header with
      | .error e => (.error e, some window)
      -- The window has advanced even if the frame turns out to be malformed.
      | .ok window' => (decodePlaintext opened, some window')

end Primitives

end NotificationServer.Gate8
