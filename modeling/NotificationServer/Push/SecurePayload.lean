import NotificationServer.Gate8.Wrapper
import NotificationServer.Push.Policy

/-!
# Secure APNs payloads

`buildSecureNotification` (`delivery/apns_secure.go`): the checks on the route,
the size callback it hands to `Seal`, and the payload it marshals.  The size
callback marshals a placeholder of the length the ciphertext will have.
`encoding/json` is modelled on the payload's structure, except that `compact`,
which it applies to the raw header, is a parameter, as are `UTCDay` and the bytes
of a topic.
-/

namespace NotificationServer.Push

open Framing Trust Gate8

def maxAPNSPayloadBytes : Nat := 4096

inductive SecurePayloadError
  /-- `ErrSecurePayloadInvalid`. -/
  | invalid
  /-- `ErrSecurePayloadTooLarge`. -/
  | tooLarge
  deriving DecidableEq

def base64URLByte (n : Nat) : UInt8 :=
  if n < 26 then .ofNat (65 + n)
  else if n < 52 then .ofNat (97 + (n - 26))
  else if n < 62 then .ofNat (48 + (n - 52))
  else if n = 62 then 45
  else 95

/-- `RawURLEncoding.EncodeToString`. -/
def rawURLEncode : Bytes → Bytes
  | [] => []
  | [a] => [base64URLByte (a.toNat / 4), base64URLByte (a.toNat % 4 * 16)]
  | [a, b] =>
    [base64URLByte (a.toNat / 4), base64URLByte (a.toNat % 4 * 16 + b.toNat / 16),
      base64URLByte (b.toNat % 16 * 4)]
  | a :: b :: c :: rest =>
    base64URLByte (a.toNat / 4) :: base64URLByte (a.toNat % 4 * 16 + b.toNat / 16) ::
      base64URLByte (b.toNat % 16 * 4 + c.toNat / 64) :: base64URLByte (c.toNat % 64) ::
      rawURLEncode rest

/-- `RawURLEncoding.EncodedLen`. -/
def rawURLEncodedLen (n : Nat) : Nat := n / 3 * 4 + (n % 3 * 8 + 5) / 6

/-- One byte of an ASCII text in a JSON string, with the HTML escapes of `json.Marshal`. -/
def jsonByte (c : UInt8) : Bytes :=
  if c < 0x20 ∨ c = 0x22 ∨ c = 0x5c then escapeByte c
  else if c = 0x3c ∨ c = 0x3e ∨ c = 0x26 then
    textBytes "\\u00" ++ [(hexDigit (c.toNat / 16)).toUInt8, (hexDigit (c.toNat % 16)).toUInt8]
  else [c]

/-- `json.Marshal` of an ASCII text. -/
def jsonString (text : Bytes) : Bytes := [0x22] ++ text.flatMap jsonByte ++ [0x22]

/-- The `aps` member: an alert that may be modified, or a silent one. -/
def apsText (silent : Bool) : Bytes :=
  if silent = true then textBytes "\x7b\"content-available\":1\x7d"
  else textBytes "\x7b\"alert\":\"New message\",\"mutable-content\":1\x7d"

/-- `marshalSecurePayload`, with `compact` of `encoding/json`; `none` is its error. -/
def marshalSecurePayload (compact : Bytes → Option Bytes) (header ciphertext : Bytes)
    (silent : Bool) : Option Bytes :=
  (compact header).map fun compacted =>
    textBytes "\x7b\"aps\":" ++ apsText silent ++ textBytes ",\"hytch_wrapper\":\x7b\"header\":" ++
      compacted ++ textBytes ",\"ciphertext\":" ++ jsonString ciphertext ++ textBytes "\x7d\x7d"

/-- What the size callback computes from an estimate: the length of a payload with a placeholder. -/
def candidateLength (compact : Bytes → Option Bytes) (headerAAD : Bytes) (silent : Bool)
    (estimate : SizeEstimate) : Option Nat :=
  (marshalSecurePayload compact headerAAD
    (List.replicate (rawURLEncodedLen estimate.sealedCiphertextBytes) 65) silent).map List.length

def fitsPayload (compact : Bytes → Option Bytes) (headerAAD : Bytes) (silent : Bool)
    (estimate : SizeEstimate) : Bool :=
  match candidateLength compact headerAAD silent estimate with
  | none => false
  | some length => decide (length < maxAPNSPayloadBytes)

/-- `if p { return e }`. -/
def refuse (p : Prop) [Decidable p] (e : SecurePayloadError) : Except SecurePayloadError Unit :=
  if p then .error e else .ok ()

/-- What an `ApnsDelivery` has: its options, its clock, and the bytes its random source yields. -/
structure SecureDelivery where
  secureEnvironment : String
  topic : String
  now : Time
  random : Bytes

/-- `apns2.Notification`; the push type and priority are those of an alert or of a background
push. -/
structure SecureNotification where
  deviceToken : Bytes
  topic : String
  payload : Bytes
  background : Bool
  expiration : Time

/-- `boundedRandomPadding`, and what is left of the source. -/
def boundedRandomPadding (source : Bytes) (maximum : Nat) :
    Except SecurePayloadError (Bytes × Bytes) :=
  match source with
  | [] => .error .invalid
  | selector :: rest =>
    let length := selector.toNat % (maximum + 1)
    if maxPaddingBytes < maximum ∨ rest.length < length then .error .invalid
    else .ok (rest.take length, rest.drop length)

/-- `earliestTime`, with the zero time for none. -/
def earliestTime (values : List Time) : Time :=
  values.foldl (fun earliest value => if value = zeroTime then earliest else if earliest = zeroTime
    ∨ value < earliest then value else earliest) zeroTime

/-- `n == 0 || n > MaxCanonicalInteger`. -/
def OutOfRange (n : UInt64) : Prop := n = 0 ∨ maxCanonicalInteger < n.toNat
  deriving Decidable

def A9RouteSnapshot.Refused (a9 : A9RouteSnapshot Time) (messageType : Bytes)
    (routeKeyEpoch : UInt32) : Prop :=
  messageType ≠ v3Conversation ∨ OutOfRange a9.subscriptionGeneration ∨
    OutOfRange a9.bindingVersion ∨ OutOfRange a9.assertionStreamSequence ∨
    a9.topicKeyEpoch = 0 ∨ a9.routeKeyEpoch ≠ routeKeyEpoch ∨ OutOfRange a9.keysetSequence ∨
    OutOfRange a9.watermarkSequence
  deriving Decidable

/-- `binary.BigEndian.PutUint32` of the nonce prefix. -/
def noncePrefixOf (noncePrefix : UInt32) : NoncePrefix :=
  ⟨bigEndian 4 noncePrefix.toNat, bigEndian_length 4 _⟩

/-- What `buildSecureNotification` has found when it calls `Seal`. -/
structure SecurePrepared where
  route : SecureRoute Time
  headerAAD : Bytes
  silent : Bool
  request : SealRequest

section Build

variable {D : Type} (P : Gate8.Primitives D) (compact : Bytes → Option Bytes)
  (topicBytes : Topic → Bytes) (utcDayText : Time → String) (d : SecureDelivery)
  (req : SendRequest Time)

/-- The route of a request, with the checks on the route and the clock. -/
def secureRoute : Except SecurePayloadError (SecureRoute Time × Topic) :=
  match req.subscription.secureRoute, req.subscription.topicV4 with
  | some route, some topic => do
    refuse (route.routeKey.val.length ≠ routeKeySize ∨ route.routeAlias.val.length ≠ 16 ∨
      route.aliasDay.val = [] ∨ route.receiveCapability.val = [] ∨ route.routeKeyEpoch = 0 ∨
      req.installation.deliveryMechanism.token.val = []) .invalid
    refuse (¬ d.now < route.leaseExpiresAt ∨ ¬ d.now < route.controlExpiresAt ∨ (∃ a9 ∈ route.a9, ¬
      d.now < a9.assertionExpiresAt) ∨ textBytes (utcDayText d.now) ≠ route.aliasDay.val) .invalid
    refuse (∃ a9 ∈ route.a9, a9.Refused req.messageContext.messageType.val route.routeKeyEpoch)
      .invalid
    refuse (route.a9.isSome = true ∧ (topicBytes topic).length ≠ 33) .invalid
    .ok (route, topic)
  | _, _ => .error .invalid

/-- `buildSecureNotification` up to the call of `Seal`. -/
def prepareSecure : Except SecurePayloadError SecurePrepared := do
  let (route, topic) ← secureRoute topicBytes utcDayText d req
  let environment : Gate8.Environment :=
    if d.secureEnvironment = "" then .dev else .ofText d.secureEnvironment
  -- The route's alias day is the text of the clock's day.
  let aliasDay := utcDayText d.now
  let expectedAlias ← (P.deriveRouteAlias route.routeKey.val (topicBytes topic) environment
    aliasDay).mapError fun _ => .invalid
  refuse (route.routeAlias.val ≠ expectedAlias.bytes) .invalid
  let header : Header :=
    { schemaVersion := Gate8.schemaVersion, environment := environment, aliasDay := aliasDay
      routeAlias := expectedAlias, routeKeyEpoch := route.routeKeyEpoch
      noncePrefix := noncePrefixOf route.noncePrefix, deliverySequence := route.deliverySequence }
  let headerAAD ← header.canonicalAAD.mapError fun _ => .invalid
  let silent : Bool := req.messageContext.messageType.val = v3Welcome
  refuse (silent ≠ req.subscription.isSilent) .invalid
  let (inlinePadding, random) ← boundedRandomPadding d.random 127
  let (foregroundPadding, _) ← boundedRandomPadding random 127
  .ok
    { route := route, headerAAD := headerAAD, silent := silent
      request :=
        { routeKey := route.routeKey.val, topic := topicBytes topic, environment := environment
          aliasDay := aliasDay, routeKeyEpoch := route.routeKeyEpoch
          noncePrefix := noncePrefixOf route.noncePrefix
          deliverySequence := route.deliverySequence
          capability := route.receiveCapability.val, xmtpEnvelope := req.encryptedMessage.val
          inlinePadding := inlinePadding, foregroundPadding := foregroundPadding
          fitsWrapper := some (fitsPayload compact headerAAD silent)
          hasForegroundHook := false } }

/-- How a failure of `Seal` is reported. -/
def ofWrapperError (e : WrapperError) : SecurePayloadError :=
  if e = .payloadTooLarge ∨ e = .sizeLimit then .tooLarge else .invalid

def securePayload (prepared : SecurePrepared) (wrapped : Envelope) :
    Except SecurePayloadError Bytes := do
  let actualAAD ← wrapped.header.canonicalAAD.mapError fun _ => SecurePayloadError.invalid
  refuse (actualAAD ≠ prepared.headerAAD) .invalid
  match marshalSecurePayload compact actualAAD (rawURLEncode wrapped.ciphertext)
    prepared.silent with
  | none => .error .tooLarge
  | some payload =>
    if maxAPNSPayloadBytes ≤ payload.length then .error .tooLarge else .ok payload

def buildSecureNotification : Except SecurePayloadError SecureNotification := do
  let prepared ← prepareSecure P compact topicBytes utcDayText d req
  let wrapped ← (P.sealEnvelope prepared.request).result.mapError ofWrapperError
  let payload ← securePayload compact prepared wrapped
  let expiry := earliestTime
    [prepared.route.leaseExpiresAt, prepared.route.controlExpiresAt, d.now + 15 * minute]
  .ok
    { deviceToken := req.installation.deliveryMechanism.token.val, topic := d.topic
      payload := payload, background := prepared.silent
      expiration := match prepared.route.a9 with
        | none => expiry
        | some a9 => earliestTime [expiry, a9.assertionExpiresAt] }

end Build

end NotificationServer.Push
