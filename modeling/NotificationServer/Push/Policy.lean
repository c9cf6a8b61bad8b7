import NotificationServer.Lib.Framing
import NotificationServer.Lib.Transition
import NotificationServer.Trust.Json
import Mathlib.Logic.Function.Basic

/-!
# Delivery authorization

`AuthorizeDelivery` issues a one-use authorization bound to the fingerprint of
a request; `AllowsDelivery` compares the fingerprint of the request it is given
and then takes the authorization with a compare-and-swap.

The requests are generic in their times, which only `time.Time.MarshalBinary`
looks into.  A nil slice and an empty one are one value; a nil pointer is
`none`.
-/

namespace NotificationServer.Push

open Framing Trust

/-- A Go slice or string: its length is a non-negative `int`. -/
abbrev Slice := { bytes : Bytes // bytes.length < 2 ^ 63 }

structure DeliveryMechanism (T : Type) where
  kind : Slice
  token : Slice
  updatedAt : T
  registrationVersion : Int64
  deriving DecidableEq

structure Installation (T : Type) where
  id : Slice
  deliveryMechanism : DeliveryMechanism T
  payloadFormat : Int64
  deriving DecidableEq

structure A9RouteSnapshot (T : Type) where
  installationBindingID : Bytes16
  sequencerEpoch : Bytes16
  subscriptionGeneration : UInt64
  bindingID : Bytes16
  bindingVersion : UInt64
  assertionHash : Bytes32
  assertionStreamSequence : UInt64
  assertionExpiresAt : T
  topicKeyEpoch : UInt32
  topicBinding : Bytes32
  routeKeyEpoch : UInt32
  keysetSequence : UInt64
  keysetHash : Bytes32
  watermarkSequence : UInt64
  deriving DecidableEq

structure SecureRoute (T : Type) where
  leaseID : Slice
  routeKey : Slice
  routeKeyEpoch : UInt32
  noncePrefix : UInt32
  deliverySequence : UInt64
  aliasDay : Slice
  routeAlias : Slice
  receiveCapability : Slice
  leaseExpiresAt : T
  controlExpiresAt : T
  policyEpoch : UInt64
  welcomeAuthorized : Bool
  welcomeAuthorizationID : Slice
  welcomeEnvelopeDigest : Slice
  a9 : Option (A9RouteSnapshot T)
  deriving DecidableEq

structure HmacKey where
  thirtyDayPeriodsSinceEpoch : Int64
  key : Slice
  deriving DecidableEq

/-- xmtpd's `topic.Topic`. -/
structure Topic where
  kind : UInt8
  identifier : Slice
  deriving DecidableEq

structure Subscription (T : Type) where
  id : Int64
  createdAt : T
  installationId : Slice
  topic : Slice
  topicV4 : Option Topic
  isActive : Bool
  isSilent : Bool
  expectedHmacKeyPeriod : Option Int64
  hmacKey : Option HmacKey
  secureRoute : Option (SecureRoute T)
  deriving DecidableEq

structure MessageContext where
  messageType : Slice
  shouldPush : Option Bool
  hmacInputs : Option Slice
  senderHmac : Option Slice
  deriving DecidableEq

structure SendRequest (T : Type) where
  idempotencyKey : Slice
  topic : Slice
  topicBytesB64 : Slice
  encryptedMessage : Slice
  payloadFormat : Int64
  messageContext : MessageContext
  installation : Installation T
  subscription : Subscription T
  deriving DecidableEq

/-- The libraries under the policy: the binary forms of a time and of a topic, HMAC-SHA-256 and
SHA-256. -/
structure Primitives (T D : Type) where
  /-- `Time.MarshalBinary`; `none` is its error. -/
  marshalBinary : T → Option Bytes
  /-- A version byte, eight of seconds, four of nanoseconds, two or three of zone offset. -/
  marshalBinary_length : ∀ t encoded, marshalBinary t = some encoded →
    encoded.length = 15 ∨ encoded.length = 16
  /-- xmtpd's `Topic.Bytes`. -/
  topicBytes : Topic → Bytes
  topicBytes_injective : Function.Injective topicBytes
  topicBytes_length : ∀ topic, (topicBytes topic).length < 2 ^ 64
  hmacSHA256 : Bytes → Bytes → Bytes
  sha256 : Bytes → D

variable {T D : Type}

def v3Welcome : Bytes := textBytes "v3-welcome"
def v3Conversation : Bytes := textBytes "v3-conversation"

def validSenderHmacKeyLength (size : Nat) : Bool := size == 32 || size == 42

def HmacKey.isValid (k : HmacKey) : Bool :=
  decide (0 ≤ k.thirtyDayPeriodsSinceEpoch) &&
    decide (k.thirtyDayPeriodsSinceEpoch ≤ 2147483647) &&
    validSenderHmacKeyLength k.key.val.length

def MessageContext.hasValidSenderHmac (m : MessageContext) : Bool :=
  match m.senderHmac with
  | none => false
  | some hmac => hmac.val.length == 32 && m.hmacInputs.isSome

def MessageContext.isSender (P : Primitives T D) (m : MessageContext) (hmacKey : Bytes) : Bool :=
  if !m.hasValidSenderHmac || !validSenderHmacKeyLength hmacKey.length then false
  else
    match m.hmacInputs, m.senderHmac with
    | some inputs, some hmac => hmac.val == P.hmacSHA256 hmacKey inputs.val
    | _, _ => false

/-- The key of the expected period; a secure route admits only 32 bytes. -/
def Subscription.exactPeriodHmacKey (sub : Subscription T) : Option Bytes :=
  match sub.hmacKey, sub.expectedHmacKeyPeriod with
  | some hmacKey, some expectedPeriod =>
    if !hmacKey.isValid || hmacKey.thirtyDayPeriodsSinceEpoch != expectedPeriod then none
    else if sub.secureRoute.isSome && hmacKey.key.val.length != 32 then none
    else some hmacKey.key.val
  | _, _ => none

def SendRequest.eligible (P : Primitives T D) {U : Type} (req : SendRequest U) : Bool :=
  if req.messageContext.messageType.val = v3Welcome then
    match req.subscription.secureRoute with
    | none => false
    | some route =>
      route.welcomeAuthorized && req.subscription.isActive && req.subscription.isSilent &&
        req.messageContext.shouldPush.isNone && req.messageContext.hmacInputs.isNone &&
        req.messageContext.senderHmac.isNone
  else if req.messageContext.messageType.val = v3Conversation then
    if req.messageContext.shouldPush != some true then false
    else if !req.subscription.isActive || req.subscription.isSilent then false
    else
      match req.subscription.exactPeriodHmacKey with
      | none => false
      | some hmacKey =>
        req.messageContext.hasValidSenderHmac && !req.messageContext.isSender P hmacKey
  else false

def writeFingerprintField (value : Bytes) : Bytes := frame value

def writeFingerprintBool (value : Bool) : Bytes :=
  if value then writeFingerprintField [1] else writeFingerprintField [0]

def writeFingerprintUint64 (value : UInt64) : Bytes :=
  writeFingerprintField (bigEndian 8 value.toNat)

def writeFingerprintInt64 (value : Int64) : Bytes := writeFingerprintUint64 value.toUInt64

/-- A time without a binary form is written as an empty field. -/
def writeFingerprintTime (P : Primitives T D) (value : T) : Bytes :=
  match P.marshalBinary value with
  | none => writeFingerprintField []
  | some encoded => writeFingerprintField encoded

/-- A pointer: a flag, and what it points to if it is not nil. -/
def writeFingerprintOptional {α : Type} (write : α → Bytes) : Option α → Bytes
  | none => writeFingerprintBool false
  | some value => writeFingerprintBool true ++ write value

def writeFingerprintOptionalBytes : Option Slice → Bytes :=
  writeFingerprintOptional fun value => writeFingerprintField value.val

def writeFingerprintOptionalBool : Option Bool → Bytes :=
  writeFingerprintOptional writeFingerprintBool

/-- `array[:]`, for the 16 and 32 byte identifiers. -/
def arrayBytes {w : Nat} (array : BitVec w) : Bytes := bigEndian (w / 8) array.toNat

section Fingerprint

variable (P : Primitives T D)

def fingerprintA9 (a9 : A9RouteSnapshot T) : Bytes :=
  writeFingerprintField (arrayBytes a9.installationBindingID) ++
  (writeFingerprintField (arrayBytes a9.sequencerEpoch) ++
  (writeFingerprintUint64 a9.subscriptionGeneration ++
  (writeFingerprintField (arrayBytes a9.bindingID) ++
  (writeFingerprintUint64 a9.bindingVersion ++
  (writeFingerprintField (arrayBytes a9.assertionHash) ++
  (writeFingerprintUint64 a9.assertionStreamSequence ++
  (writeFingerprintTime P a9.assertionExpiresAt ++
  (writeFingerprintUint64 a9.topicKeyEpoch.toUInt64 ++
  (writeFingerprintField (arrayBytes a9.topicBinding) ++
  (writeFingerprintUint64 a9.routeKeyEpoch.toUInt64 ++
  (writeFingerprintUint64 a9.keysetSequence ++
  (writeFingerprintField (arrayBytes a9.keysetHash) ++
  writeFingerprintUint64 a9.watermarkSequence))))))))))))

def fingerprintRoute (route : SecureRoute T) : Bytes :=
  writeFingerprintField route.leaseID.val ++
  (writeFingerprintField route.routeKey.val ++
  (writeFingerprintUint64 route.routeKeyEpoch.toUInt64 ++
  (writeFingerprintUint64 route.noncePrefix.toUInt64 ++
  (writeFingerprintUint64 route.deliverySequence ++
  (writeFingerprintField route.aliasDay.val ++
  (writeFingerprintField route.routeAlias.val ++
  (writeFingerprintField route.receiveCapability.val ++
  (writeFingerprintTime P route.leaseExpiresAt ++
  (writeFingerprintTime P route.controlExpiresAt ++
  (writeFingerprintUint64 route.policyEpoch ++
  (writeFingerprintBool route.welcomeAuthorized ++
  (writeFingerprintField route.welcomeAuthorizationID.val ++
  (writeFingerprintField route.welcomeEnvelopeDigest.val ++
  writeFingerprintOptional (fingerprintA9 P) route.a9)))))))))))))

def fingerprintHmacKey (k : HmacKey) : Bytes :=
  writeFingerprintInt64 k.thirtyDayPeriodsSinceEpoch ++ writeFingerprintField k.key.val

/-- The installation's fields, as far as they are written. -/
def fingerprintInstallation (i : Installation T) : Bytes :=
  writeFingerprintField i.id.val ++
  (writeFingerprintField i.deliveryMechanism.kind.val ++
  (writeFingerprintField i.deliveryMechanism.token.val ++
  (writeFingerprintTime P i.deliveryMechanism.updatedAt ++
  writeFingerprintInt64 i.payloadFormat)))

def fingerprintSubscription (sub : Subscription T) : Bytes :=
  writeFingerprintInt64 sub.id ++
  (writeFingerprintTime P sub.createdAt ++
  (writeFingerprintField sub.installationId.val ++
  (writeFingerprintField sub.topic.val ++
  (writeFingerprintOptional (fun topic => writeFingerprintField (P.topicBytes topic)) sub.topicV4 ++
  (writeFingerprintBool sub.isActive ++
  (writeFingerprintBool sub.isSilent ++
  (writeFingerprintOptional fingerprintHmacKey sub.hmacKey ++
  (writeFingerprintOptional writeFingerprintInt64 sub.expectedHmacKeyPeriod ++
  writeFingerprintOptional (fingerprintRoute P) sub.secureRoute))))))))

def fingerprintContext (m : MessageContext) : Bytes :=
  writeFingerprintField m.messageType.val ++
  (writeFingerprintOptionalBool m.shouldPush ++
  (writeFingerprintOptionalBytes m.hmacInputs ++
  writeFingerprintOptionalBytes m.senderHmac))

/-- Everything `requestFingerprint` writes to its digest, in order. -/
def fingerprintInput (req : SendRequest T) : Bytes :=
  writeFingerprintField req.idempotencyKey.val ++
  (writeFingerprintField req.topic.val ++
  (writeFingerprintField req.topicBytesB64.val ++
  (writeFingerprintField req.encryptedMessage.val ++
  (writeFingerprintInt64 req.payloadFormat ++
  (fingerprintInstallation P req.installation ++
  (fingerprintSubscription P req.subscription ++
  fingerprintContext req.messageContext))))))

def requestFingerprint (req : SendRequest T) : D := P.sha256 (fingerprintInput P req)

end Fingerprint

structure DeliveryAuthorization (D : Type) where
  fingerprint : D
  consumed : Bool

/-- A context, as far as the policy reads it: its innermost authorization, by address. -/
abbrev Context := Option Nat

/-- The authorizations in memory, the calls of `AllowsDelivery` between their comparison and their
compare-and-swap, and a record of every authorization issued and every answer given. -/
structure PolicyState (T D : Type) where
  authorizations : List (DeliveryAuthorization D)
  calls : Nat → Option (Nat × SendRequest T)
  issued : List (Nat × SendRequest T)
  answers : List (Context × SendRequest T × Bool)

inductive PolicyEvent (T : Type)
  | authorizeDelivery (req : SendRequest T)
  | allowsDelivery (call : Nat) (ctx : Context) (req : SendRequest T)
  | compareAndSwap (call : Nat)

namespace PolicyState

def issue (s : PolicyState T D) (fingerprint : D) (req : SendRequest T) : PolicyState T D :=
  { s with
    authorizations := s.authorizations ++ [⟨fingerprint, false⟩]
    issued := (s.authorizations.length, req) :: s.issued }

def setCall (s : PolicyState T D) (call : Nat) (state : Option (Nat × SendRequest T)) :
    PolicyState T D :=
  { s with calls := Function.update s.calls call state }

def consume (s : PolicyState T D) (address : Nat) (authorization : DeliveryAuthorization D) :
    PolicyState T D :=
  { s with
    authorizations := s.authorizations.set address { authorization with consumed := true } }

def answer (s : PolicyState T D) (ctx : Context) (req : SendRequest T) (allowed : Bool) :
    PolicyState T D :=
  { s with answers := (ctx, req, allowed) :: s.answers }

def allowed (s : PolicyState T D) (ctx : Context) : Nat :=
  s.answers.countP fun a => a.1 == ctx && a.2.2

end PolicyState

section System

variable [DecidableEq D] (P : Primitives T D)

/-- `AuthorizeDelivery`: the new authorization's address is the context it returns. -/
def authorizeDelivery (s : PolicyState T D) (req : SendRequest T) : PolicyState T D :=
  if req.eligible P then s.issue (requestFingerprint P req) req else s

/-- `AllowsDelivery` up to its compare-and-swap.  The fields it reads never change. -/
def allowsDelivery (s : PolicyState T D) (call : Nat) (ctx : Context) (req : SendRequest T) :
    Option (PolicyState T D) :=
  if !req.eligible P then some (s.answer ctx req false)
  else
    match ctx with
    | none => some (s.answer ctx req false)
    | some address =>
      match s.authorizations[address]? with
      | none => none
      | some authorization =>
        if authorization.fingerprint ≠ requestFingerprint P req then
          some (s.answer ctx req false)
        else
          match s.calls call with
          | some _ => none
          | none => some (s.setCall call (some (address, req)))

/-- `consumed.CompareAndSwap(false, true)`, and the call's return. -/
def compareAndSwap (s : PolicyState T D) (call : Nat) : Option (PolicyState T D) :=
  match s.calls call with
  | none => none
  | some (address, req) =>
    match s.authorizations[address]? with
    | none => none
    | some authorization =>
      let returned := s.setCall call none
      if authorization.consumed then some (returned.answer (some address) req false)
      else some ((returned.consume address authorization).answer (some address) req true)

def perform (s : PolicyState T D) : PolicyEvent T → Option (PolicyState T D)
  | .authorizeDelivery req => some (authorizeDelivery P s req)
  | .allowsDelivery call ctx req => allowsDelivery P s call ctx req
  | .compareAndSwap call => compareAndSwap s call

def system : Machine (PolicyState T D) (PolicyEvent T) where
  init s := s.authorizations = [] ∧ (∀ call, s.calls call = none) ∧ s.issued = [] ∧ s.answers = []
  step s event s' := perform P s event = some s'

end System

end NotificationServer.Push
