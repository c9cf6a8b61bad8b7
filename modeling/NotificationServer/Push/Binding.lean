import Mathlib.Data.List.Count
import NotificationServer.Push.Policy

/-!
# What an authorization is bound to

The fingerprint's input spells every field that is written to it, so with an
injective digest an authorization is bound to all of them.  One field is not
written, the delivery mechanism's registration version, and a time without a
binary form is written as an empty field: requests that differ only there share
their authorizations.
-/

namespace NotificationServer.Push

open Framing

variable {T U D : Type}

def A9RouteSnapshot.mapTime (f : T → U) (a9 : A9RouteSnapshot T) : A9RouteSnapshot U :=
  { a9 with assertionExpiresAt := f a9.assertionExpiresAt }

def SecureRoute.mapTime (f : T → U) (route : SecureRoute T) : SecureRoute U :=
  { route with
    leaseExpiresAt := f route.leaseExpiresAt
    controlExpiresAt := f route.controlExpiresAt
    a9 := route.a9.map (A9RouteSnapshot.mapTime f) }

def Installation.mapTime (f : T → U) (i : Installation T) : Installation U :=
  { i with
    deliveryMechanism :=
      { i.deliveryMechanism with updatedAt := f i.deliveryMechanism.updatedAt } }

def Subscription.mapTime (f : T → U) (sub : Subscription T) : Subscription U :=
  { sub with
    createdAt := f sub.createdAt
    secureRoute := sub.secureRoute.map (SecureRoute.mapTime f) }

def SendRequest.mapTime (f : T → U) (req : SendRequest T) : SendRequest U :=
  { req with
    installation := req.installation.mapTime f
    subscription := req.subscription.mapTime f }

def SecureRoute.times (route : SecureRoute T) : List T :=
  route.leaseExpiresAt :: route.controlExpiresAt :: match route.a9 with
    | none => []
    | some a9 => [a9.assertionExpiresAt]

def SendRequest.times (req : SendRequest T) : List T :=
  req.installation.deliveryMechanism.updatedAt :: req.subscription.createdAt ::
    match req.subscription.secureRoute with
    | none => []
    | some route => route.times

/-- An installation as the fingerprint sees it, without the registration version. -/
def Installation.unversioned (i : Installation T) : Installation T :=
  { i with deliveryMechanism := { i.deliveryMechanism with registrationVersion := 0 } }

section Primitives

variable (P : Primitives T D)

/-- A request as far as it is written: binary forms for times, no registration version. -/
def Primitives.written (req : SendRequest T) : SendRequest (Option Bytes) :=
  { req.mapTime P.marshalBinary with
    installation := (req.installation.mapTime P.marshalBinary).unversioned }

def Primitives.unencoded (t : T) : Option T :=
  match P.marshalBinary t with
  | none => some t
  | some _ => none

def Primitives.timeIdentity (t : T) : Option Bytes × Option T := (P.marshalBinary t, P.unencoded t)

/-- The requests agree on what the fingerprint leaves out: the registration version, and the times
that have no binary form. -/
def Primitives.OmissionsAgree (r₁ r₂ : SendRequest T) : Prop :=
  r₁.installation.deliveryMechanism.registrationVersion =
      r₂.installation.deliveryMechanism.registrationVersion ∧
    r₁.times.map P.unencoded = r₂.times.map P.unencoded

/-- The requests agree on every field, identifying times with equal binary forms. -/
def Primitives.Agree (r₁ r₂ : SendRequest T) : Prop :=
  r₁.mapTime P.timeIdentity = r₂.mapTime P.timeIdentity

end Primitives

theorem spells_field :
    Spells (fun value : Slice => writeFingerprintField value.val) fun value => value := by
  have hfr : Spells (fun value : Slice => frame value.val) fun value => value.val :=
    Spells.frame fun value => lt_trans value.property (by decide)
  exact hfr.read fun _ _ => Subtype.ext_iff.symm

theorem spells_bool : Spells writeFingerprintBool fun value => value := by
  have hfr : Spells (fun value : Bool => frame (if value then [1] else [0]))
      fun value => if value then [(1 : UInt8)] else [0] :=
    Spells.frame fun value => by cases value <;> decide
  have hwr : writeFingerprintBool = fun value : Bool => frame (if value then [1] else [0]) := by
    funext value
    cases value <;> rfl
  rw [hwr]
  exact hfr.read fun a b => by cases a <;> cases b <;> simp

/-- A number in a fixed number of bytes is read off its field. -/
theorem spells_bigEndian {α : Type} {width : Nat} {number : α → Nat} (hwidth : width < 2 ^ 64)
    (hbd : ∀ a, number a < 256 ^ width) :
    Spells (fun a => writeFingerprintField (bigEndian width (number a))) number := by
  have hfr : Spells (fun a => frame (bigEndian width (number a)))
      fun a => bigEndian width (number a) :=
    Spells.frame fun a => by rwa [bigEndian_length]
  exact hfr.read fun a b =>
    ⟨bigEndian_injective (hbd a) (hbd b), fun h => congrArg (bigEndian width) h⟩

theorem spells_uint64 : Spells writeFingerprintUint64 fun value => value := by
  have hnumber : Spells writeFingerprintUint64 UInt64.toNat :=
    spells_bigEndian (by decide) fun value => by
      rw [show 256 ^ 8 = 2 ^ 64 by decide]
      exact value.toNat_lt
  exact hnumber.read fun _ _ => UInt64.toNat_inj

theorem spells_int64 : Spells writeFingerprintInt64 fun value => value :=
  (spells_uint64.comp Int64.toUInt64).read fun a b => by
    cases a
    cases b
    rw [Int64.ofUInt64.injEq]

theorem spells_uint32 :
    Spells (fun value : UInt32 => writeFingerprintUint64 value.toUInt64) fun value => value :=
  (spells_uint64.comp UInt32.toUInt64).read fun _ _ => UInt32.toUInt64_inj

theorem spells_bytes16 :
    Spells (fun array : Bytes16 => writeFingerprintField (arrayBytes array)) fun array => array := by
  have hnumber : Spells (fun array : Bytes16 => writeFingerprintField (arrayBytes array))
      BitVec.toNat := spells_bigEndian (by decide) fun array => by
    rw [show 256 ^ (128 / 8) = 2 ^ 128 by decide]
    exact array.isLt
  exact hnumber.read fun _ _ => BitVec.toNat_inj

theorem spells_bytes32 :
    Spells (fun array : Bytes32 => writeFingerprintField (arrayBytes array)) fun array => array := by
  have hnumber : Spells (fun array : Bytes32 => writeFingerprintField (arrayBytes array))
      BitVec.toNat := spells_bigEndian (by decide) fun array => by
    rw [show 256 ^ (256 / 8) = 2 ^ 256 by decide]
    exact array.isLt
  exact hnumber.read fun _ _ => BitVec.toNat_inj

theorem spells_optional {α γ : Type} {write : α → Bytes} {view : α → γ} (h : Spells write view) :
    Spells (writeFingerprintOptional write) fun value => value.map view := by
  have hwr : writeFingerprintOptional write = fun value : Option α =>
      value.elim (writeFingerprintBool false) fun value => writeFingerprintBool true ++ write value := by
    funext value
    cases value <;> rfl
  rw [hwr]
  exact Spells.option spells_bool h

section Spelling

variable (P : Primitives T D)

theorem spells_topic :
    Spells (fun topic => writeFingerprintField (P.topicBytes topic)) fun topic => topic := by
  have hframe : Spells (fun topic => writeFingerprintField (P.topicBytes topic)) P.topicBytes :=
    Spells.frame P.topicBytes_length
  exact hframe.read fun _ _ => P.topicBytes_injective.eq_iff

/-- A time is read off as its binary form, which is never empty. -/
theorem spells_time : Spells (writeFingerprintTime P) P.marshalBinary := by
  have hlen : ∀ t, ((P.marshalBinary t).getD []).length < 2 ^ 64 := by
    intro t
    cases hencoded : P.marshalBinary t with
    | none => simp
    | some encoded =>
      have hsize := P.marshalBinary_length t encoded hencoded
      rw [Option.getD_some]
      omega
  have hwr : writeFingerprintTime P = fun t => frame ((P.marshalBinary t).getD []) := by
    funext t
    rw [writeFingerprintTime]
    cases P.marshalBinary t <;> rfl
  rw [hwr]
  refine (Spells.frame hlen).read fun t u => ⟨fun h => ?_, fun h => by rw [h]⟩
  cases ht : P.marshalBinary t with
  | none =>
    cases hu : P.marshalBinary u with
    | none => rfl
    | some encoded =>
      rw [ht, hu, Option.getD_none, Option.getD_some] at h
      have hsize := P.marshalBinary_length u encoded hu
      simp [← h] at hsize
  | some encoded =>
    cases hu : P.marshalBinary u with
    | none =>
      rw [ht, hu, Option.getD_none, Option.getD_some] at h
      have hsize := P.marshalBinary_length t encoded ht
      simp [h] at hsize
    | some encoded' => rw [ht, hu, Option.getD_some, Option.getD_some] at h; rw [h]

theorem spells_a9 : Spells (fingerprintA9 P) (A9RouteSnapshot.mapTime P.marshalBinary) := by
  refine ((spells_bytes16.comp A9RouteSnapshot.installationBindingID).append <| (spells_bytes16.comp
    A9RouteSnapshot.sequencerEpoch).append <| (spells_uint64.comp
    A9RouteSnapshot.subscriptionGeneration).append <| (spells_bytes16.comp
    A9RouteSnapshot.bindingID).append <| (spells_uint64.comp A9RouteSnapshot.bindingVersion).append
    <| (spells_bytes32.comp A9RouteSnapshot.assertionHash).append <| (spells_uint64.comp
    A9RouteSnapshot.assertionStreamSequence).append <| ((spells_time P).comp
    A9RouteSnapshot.assertionExpiresAt).append <| (spells_uint32.comp
    A9RouteSnapshot.topicKeyEpoch).append <| (spells_bytes32.comp
    A9RouteSnapshot.topicBinding).append <| (spells_uint32.comp
    A9RouteSnapshot.routeKeyEpoch).append <| (spells_uint64.comp
    A9RouteSnapshot.keysetSequence).append <| (spells_bytes32.comp
    A9RouteSnapshot.keysetHash).append <| spells_uint64.comp A9RouteSnapshot.watermarkSequence).read
    fun a b => ?_
  simp only [A9RouteSnapshot.mapTime, A9RouteSnapshot.mk.injEq, Prod.mk.injEq]

theorem spells_route : Spells (fingerprintRoute P) (SecureRoute.mapTime P.marshalBinary) := by
  refine ((spells_field.comp SecureRoute.leaseID).append <|
    (spells_field.comp SecureRoute.routeKey).append <|
    (spells_uint32.comp SecureRoute.routeKeyEpoch).append <|
    (spells_uint32.comp SecureRoute.noncePrefix).append <|
    (spells_uint64.comp SecureRoute.deliverySequence).append <|
    (spells_field.comp SecureRoute.aliasDay).append <|
    (spells_field.comp SecureRoute.routeAlias).append <|
    (spells_field.comp SecureRoute.receiveCapability).append <|
    ((spells_time P).comp SecureRoute.leaseExpiresAt).append <|
    ((spells_time P).comp SecureRoute.controlExpiresAt).append <|
    (spells_uint64.comp SecureRoute.policyEpoch).append <|
    (spells_bool.comp SecureRoute.welcomeAuthorized).append <|
    (spells_field.comp SecureRoute.welcomeAuthorizationID).append <|
    (spells_field.comp SecureRoute.welcomeEnvelopeDigest).append <|
    (spells_optional (spells_a9 P)).comp SecureRoute.a9).read fun a b => ?_
  simp only [SecureRoute.mapTime, SecureRoute.mk.injEq, Prod.mk.injEq]

theorem spells_hmacKey : Spells fingerprintHmacKey fun k => k := by
  refine ((spells_int64.comp HmacKey.thirtyDayPeriodsSinceEpoch).append <|
    spells_field.comp HmacKey.key).read fun a b => ?_
  cases a
  cases b
  simp only [HmacKey.mk.injEq, Prod.mk.injEq]

theorem spells_installation :
    Spells (fingerprintInstallation P)
    fun i => (i.mapTime P.marshalBinary).unversioned := by
  refine ((spells_field.comp Installation.id).append <|
    (spells_field.comp fun i : Installation T => i.deliveryMechanism.kind).append <|
    (spells_field.comp fun i : Installation T => i.deliveryMechanism.token).append <|
    ((spells_time P).comp fun i : Installation T => i.deliveryMechanism.updatedAt).append <|
    spells_int64.comp Installation.payloadFormat).read fun a b => ?_
  simp only [Installation.mapTime, Installation.unversioned, Installation.mk.injEq,
    DeliveryMechanism.mk.injEq, Prod.mk.injEq, and_true, and_assoc]

theorem spells_subscription :
    Spells (fingerprintSubscription P)
    (Subscription.mapTime P.marshalBinary) := by
  refine ((spells_int64.comp Subscription.id).append <| ((spells_time P).comp
    Subscription.createdAt).append <| (spells_field.comp Subscription.installationId).append <|
    (spells_field.comp Subscription.topic).append <| ((spells_optional (spells_topic P)).comp
    Subscription.topicV4).append <| (spells_bool.comp Subscription.isActive).append <|
    (spells_bool.comp Subscription.isSilent).append <| ((spells_optional spells_hmacKey).comp
    Subscription.hmacKey).append <| ((spells_optional spells_int64).comp
    Subscription.expectedHmacKeyPeriod).append <| (spells_optional (spells_route P)).comp
    Subscription.secureRoute).read fun a b => ?_
  simp only [Prod.mk.injEq, Option.map_id', Subscription.mapTime, Subscription.mk.injEq]
  tauto

theorem spells_context : Spells fingerprintContext fun m => m := by
  refine ((spells_field.comp MessageContext.messageType).append <|
    ((spells_optional spells_bool).comp MessageContext.shouldPush).append <|
    ((spells_optional spells_field).comp MessageContext.hmacInputs).append <|
    (spells_optional spells_field).comp MessageContext.senderHmac).read fun a b => ?_
  cases a
  cases b
  simp only [MessageContext.mk.injEq, Prod.mk.injEq, Option.map_id']

/-- The digest's input determines everything that is written. -/
theorem spells_request : Spells (fingerprintInput P) P.written := by
  refine ((spells_field.comp SendRequest.idempotencyKey).append <| (spells_field.comp
    SendRequest.topic).append <| (spells_field.comp SendRequest.topicBytesB64).append <|
    (spells_field.comp SendRequest.encryptedMessage).append <| (spells_int64.comp
    SendRequest.payloadFormat).append <| ((spells_installation P).comp
    SendRequest.installation).append <| ((spells_subscription P).comp
    SendRequest.subscription).append <| spells_context.comp SendRequest.messageContext).read fun a b
    => ?_
  simp only [Prod.mk.injEq, Primitives.written, SendRequest.mapTime, SendRequest.mk.injEq]
  tauto

end Spelling

section Agreement

variable (P : Primitives T D)

theorem A9RouteSnapshot.identity_iff {a b : A9RouteSnapshot T}
    (h : a.mapTime P.marshalBinary = b.mapTime P.marshalBinary) :
    a.mapTime P.timeIdentity = b.mapTime P.timeIdentity ↔
      P.unencoded a.assertionExpiresAt = P.unencoded b.assertionExpiresAt := by
  simp only [A9RouteSnapshot.mapTime, A9RouteSnapshot.mk.injEq] at h
  simp only [A9RouteSnapshot.mapTime, A9RouteSnapshot.mk.injEq, Primitives.timeIdentity,
    Prod.mk.injEq]
  tauto

theorem SecureRoute.identity_iff {a b : SecureRoute T}
    (h : a.mapTime P.marshalBinary = b.mapTime P.marshalBinary) :
    a.mapTime P.timeIdentity = b.mapTime P.timeIdentity ↔
      a.times.map P.unencoded = b.times.map P.unencoded := by
  obtain ⟨_, _, _, _, _, _, _, _, _, _, _, _, _, _, a9⟩ := a
  obtain ⟨_, _, _, _, _, _, _, _, _, _, _, _, _, _, b9⟩ := b
  have ha9 := congrArg SecureRoute.a9 h
  simp only [SecureRoute.mapTime, SecureRoute.mk.injEq] at h ha9
  cases a9 with
  | none =>
    cases b9 with
    | none =>
      simp only [SecureRoute.mapTime, SecureRoute.mk.injEq, SecureRoute.times,
        Primitives.timeIdentity, Prod.mk.injEq, List.map_cons, List.cons.injEq]
      tauto
    | some b9 => simp at ha9
  | some a9 =>
    cases b9 with
    | none => simp at ha9
    | some b9 =>
      have hid := A9RouteSnapshot.identity_iff P (Option.some.inj ha9)
      simp only [SecureRoute.mapTime, SecureRoute.mk.injEq, SecureRoute.times,
        Option.map_some, Option.some.injEq, hid, List.map_cons, List.cons.injEq]
      simp only [Primitives.timeIdentity, Prod.mk.injEq]
      tauto

/-- Requests that are written alike agree when they agree on what is not written. -/
theorem agree_iff {r₁ r₂ : SendRequest T} (h : P.written r₁ = P.written r₂) :
    P.Agree r₁ r₂ ↔ P.OmissionsAgree r₁ r₂ := by
  obtain ⟨_, _, _, _, _, _, ⟨_, ⟨_, _, _, _⟩, _⟩, ⟨_, _, _, _, _, _, _, _, _, a⟩⟩ := r₁
  obtain ⟨_, _, _, _, _, _, ⟨_, ⟨_, _, _, _⟩, _⟩, ⟨_, _, _, _, _, _, _, _, _, b⟩⟩ := r₂
  have hrts := congrArg (fun r => r.subscription.secureRoute) h
  simp only [Primitives.written, SendRequest.mapTime, Installation.mapTime,
    Installation.unversioned, Subscription.mapTime, SendRequest.mk.injEq, Installation.mk.injEq,
    DeliveryMechanism.mk.injEq, Subscription.mk.injEq] at h hrts
  simp only [Primitives.Agree, Primitives.OmissionsAgree, SendRequest.mapTime, Installation.mapTime,
    Subscription.mapTime, SendRequest.mk.injEq, Installation.mk.injEq, DeliveryMechanism.mk.injEq,
    Subscription.mk.injEq, SendRequest.times, List.map_cons, List.cons.injEq]
  cases a with
  | none =>
    cases b with
    | none =>
      simp only [Primitives.timeIdentity, Prod.mk.injEq]
      tauto
    | some b => simp at hrts
  | some a =>
    cases b with
    | none => simp at hrts
    | some b =>
      have hid := SecureRoute.identity_iff P (Option.some.inj hrts)
      simp only [Option.map_some, Option.some.injEq, hid]
      simp only [Primitives.timeIdentity, Prod.mk.injEq]
      tauto

end Agreement

theorem requestFingerprint_eq_iff (P : Primitives T D) (hsha : Function.Injective P.sha256)
    (r₁ r₂ : SendRequest T) :
    requestFingerprint P r₁ = requestFingerprint P r₂ ↔ P.written r₁ = P.written r₂ := by
  rw [requestFingerprint, requestFingerprint, hsha.eq_iff, (spells_request P).eq_iff]

theorem eligible_written (P : Primitives T D) (req : SendRequest T) :
    (P.written req).eligible P = req.eligible P := by
  obtain ⟨_, _, _, _, _, _, _, ⟨_, _, _, _, _, _, _, _, _, route⟩⟩ := req
  cases route <;> rfl

section Invariant

variable (P : Primitives T D)

/-- The authorization at an address carries the fingerprint of a request. -/
def PolicyState.Bound (s : PolicyState T D) (address : Nat) (req : SendRequest T) : Prop :=
  ∃ authorization, s.authorizations[address]? = some authorization ∧
    authorization.fingerprint = requestFingerprint P req

/-- What holds of every state: authorizations are bound to the requests they were issued for,
calls about to swap and calls that were allowed met a bound authorization, and an authorization is
consumed exactly when a call on it was allowed. -/
structure PolicyState.Sound (s : PolicyState T D) : Prop where
  issued : ∀ issue ∈ s.issued, s.Bound P issue.1 issue.2 ∧ issue.2.eligible P
  calls : ∀ call address req, s.calls call = some (address, req) → s.Bound P address req
  answers : ∀ address req, (some address, req, true) ∈ s.answers → s.Bound P address req
  once : ∀ address, s.allowed (some address) = match s.authorizations[address]? with
    | none => 0
    | some authorization => authorization.consumed.toNat

namespace PolicyState

variable {P} {s s' : PolicyState T D} {address : Nat} {req : SendRequest T}
  {authorization : DeliveryAuthorization D}

/-- Authorizations keep their addresses and fingerprints. -/
def Extends (s s' : PolicyState T D) : Prop :=
  ∀ (address : Nat) (authorization : DeliveryAuthorization D),
    s.authorizations[address]? = some authorization → ∃ authorization' : DeliveryAuthorization D,
        s'.authorizations[address]? = some authorization' ∧
          authorization'.fingerprint = authorization.fingerprint

theorem Bound.extend (h : s.Bound P address req) (hext : s.Extends s') :
    s'.Bound P address req := by
  obtain ⟨authorization, hat, hfp⟩ := h
  obtain ⟨authorization', hat', hsame⟩ := hext address authorization hat
  exact ⟨authorization', hat', hsame.trans hfp⟩

theorem extends_issue (s : PolicyState T D) (fingerprint : D) (req : SendRequest T) :
    s.Extends (s.issue fingerprint req) := by
  intro address authorization hat
  obtain ⟨hlt, -⟩ := List.getElem?_eq_some_iff.mp hat
  refine ⟨authorization, ?_, rfl⟩
  rw [issue, List.getElem?_append_left hlt]
  exact hat

theorem consume_self (hat : s.authorizations[address]? = some authorization) :
    (s.consume address authorization).authorizations[address]? =
      some { authorization with consumed := true } := by
  obtain ⟨hlt, -⟩ := List.getElem?_eq_some_iff.mp hat
  rw [consume, List.getElem?_set_self hlt]

theorem consume_of_ne {address' : Nat} (hne : address ≠ address')
    (authorization : DeliveryAuthorization D) :
    (s.consume address authorization).authorizations[address']? = s.authorizations[address']? := by
  rw [consume, List.getElem?_set_ne hne]

theorem extends_consume (hat : s.authorizations[address]? = some authorization) :
    s.Extends (s.consume address authorization) := by
  intro address' authorization' hat'
  by_cases hsame : address = address'
  · subst hsame
    rw [hat] at hat'
    cases hat'
    exact ⟨_, consume_self hat, rfl⟩
  · exact ⟨authorization', by rw [consume_of_ne hsame, hat'], rfl⟩

theorem Sound.answer_false (h : s.Sound P) (ctx : Context) (req : SendRequest T) :
    (s.answer ctx req false).Sound P where
  issued := h.issued
  calls := h.calls
  answers address r hmem := by
    rcases List.mem_cons.mp hmem with heq | hmem
    · cases heq
    · exact h.answers address r hmem
  once address := by
    have hallowed : (s.answer ctx req false).allowed (some address) = s.allowed (some address) := by
      simp [allowed, answer]
    rw [hallowed]
    exact h.once address

theorem Sound.setCall (h : s.Sound P) (call : Nat) {state : Option (Nat × SendRequest T)}
    (hst : ∀ address req, state = some (address, req) → s.Bound P address req) :
    (s.setCall call state).Sound P := by
  refine ⟨h.issued, ?_, h.answers, h.once⟩
  intro call' address req hcall
  change Function.update s.calls call state call' = some (address, req) at hcall
  by_cases hsame : call' = call
  · rw [hsame, Function.update_self] at hcall
    exact hst address req hcall
  · rw [Function.update_of_ne hsame] at hcall
    exact h.calls call' address req hcall

theorem Sound.issue (h : s.Sound P) (heligible : req.eligible P) :
    (s.issue (requestFingerprint P req) req).Sound P := by
  have hext := extends_issue s (requestFingerprint P req) req
  refine ⟨?_, ?_, ?_, ?_⟩
  · intro issue hissue
    rcases List.mem_cons.mp hissue with rfl | hissue
    · exact ⟨⟨_, List.getElem?_concat_length, rfl⟩, heligible⟩
    · obtain ⟨hbd, helig⟩ := h.issued issue hissue
      exact ⟨hbd.extend hext, helig⟩
  · intro call address r hcall
    exact (h.calls call address r hcall).extend hext
  · intro address r hans
    exact (h.answers address r hans).extend hext
  · intro address
    have honce := h.once address
    rw [PolicyState.issue]
    by_cases hlt : address < s.authorizations.length
    · rw [List.getElem?_append_left hlt]
      exact honce
    · rw [List.getElem?_eq_none (Nat.le_of_not_lt hlt)] at honce
      rw [List.getElem?_append_right (Nat.le_of_not_lt hlt)]
      -- The new authorization is unconsumed, and there is none behind it.
      cases address - s.authorizations.length with
      | _ => exact honce

/-- Taking an unconsumed authorization and answering `true`. -/
theorem Sound.consume (h : s.Sound P) (hat : s.authorizations[address]? = some authorization)
    (hfp : authorization.fingerprint = requestFingerprint P req)
    (hunco : authorization.consumed = false) :
    ((s.consume address authorization).answer (some address) req true).Sound P := by
  have hext := extends_consume hat
  refine ⟨?_, ?_, ?_, ?_⟩
  · intro issue hissue
    obtain ⟨hbd, helig⟩ := h.issued issue hissue
    exact ⟨hbd.extend hext, helig⟩
  · intro call address' r hcall
    exact (h.calls call address' r hcall).extend hext
  · intro address' r hans
    rcases List.mem_cons.mp hans with heq | hans
    · cases heq
      exact ⟨_, consume_self hat, hfp⟩
    · exact (h.answers address' r hans).extend hext
  · intro address'
    have honce := h.once address'
    have hallowed : ((s.consume address authorization).answer (some address) req true).allowed
        (some address') = s.allowed (some address') + if address = address' then 1 else 0 := by
      simp [allowed, answer, PolicyState.consume, List.countP_cons]
    rw [hallowed, honce]
    by_cases hsame : address = address'
    · subst hsame
      rw [PolicyState.answer, consume_self hat, hat, if_pos rfl]
      simp [hunco]
    · rw [PolicyState.answer, consume_of_ne hsame, if_neg hsame, Nat.add_zero]

theorem Sound.compareAndSwap (h : s.Sound P) {call : Nat}
    (hstep : compareAndSwap s call = some s') : s'.Sound P := by
  simp only [Push.compareAndSwap] at hstep
  split at hstep
  · cases hstep
  next address req hcall =>
    split at hstep
    · cases hstep
    next authorization hat =>
      have hretu : (s.setCall call none).Sound P := h.setCall call fun _ _ hnone => by cases hnone
      split at hstep
      · cases hstep
        exact hretu.answer_false (some address) req
      next hunco =>
        cases hstep
        obtain ⟨authorization', hat', hfp⟩ := h.calls call address req hcall
        rw [hat] at hat'
        cases hat'
        exact hretu.consume hat hfp (by simpa using hunco)

variable [DecidableEq D]

theorem Sound.allowsDelivery (h : s.Sound P) {call : Nat} {ctx : Context}
    (hstep : allowsDelivery P s call ctx req = some s') : s'.Sound P := by
  simp only [Push.allowsDelivery] at hstep
  split at hstep
  · cases hstep
    exact h.answer_false ctx req
  · split at hstep
    · cases hstep
      exact h.answer_false none req
    next address =>
      split at hstep
      · cases hstep
      next authorization hat =>
        split at hstep
        · cases hstep
          exact h.answer_false (some address) req
        next hfp =>
          split at hstep
          · cases hstep
          · cases hstep
            refine h.setCall call fun address' r hst => ?_
            cases hst
            exact ⟨authorization, hat, not_not.mp hfp⟩

theorem sound_step {event : PolicyEvent T} (h : s.Sound P) (hstep : (system P).step s event s') :
    s'.Sound P := by
  cases event with
  | authorizeDelivery req =>
    cases hstep
    rw [Push.authorizeDelivery]
    split
    next helig => exact h.issue helig
    next => exact h
  | allowsDelivery call ctx req => exact h.allowsDelivery hstep
  | compareAndSwap call => exact h.compareAndSwap hstep

theorem sound_of_reachable (h : (system P).Reachable s) : s.Sound P := by
  refine h.invariant ?_ fun s event s' _ hs hstep => sound_step hs hstep
  rintro s ⟨hauth, hcl, hiss, hanswers⟩
  refine ⟨?_, ?_, ?_, ?_⟩
  · intro issue hissue
    simp [hiss] at hissue
  · intro call address req hcall
    simp [hcl] at hcall
  · intro address req hans
    simp [hanswers] at hans
  · intro address
    simp [hauth, allowed, hanswers]

/-- An authorized request and another that is written alike: the second is allowed. -/
theorem exists_allowed {r₁ r₂ : SendRequest T} (helig : r₁.eligible P)
    (hwr : P.written r₁ = P.written r₂) :
    ∃ s, (system P).Reachable s ∧ (0, r₁) ∈ s.issued ∧ (some 0, r₂, true) ∈ s.answers := by
  have helig2 : r₂.eligible P := by
    rwa [← eligible_written, ← hwr, eligible_written]
  have hfp : requestFingerprint P r₁ = requestFingerprint P r₂ :=
    congrArg P.sha256 (((spells_request P).eq_iff r₁ r₂).mpr hwr)
  have hinit : (system P).init ⟨[], fun _ => none, [], []⟩ := ⟨rfl, fun _ => rfl, rfl, rfl⟩
  have hauth : (system P).step ⟨[], fun _ => none, [], []⟩ (.authorizeDelivery r₁)
      (PolicyState.issue ⟨[], fun _ => none, [], []⟩ (requestFingerprint P r₁) r₁) := by
    simp [system, perform, Push.authorizeDelivery, helig]
  set issued : PolicyState T D :=
    PolicyState.issue ⟨[], fun _ => none, [], []⟩ (requestFingerprint P r₁) r₁
  have hat : issued.authorizations[0]? = some ⟨requestFingerprint P r₁, false⟩ := rfl
  have hallows : (system P).step issued (.allowsDelivery 0 (some 0) r₂)
      (issued.setCall 0 (some (0, r₂))) := by
    have hidle : issued.calls 0 = none := rfl
    simp [system, perform, Push.allowsDelivery, helig2, hat, hfp, hidle]
  have hcall : (issued.setCall 0 (some (0, r₂))).calls 0 = some (0, r₂) := by
    simp [PolicyState.setCall]
  have hswap : (system P).step (issued.setCall 0 (some (0, r₂))) (.compareAndSwap 0)
      ((((issued.setCall 0 (some (0, r₂))).setCall 0 none).consume 0
        ⟨requestFingerprint P r₁, false⟩).answer (some 0) r₂ true) := by
    have hat' : (issued.setCall 0 (some (0, r₂))).authorizations[0]? =
      some ⟨requestFingerprint P r₁, false⟩ := hat
    simp [system, perform, Push.compareAndSwap, hcall, hat']
  exact ⟨_, ((Machine.Reachable.init hinit).step hauth |>.step hallows).step hswap,
    List.mem_cons_self, .head _⟩

end PolicyState

/-- A context authorized for one request is good for another only if they agree on every field, and
for one call, exactly if the first cannot be authorized, the two differ in something the
fingerprint covers, or they agree on what it leaves out. -/
theorem authorization_binds_iff [DecidableEq D] (hsha : Function.Injective P.sha256)
    (r₁ r₂ : SendRequest T) :
    (∀ s, (system P).Reachable s → ∀ address, (address, r₁) ∈ s.issued →
      ((some address, r₂, true) ∈ s.answers → P.Agree r₁ r₂) ∧ s.allowed (some address) ≤ 1) ↔
    (r₁.eligible P → P.written r₁ = P.written r₂ → P.OmissionsAgree r₁ r₂) := by
  constructor
  · intro hbinds helig hwr
    obtain ⟨s, hs, hiss, hans⟩ := PolicyState.exists_allowed helig hwr
    exact (agree_iff P hwr).mp ((hbinds s hs 0 hiss).1 hans)
  · intro hagree s hs address hiss
    have hsound := PolicyState.sound_of_reachable hs
    obtain ⟨⟨authorization, hat, hfp⟩, helig⟩ := hsound.issued _ hiss
    refine ⟨fun hans => ?_, ?_⟩
    · obtain ⟨authorization', hat', hfp'⟩ := hsound.answers address r₂ hans
      rw [hat] at hat'
      cases hat'
      have hwr : P.written r₁ = P.written r₂ :=
        (requestFingerprint_eq_iff P hsha r₁ r₂).mp (hfp.symm.trans hfp')
      exact (agree_iff P hwr).mpr (hagree helig hwr)
    · rw [hsound.once address, hat]
      exact Bool.toNat_le authorization.consumed

end Invariant

namespace PolicySample

/-- Times are numbers, zero without a binary form; the digest is its input. -/
def primitives : Primitives Nat Bytes where
  marshalBinary t := if t = 0 then none else some (bigEndian 15 t)
  marshalBinary_length t encoded h := by
    split at h
    · cases h
    · cases h
      exact Or.inl (bigEndian_length 15 t)
  topicBytes topic := topic.kind :: topic.identifier.val
  topicBytes_injective := by
    rintro ⟨kind, identifier⟩ ⟨kind', identifier'⟩ h
    simpa [Subtype.ext_iff] using h
  topicBytes_length topic := by
    have hlen := topic.identifier.property
    rw [List.length_cons]
    omega
  hmacSHA256 _ _ := []
  sha256 input := input

def text (bytes : Bytes) (h : bytes.length < 2 ^ 63 := by decide) : Slice := ⟨bytes, h⟩

/-- A Welcome on a silent secure route, to a token of the given registration version. -/
def welcome (registrationVersion : Int64) : SendRequest Nat where
  idempotencyKey := text [1]
  topic := text [2]
  topicBytesB64 := text []
  encryptedMessage := text [3]
  payloadFormat := 1
  messageContext := ⟨⟨v3Welcome, by decide +kernel⟩, none, none, none⟩
  installation := ⟨text [4], ⟨text [5], text [6], 1, registrationVersion⟩, 1⟩
  subscription :=
    { id := 7
      createdAt := 2
      installationId := text [4]
      topic := text [2]
      topicV4 := none
      isActive := true
      isSilent := true
      expectedHmacKeyPeriod := none
      hmacKey := none
      secureRoute := some
        { leaseID := text [8]
          routeKey := text [9]
          routeKeyEpoch := 1
          noncePrefix := 1
          deliverySequence := 0
          aliasDay := text []
          routeAlias := text []
          receiveCapability := text []
          leaseExpiresAt := 3
          controlExpiresAt := 3
          policyEpoch := 1
          welcomeAuthorized := true
          welcomeAuthorizationID := text [10]
          welcomeEnvelopeDigest := text [11]
          a9 := none } }

/-- The same Welcome for another topic. -/
def retargeted : SendRequest Nat := { welcome 1 with topic := text [12] }

end PolicySample

open PolicySample

/-- An authorization issued for one registration of a token is taken by a request that carries the
next one. -/
theorem registration_version_not_bound :
    ∃ s, (system primitives).Reachable s ∧ (0, welcome 1) ∈ s.issued ∧
      (some 0, welcome 2, true) ∈ s.answers ∧ ¬ primitives.Agree (welcome 1) (welcome 2) := by
  have helig : (welcome 1).eligible primitives := by decide +kernel
  have hwr : primitives.written (welcome 1) = primitives.written (welcome 2) := rfl
  obtain ⟨s, hs, hiss, hans⟩ := PolicyState.exists_allowed helig hwr
  refine ⟨s, hs, hiss, hans, ?_⟩
  rw [agree_iff primitives hwr]
  rintro ⟨hver, -⟩
  cases hver

/-- Requests that differ in their topic, under a digest that is its input. -/
theorem authorization_binds_sample :
    Function.Injective primitives.sha256 ∧ (welcome 1).eligible primitives ∧
    primitives.written (welcome 1) ≠ primitives.written retargeted ∧
    (∀ s, (system primitives).Reachable s → ∀ address, (address, welcome 1) ∈ s.issued →
      ((some address, retargeted, true) ∈ s.answers → primitives.Agree (welcome 1) retargeted) ∧
        s.allowed (some address) ≤ 1) := by
  have hdiffers : primitives.written (welcome 1) ≠ primitives.written retargeted := by
    intro h
    have htopic : ([2] : Bytes) = [12] := congrArg (fun r => r.topic.1) h
    cases htopic
  exact ⟨fun _ _ h => h, by decide +kernel, hdiffers,
    (authorization_binds_iff primitives (fun _ _ h => h) (welcome 1) retargeted).mpr
      fun _ hwr => absurd hwr hdiffers⟩

end NotificationServer.Push
