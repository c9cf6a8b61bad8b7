import NotificationServer.Gate8.Sealing
import NotificationServer.Push.SecurePayload

/-!
# The size callback computes the final length

A payload's length depends on its ciphertext through the length alone, since no
character of the Base64url alphabet is escaped, and the ciphertext has the length
the estimate of its frame gives.  So the payload is as long as the one the size
callback marshalled with a placeholder.
-/

namespace NotificationServer.Push

open Framing Trust Gate8

theorem base64URLByte_unescaped : ∀ n < 64, jsonByte (base64URLByte n) = [base64URLByte n] := by
  decide +kernel

theorem rawURLEncode_length (bytes : Bytes) :
    (rawURLEncode bytes).length = rawURLEncodedLen bytes.length := by
  fun_induction rawURLEncode bytes with
  | case1 => rfl
  | case2 a =>
    show 2 = rawURLEncodedLen 1
    decide
  | case3 a b =>
    show 3 = rawURLEncodedLen 2
    decide
  | case4 a b c rest ih =>
    simp only [List.length_cons, ih, rawURLEncodedLen]
    omega

theorem rawURLEncode_unescaped (bytes : Bytes) : ∀ c ∈ rawURLEncode bytes, jsonByte c = [c] := by
  have hbyte : ∀ b : UInt8, b.toNat < 256 := fun b => b.toNat_lt
  fun_induction rawURLEncode bytes with
  | case1 => exact nofun
  | case2 a =>
    have ha := hbyte a
    simp only [List.forall_mem_cons]
    exact ⟨base64URLByte_unescaped _ (by omega), base64URLByte_unescaped _ (by omega), nofun⟩
  | case3 a b =>
    have ha := hbyte a
    have hb := hbyte b
    simp only [List.forall_mem_cons]
    exact ⟨base64URLByte_unescaped _ (by omega), base64URLByte_unescaped _ (by omega),
      base64URLByte_unescaped _ (by omega), nofun⟩
  | case4 a b c rest ih =>
    have ha := hbyte a
    have hb := hbyte b
    have hc := hbyte c
    simp only [List.forall_mem_cons]
    exact ⟨base64URLByte_unescaped _ (by omega), base64URLByte_unescaped _ (by omega),
      base64URLByte_unescaped _ (by omega), base64URLByte_unescaped _ (by omega), ih⟩

theorem jsonString_length {text : Bytes} (h : ∀ c ∈ text, jsonByte c = [c]) :
    (jsonString text).length = text.length + 2 := by
  have hself : text.flatMap jsonByte = text := by
    induction text with
    | nil => rfl
    | cons c text ih =>
      rw [List.flatMap_cons, h c List.mem_cons_self, ih fun b hb => h b (.tail _ hb),
        List.singleton_append]
  rw [jsonString, hself, List.length_append, List.length_append, List.length_singleton]
  omega

/-- Two ciphertexts of one length, without escapes, marshal to payloads of one length. -/
theorem marshalSecurePayload_length (compact : Bytes → Option Bytes) (header : Bytes)
    (silent : Bool) {x y : Bytes} (hx : ∀ c ∈ x, jsonByte c = [c])
    (hy : ∀ c ∈ y, jsonByte c = [c]) (hlen : x.length = y.length) :
    (marshalSecurePayload compact header x silent).map List.length =
      (marshalSecurePayload compact header y silent).map List.length := by
  unfold marshalSecurePayload
  cases compact header with
  | none => rfl
  | some compacted =>
    simp only [Option.map_some, List.length_append, jsonString_length hx, jsonString_length hy,
      hlen]

/-- The callback's length is that of every payload whose ciphertext has the estimated length. -/
theorem candidateLength_eq (compact : Bytes → Option Bytes) (header : Bytes) (silent : Bool)
    {estimate : SizeEstimate} {ciphertext : Bytes}
    (h : ciphertext.length = estimate.sealedCiphertextBytes) :
    candidateLength compact header silent estimate =
      (marshalSecurePayload compact header (rawURLEncode ciphertext) silent).map List.length := by
  refine marshalSecurePayload_length compact header silent ?_ (rawURLEncode_unescaped _) ?_
  · intro c hc
    rw [(List.mem_replicate.mp hc).2]
    decide
  · rw [List.length_replicate, rawURLEncode_length, h]

variable {D : Type} {P : Gate8.Primitives D} {compact : Bytes → Option Bytes}

theorem securePayload_ok {prepared : SecurePrepared} {wrapped : Envelope} {payload : Bytes}
    (h : securePayload compact prepared wrapped = .ok payload) :
    wrapped.header.canonicalAAD = .ok prepared.headerAAD ∧
      marshalSecurePayload compact prepared.headerAAD (rawURLEncode wrapped.ciphertext)
        prepared.silent = some payload ∧ payload.length < maxAPNSPayloadBytes := by
  unfold securePayload at h
  obtain ⟨actualAAD, haad, h⟩ := Except.bind_eq_ok.mp h
  obtain ⟨_, hsame, h⟩ := Except.bind_eq_ok.mp h
  have hequal : actualAAD = prepared.headerAAD := by
    by_contra hne
    rw [refuse, if_pos hne] at hsame
    cases hsame
  rw [← hequal]
  refine ⟨mapError_ok.mp haad, ?_⟩
  split at h
  · cases h
  next payload' hmarshal =>
  split at h
  · cases h
  · next hlen =>
    cases h
    exact ⟨hmarshal, not_le.mp hlen⟩

/-- The ciphertext of a sealed plaintext has the length of its estimate. -/
theorem sealed_length (request : SealRequest) (p : Plaintext) (aadBytes : Nat) :
    (P.ciphertext (P.sealCall request p)).length = (p.estimate aadBytes).sealedCiphertextBytes := by
  rw [Primitives.ciphertext, P.gcmSeal_length]
  show (frameBytes p).length + gcmTagBytes = _
  rw [frameBytes_length]
  rfl

/-- A notification's payload is as long as the size callback computed for the mode that was
sealed, and below the limit. -/
theorem secure_payload_length (P : Gate8.Primitives D) (compact : Bytes → Option Bytes)
    (topicBytes : Topic → Bytes) (utcDayText : Time → String) (d : SecureDelivery)
    (req : SendRequest Time) {notification : SecureNotification}
    (h : buildSecureNotification P compact topicBytes utcDayText d req = .ok notification) :
    ∃ prepared call p estimate, prepareSecure P compact topicBytes utcDayText d req = .ok prepared ∧
      gcmCalls (P.sealEnvelope prepared.request).events = [call] ∧
      decodePlaintext call.plaintext = .ok p ∧ estimate.mode = p.deliveryMode ∧
      .fits estimate ∈ (P.sealEnvelope prepared.request).events ∧
      candidateLength compact prepared.headerAAD prepared.silent estimate =
        some notification.payload.length ∧
      notification.payload.length < maxAPNSPayloadBytes := by
  unfold buildSecureNotification at h
  obtain ⟨prepared, hprep, h⟩ := Except.bind_eq_ok.mp h
  obtain ⟨wrapped, hwrapped, h⟩ := Except.bind_eq_ok.mp h
  obtain ⟨payload, hpayload, h⟩ := Except.bind_eq_ok.mp h
  cases h
  have hres := mapError_ok.mp hwrapped
  obtain ⟨haad, hmarshal, hlimit⟩ := securePayload_ok hpayload
  rcases P.sealEnvelope_cases prepared.request with ⟨e, herror, -⟩ | ⟨p, hsealed⟩
  · rw [herror] at hres
    cases hres
  · rw [hsealed.result] at hres
    cases hres
    obtain ⟨fits, -, hasked, -⟩ := hsealed.asked
    refine ⟨prepared, _, p, _, hprep, hsealed.calls, decodePlaintext_frameBytes hsealed.sizes,
      rfl, hasked, ?_, hlimit⟩
    rw [candidateLength_eq compact prepared.headerAAD prepared.silent (sealed_length _ _ _),
      hmarshal]
    rfl

namespace PayloadSample

theorem nil_fits : ([] : Bytes).length < 2 ^ 63 := by decide

def bytes (value : Bytes) : Slice :=
  if h : value.length < 2 ^ 63 then ⟨value, h⟩ else ⟨[], nil_fits⟩

def delivery : SecureDelivery :=
  { secureEnvironment := "", topic := "app", now := 0, random := [1, 7, 0] }

/-- A conversation message of one byte on a route without A9. -/
def conversation : SendRequest Time where
  idempotencyKey := bytes []
  topic := bytes []
  topicBytesB64 := bytes []
  encryptedMessage := bytes [3]
  payloadFormat := 1
  messageContext := ⟨⟨v3Conversation, by decide +kernel⟩, some true, none, none⟩
  installation := ⟨bytes [4], ⟨bytes [5], bytes [6], 1, 1⟩, 1⟩
  subscription :=
    { id := 7, createdAt := 0, installationId := bytes [4], topic := bytes []
      topicV4 := some ⟨0, bytes [1]⟩, isActive := true, isSilent := false
      expectedHmacKeyPeriod := none, hmacKey := none
      secureRoute := some
        { leaseID := bytes [8], routeKey := bytes (List.replicate 32 7), routeKeyEpoch := 1
          noncePrefix := 1, deliverySequence := 0
          aliasDay := ⟨textBytes "1970-01-01", by decide +kernel⟩
          routeAlias := bytes (List.replicate 16 0), receiveCapability := bytes [9]
          leaseExpiresAt := 1, controlExpiresAt := 1, policyEpoch := 1
          welcomeAuthorized := false, welcomeAuthorizationID := bytes []
          welcomeEnvelopeDigest := bytes [], a9 := none } }

def topicBytes (topic : Topic) : Bytes := topic.kind :: topic.identifier.val

def built : Except SecurePayloadError SecureNotification :=
  buildSecureNotification SealSample.primitives some topicBytes (fun _ => "1970-01-01") delivery
    conversation

end PayloadSample

open PayloadSample in
/-- A conversation message goes inline in a payload of 321 bytes. -/
theorem secure_payload_conversation :
    ∃ prepared call p estimate,
      prepareSecure SealSample.primitives some topicBytes (fun _ => "1970-01-01") delivery
        conversation = .ok prepared ∧
      gcmCalls (SealSample.primitives.sealEnvelope prepared.request).events = [call] ∧
      decodePlaintext call.plaintext = .ok p ∧ estimate.mode = p.deliveryMode ∧
      .fits estimate ∈ (SealSample.primitives.sealEnvelope prepared.request).events ∧
      candidateLength some prepared.headerAAD prepared.silent estimate = some 321 ∧
      321 < maxAPNSPayloadBytes := by
  have hlen : (built.toOption.map fun n => n.payload.length) = some 321 := by decide +kernel
  obtain ⟨notification, hbuilt, hpayload⟩ := Option.map_eq_some_iff.mp hlen
  have hok : built = .ok notification := by
    cases hres : built with
    | error e =>
      rw [hres] at hbuilt
      cases hbuilt
    | ok n =>
      rw [hres] at hbuilt
      exact congrArg Except.ok (Option.some.inj hbuilt)
  have hlengths := secure_payload_length SealSample.primitives some topicBytes
    (fun _ => "1970-01-01") delivery conversation hok
  rwa [hpayload] at hlengths

end NotificationServer.Push
