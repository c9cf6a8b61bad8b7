import NotificationServer.Gate8.Canonical

/-!
# The choice of the delivery mode

What a call of `Seal` with valid inputs does: which size estimates it shows to
the callback, which frame it encrypts, and when it fails.  An envelope without a
message never reaches the fallback: the inline estimate is computed before its
length is looked at, and its own length check refuses it.
-/

namespace NotificationServer.Gate8

open Trust Framing
open Traced (emit lift fail)

/-- Inputs that pass the checks of `Seal`, the length of the message included. -/
structure SealRequest.ValidInputs (request : SealRequest) : Prop where
  route : validateRouteInputs request.routeKey request.topic request.environment
    request.aliasDay = .ok ()
  routeKeyEpoch : request.routeKeyEpoch ≠ 0
  deliverySequence : request.deliverySequence.toNat ≤ maxCanonicalInteger
  capability_pos : 0 < request.capability.length
  capability_le : request.capability.length ≤ maxCapabilityBytes
  xmtpEnvelope_le : request.xmtpEnvelope.length ≤ maxXMTPCiphertextBytes
  inlinePadding_le : request.inlinePadding.length ≤ maxPaddingBytes
  foregroundPadding_le : request.foregroundPadding.length ≤ maxPaddingBytes

def gcmCalls {D : Type} (events : List (SealEvent D)) : List (GcmCall D) :=
  events.filterMap fun
    | .gcm call => some call
    | _ => none

@[simp] theorem gcmCalls_append {D : Type} (xs ys : List (SealEvent D)) :
    gcmCalls (xs ++ ys) = gcmCalls xs ++ gcmCalls ys := List.filterMap_append

theorem askFits_bind {D α : Type} {fits : SizeEstimate → Bool} {estimate : SizeEstimate}
    {f : Bool → Sealing D α} :
    askFits fits estimate >>= f =
      ⟨.fits estimate :: (f (fits estimate)).events, (f (fits estimate)).result⟩ :=
  Traced.bind_of_ok rfl

def frameEstimate (mode : DeliveryMode) (aadBytes capability message padding : Nat) :
    SizeEstimate :=
  { mode := mode, headerAADBytes := aadBytes
    innerPlaintextBytes := innerFrameFixedBytes + capability + message + padding
    sealedCiphertextBytes := innerFrameFixedBytes + capability + message + padding + gcmTagBytes
    standardBase64CiphertextBytes :=
      base64EncodedLen (innerFrameFixedBytes + capability + message + padding + gcmTagBytes) }

theorem estimateSize_of_sizes {mode : DeliveryMode} {capability message padding : Nat}
    (h : FrameSizes mode capability message padding) (aadBytes : Nat) :
    estimateSize mode aadBytes capability message padding =
      .ok (frameEstimate mode aadBytes capability message padding) := by
  unfold estimateSize
  rw [validatePlaintextLengths_ok.mpr h]
  rfl

def Plaintext.estimate (p : Plaintext) (aadBytes : Nat) : SizeEstimate :=
  frameEstimate p.deliveryMode aadBytes p.capability.length p.xmtpEnvelope.length
    p.randomPadding.length

namespace SealRequest

variable {request : SealRequest}

theorem ValidInputs.inlineSizes (h : request.ValidInputs) (hmsg : request.xmtpEnvelope ≠ []) :
    request.inlinePlaintext.Sizes :=
  ⟨h.capability_pos, h.capability_le, h.xmtpEnvelope_le, h.inlinePadding_le,
    .inl ⟨rfl, List.length_pos_iff.mpr hmsg⟩⟩

theorem ValidInputs.foregroundSizes (h : request.ValidInputs) : request.foregroundPlaintext.Sizes :=
  ⟨h.capability_pos, h.capability_le, Nat.zero_le _, h.foregroundPadding_le, .inr ⟨rfl, rfl⟩⟩

/-- The inline estimate refuses an empty message. -/
theorem estimateSize_inline_empty (h : request.ValidInputs) (hmsg : request.xmtpEnvelope = [])
    (aadBytes : Nat) :
    estimateSize .ciphertextInline aadBytes request.capability.length request.xmtpEnvelope.length
      request.inlinePadding.length = .error .invalidPayload := by
  have hcap := h.capability_pos
  have hle := h.capability_le
  have hpad := h.inlinePadding_le
  have hpos : ¬ request.capability.length = 0 := by omega
  have hsz : ¬ (maxCapabilityBytes < request.capability.length ∨ maxXMTPCiphertextBytes < 0 ∨
      maxPaddingBytes < request.inlinePadding.length) := by omega
  unfold estimateSize validatePlaintextLengths
  rw [hmsg, List.length_nil, reject_of_not hpos, reject_of_not hsz]
  rfl

variable {D : Type} {fits : SizeEstimate → Bool} {aadBytes : Nat}

theorem choosePlaintext_empty (h : request.ValidInputs) (hmsg : request.xmtpEnvelope = []) :
    request.choosePlaintext (D := D) fits aadBytes = fail .invalidPayload :=
  Traced.lift_bind_of_error (estimateSize_inline_empty h hmsg aadBytes)

theorem chooseForeground_eq (h : request.ValidInputs) :
    request.chooseForeground (D := D) fits aadBytes =
      ⟨[.fits (request.foregroundPlaintext.estimate aadBytes)],
        if fits (request.foregroundPlaintext.estimate aadBytes) = true then
          .ok request.foregroundPlaintext
        else .error .payloadTooLarge⟩ := by
  have hest : estimateSize .foregroundSync aadBytes request.capability.length 0
      request.foregroundPadding.length = .ok (request.foregroundPlaintext.estimate aadBytes) :=
    estimateSize_of_sizes h.foregroundSizes aadBytes
  unfold chooseForeground
  rw [Traced.lift_bind_of_ok hest, askFits_bind]
  cases fits (request.foregroundPlaintext.estimate aadBytes) with
  | _ => rfl

theorem choosePlaintext_message (h : request.ValidInputs) (hmsg : request.xmtpEnvelope ≠ []) :
    request.choosePlaintext (D := D) fits aadBytes =
      if fits (request.inlinePlaintext.estimate aadBytes) = true then
        ⟨[.fits (request.inlinePlaintext.estimate aadBytes)], .ok request.inlinePlaintext⟩
      else
        ⟨[.fits (request.inlinePlaintext.estimate aadBytes),
            .fits (request.foregroundPlaintext.estimate aadBytes)],
          if fits (request.foregroundPlaintext.estimate aadBytes) = true then
            .ok request.foregroundPlaintext
          else .error .payloadTooLarge⟩ := by
  have hest : estimateSize .ciphertextInline aadBytes request.capability.length
      request.xmtpEnvelope.length request.inlinePadding.length =
      .ok (request.inlinePlaintext.estimate aadBytes) :=
    estimateSize_of_sizes (h.inlineSizes hmsg) aadBytes
  have hlen : ¬ request.xmtpEnvelope.length = 0 :=
    fun hzero => hmsg (List.length_eq_zero_iff.mp hzero)
  unfold choosePlaintext askInline
  rw [Traced.lift_bind_of_ok hest, if_neg hlen, askFits_bind, chooseForeground_eq h]
  cases fits (request.inlinePlaintext.estimate aadBytes) with
  | _ => rfl

/-- The callback is asked before anything is encrypted. -/
theorem gcmCalls_choosePlaintext (h : request.ValidInputs) :
    gcmCalls (request.choosePlaintext (D := D) fits aadBytes).events = [] := by
  by_cases hmsg : request.xmtpEnvelope = []
  · rw [choosePlaintext_empty h hmsg]
    rfl
  · rw [choosePlaintext_message h hmsg]
    split
    · rfl
    · rfl

/-- What is chosen is the plaintext of the inline mode or of the fallback, and a frame. -/
theorem choosePlaintext_chosen (h : request.ValidInputs) {p : Plaintext}
    (hch : (request.choosePlaintext (D := D) fits aadBytes).result = .ok p) :
    (p = request.inlinePlaintext ∨ p = request.foregroundPlaintext) ∧ p.Sizes := by
  by_cases hmsg : request.xmtpEnvelope = []
  · rw [choosePlaintext_empty h hmsg] at hch
    cases hch
  · rw [choosePlaintext_message h hmsg] at hch
    split at hch
    · cases hch
      exact ⟨.inl rfl, h.inlineSizes hmsg⟩
    · simp only at hch
      split at hch
      · cases hch
        exact ⟨.inr rfl, h.foregroundSizes⟩
      · cases hch

/-- The callback has been asked about what is chosen, and accepted it. -/
theorem choosePlaintext_asked (h : request.ValidInputs) {p : Plaintext}
    (hch : (request.choosePlaintext (D := D) fits aadBytes).result = .ok p) :
    .fits (p.estimate aadBytes) ∈ (request.choosePlaintext (D := D) fits aadBytes).events ∧
      fits (p.estimate aadBytes) = true := by
  by_cases hmsg : request.xmtpEnvelope = []
  · rw [choosePlaintext_empty h hmsg] at hch
    cases hch
  · rw [choosePlaintext_message h hmsg] at hch ⊢
    split at hch
    · next hinl =>
      cases hch
      rw [if_pos hinl]
      exact ⟨.head _, hinl⟩
    · next hinl =>
      simp only at hch
      split at hch
      · next hfg =>
        cases hch
        rw [if_neg hinl]
        exact ⟨List.mem_cons_of_mem _ (.head _), hfg⟩
      · cases hch

end SealRequest

theorem validateRouteInputs_ok {routeKey topic : Bytes} {environment : Environment}
    {aliasDay : String} :
    validateRouteInputs routeKey topic environment aliasDay = .ok () ↔
      routeKey.length = routeKeySize ∧ (0 < topic.length ∧ topic.length ≤ maxTopicBytes) ∧
      validateEnvironment environment = .ok () ∧ validateAliasDay aliasDay = .ok () := by
  unfold validateRouteInputs
  rw [reject_bind_ok, reject_bind_ok, Except.bind_eq_ok]
  constructor
  · rintro ⟨hkey, htop, _, henv, hday⟩
    exact ⟨not_not.mp hkey, by omega, henv, hday⟩
  · rintro ⟨hkey, htop, henv, hday⟩
    exact ⟨not_not.mpr hkey, by omega, (), henv, hday⟩

def nonceOf (noncePrefix : NoncePrefix) (deliverySequence : UInt64) : Nonce :=
  ⟨noncePrefix.bytes ++ bigEndian 8 deliverySequence.toNat,
    length_nonce noncePrefix deliverySequence⟩

theorem buildNonce_eq {noncePrefix : NoncePrefix} {deliverySequence : UInt64}
    (h : deliverySequence.toNat ≤ maxCanonicalInteger) :
    buildNonce noncePrefix deliverySequence = .ok (nonceOf noncePrefix deliverySequence) :=
  if_neg (not_lt.mpr h)

namespace Primitives

variable {D : Type} (P : Primitives D)

def routeAlias (routeKey topic : Bytes) (environment : Environment) (aliasDay : String) :
    RouteAlias :=
  P.truncate128 (P.hmacSHA256 (.inl routeKey) (routeAliasInput topic environment aliasDay))

def dayKey (routeKey : Bytes) (environment : Environment) (aliasDay : String)
    (routeAlias : RouteAlias) (routeKeyEpoch : UInt32) : D :=
  P.hmacSHA256
    (.inr (P.hmacSHA256 (.inr (P.sha256 (wrapperSaltInput environment aliasDay))) routeKey))
    (wrapperInfo routeAlias routeKeyEpoch ++ [1])

def requestHeader (request : SealRequest) : Header :=
  request.header
    (P.routeAlias request.routeKey request.topic request.environment request.aliasDay)

/-- The invocation of AES-GCM for a plaintext of a request. -/
def sealCall (request : SealRequest) (p : Plaintext) : GcmCall D :=
  { key := P.dayKey request.routeKey request.environment request.aliasDay
      (P.requestHeader request).routeAlias request.routeKeyEpoch
    nonce := nonceOf request.noncePrefix request.deliverySequence
    plaintext := frameBytes p
    aad := (P.requestHeader request).text }

def ciphertext (call : GcmCall D) : Bytes :=
  P.gcmSeal call.key call.nonce call.plaintext call.aad

variable {P} {request : SealRequest}

theorem deriveRouteAlias_eq {routeKey topic : Bytes} {environment : Environment}
    {aliasDay : String} (h : validateRouteInputs routeKey topic environment aliasDay = .ok ()) :
    P.deriveRouteAlias routeKey topic environment aliasDay =
      .ok (P.routeAlias routeKey topic environment aliasDay) := by
  unfold deriveRouteAlias
  rw [h]
  rfl

theorem deriveDayKey_eq {routeKey : Bytes} {environment : Environment} {aliasDay : String}
    {routeAlias : RouteAlias} {routeKeyEpoch : UInt32} (hkey : routeKey.length = routeKeySize)
    (henv : validateEnvironment environment = .ok ())
    (hday : validateAliasDay aliasDay = .ok ()) (hep : routeKeyEpoch ≠ 0) :
    P.deriveDayKey routeKey environment aliasDay routeAlias routeKeyEpoch =
      .ok (P.dayKey routeKey environment aliasDay routeAlias routeKeyEpoch) := by
  unfold deriveDayKey
  rw [reject_of_not (not_not.mpr hkey), henv, hday, reject_of_not hep]
  rfl

theorem requestHeader_valid (h : request.ValidInputs) : (P.requestHeader request).Valid := by
  obtain ⟨-, -, henv, hday⟩ := validateRouteInputs_ok.mp h.route
  exact ⟨rfl, h.routeKeyEpoch, henv, hday, h.deliverySequence⟩

theorem sealHeader_eq (h : request.ValidInputs) :
    P.sealHeader request = .ok (P.requestHeader request, (P.requestHeader request).text) := by
  have hparts : validatePlaintextParts request.capability request.xmtpEnvelope
      request.inlinePadding false = .ok () :=
    validatePlaintextParts_ok.mpr ⟨h.capability_pos, h.capability_le, h.xmtpEnvelope_le,
      h.inlinePadding_le, nofun⟩
  have hcan : (request.header (P.routeAlias request.routeKey request.topic
      request.environment request.aliasDay)).canonicalAAD = .ok (P.requestHeader request).text :=
    Header.canonicalAAD_ok.mpr ⟨requestHeader_valid h, rfl⟩
  unfold sealHeader
  rw [h.route, reject_of_not (not_lt.mpr h.deliverySequence), hparts,
    reject_of_not (not_lt.mpr h.foregroundPadding_le), deriveRouteAlias_eq h.route]
  simp only [bind, Except.bind, hcan]
  rfl

/-- A frame of a valid request is encrypted once. -/
theorem sealPlaintext_eq (h : request.ValidInputs) {p : Plaintext} (hp : p.Sizes) :
    (P.sealPlaintext request (P.requestHeader request) (P.requestHeader request).text p).result =
        .ok ⟨P.requestHeader request, P.ciphertext (P.sealCall request p)⟩ ∧
      gcmCalls (P.sealPlaintext request (P.requestHeader request)
        (P.requestHeader request).text p).events = [P.sealCall request p] := by
  obtain ⟨hkey, -, henv, hday⟩ := validateRouteInputs_ok.mp h.route
  have hencode : encodePlaintext p = .ok (frameBytes p) := encodePlaintext_ok.mpr ⟨hp, rfl⟩
  have hlen : ¬ maxSealedCiphertextBytes < (P.ciphertext (P.sealCall request p)).length := by
    have hcap := hp.capability_le
    have hmsg := hp.message_le
    have hpad := hp.padding_le
    rw [ciphertext, P.gcmSeal_length]
    show ¬ maxSealedCiphertextBytes < (frameBytes p).length + gcmTagBytes
    rw [frameBytes_length, maxSealedCiphertextBytes]
    omega
  have hfinish : (finishSeal (D := D) request (P.requestHeader request) p.deliveryMode
        (P.ciphertext (P.sealCall request p))).result =
        .ok ⟨P.requestHeader request, P.ciphertext (P.sealCall request p)⟩ ∧
      gcmCalls (finishSeal (D := D) request (P.requestHeader request) p.deliveryMode
        (P.ciphertext (P.sealCall request p))).events = [] := by
    unfold finishSeal
    rw [if_neg hlen]
    split
    · exact ⟨rfl, rfl⟩
    · exact ⟨rfl, rfl⟩
  unfold sealPlaintext
  rw [Traced.lift_bind_of_ok hencode,
    Traced.lift_bind_of_ok (deriveDayKey_eq hkey henv hday h.routeKeyEpoch),
    Traced.lift_bind_of_ok (buildNonce_eq h.deliverySequence), Traced.bind_of_ok rfl]
  refine ⟨hfinish.1, ?_⟩
  rw [gcmCalls_append]
  exact congrArg (_ :: ·) hfinish.2

variable (P) (request)

/-- The estimate `Seal` computes for a mode of a request. -/
def estimateFor (mode : DeliveryMode) (message padding : Bytes) :
    Except WrapperError SizeEstimate := do
  let (_, aad) ← P.sealHeader request
  estimateSize mode aad.length request.capability.length message.length padding.length

def inlineEstimate : Except WrapperError SizeEstimate :=
  P.estimateFor request .ciphertextInline request.xmtpEnvelope request.inlinePadding

def foregroundEstimate : Except WrapperError SizeEstimate :=
  P.estimateFor request .foregroundSync [] request.foregroundPadding

def Accepts (fits : SizeEstimate → Bool) (estimate : Except WrapperError SizeEstimate) : Prop :=
  ∃ size, estimate = .ok size ∧ fits size = true

variable {P request} {fits : SizeEstimate → Bool}

theorem accepts_ok {size : SizeEstimate} : Accepts fits (.ok size) ↔ fits size = true := by
  constructor
  · rintro ⟨size', hsize, hfits⟩
    cases hsize
    exact hfits
  · intro hfits
    exact ⟨size, rfl, hfits⟩

theorem estimateFor_eq (h : request.ValidInputs) {p : Plaintext} (hp : p.Sizes)
    (hcap : p.capability = request.capability) :
    P.estimateFor request p.deliveryMode p.xmtpEnvelope p.randomPadding =
      .ok (p.estimate (P.requestHeader request).text.length) := by
  unfold estimateFor
  rw [sealHeader_eq h, ← hcap]
  exact estimateSize_of_sizes hp _

theorem accepts_inlineEstimate (h : request.ValidInputs) (hmsg : request.xmtpEnvelope ≠ []) :
    Accepts fits (P.inlineEstimate request) ↔
      fits (request.inlinePlaintext.estimate (P.requestHeader request).text.length) = true := by
  have hest : P.inlineEstimate request = .ok _ := estimateFor_eq h (h.inlineSizes hmsg) rfl
  rw [hest, accepts_ok]

theorem accepts_foregroundEstimate (h : request.ValidInputs) :
    Accepts fits (P.foregroundEstimate request) ↔
      fits (request.foregroundPlaintext.estimate (P.requestHeader request).text.length) = true := by
  have hest : P.foregroundEstimate request = .ok _ := estimateFor_eq h h.foregroundSizes rfl
  rw [hest, accepts_ok]

theorem sealHeader_ok {r : Header × Bytes} :
    P.sealHeader request = .ok r ↔
      request.ValidInputs ∧ r = (P.requestHeader request, (P.requestHeader request).text) := by
  constructor
  · intro h
    have hval : request.ValidInputs := by
      unfold sealHeader at h
      obtain ⟨_, hrt, h⟩ := Except.bind_eq_ok.mp h
      obtain ⟨hseq, h⟩ := reject_bind_ok.mp h
      obtain ⟨_, hparts, h⟩ := Except.bind_eq_ok.mp h
      obtain ⟨hpad, h⟩ := reject_bind_ok.mp h
      obtain ⟨routeAlias, -, h⟩ := Except.bind_eq_ok.mp h
      obtain ⟨aad, haad, -⟩ := Except.bind_eq_ok.mp h
      obtain ⟨hpos, hcap, hmsg, hinl, -⟩ := validatePlaintextParts_ok.mp hparts
      exact ⟨hrt, (Header.canonicalAAD_ok.mp haad).1.routeKeyEpoch, not_lt.mp hseq, hpos,
        hcap, hmsg, hinl, not_lt.mp hpad⟩
    rw [sealHeader_eq hval] at h
    exact ⟨hval, (Except.ok.inj h).symm⟩
  · rintro ⟨hval, rfl⟩
    exact sealHeader_eq hval

/-- A call of `Seal` that seals a plaintext. -/
structure SealedAs (P : Primitives D) (request : SealRequest) (p : Plaintext) : Prop where
  valid : request.ValidInputs
  plaintext : p = request.inlinePlaintext ∨ p = request.foregroundPlaintext
  sizes : p.Sizes
  result : (P.sealEnvelope request).result =
    .ok ⟨P.requestHeader request, P.ciphertext (P.sealCall request p)⟩
  calls : gcmCalls (P.sealEnvelope request).events = [P.sealCall request p]
  /-- The callback has accepted the estimate of the plaintext. -/
  asked : ∃ fits, request.fitsWrapper = some fits ∧
    .fits (p.estimate (P.requestHeader request).text.length) ∈ (P.sealEnvelope request).events ∧
    fits (p.estimate (P.requestHeader request).text.length) = true

theorem sealedAs_of_chosen (h : request.ValidInputs) (hfits : request.fitsWrapper = some fits)
    {p : Plaintext} (hch : (request.choosePlaintext (D := D) fits
      (P.requestHeader request).text.length).result = .ok p) : P.SealedAs request p := by
  obtain ⟨hplain, hsz⟩ := request.choosePlaintext_chosen h hch
  obtain ⟨hasked, hacc⟩ := request.choosePlaintext_asked h hch
  have hseal := sealPlaintext_eq (P := P) h hsz
  have hrun : P.sealEnvelope request = ⟨(request.choosePlaintext (D := D) fits
      (P.requestHeader request).text.length).events ++ (P.sealPlaintext request
        (P.requestHeader request) (P.requestHeader request).text p).events,
      (P.sealPlaintext request (P.requestHeader request) (P.requestHeader request).text
        p).result⟩ := by
    unfold sealEnvelope
    rw [hfits]
    simp only
    rw [Traced.lift_bind_of_ok (sealHeader_eq h), Traced.bind_of_ok hch]
  refine ⟨h, hplain, hsz, ?_, ?_, fits, hfits, ?_, hacc⟩
  · rw [hrun]
    exact hseal.1
  · rw [hrun, gcmCalls_append, SealRequest.gcmCalls_choosePlaintext h, hseal.2, List.nil_append]
  · rw [hrun]
    exact List.mem_append_left _ hasked

theorem sealEnvelope_of_refused (h : request.ValidInputs)
    (hfits : request.fitsWrapper = some fits) {e : WrapperError}
    (hch : (request.choosePlaintext (D := D) fits
      (P.requestHeader request).text.length).result = .error e) :
    (P.sealEnvelope request).result = .error e ∧ gcmCalls (P.sealEnvelope request).events = [] := by
  unfold sealEnvelope
  rw [hfits]
  simp only
  rw [Traced.lift_bind_of_ok (sealHeader_eq h), Traced.bind_of_error hch]
  exact ⟨rfl, SealRequest.gcmCalls_choosePlaintext h⟩

/-- A call fails without an invocation of AES-GCM, or seals one plaintext. -/
theorem sealEnvelope_cases (P : Primitives D) (request : SealRequest) :
    (∃ e, (P.sealEnvelope request).result = .error e ∧
      gcmCalls (P.sealEnvelope request).events = []) ∨ ∃ p, P.SealedAs request p := by
  cases hfits : request.fitsWrapper with
  | none =>
    refine .inl ⟨.budgetRequired, ?_, ?_⟩
    · rw [sealEnvelope, hfits]
      rfl
    · rw [sealEnvelope, hfits]
      rfl
  | some fits =>
    cases hhead : P.sealHeader request with
    | error e =>
      have hseal : P.sealEnvelope request = Traced.fail e := by
        rw [sealEnvelope, hfits]
        exact Traced.lift_bind_of_error hhead
      exact .inl ⟨e, by rw [hseal]; rfl, by rw [hseal]; rfl⟩
    | ok r =>
      have hval := (sealHeader_ok.mp hhead).1
      cases hch : (request.choosePlaintext (D := D) fits
          (P.requestHeader request).text.length).result with
      | error e => exact .inl ⟨e, sealEnvelope_of_refused hval hfits hch⟩
      | ok p => exact .inr ⟨p, sealedAs_of_chosen hval hfits hch⟩

/-- `Seal` falls back whenever the callback lets it, encrypts what the callback chose, and does so
once if it succeeds and never if it fails. -/
structure SealsAsChosen (P : Primitives D) (request : SealRequest) (fits : SizeEstimate → Bool) :
    Prop where
  succeeds : Accepts fits (P.foregroundEstimate request) →
    ∃ envelope, (P.sealEnvelope request).result = .ok envelope
  chosen : ∀ envelope, (P.sealEnvelope request).result = .ok envelope →
    ∃ call p, gcmCalls (P.sealEnvelope request).events = [call] ∧
      envelope.ciphertext = P.ciphertext call ∧ decodePlaintext call.plaintext = .ok p ∧
      p.capability = request.capability ∧
      (p.deliveryMode = .ciphertextInline ↔
        request.xmtpEnvelope ≠ [] ∧ Accepts fits (P.inlineEstimate request)) ∧
      (p.deliveryMode = .ciphertextInline → p.xmtpEnvelope = request.xmtpEnvelope) ∧
      (p.deliveryMode ≠ .ciphertextInline → p.deliveryMode = .foregroundSync ∧ p.xmtpEnvelope = [])
  refused : ∀ e, (P.sealEnvelope request).result = .error e →
    gcmCalls (P.sealEnvelope request).events = []

theorem sealsAsChosen_message (h : request.ValidInputs) (hfits : request.fitsWrapper = some fits)
    (hmsg : request.xmtpEnvelope ≠ []) : P.SealsAsChosen request fits := by
  have hchoice : request.choosePlaintext (D := D) fits (P.requestHeader request).text.length = _ :=
    SealRequest.choosePlaintext_message h hmsg
  have hdec : ∀ p : Plaintext, p.Sizes → decodePlaintext (P.sealCall request p).plaintext = .ok p :=
    fun p hp => decodePlaintext_frameBytes hp
  by_cases hinl : fits (request.inlinePlaintext.estimate
    (P.requestHeader request).text.length) = true
  · rw [if_pos hinl] at hchoice
    obtain ⟨-, -, -, hres, hcl, -⟩ := sealedAs_of_chosen (P := P) h hfits
      (p := request.inlinePlaintext) (by rw [hchoice])
    refine ⟨fun _ => ⟨_, hres⟩, fun envelope henv => ?_, fun e he => ?_⟩
    · rw [hres] at henv
      cases henv
      refine ⟨_, _, hcl, rfl, hdec _ (h.inlineSizes hmsg), rfl, ?_, fun _ => rfl,
        fun hmode => absurd rfl hmode⟩
      exact ⟨fun _ => ⟨hmsg, (accepts_inlineEstimate h hmsg).mpr hinl⟩, fun _ => rfl⟩
    · rw [hres] at he
      cases he
  · rw [if_neg hinl] at hchoice
    by_cases hfg : fits (request.foregroundPlaintext.estimate
      (P.requestHeader request).text.length) = true
    · obtain ⟨-, -, -, hres, hcl, -⟩ := sealedAs_of_chosen (P := P) h hfits
        (p := request.foregroundPlaintext) (by rw [hchoice]; exact if_pos hfg)
      refine ⟨fun _ => ⟨_, hres⟩, fun envelope henv => ?_, fun e he => ?_⟩
      · rw [hres] at henv
        cases henv
        refine ⟨_, _, hcl, rfl, hdec _ h.foregroundSizes, rfl, ?_,
          (fun hmode => nomatch hmode), fun _ => ⟨rfl, rfl⟩⟩
        constructor
        · intro hmode
          cases hmode
        · rintro ⟨-, haccepts⟩
          exact absurd ((accepts_inlineEstimate h hmsg).mp haccepts) hinl
      · rw [hres] at he
        cases he
    · obtain ⟨hres, hcl⟩ := sealEnvelope_of_refused (P := P) h hfits
        (e := .payloadTooLarge) (by rw [hchoice]; exact if_neg hfg)
      refine ⟨fun haccepts => ?_, fun envelope henv => ?_, fun _ _ => hcl⟩
      · exact absurd ((accepts_foregroundEstimate h).mp haccepts) hfg
      · rw [hres] at henv
        cases henv

/-- An empty message is refused, whatever the callback says. -/
theorem sealEnvelope_empty (h : request.ValidInputs) (hfits : request.fitsWrapper = some fits)
    (hmsg : request.xmtpEnvelope = []) :
    (P.sealEnvelope request).result = .error .invalidPayload ∧
      gcmCalls (P.sealEnvelope request).events = [] := by
  apply sealEnvelope_of_refused h hfits
  rw [SealRequest.choosePlaintext_empty h hmsg]
  rfl

/-- `Seal` with valid inputs does as chosen exactly if there is a message or the callback would
refuse the fallback as well. -/
theorem sealsAsChosen_iff (P : Primitives D) (h : request.ValidInputs)
    (hfits : request.fitsWrapper = some fits) :
    P.SealsAsChosen request fits ↔
      (request.xmtpEnvelope ≠ [] ∨ ¬ Accepts fits (P.foregroundEstimate request)) := by
  by_cases hmsg : request.xmtpEnvelope = []
  · obtain ⟨hres, hcl⟩ := sealEnvelope_empty (P := P) h hfits hmsg
    have hnot : ¬ ∃ envelope, (P.sealEnvelope request).result = .ok envelope := by
      rintro ⟨envelope, henv⟩
      rw [hres] at henv
      cases henv
    constructor
    · intro hseals
      exact .inr fun haccepts => hnot (hseals.succeeds haccepts)
    · rintro (hne | hrefuses)
      · exact absurd hmsg hne
      · exact ⟨fun haccepts => absurd haccepts hrefuses,
          fun envelope henv => absurd ⟨envelope, henv⟩ hnot, fun _ _ => hcl⟩
  · exact ⟨fun _ => .inl hmsg, fun _ => sealsAsChosen_message h hfits hmsg⟩

end Primitives

namespace SealSample

/-- Digests that tell nothing apart, and a cipher that appends a tag of zeros. -/
def primitives : Primitives Unit where
  hmacSHA256 _ _ := ()
  sha256 _ := ()
  truncate128 _ := ⟨List.replicate 16 0, rfl⟩
  gcmSeal _ _ plaintext _ := plaintext ++ List.replicate 16 0
  gcmSeal_length _ _ _ _ := by rw [List.length_append]; rfl

/-- A request with a message, and a callback that accepts everything. -/
def request (message : Bytes) : SealRequest where
  routeKey := List.replicate 32 7
  topic := [1]
  environment := .dev
  aliasDay := "2026-01-31"
  routeKeyEpoch := 1
  noncePrefix := ⟨[1, 2, 3, 4], rfl⟩
  deliverySequence := 5
  capability := [9]
  xmtpEnvelope := message
  inlinePadding := []
  foregroundPadding := []
  fitsWrapper := some fun _ => true
  hasForegroundHook := false

theorem request_valid (message : Bytes) (h : message.length ≤ maxXMTPCiphertextBytes) :
    (request message).ValidInputs where
  route := show validateRouteInputs (List.replicate 32 7) [1] .dev "2026-01-31" = .ok () by
    decide +kernel
  routeKeyEpoch := show (1 : UInt32) ≠ 0 by decide
  deliverySequence := show (5 : UInt64).toNat ≤ maxCanonicalInteger by decide
  capability_pos := Nat.zero_lt_one
  capability_le := show 1 ≤ maxCapabilityBytes by decide
  xmtpEnvelope_le := h
  inlinePadding_le := Nat.zero_le _
  foregroundPadding_le := Nat.zero_le _

end SealSample

open SealSample in
/-- A request without a message fails, although the callback accepts the fallback. -/
theorem sealEnvelope_refuses_empty :
    (request []).ValidInputs ∧
      Primitives.Accepts (fun _ => true) (primitives.foregroundEstimate (request [])) ∧
      (primitives.sealEnvelope (request [])).result = .error .invalidPayload := by
  have hval : (request []).ValidInputs := request_valid [] (by decide)
  exact ⟨hval, (Primitives.accepts_foregroundEstimate hval).mpr rfl,
    (Primitives.sealEnvelope_empty hval rfl rfl).1⟩

open SealSample in
/-- A request with a message of one byte. -/
theorem sealEnvelope_as_chosen :
    (request [8]).ValidInputs ∧ primitives.SealsAsChosen (request [8]) fun _ => true :=
  ⟨request_valid [8] (by decide),
    (Primitives.sealsAsChosen_iff primitives (request_valid [8] (by decide)) rfl).mpr
      (.inl (by decide))⟩

end NotificationServer.Gate8
