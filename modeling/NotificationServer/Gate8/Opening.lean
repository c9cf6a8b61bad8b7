import NotificationServer.Gate8.Sealing
import NotificationServer.Lib.Transition

/-!
# Wrappers on an adversarial channel

Any number of `Seal` calls and of `Open` calls on one replay window, in any
order, with envelopes an adversary chooses.  AES-GCM is ideal: a ciphertext opens
under a key, nonce and additional data exactly if one of the invocations so far
produced it there, and then to the plaintext of that invocation.
-/

namespace NotificationServer.Gate8

open Trust Framing

variable {D : Type} {P : Primitives D}

variable [DecidableEq D]

/-- `Open` of ideal AES-GCM, given the invocations of its `Seal`. -/
def Primitives.idealOpen (P : Primitives D) (calls : List (GcmCall D)) (key : D) (nonce : Nonce)
    (ciphertext aad : Bytes) : Option Bytes :=
  (calls.find? fun call => call.key = key ∧ call.nonce = nonce ∧ call.aad = aad ∧
    P.ciphertext call = ciphertext).map GcmCall.plaintext

/-- The channel: the invocations of AES-GCM, the calls of `Seal` that succeeded with their
envelopes, the replay window, and the headers `Open` accepted, in order. -/
structure Channel (D : Type) where
  calls : List (GcmCall D) := []
  sealed : List (SealRequest × Envelope) := []
  window : ReplayWindow
  accepted : List Header := []

inductive ChannelEvent
  | sealing (request : SealRequest)
  | opening (request : OpenRequest)

namespace Channel

/-- A call of `Seal`. -/
def sealStep (P : Primitives D) (request : SealRequest) (s : Channel D) : Channel D :=
  { s with
    calls := s.calls ++ gcmCalls (P.sealEnvelope request).events
    sealed := match (P.sealEnvelope request).result with
      | .ok envelope => s.sealed ++ [(request, envelope)]
      | .error _ => s.sealed }

/-- The outcome of a call of `Open`, and the window it leaves. -/
def openOutcome (P : Primitives D) (request : OpenRequest) (s : Channel D) :
    Except WrapperError Plaintext × Option ReplayWindow :=
  P.openEnvelope (P.idealOpen s.calls) request (some s.window)

/-- A call of `Open`. -/
def openStep (P : Primitives D) (request : OpenRequest) (s : Channel D) : Channel D :=
  { s with
    window := (s.openOutcome P request).2.getD s.window
    accepted := match (s.openOutcome P request).1 with
      | .ok _ => s.accepted ++ [request.envelope.header]
      | .error _ => s.accepted }

def perform (P : Primitives D) : ChannelEvent → Channel D → Channel D
  | .sealing request, s => s.sealStep P request
  | .opening request, s => s.openStep P request

def system (P : Primitives D) : Machine (Channel D) ChannelEvent where
  init s := ∃ window, s = { window := window }
  step s event s' := s' = s.perform P event

variable {s : Channel D} {o : OpenRequest}

/-- A call of `Open` fails without a change of the window, or passes authentication and the replay
check. -/
theorem openOutcome_cases (P : Primitives D) (o : OpenRequest) (s : Channel D) :
    (∃ e, s.openOutcome P o = (.error e, some s.window)) ∨
    ∃ opened window, P.authenticate (P.idealOpen s.calls) o = .ok opened ∧
      s.window.compareAndAdvanceAuthenticated o.envelope.header = .ok window ∧
      s.openOutcome P o = (decodePlaintext opened, some window) := by
  unfold openOutcome Primitives.openEnvelope
  cases P.authenticate (P.idealOpen s.calls) o with
  | error e => exact .inl ⟨e, rfl⟩
  | ok opened =>
    cases hreplay : s.window.compareAndAdvanceAuthenticated o.envelope.header with
    | error e => exact .inl ⟨e, by simp only [hreplay]⟩
    | ok window => exact .inr ⟨opened, window, rfl, rfl, by simp only [hreplay]⟩

/-- A window that admits a header moves to its sequence number, and was below it in one scope. -/
theorem compareAndAdvance_ok {window window' : ReplayWindow} {header : Header}
    (h : window.compareAndAdvanceAuthenticated header = .ok window') :
    (∃ state, window'.state = some state ∧ state.InScope header ∧
      state.highestSequence = header.deliverySequence) ∧
    ∀ state, window.state = some state →
      state.InScope header ∧ state.highestSequence < header.deliverySequence := by
  unfold ReplayWindow.compareAndAdvanceAuthenticated at h
  split at h
  · next hst =>
    cases h
    refine ⟨⟨header.replayState, rfl, ⟨rfl, rfl, rfl, rfl, rfl⟩, rfl⟩, ?_⟩
    intro state hsome
    rw [hst] at hsome
    cases hsome
  · next state hst =>
    split at h
    · cases h
    next hscope =>
    split at h
    · cases h
    next hhigher =>
    cases h
    have hin := not_not.mp hscope
    refine ⟨⟨_, rfl, hin, rfl⟩, ?_⟩
    intro state' hsome
    rw [hst] at hsome
    cases hsome
    exact ⟨hin, UInt64.not_le.mp hhigher⟩

structure Sound (P : Primitives D) (s : Channel D) : Prop where
  /-- Every invocation belongs to a call of `Seal` that succeeded. -/
  calls : ∀ call ∈ s.calls, ∃ request p, request.ValidInputs ∧ call = P.sealCall request p ∧
    (request, ⟨P.requestHeader request, P.ciphertext call⟩) ∈ s.sealed
  /-- Every sealed envelope is the outcome of an invocation. -/
  sealed : ∀ r ∈ s.sealed, ∃ p : Plaintext, r.1.ValidInputs ∧
    (p = r.1.inlinePlaintext ∨ p = r.1.foregroundPlaintext) ∧ p.Sizes ∧
    gcmCalls (P.sealEnvelope r.1).events = [P.sealCall r.1 p] ∧ P.sealCall r.1 p ∈ s.calls ∧
    r.2 = ⟨P.requestHeader r.1, P.ciphertext (P.sealCall r.1 p)⟩
  /-- The window has passed every accepted header. -/
  passed : ∀ h ∈ s.accepted, ∃ state, s.window.state = some state ∧ state.InScope h ∧
    h.deliverySequence ≤ state.highestSequence
  /-- Accepted headers have one scope and increasing sequence numbers. -/
  ordered : s.accepted.Pairwise fun a b =>
    a.replayState.InScope b ∧ a.deliverySequence < b.deliverySequence

omit [DecidableEq D] in
theorem Sound.sealStep (h : s.Sound P) (request : SealRequest) : (s.sealStep P request).Sound P := by
  rcases P.sealEnvelope_cases request with ⟨e, hres, hcl⟩ |
    ⟨p, ⟨hval, hplain, hsz, hres, hcl, -⟩⟩
  · have hsame : s.sealStep P request = s := by
      unfold Channel.sealStep
      rw [hres, hcl, List.append_nil]
    rw [hsame]
    exact h
  · have hstep : s.sealStep P request = { s with
        calls := s.calls ++ [P.sealCall request p]
        sealed := s.sealed ++
          [(request, ⟨P.requestHeader request, P.ciphertext (P.sealCall request p)⟩)] } := by
      unfold Channel.sealStep
      rw [hres, hcl]
    rw [hstep]
    refine ⟨?_, ?_, h.passed, h.ordered⟩
    · intro call hcall
      rcases List.mem_append.mp hcall with hold | hnew
      · obtain ⟨request', p', hval', heq, hmem⟩ := h.calls call hold
        exact ⟨request', p', hval', heq, List.mem_append_left _ hmem⟩
      · rw [List.mem_singleton.mp hnew]
        exact ⟨request, p, hval, rfl, List.mem_append_right _ (.head _)⟩
    · intro r hr
      rcases List.mem_append.mp hr with hold | hnew
      · obtain ⟨p', hval', hplain', hsz', hcl', hmem, heq⟩ := h.sealed r hold
        exact ⟨p', hval', hplain', hsz', hcl', List.mem_append_left _ hmem, heq⟩
      · rw [List.mem_singleton.mp hnew]
        exact ⟨p, hval, hplain, hsz, hcl, List.mem_append_right _ (.head _), rfl⟩

theorem Sound.openStep (h : s.Sound P) (o : OpenRequest) : (s.openStep P o).Sound P := by
  rcases openOutcome_cases P o s with ⟨e, hout⟩ | ⟨opened, window, -, hreplay, hout⟩
  · have hsame : s.openStep P o = s := by
      unfold Channel.openStep
      rw [hout]
      rfl
    rw [hsame]
    exact h
  · obtain ⟨⟨state, hst, hscope, hhighest⟩, hbef⟩ := compareAndAdvance_ok hreplay
    -- every header accepted before is in the scope of the new one, and below it
    have hearlier : ∀ a ∈ s.accepted, a.replayState.InScope o.envelope.header ∧
        a.deliverySequence < o.envelope.header.deliverySequence := by
      intro a ha
      obtain ⟨state', hst', hscope', hle⟩ := h.passed a ha
      obtain ⟨hin, hlt⟩ := hbef state' hst'
      refine ⟨?_, UInt64.lt_of_le_of_lt hle hlt⟩
      obtain ⟨h1, h2, h3, h4, h5⟩ := hscope'
      obtain ⟨g1, g2, g3, g4, g5⟩ := hin
      exact ⟨h1.symm.trans g1, h2.symm.trans g2, h3.symm.trans g3, h4.symm.trans g4,
        h5.symm.trans g5⟩
    have hpassed : ∀ a ∈ s.accepted, ∃ st, window.state = some st ∧ st.InScope a ∧
        a.deliverySequence ≤ st.highestSequence := by
      intro a ha
      obtain ⟨hin, hlt⟩ := hearlier a ha
      obtain ⟨h1, h2, h3, h4, h5⟩ := hin
      obtain ⟨g1, g2, g3, g4, g5⟩ := hscope
      refine ⟨state, hst, ⟨g1.trans h1.symm, g2.trans h2.symm, g3.trans h3.symm,
        g4.trans h4.symm, g5.trans h5.symm⟩, ?_⟩
      rw [hhighest]
      exact UInt64.le_of_lt hlt
    unfold Channel.openStep
    rw [hout]
    cases decodePlaintext opened with
    | error e => exact ⟨h.calls, h.sealed, hpassed, h.ordered⟩
    | ok plaintext =>
      refine ⟨h.calls, h.sealed, ?_, ?_⟩
      · intro a ha
        rcases List.mem_append.mp ha with hold | hnew
        · exact hpassed a hold
        · rw [List.mem_singleton.mp hnew]
          exact ⟨state, hst, hscope, hhighest.symm ▸ UInt64.le_refl _⟩
      · refine List.pairwise_append.mpr ⟨h.ordered, List.pairwise_singleton _ _, ?_⟩
        intro a ha b hb
        rw [List.mem_singleton.mp hb]
        exact hearlier a ha

theorem sound_of_reachable (h : (system P).Reachable s) : s.Sound P := by
  refine Machine.Reachable.invariant (P := Sound P) ?_ ?_ h
  · rintro _ ⟨window, rfl⟩
    exact ⟨nofun, nofun, nofun, .nil⟩
  · rintro s event _ - hs rfl
    cases event with
    | sealing request => exact hs.sealStep request
    | opening request => exact hs.openStep request

end Channel

/-- What `Open` checks before it decrypts. -/
structure OpenRequest.Addressed (P : Primitives D) (o : OpenRequest) : Prop where
  route : validateRouteInputs o.routeKey o.topic o.envelope.header.environment
    o.envelope.header.aliasDay = .ok ()
  header : o.envelope.header.Valid
  expected : o.expectedEnvironment.text ≠ "" ∧ o.expectedAliasDay ≠ "" ∧ o.expectedRouteKeyEpoch ≠ 0
  environment : o.envelope.header.environment = o.expectedEnvironment
  aliasDay : o.envelope.header.aliasDay = o.expectedAliasDay
  routeKeyEpoch : o.envelope.header.routeKeyEpoch = o.expectedRouteKeyEpoch
  tag_le : gcmTagBytes ≤ o.envelope.ciphertext.length
  le_max : o.envelope.ciphertext.length ≤ maxSealedCiphertextBytes
  routeAlias : P.routeAlias o.routeKey o.topic o.envelope.header.environment
    o.envelope.header.aliasDay = o.envelope.header.routeAlias

/-- The key, nonce and additional data `Open` decrypts with. -/
def Primitives.opens (P : Primitives D) (gcmOpen : D → Nonce → Bytes → Bytes → Option Bytes)
    (o : OpenRequest) : Option Bytes :=
  gcmOpen (P.dayKey o.routeKey o.envelope.header.environment o.envelope.header.aliasDay
    o.envelope.header.routeAlias o.envelope.header.routeKeyEpoch)
    (nonceOf o.envelope.header.noncePrefix o.envelope.header.deliverySequence)
    o.envelope.ciphertext o.envelope.header.text

omit [DecidableEq D] in
theorem Primitives.authenticate_ok {gcmOpen : D → Nonce → Bytes → Bytes → Option Bytes}
    {o : OpenRequest} {opened : Bytes} :
    P.authenticate gcmOpen o = .ok opened ↔ o.Addressed P ∧ P.opens gcmOpen o = some opened := by
  unfold authenticate
  simp only [Except.bind_eq_ok]
  constructor
  · rintro ⟨_, hrt, _, hhead, _, hexp, _, hlen, _, halias, _, hmatch, _, haad, _, hkey,
      _, hnonce, h⟩
    rw [deriveRouteAlias_eq hrt] at halias
    cases halias
    have hexp := reject_ok.mp hexp
    have hlen := reject_ok.mp hlen
    simp only [not_or, not_not] at hexp
    obtain ⟨hnoEn, hnoDay, hnoEpoch, henv, hday, hep⟩ := hexp
    have hval := Header.validate_ok.mp hhead
    obtain ⟨hsize, -, hrout, hrouteDay⟩ := validateRouteInputs_ok.mp hrt
    rw [Header.canonicalAAD_ok.mpr ⟨hval, rfl⟩] at haad
    rw [deriveDayKey_eq hsize hrout hrouteDay hval.routeKeyEpoch] at hkey
    rw [buildNonce_eq hval.deliverySequence] at hnonce
    cases haad
    cases hkey
    cases hnonce
    have hopens : P.opens gcmOpen o = some opened := by
      split at h
      · cases h
      · next hopen =>
        cases h
        exact hopen
    exact ⟨⟨hrt, hval, ⟨hnoEn, hnoDay, hnoEpoch⟩, henv, hday, hep,
      by omega, by omega, not_not.mp (reject_ok.mp hmatch)⟩, hopens⟩
  · rintro ⟨haddr, hopens⟩
    obtain ⟨hsize, -, henv, hday⟩ := validateRouteInputs_ok.mp haddr.route
    have hval := haddr.header
    have htag := haddr.tag_le
    have hmax := haddr.le_max
    unfold opens at hopens
    refine ⟨(), haddr.route, (), Header.validate_ok.mpr hval, (), reject_of_not ?_, (),
      reject_of_not (by omega), _, deriveRouteAlias_eq haddr.route, (),
      reject_of_not (not_not.mpr haddr.routeAlias), _,
      Header.canonicalAAD_ok.mpr ⟨hval, rfl⟩, _,
      deriveDayKey_eq hsize henv hday hval.routeKeyEpoch, _,
      buildNonce_eq hval.deliverySequence, by rw [hopens]⟩
    simp only [not_or, not_not]
    exact ⟨haddr.expected.1, haddr.expected.2.1, haddr.expected.2.2,
      haddr.environment, haddr.aliasDay, haddr.routeKeyEpoch⟩

theorem Primitives.idealOpen_eq_some {calls : List (GcmCall D)} {key : D} {nonce : Nonce}
    {ciphertext aad opened : Bytes} (h : P.idealOpen calls key nonce ciphertext aad = some opened) :
    ∃ call ∈ calls, call.key = key ∧ call.nonce = nonce ∧ call.aad = aad ∧
      P.ciphertext call = ciphertext ∧ call.plaintext = opened := by
  obtain ⟨call, hfind, hopen⟩ := Option.map_eq_some_iff.mp h
  have hmatch := List.find?_some hfind
  simp only [decide_eq_true_eq] at hmatch
  obtain ⟨hkey, hnonce, haad, hct⟩ := hmatch
  exact ⟨call, List.mem_of_find?_eq_some hfind, hkey, hnonce, haad, hct, hopen⟩

/-- An invocation opens again, if the cipher never maps two plaintexts to one ciphertext. -/
theorem Primitives.idealOpen_call {calls : List (GcmCall D)}
    (hcipher : ∀ key nonce aad, Function.Injective fun p => P.gcmSeal key nonce p aad)
    {call : GcmCall D} (h : call ∈ calls) :
    P.idealOpen calls call.key call.nonce (P.ciphertext call) call.aad = some call.plaintext := by
  unfold idealOpen
  cases hfind : calls.find? fun c => decide (c.key = call.key ∧ c.nonce = call.nonce ∧
      c.aad = call.aad ∧ P.ciphertext c = P.ciphertext call) with
  | none =>
    have hnone := List.find?_eq_none.mp hfind call h
    simp at hnone
  | some found =>
    have hmatch := List.find?_some hfind
    simp only [decide_eq_true_eq] at hmatch
    obtain ⟨hkey, hnonce, haad, hct⟩ := hmatch
    have hplain : found.plaintext = call.plaintext := by
      apply hcipher call.key call.nonce call.aad
      have hsame := hct
      unfold ciphertext at hsame
      rw [hkey, hnonce, haad] at hsame
      exact hsame
    rw [Option.map_some, hplain]

omit [DecidableEq D] in
/-- Two requests with one day key have one route key. -/
theorem Primitives.dayKey_injective
    (hhmac : ∀ k k' m m', P.hmacSHA256 k m = P.hmacSHA256 k' m' → k = k' ∧ m = m')
    {routeKey routeKey' : Bytes} {environment environment' : Environment} {day day' : String}
    {routeAlias routeAlias' : RouteAlias} {epoch epoch' : UInt32}
    (h : P.dayKey routeKey environment day routeAlias epoch =
      P.dayKey routeKey' environment' day' routeAlias' epoch') : routeKey = routeKey' := by
  have hexpand := (hhmac _ _ _ _ h).1
  have hextract := hhmac _ _ _ _ (Sum.inr.inj hexpand)
  exact hextract.2

theorem Header.Valid.eq_of_text {h h' : Header} (hval : h.Valid) (hval' : h'.Valid)
    (htext : h.text = h'.text) : h = h' := by
  have hparse := parseHeader_text hval
  rw [htext, parseHeader_text hval'] at hparse
  exact (Option.some.inj hparse).symm

namespace Channel

/-- What `Open` guarantees on the channel in a state. -/
structure Safe (P : Primitives D) (s : Channel D) : Prop where
  /-- A sealed envelope opens to what was sealed, under every window that admits it. -/
  opens : ∀ r ∈ s.sealed, ∃ call p, gcmCalls (P.sealEnvelope r.1).events = [call] ∧
    decodePlaintext call.plaintext = .ok p ∧
    (p = r.1.inlinePlaintext ∨ p = r.1.foregroundPlaintext) ∧
    ∀ o : OpenRequest, o.routeKey = r.1.routeKey → o.topic = r.1.topic →
      o.expectedEnvironment = r.1.environment → o.expectedAliasDay = r.1.aliasDay →
      o.expectedRouteKeyEpoch = r.1.routeKeyEpoch → o.envelope = r.2 →
      ∀ window window', window.compareAndAdvanceAuthenticated r.2.header = .ok window' →
        P.openEnvelope (P.idealOpen s.calls) o (some window) = (.ok p, some window')
  /-- An envelope that was not sealed for the route key and day is refused. -/
  rejects : ∀ o : OpenRequest, (∀ r ∈ s.sealed, r.1.routeKey = o.routeKey →
      r.1.aliasDay = o.expectedAliasDay → r.2 ≠ o.envelope) →
    ∃ e, s.openOutcome P o = (.error e, some s.window)
  /-- Accepted headers have one scope and increasing sequence numbers. -/
  ordered : s.accepted.Pairwise fun a b =>
    a.replayState.InScope b ∧ a.deliverySequence < b.deliverySequence
  /-- An envelope that fails authentication leaves the window. -/
  untouched : ∀ o e, P.authenticate (P.idealOpen s.calls) o = .error e →
    s.openOutcome P o = (.error e, some s.window)

variable {s : Channel D}

/-- What authenticates was sealed for the route key and day. -/
theorem Sound.sealed_of_authenticate (h : s.Sound P)
    (hhmac : ∀ k k' m m', P.hmacSHA256 k m = P.hmacSHA256 k' m' → k = k' ∧ m = m')
    {o : OpenRequest} {opened : Bytes}
    (ho : P.authenticate (P.idealOpen s.calls) o = .ok opened) :
    ∃ r ∈ s.sealed, r.1.routeKey = o.routeKey ∧ r.1.aliasDay = o.expectedAliasDay ∧
      r.2 = o.envelope := by
  obtain ⟨haddr, hopens⟩ := Primitives.authenticate_ok.mp ho
  obtain ⟨call, hcall, hkey, -, haad, hct, -⟩ := Primitives.idealOpen_eq_some hopens
  obtain ⟨request, p, hval, rfl, hmem⟩ := h.calls call hcall
  have hhead : P.requestHeader request = o.envelope.header :=
    (Primitives.requestHeader_valid hval).eq_of_text haddr.header haad
  refine ⟨_, hmem, Primitives.dayKey_injective hhmac hkey, ?_, ?_⟩
  · rw [← haddr.aliasDay, ← hhead]
    rfl
  · show Envelope.mk _ _ = _
    rw [hhead, hct]

/-- A sealed envelope passes authentication under the inputs it was sealed with. -/
theorem authenticate_sealed
    (hcipher : ∀ key nonce aad, Function.Injective fun p => P.gcmSeal key nonce p aad)
    {request : SealRequest} {p : Plaintext} (hval : request.ValidInputs) (hsz : p.Sizes)
    (hcall : P.sealCall request p ∈ s.calls) {o : OpenRequest}
    (hkey : o.routeKey = request.routeKey) (htop : o.topic = request.topic)
    (henvironment : o.expectedEnvironment = request.environment)
    (hday : o.expectedAliasDay = request.aliasDay)
    (hep : o.expectedRouteKeyEpoch = request.routeKeyEpoch)
    (henv : o.envelope = ⟨P.requestHeader request, P.ciphertext (P.sealCall request p)⟩) :
    P.authenticate (P.idealOpen s.calls) o = .ok (frameBytes p) := by
  obtain ⟨-, -, hvali, hvalidDay⟩ := validateRouteInputs_ok.mp hval.route
  have hlen : (P.ciphertext (P.sealCall request p)).length =
      (frameBytes p).length + gcmTagBytes := P.gcmSeal_length _ _ _ _
  have hcap := hsz.capability_le
  have hmsg := hsz.message_le
  have hpad := hsz.padding_le
  rw [Primitives.authenticate_ok]
  refine ⟨⟨?_, ?_, ⟨?_, ?_, ?_⟩, ?_, ?_, ?_, ?_, ?_, ?_⟩, ?_⟩
  · rw [henv, hkey, htop]
    exact hval.route
  · rw [henv]
    exact Primitives.requestHeader_valid hval
  · rw [henvironment]
    rcases validateEnvironment_ok.mp hvali with he | he
    · rw [he]
      decide
    · rw [he]
      decide
  · rw [hday]
    rintro hemp
    rw [hemp] at hvalidDay
    cases hvalidDay
  · rw [hep]
    exact hval.routeKeyEpoch
  · rw [henv, henvironment]
    rfl
  · rw [henv, hday]
    rfl
  · rw [henv, hep]
    rfl
  · rw [henv, hlen]
    omega
  · rw [henv, hlen, frameBytes_length, maxSealedCiphertextBytes]
    omega
  · rw [henv, hkey, htop]
    rfl
  · rw [Primitives.opens, henv, hkey]
    exact Primitives.idealOpen_call hcipher hcall

/-- With an HMAC and a cipher that are injective, `Open` is safe in every state of the channel. -/
theorem wrapper_channel_safe (P : Primitives D)
    (hhmac : ∀ k k' m m', P.hmacSHA256 k m = P.hmacSHA256 k' m' → k = k' ∧ m = m')
    (hcipher : ∀ key nonce aad, Function.Injective fun p => P.gcmSeal key nonce p aad)
    (s : Channel D) (h : (system P).Reachable s) : s.Safe P := by
  have hsound := sound_of_reachable h
  refine ⟨?_, ?_, hsound.ordered, ?_⟩
  · intro r hr
    obtain ⟨p, hval, hplain, hsz, hcl, hcall, henv⟩ := hsound.sealed r hr
    refine ⟨P.sealCall r.1 p, p, hcl, decodePlaintext_frameBytes hsz, hplain, ?_⟩
    intro o hkey htop henvironment hday hep ho window window' hadmits
    have hauth := authenticate_sealed hcipher hval hsz hcall hkey htop
      henvironment hday hep (ho.trans henv)
    rw [← ho] at hadmits
    unfold Primitives.openEnvelope
    simp only [hauth, hadmits, decodePlaintext_frameBytes hsz]
  · intro o hdiffers
    rcases openOutcome_cases P o s with href | ⟨opened, window, hauth, -, -⟩
    · exact href
    · obtain ⟨r, hr, hkey, hday, henv⟩ := hsound.sealed_of_authenticate hhmac hauth
      exact absurd henv (hdiffers r hr hkey hday)
  · intro o e hauth
    unfold openOutcome Primitives.openEnvelope
    simp only [hauth]

end Channel

namespace ChannelSample

inductive Digest
  | keyed (key message : Bytes)
  | chained (key : Digest) (message : Bytes)
  | plain (input : Bytes)
  deriving DecidableEq

def primitives : Primitives Digest where
  hmacSHA256 key message := key.elim (Digest.keyed · message) (Digest.chained · message)
  sha256 := .plain
  truncate128 _ := SealSample.primitives.truncate128 ()
  gcmSeal _ := SealSample.primitives.gcmSeal ()
  gcmSeal_length _ := SealSample.primitives.gcmSeal_length ()

theorem hmac_injective :
    ∀ k k' m m', primitives.hmacSHA256 k m = primitives.hmacSHA256 k' m' →
    k = k' ∧ m = m' := by
  intro k k' m m' h
  cases k with
  | inl key =>
    cases k' with
    | inl key' =>
      cases h
      exact ⟨rfl, rfl⟩
    | inr digest' => cases h
  | inr digest =>
    cases k' with
    | inl key' => cases h
    | inr digest' =>
      cases h
      exact ⟨rfl, rfl⟩

theorem cipher_injective :
    ∀ key nonce aad,
    Function.Injective fun p => primitives.gcmSeal key nonce p aad :=
  fun _ _ _ _ _ h => List.append_cancel_right h

/-- The wrapper of a request, opened under the inputs it was sealed with. -/
def openRequest (request : SealRequest) : OpenRequest where
  routeKey := request.routeKey
  topic := request.topic
  expectedEnvironment := request.environment
  expectedAliasDay := request.aliasDay
  expectedRouteKeyEpoch := request.routeKeyEpoch
  envelope :=
    { header := primitives.requestHeader request
      ciphertext := primitives.ciphertext
        (primitives.sealCall request request.inlinePlaintext) }

def firstRequest : SealRequest := SealSample.request [8]

def secondRequest : SealRequest := { SealSample.request [3] with deliverySequence := 6 }

/-- Two wrappers are sealed; the first is opened twice, then the second. -/
def events : List ChannelEvent :=
  [.sealing firstRequest, .sealing secondRequest, .opening (openRequest firstRequest),
    .opening (openRequest firstRequest), .opening (openRequest secondRequest)]

def opened : Channel Digest :=
  events.foldl (fun s event => s.perform primitives event) { window := ⟨none⟩ }

theorem opened_reachable : (Channel.system primitives).Reachable opened := by
  have hrun : ∀ (events : List ChannelEvent) (s : Channel Digest),
      (Channel.system primitives).Reachable s → (Channel.system primitives).Reachable
        (events.foldl (fun s event => s.perform primitives event) s) := by
    intro events
    induction events with
    | nil => exact fun s hs => hs
    | cons event events ih => exact fun s hs => ih _ (hs.step (l := event) rfl)
  exact hrun events _ (.init ⟨⟨none⟩, rfl⟩)

end ChannelSample

open ChannelSample in
/-- Two wrappers accepted, and the replay of the first refused between them. -/
theorem wrapper_channel_opened :
    opened.sealed.length = 2 ∧
      opened.accepted = [firstRequest, secondRequest].map primitives.requestHeader ∧
      opened.Safe primitives :=
  ⟨by decide +kernel, by decide +kernel, Channel.wrapper_channel_safe primitives hmac_injective
    cipher_injective opened opened_reachable⟩

end NotificationServer.Gate8
