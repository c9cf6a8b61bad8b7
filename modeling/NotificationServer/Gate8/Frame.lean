import NotificationServer.Gate8.Wrapper
import NotificationServer.Trust.Walk

/-!
# The inner frame is canonical

`encodePlaintext` and `decodePlaintext` are inverse to each other: both accept
exactly the frames of `FrameSizes`, although the encoder checks slices and the
decoder the three lengths it reads.
-/

namespace NotificationServer.Gate8

open Trust Framing

variable {capability message padding : Nat} {p : Plaintext} {encoded : Bytes}

structure FrameSizes (mode : DeliveryMode) (capability message padding : Nat) : Prop where
  capability_pos : 0 < capability
  capability_le : capability ≤ maxCapabilityBytes
  message_le : message ≤ maxXMTPCiphertextBytes
  padding_le : padding ≤ maxPaddingBytes
  mode_ok : (mode = .ciphertextInline ∧ 0 < message) ∨ (mode = .foregroundSync ∧ message = 0)

abbrev Plaintext.Sizes (p : Plaintext) : Prop :=
  FrameSizes p.deliveryMode p.capability.length p.xmtpEnvelope.length p.randomPadding.length

theorem validatePlaintextParts_ok {capability message padding : Bytes} {required : Bool} :
    validatePlaintextParts capability message padding required = .ok () ↔
      0 < capability.length ∧ capability.length ≤ maxCapabilityBytes ∧
      message.length ≤ maxXMTPCiphertextBytes ∧ padding.length ≤ maxPaddingBytes ∧
      (required = true → 0 < message.length) := by
  unfold validatePlaintextParts
  rw [reject_bind_ok, reject_bind_ok, reject_ok]
  constructor
  · rintro ⟨hcap, hsz, hrequ⟩
    refine ⟨by omega, by omega, by omega, by omega, fun h => ?_⟩
    have hmsg : ¬ message.length = 0 := fun hzero => hrequ ⟨h, hzero⟩
    omega
  · rintro ⟨hpos, hcap, hmsg, hpad, hrequ⟩
    refine ⟨by omega, by omega, ?_⟩
    rintro ⟨h, hzero⟩
    have := hrequ h
    omega

theorem validatePlaintextLengths_ok {mode : DeliveryMode} :
    validatePlaintextLengths mode capability message padding = .ok () ↔
      FrameSizes mode capability message padding := by
  unfold validatePlaintextLengths
  rw [reject_bind_ok, reject_bind_ok]
  constructor
  · rintro ⟨hcap, hsz, hmode⟩
    refine ⟨by omega, by omega, by omega, by omega, ?_⟩
    cases mode with
    | ciphertextInline => exact .inl ⟨rfl, Nat.pos_of_ne_zero (reject_ok.mp hmode)⟩
    | foregroundSync => exact .inr ⟨rfl, not_not.mp (reject_ok.mp hmode)⟩
    | other text => cases hmode
  · rintro ⟨hpos, hcap, hmsg, hpad, hmode⟩
    refine ⟨by omega, by omega, ?_⟩
    rcases hmode with ⟨rfl, hmode⟩ | ⟨rfl, hmode⟩
    · exact reject_of_not (by omega)
    · exact reject_of_not (by omega)

def modeCode (mode : DeliveryMode) : UInt8 := if mode = .ciphertextInline then 1 else 2

def frameBytes (p : Plaintext) : Bytes :=
  [innerFrameVersion, modeCode p.deliveryMode] ++ bigEndian 4 p.capability.length ++
    bigEndian 4 p.xmtpEnvelope.length ++ bigEndian 4 p.randomPadding.length ++
    p.capability ++ p.xmtpEnvelope ++ p.randomPadding

theorem frameBytes_length (p : Plaintext) :
    (frameBytes p).length = innerFrameFixedBytes + p.capability.length + p.xmtpEnvelope.length +
      p.randomPadding.length := by
  simp only [frameBytes, innerFrameFixedBytes, List.length_append, bigEndian_length,
    List.length_cons, List.length_nil]

theorem encodePlaintext_ok :
    encodePlaintext p = .ok encoded ↔ p.Sizes ∧ encoded = frameBytes p := by
  unfold encodePlaintext
  rw [Except.bind_eq_ok]
  constructor
  · rintro ⟨_, hparts, h⟩
    obtain ⟨hpos, hcap, hmsg, hpad, hrequ⟩ := validatePlaintextParts_ok.mp hparts
    obtain ⟨hfg, h⟩ := reject_bind_ok.mp h
    obtain ⟨code, hcode, h⟩ := Except.bind_eq_ok.mp h
    cases hmode : p.deliveryMode with
    | ciphertextInline =>
      rw [hmode] at hcode
      cases hcode
      refine ⟨⟨hpos, hcap, hmsg, hpad, .inl ⟨hmode, ?_⟩⟩, ?_⟩
      · exact hrequ (decide_eq_true hmode)
      · rw [frameBytes, hmode]
        exact (Except.ok.inj h).symm
    | foregroundSync =>
      rw [hmode] at hcode
      cases hcode
      refine ⟨⟨hpos, hcap, hmsg, hpad, .inr ⟨hmode, ?_⟩⟩, ?_⟩
      · by_contra hne
        exact hfg ⟨hmode, hne⟩
      · rw [frameBytes, hmode]
        exact (Except.ok.inj h).symm
    | other text =>
      rw [hmode] at hcode
      cases hcode
  · rintro ⟨⟨hpos, hcap, hmsg, hpad, hmode⟩, rfl⟩
    refine ⟨(), validatePlaintextParts_ok.mpr
      ⟨hpos, hcap, hmsg, hpad, fun hinl => ?_⟩, reject_bind_ok.mpr ⟨?_, ?_⟩⟩
    · rcases hmode with ⟨-, hmsg⟩ | ⟨hmode, -⟩
      · exact hmsg
      · rw [hmode] at hinl
        cases hinl
    · rintro ⟨hfg, hne⟩
      rcases hmode with ⟨hmode, -⟩ | ⟨-, hmsg⟩
      · rw [hfg] at hmode
        cases hmode
      · exact hne hmsg
    · rcases hmode with ⟨hmode, -⟩ | ⟨hmode, -⟩
      · rw [frameBytes, hmode]
        rfl
      · rw [frameBytes, hmode]
        rfl

/-- The fields of a frame: two bytes, three lengths, and what follows them. -/
theorem frame_split (h : innerFrameFixedBytes ≤ encoded.length)
    (hver : encoded[0]? = some innerFrameVersion) :
    encoded = [innerFrameVersion, encoded.getD 1 0] ++ bigEndian 4 (uint32At encoded 2) ++
      bigEndian 4 (uint32At encoded 6) ++ bigEndian 4 (uint32At encoded 10) ++
      encoded.drop innerFrameFixedBytes := by
  have hfield : ∀ offset, offset + 4 ≤ encoded.length → encoded.drop offset =
        bigEndian 4 (uint32At encoded offset) ++ encoded.drop (offset + 4) := by
    intro offset hoffset
    have hlen : ((encoded.drop offset).take 4).length = 4 := by
      rw [List.length_take, List.length_drop]
      omega
    have hdig := bigEndian_ofBigEndian ((encoded.drop offset).take 4)
    rw [hlen] at hdig
    rw [uint32At, hdig, ← List.drop_drop, List.take_append_drop]
  have hbd : 14 ≤ encoded.length := h
  match encoded, hver with
  | first :: second :: rest, hver =>
    have hfst : first = innerFrameVersion := Option.some.inj hver
    have htwo := hfield 2 (by omega)
    rw [hfield 6 (by omega), hfield 10 (by omega)] at htwo
    rw [hfst] at htwo ⊢
    simp only [List.append_assoc]
    exact congrArg (fun tail => innerFrameVersion :: second :: tail) htwo

theorem decodeMode_ok {value : UInt8} {mode : DeliveryMode} :
    decodeMode value = .ok mode ↔
      (mode = .ciphertextInline ∨ mode = .foregroundSync) ∧ value = modeCode mode := by
  unfold decodeMode
  constructor
  · intro h
    split at h
    · next hval =>
      cases h
      exact ⟨.inl rfl, hval⟩
    · split at h
      · next hval =>
        cases h
        exact ⟨.inr rfl, hval⟩
      · cases h
  · rintro ⟨rfl | rfl, rfl⟩
    · rfl
    · rfl

theorem FrameSizes.mode {mode : DeliveryMode} (h : FrameSizes mode capability message padding) :
    mode = .ciphertextInline ∨ mode = .foregroundSync :=
  h.mode_ok.imp And.left And.left

/-- The lengths of a frame fit into four bytes. -/
theorem FrameSizes.lengths {mode : DeliveryMode} (h : FrameSizes mode capability message padding) :
    capability < 256 ^ 4 ∧ message < 256 ^ 4 ∧ padding < 256 ^ 4 := by
  have hcap := h.capability_le
  have hmsg := h.message_le
  have hpad := h.padding_le
  unfold maxCapabilityBytes at hcap
  unfold maxXMTPCiphertextBytes at hmsg
  unfold maxPaddingBytes at hpad
  omega

theorem decodePlaintext_ok :
    decodePlaintext encoded = .ok p ↔
      (innerFrameFixedBytes ≤ encoded.length ∧ encoded[0]? = some innerFrameVersion) ∧
      decodeMode (encoded.getD 1 0) = .ok p.deliveryMode ∧
      FrameSizes p.deliveryMode (uint32At encoded 2) (uint32At encoded 6) (uint32At encoded 10) ∧
      innerFrameFixedBytes + uint32At encoded 2 + uint32At encoded 6 + uint32At encoded 10 =
        encoded.length ∧
      p.capability = (encoded.drop innerFrameFixedBytes).take (uint32At encoded 2) ∧
      p.xmtpEnvelope = ((encoded.drop innerFrameFixedBytes).drop (uint32At encoded 2)).take
        (uint32At encoded 6) ∧
      p.randomPadding = ((encoded.drop innerFrameFixedBytes).drop
        (uint32At encoded 2 + uint32At encoded 6)).take (uint32At encoded 10) := by
  unfold decodePlaintext
  rw [reject_bind_ok, not_or, not_lt, not_not]
  refine and_congr_right fun _ => ?_
  rw [Except.bind_eq_ok]
  constructor
  · rintro ⟨mode, hmode, h⟩
    obtain ⟨_, hsz, h⟩ := Except.bind_eq_ok.mp h
    obtain ⟨hlen, h⟩ := reject_bind_ok.mp h
    cases h
    exact ⟨hmode, validatePlaintextLengths_ok.mp hsz, not_not.mp hlen, rfl, rfl, rfl⟩
  · rintro ⟨hmode, hsz, hlen, hcap, hmsg, hpad⟩
    refine ⟨p.deliveryMode, hmode, Except.bind_eq_ok.mpr
      ⟨(), validatePlaintextLengths_ok.mpr hsz, reject_bind_ok.mpr ⟨not_not.mpr hlen, ?_⟩⟩⟩
    simp only
    rw [← hcap, ← hmsg, ← hpad]

theorem uint32At_append (before digits after : Bytes) (n : Nat) (h : n < 256 ^ 4)
    (hdig : digits = bigEndian 4 n) : uint32At (before ++ (digits ++ after)) before.length = n := by
  have hfour : digits.length = 4 := by rw [hdig, bigEndian_length]
  rw [uint32At, List.drop_left, ← hfour, List.take_left, hdig, ofBigEndian_bigEndian,
    Nat.mod_eq_of_lt h]

/-- The lengths the decoder reads in a frame are those of its fields. -/
theorem uint32At_frameBytes (h : p.Sizes) :
    uint32At (frameBytes p) 2 = p.capability.length ∧
      uint32At (frameBytes p) 6 = p.xmtpEnvelope.length ∧
      uint32At (frameBytes p) 10 = p.randomPadding.length := by
  obtain ⟨hcap, hmsg, hpad⟩ := h.lengths
  unfold frameBytes
  simp only [List.append_assoc]
  refine ⟨uint32At_append [_, _] _ _ _ hcap rfl, ?_, ?_⟩
  · rw [← List.append_assoc]
    have hoffset : ([innerFrameVersion, modeCode p.deliveryMode] ++
        bigEndian 4 p.capability.length).length = 6 := by simp
    have hread := uint32At_append ([innerFrameVersion, modeCode p.deliveryMode] ++
      bigEndian 4 p.capability.length) _ (bigEndian 4 p.randomPadding.length ++
        (p.capability ++ (p.xmtpEnvelope ++ p.randomPadding))) _ hmsg rfl
    rwa [hoffset] at hread
  · rw [← List.append_assoc, ← List.append_assoc]
    have hoffset : ([innerFrameVersion, modeCode p.deliveryMode] ++
        bigEndian 4 p.capability.length ++ bigEndian 4 p.xmtpEnvelope.length).length = 10 := by
      simp
    have hread := uint32At_append ([innerFrameVersion, modeCode p.deliveryMode] ++
      bigEndian 4 p.capability.length ++ bigEndian 4 p.xmtpEnvelope.length) _
      (p.capability ++ (p.xmtpEnvelope ++ p.randomPadding)) _ hpad rfl
    rwa [hoffset] at hread

theorem frameBytes_body (p : Plaintext) :
    (frameBytes p).drop innerFrameFixedBytes =
      p.capability ++ (p.xmtpEnvelope ++ p.randomPadding) := by
  have hlen : ([innerFrameVersion, modeCode p.deliveryMode] ++
      bigEndian 4 p.capability.length ++ bigEndian 4 p.xmtpEnvelope.length ++
      bigEndian 4 p.randomPadding.length).length = innerFrameFixedBytes := by
    simp [innerFrameFixedBytes]
  rw [frameBytes, List.append_assoc _ p.xmtpEnvelope, List.append_assoc _ p.capability, ← hlen,
    List.drop_left]

theorem decodePlaintext_frameBytes (h : p.Sizes) : decodePlaintext (frameBytes p) = .ok p := by
  obtain ⟨hcap, hmsg, hpad⟩ := uint32At_frameBytes h
  rw [decodePlaintext_ok, hcap, hmsg, hpad, frameBytes_body, frameBytes_length]
  refine ⟨⟨by omega, rfl⟩, decodeMode_ok.mpr ⟨h.mode, rfl⟩, h, rfl, ?_, ?_, ?_⟩
  · rw [List.take_left]
  · rw [List.drop_left, List.take_left]
  · rw [← List.drop_drop, List.drop_left, List.drop_left, List.take_length]

/-- A frame the decoder accepts is the one that spells what it returns. -/
theorem frameBytes_of_decodePlaintext (h : decodePlaintext encoded = .ok p) :
    p.Sizes ∧ encoded = frameBytes p := by
  obtain ⟨⟨hfixed, hver⟩, hmode, hsz, hlen, hcap, hmsg, hpad⟩ :=
    decodePlaintext_ok.mp h
  have hbody : (encoded.drop innerFrameFixedBytes).length =
      uint32At encoded 2 + uint32At encoded 6 + uint32At encoded 10 := by
    rw [List.length_drop]
    omega
  have hcapa : p.capability.length = uint32At encoded 2 := by
    rw [hcap, List.length_take]
    omega
  have hmess : p.xmtpEnvelope.length = uint32At encoded 6 := by
    rw [hmsg, List.length_take, List.length_drop]
    omega
  have hpadd : p.randomPadding.length = uint32At encoded 10 := by
    rw [hpad, List.length_take, List.length_drop]
    omega
  have hfields : encoded.drop innerFrameFixedBytes =
      p.capability ++ (p.xmtpEnvelope ++ p.randomPadding) := by
    have hlast : (((encoded.drop innerFrameFixedBytes).drop (uint32At encoded 2)).drop
        (uint32At encoded 6)).take (uint32At encoded 10) =
        ((encoded.drop innerFrameFixedBytes).drop (uint32At encoded 2)).drop
          (uint32At encoded 6) := by
      apply List.take_of_length_le
      rw [List.length_drop, List.length_drop]
      omega
    rw [hcap, hmsg, hpad, ← List.drop_drop, hlast, List.take_append_drop, List.take_append_drop]
  refine ⟨?_, ?_⟩
  · show FrameSizes _ _ _ _
    rw [hcapa, hmess, hpadd]
    exact hsz
  · rw [frameBytes, ← (decodeMode_ok.mp hmode).2, hcapa, hmess,
      hpadd, List.append_assoc _ p.xmtpEnvelope, List.append_assoc _ p.capability, ← hfields]
    exact frame_split hfixed hver

/-- The encoder and the decoder are inverse to each other. -/
theorem encodePlaintext_eq_ok_iff :
    encodePlaintext p = .ok encoded ↔ decodePlaintext encoded = .ok p := by
  rw [encodePlaintext_ok]
  constructor
  · rintro ⟨hsz, rfl⟩
    exact decodePlaintext_frameBytes hsz
  · exact frameBytes_of_decodePlaintext

end NotificationServer.Gate8
