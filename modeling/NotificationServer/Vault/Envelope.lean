import NotificationServer.Vault.Preimages

/-!
# Envelopes

`Keyring.Seal` and `Keyring.Open` (`crypto.go`) byte for byte: a fresh data key
encrypts the value and a root key wraps the data key, each under additional data
that names its part and the context.  AES-256-GCM is a parameter.  This is what
`Keyring.sealValue` and `Keyring.openValue` stand for.
-/

namespace NotificationServer.Envelope

open Framing
open Gate8 (domainBytes Octets)

inductive CryptoError
  | cryptoUnavailable
  | ciphertextInvalid
  deriving DecidableEq

structure GcmCall where
  key : Octets 32
  nonce : Bytes
  plaintext : Bytes
  aad : Bytes
  deriving DecidableEq

/-- AES-256-GCM: `Seal`, and `Open` of a key, a nonce, a ciphertext and additional data. -/
structure Gcm where
  encrypt : GcmCall → Bytes
  decrypt : Octets 32 → Bytes → Bytes → Bytes → Option Bytes
  length_encrypt : ∀ x, (encrypt x).length = x.plaintext.length + 16

structure Keyring where
  activeVersion : UInt32
  keys : UInt32 → Option Bytes

/-- The key of a version, if there is one and it has 32 bytes. -/
def Keyring.rootKey (k : Keyring) (version : UInt32) : Option (Octets 32) :=
  (k.keys version).bind (Octets.ofBytes? 32)

/-- What `Seal` is given and what it reads from the random source. -/
structure SealCall where
  ring : Keyring
  context : Bytes
  plaintext : Bytes
  dataKey : Octets 32
  dataNonce : Octets 12
  wrapNonce : Octets 12

namespace SealCall

def rootKey (c : SealCall) : Option (Octets 32) := c.ring.rootKey c.ring.activeVersion

def dataCall (c : SealCall) : GcmCall :=
  { key := c.dataKey, nonce := c.dataNonce.bytes, plaintext := c.plaintext
    aad := vaultAAD .data c.context }

def wrapCall (c : SealCall) (rootKey : Octets 32) : GcmCall :=
  { key := rootKey, nonce := c.wrapNonce.bytes, plaintext := c.dataKey.bytes
    aad := vaultAAD .wrap c.context }

end SealCall

def envelopeMagic : Bytes := domainBytes "HV1"

def envelope (version : UInt32) (wrapNonce dataNonce wrappedDataKey dataCiphertext : Bytes) :
    Bytes :=
  envelopeMagic ++ (bigEndian 4 version.toNat ++
    (wrapNonce ++ (dataNonce ++ (wrappedDataKey ++ dataCiphertext))))

/-- The envelope of a call with `version` in the version field. -/
def SealCall.envelopeAt (g : Gcm) (c : SealCall) (rootKey : Octets 32) (version : UInt32) : Bytes :=
  envelope version c.wrapNonce.bytes c.dataNonce.bytes (g.encrypt (c.wrapCall rootKey))
    (g.encrypt c.dataCall)

/-- `Keyring.Seal`. -/
def SealCall.sealBytes (g : Gcm) (c : SealCall) : Except CryptoError Bytes :=
  if c.context = [] then .error .cryptoUnavailable
  else match c.rootKey with
    | none => .error .cryptoUnavailable
    | some rootKey =>
      if (g.encrypt (c.wrapCall rootKey)).length ≠ 48 then .error .cryptoUnavailable
      else .ok (c.envelopeAt g rootKey c.ring.activeVersion)

def slice (bytes : Bytes) (lo hi : Nat) : Bytes := (bytes.drop lo).take (hi - lo)

def versionOf (sealed : Bytes) : UInt32 := UInt32.ofNat (ofBigEndian (slice sealed 4 8))

/-- `Keyring.Open`. -/
def Keyring.openBytes (g : Gcm) (k : Keyring) (context sealed : Bytes) :
    Except CryptoError Bytes :=
  if context = [] ∨ sealed.length < 80 + 16 ∨ slice sealed 0 4 ≠ envelopeMagic then
    .error .ciphertextInvalid
  else match k.rootKey (versionOf sealed) with
    | none => .error .cryptoUnavailable
    | some rootKey =>
      match (g.decrypt rootKey (slice sealed 8 20) (slice sealed 32 80)
          (vaultAAD .wrap context)).bind (Octets.ofBytes? 32) with
      | none => .error .ciphertextInvalid
      | some dataKey =>
        match g.decrypt dataKey (slice sealed 20 32) (sealed.drop 80) (vaultAAD .data context) with
        | none => .error .ciphertextInvalid
        | some plaintext => .ok plaintext

theorem slice_append_drop (bytes : Bytes) {lo hi : Nat} (h : lo ≤ hi) :
    slice bytes lo hi ++ bytes.drop hi = bytes.drop lo := by
  have hdrop : bytes.drop hi = (bytes.drop lo).drop (hi - lo) := by
    rw [List.drop_drop, Nat.add_sub_cancel' h]
  rw [slice, hdrop, List.take_append_drop]

theorem slice_length {bytes : Bytes} {lo hi : Nat} (h : hi ≤ bytes.length) :
    (slice bytes lo hi).length = hi - lo := by
  rw [slice, List.length_take, List.length_drop]
  omega

theorem bigEndian_versionOf {sealed : Bytes} (h : 80 ≤ sealed.length) :
    bigEndian 4 (versionOf sealed).toNat = slice sealed 4 8 := by
  have hlen : (slice sealed 4 8).length = 4 := slice_length (by omega)
  have hback := bigEndian_ofBigEndian (slice sealed 4 8)
  have hval := ofBigEndian_bigEndian 4 (ofBigEndian (slice sealed 4 8))
  rw [hlen] at hback
  rw [hback] at hval
  rw [versionOf, UInt32.toNat_ofNat', Nat.mod_eq_of_lt (by omega), hback]

/-- The fields `Open` cuts out make up the whole envelope. -/
theorem envelope_fields {sealed : Bytes} (hlen : 80 ≤ sealed.length)
    (hmag : slice sealed 0 4 = envelopeMagic) :
    sealed = envelope (versionOf sealed) (slice sealed 8 20) (slice sealed 20 32)
      (slice sealed 32 80) (sealed.drop 80) := by
  rw [envelope, bigEndian_versionOf hlen, ← hmag, slice_append_drop sealed (by omega),
    slice_append_drop sealed (by omega), slice_append_drop sealed (by omega),
    slice_append_drop sealed (by omega), slice_append_drop sealed (by omega)]
  rfl

theorem envelope_inj {v v' : UInt32} {wn wn' dn dn' wk wk' dc dc' : Bytes}
    (hwn : wn.length = wn'.length) (hdn : dn.length = dn'.length) (hwk : wk.length = wk'.length)
    (h : envelope v wn dn wk dc = envelope v' wn' dn' wk' dc') :
    v = v' ∧ wn = wn' ∧ dn = dn' ∧ wk = wk' ∧ dc = dc' := by
  obtain ⟨hv, h⟩ := uint32_append_inj (List.append_cancel_left h)
  obtain ⟨hw, h⟩ := List.append_inj h hwn
  obtain ⟨hd, h⟩ := List.append_inj h hdn
  obtain ⟨hk, h⟩ := List.append_inj h hwk
  exact ⟨hv, hw, hd, hk, h⟩

variable {g : Gcm} {k : Keyring} {c c' : SealCall} {r r' : Octets 32} {v v' : UInt32}
  {context sealed plaintext : Bytes}

theorem SealCall.wrapped_length (g : Gcm) (c : SealCall) (r : Octets 32) :
    (g.encrypt (c.wrapCall r)).length = 48 := by
  rw [g.length_encrypt, SealCall.wrapCall, c.dataKey.length_eq]

theorem SealCall.sealBytes_ok :
    c.sealBytes g = .ok sealed ↔
      c.context ≠ [] ∧ ∃ r, c.rootKey = some r ∧ sealed = c.envelopeAt g r c.ring.activeVersion := by
  unfold sealBytes
  by_cases hc : c.context = []
  · simp [hc]
  · cases hr : c.rootKey with
    | none => simp [hc]
    | some r => simp [hc, c.wrapped_length g r, eq_comm]

theorem Keyring.openBytes_ok :
    k.openBytes g context sealed = .ok plaintext ↔
      context ≠ [] ∧ 96 ≤ sealed.length ∧ slice sealed 0 4 = envelopeMagic ∧
        ∃ r d, k.rootKey (versionOf sealed) = some r ∧
          g.decrypt r (slice sealed 8 20) (slice sealed 32 80) (vaultAAD .wrap context)
            = some d.bytes ∧
          g.decrypt d (slice sealed 20 32) (sealed.drop 80) (vaultAAD .data context)
            = some plaintext := by
  constructor
  · intro h
    unfold openBytes at h
    split at h
    · cases h
    rename_i hg
    push Not at hg
    split at h
    · cases h
    rename_i r hr
    split at h
    · cases h
    rename_i d hd
    obtain ⟨bytes, hb, hof⟩ := Option.bind_eq_some_iff.mp hd
    rw [Octets.ofBytes?_eq_some.mp hof] at hb
    split at h <;> cases h
    exact ⟨hg.1, hg.2.1, hg.2.2, r, d, hr, hb, by assumption⟩
  · rintro ⟨hc, hlen, hmag, r, d, hr, hd, hp⟩
    have hof : (some d.bytes).bind (Octets.ofBytes? 32) = some d := Octets.ofBytes?_eq_some.mpr rfl
    unfold openBytes
    rw [if_neg (by simp [hc, hlen, hmag]), hr]
    simp only [hd, hof, hp]

/-- What `Open` reads off an envelope. -/
theorem SealCall.envelopeAt_fields (hs : sealed = c.envelopeAt g r v) :
    96 ≤ sealed.length ∧ slice sealed 0 4 = envelopeMagic ∧ versionOf sealed = v ∧
      slice sealed 8 20 = c.wrapNonce.bytes ∧ slice sealed 20 32 = c.dataNonce.bytes ∧
      slice sealed 32 80 = g.encrypt (c.wrapCall r) ∧ sealed.drop 80 = g.encrypt c.dataCall := by
  have hwk := c.wrapped_length g r
  have hdc := g.length_encrypt c.dataCall
  have hlen : sealed.length = 80 + (g.encrypt c.dataCall).length := by
    rw [hs, envelopeAt, envelope]
    simp only [List.length_append, bigEndian_length, c.wrapNonce.length_eq, c.dataNonce.length_eq, hwk]
    have : envelopeMagic.length = 4 := by decide
    omega
  have hmag : slice sealed 0 4 = envelopeMagic := by
    rw [hs, envelopeAt, envelope, slice]
    exact List.take_left' (by decide)
  have hcut := hs.symm.trans (envelope_fields (by omega) hmag)
  have hcutlen : ∀ lo hi, hi ≤ 80 → hi - lo = (slice sealed lo hi).length := by
    intro lo hi hhi
    rw [slice_length (by omega)]
  obtain ⟨hv, hwn, hdn, hk, hd⟩ := envelope_inj
    (c.wrapNonce.length_eq.trans (hcutlen 8 20 (by decide)))
    (c.dataNonce.length_eq.trans (hcutlen 20 32 (by decide)))
    (hwk.trans (hcutlen 32 80 (by decide))) hcut
  exact ⟨by omega, hmag, hv.symm, hwn.symm, hdn.symm, hk.symm, hd.symm⟩

/-- What calls encrypt, once they have checked the context and found the root key. -/
def Encrypted (calls : Set SealCall) (x : GcmCall) : Prop :=
  ∃ c ∈ calls, c.context ≠ [] ∧ ∃ r, c.rootKey = some r ∧ (x = c.dataCall ∨ x = c.wrapCall r)

/-- Only what `calls` encrypt decrypts, different encryptions have different ciphertexts, and no two
calls draw the same data key. -/
structure Gcm.Ideal (g : Gcm) (calls : Set SealCall) : Prop where
  decrypt_iff : ∀ x ct, g.decrypt x.key x.nonce ct x.aad = some x.plaintext ↔
    Encrypted calls x ∧ g.encrypt x = ct
  encrypt_inj : ∀ x y, Encrypted calls x → Encrypted calls y → g.encrypt x = g.encrypt y → x = y
  dataKey_inj : ∀ c ∈ calls, ∀ c' ∈ calls, c.dataKey = c'.dataKey → c = c'

/-- Distinct versions have distinct keys, in all rings taken together. -/
def DistinctKeys (rings : Set Keyring) : Prop :=
  ∀ k ∈ rings, ∀ k' ∈ rings, ∀ v v' r, k.rootKey v = some r → k'.rootKey v' = some r → v = v'

section Sealed

variable {calls : Set SealCall} (hid : g.Ideal calls)

include hid

/-- An authentic wrapped key is that of a call under the same context. -/
theorem Gcm.Ideal.unwrap {d : Octets 32} {nonce ct : Bytes}
    (h : g.decrypt r nonce ct (vaultAAD .wrap context) = some d.bytes) :
    ∃ c ∈ calls, c.context = context ∧ c.context ≠ [] ∧ c.rootKey = some r ∧ c.dataKey = d ∧
      c.wrapNonce.bytes = nonce ∧ g.encrypt (c.wrapCall r) = ct := by
  obtain ⟨⟨c, hc, hne, r', hr, hx | hx⟩, hct⟩ := (hid.decrypt_iff ⟨r, nonce, d.bytes, _⟩ ct).mp h
  · cases (vaultAAD_injective (congrArg GcmCall.aad hx)).1
  · have hctx := (vaultAAD_injective (congrArg GcmCall.aad hx)).2
    rw [hx] at hct
    obtain ⟨rfl, rfl, hd, -⟩ := GcmCall.mk.inj hx
    exact ⟨c, hc, hctx.symm, hne, hr, (octets_ext hd).symm, rfl, hct⟩

/-- The envelopes that open are those of the calls, up to a version with the same key. -/
theorem Gcm.Ideal.openBytes_iff :
    k.openBytes g context sealed = .ok plaintext ↔
      ∃ c ∈ calls, ∃ v r, c.context = context ∧ c.context ≠ [] ∧ c.plaintext = plaintext ∧
        c.rootKey = some r ∧ k.rootKey v = some r ∧ sealed = c.envelopeAt g r v := by
  constructor
  · intro h
    obtain ⟨-, hlen, hmag, r, d, hk, hd, hp⟩ := Keyring.openBytes_ok.mp h
    obtain ⟨c, hc, rfl, hne, hr, rfl, hwn, hwk⟩ := hid.unwrap hd
    obtain ⟨⟨c', hc', -, r', -, hx | hx⟩, hdc⟩ := (hid.decrypt_iff ⟨_, _, plaintext, _⟩ _).mp hp
    · rw [hx] at hdc
      obtain ⟨hkey, hdn, rfl, -⟩ := GcmCall.mk.inj hx
      cases hid.dataKey_inj c hc c' hc' hkey
      refine ⟨c, hc, versionOf sealed, r, rfl, hne, rfl, hr, hk, ?_⟩
      rw [SealCall.envelopeAt, hwn, hwk, hdc, ← hdn]
      exact envelope_fields (by omega) hmag
    · cases (vaultAAD_injective (congrArg GcmCall.aad hx)).1
  · rintro ⟨c, hc, v, r, rfl, hne, rfl, hr, hk, hs⟩
    obtain ⟨hlen, hmag, rfl, hwn, hdn, hwk, hdc⟩ := SealCall.envelopeAt_fields hs
    refine Keyring.openBytes_ok.mpr ⟨hne, hlen, hmag, r, c.dataKey, hk, ?_, ?_⟩
    · rw [hwn, hwk]
      exact (hid.decrypt_iff (c.wrapCall r) _).mpr ⟨⟨c, hc, hne, r, hr, .inr rfl⟩, rfl⟩
    · rw [hdn, hdc]
      exact (hid.decrypt_iff c.dataCall _).mpr ⟨⟨c, hc, hne, r, hr, .inl rfl⟩, rfl⟩

/-- With one version to a key, an envelope that opens is that of a call. -/
theorem Gcm.Ideal.sealed_of_opened (hdis : DistinctKeys (insert k (SealCall.ring '' calls)))
    (h : k.openBytes g context sealed = .ok plaintext) :
    ∃ c ∈ calls, c.sealBytes g = .ok sealed ∧ c.context = context ∧
      k.rootKey c.ring.activeVersion = c.rootKey := by
  obtain ⟨c, hc, v, r, hctx, hne, -, hr, hk, hs⟩ := hid.openBytes_iff.mp h
  have hv : v = c.ring.activeVersion :=
    hdis k (Set.mem_insert _ _) c.ring (Set.mem_insert_of_mem _ ⟨c, hc, rfl⟩) _ _ r hk hr
  rw [hv] at hk hs
  exact ⟨c, hc, SealCall.sealBytes_ok.mpr ⟨hne, r, hr, hs⟩, hctx, hk.trans hr.symm⟩

/-- Either of the two ciphertexts tells which call an envelope is from. -/
theorem Gcm.Ideal.call_unique {sealed' : Bytes} (hc : c ∈ calls) (hc' : c' ∈ calls)
    (hs : c.sealBytes g = .ok sealed) (hs' : c'.sealBytes g = .ok sealed')
    (h : slice sealed 32 80 = slice sealed' 32 80 ∨ sealed.drop 80 = sealed'.drop 80) : c = c' := by
  obtain ⟨hne, r, hr, hs⟩ := SealCall.sealBytes_ok.mp hs
  obtain ⟨hne', r', hr', hs'⟩ := SealCall.sealBytes_ok.mp hs'
  obtain ⟨-, -, -, -, -, hwk, hdc⟩ := SealCall.envelopeAt_fields hs
  obtain ⟨-, -, -, -, -, hwk', hdc'⟩ := SealCall.envelopeAt_fields hs'
  apply hid.dataKey_inj c hc c' hc'
  obtain h | h := h
  · rw [hwk, hwk'] at h
    have hcall := hid.encrypt_inj _ _ ⟨c, hc, hne, r, hr, .inr rfl⟩
      ⟨c', hc', hne', r', hr', .inr rfl⟩ h
    exact octets_ext (congrArg GcmCall.plaintext hcall)
  · rw [hdc, hdc'] at h
    have hcall := hid.encrypt_inj _ _ ⟨c, hc, hne, r, hr, .inl rfl⟩
      ⟨c', hc', hne', r', hr', .inl rfl⟩ h
    exact congrArg GcmCall.key hcall

end Sealed

/-- One byte lies in at most one of the two ciphertexts. -/
theorem ciphertext_of_set (sealed : Bytes) (i : Nat) (b : UInt8) :
    slice (sealed.set i b) 32 80 = slice sealed 32 80 ∨ (sealed.set i b).drop 80 = sealed.drop 80 := by
  by_cases hi : i < 80
  · exact .inr (List.drop_set_of_lt hi)
  · left
    rw [slice, List.drop_set, if_neg (by omega), List.take_set_of_le (by omega), slice]

/-- A sealed value opens under its context with every ring that has its key under its version.  It
does not open under another context, with a byte changed, or with any other ring; and nothing opens
that was not sealed. -/
theorem sealed_opens_only_unchanged {calls : Set SealCall} (hid : g.Ideal calls)
    (hdis : DistinctKeys (insert k (SealCall.ring '' calls))) (hc : c ∈ calls)
    (hs : c.sealBytes g = .ok sealed) :
    (k.rootKey c.ring.activeVersion = c.rootKey →
        k.openBytes g c.context sealed = .ok c.plaintext) ∧
      (∀ context p, context ≠ c.context → k.openBytes g context sealed ≠ .ok p) ∧
      (∀ context p i b, sealed.set i b ≠ sealed →
        k.openBytes g context (sealed.set i b) ≠ .ok p) ∧
      (∀ context p, k.rootKey c.ring.activeVersion ≠ c.rootKey →
        k.openBytes g context sealed ≠ .ok p) ∧
      ∀ context p sealed', (∀ c' ∈ calls, c'.sealBytes g ≠ .ok sealed') →
        k.openBytes g context sealed' ≠ .ok p := by
  refine ⟨?_, ?_, ?_, ?_, ?_⟩
  · intro hk
    obtain ⟨hne, r, hr, hs⟩ := SealCall.sealBytes_ok.mp hs
    exact hid.openBytes_iff.mpr ⟨c, hc, _, r, rfl, hne, rfl, hr, hk.trans hr, hs⟩
  · intro context p hctx h
    obtain ⟨c', hc', hs', hctx', -⟩ := hid.sealed_of_opened hdis h
    cases hid.call_unique hc hc' hs hs' (.inl rfl)
    exact hctx hctx'.symm
  · intro context p i b hset h
    obtain ⟨c', hc', hs', -⟩ := hid.sealed_of_opened hdis h
    cases hid.call_unique hc' hc hs' hs (ciphertext_of_set sealed i b)
    exact hset (Except.ok.inj (hs'.symm.trans hs))
  · intro context p hk h
    obtain ⟨c', hc', hs', -, hk'⟩ := hid.sealed_of_opened hdis h
    cases hid.call_unique hc hc' hs hs' (.inl rfl)
    exact hk hk'
  · intro context p sealed' hnot h
    obtain ⟨c', hc', hs', -⟩ := hid.sealed_of_opened hdis h
    exact hnot c' hc' hs'

def sampleRing : Keyring :=
  { activeVersion := 1, keys := fun v => if v = 1 then some (List.replicate 32 1) else none }

def sampleCall : SealCall :=
  { ring := sampleRing, context := [1], plaintext := [2], dataKey := ⟨List.replicate 32 3, rfl⟩
    dataNonce := ⟨List.replicate 12 4, rfl⟩, wrapNonce := ⟨List.replicate 12 5, rfl⟩ }

def sampleGcmCalls : List GcmCall :=
  [sampleCall.dataCall, sampleCall.wrapCall ⟨List.replicate 32 1, rfl⟩]

/-- Encryption that only decrypts what `sampleCall` encrypts. -/
def sampleGcm : Gcm :=
  { encrypt := fun x => x.plaintext ++ List.replicate 16 0
    decrypt := fun key nonce ct aad => (sampleGcmCalls.find? fun x =>
      x.key = key ∧ x.nonce = nonce ∧ x.aad = aad ∧ x.plaintext ++ List.replicate 16 0 = ct).map
        GcmCall.plaintext
    length_encrypt := by simp }

theorem encrypted_sample {x : GcmCall} : Encrypted {sampleCall} x ↔ x ∈ sampleGcmCalls := by
  have hr : sampleCall.rootKey = some ⟨List.replicate 32 1, rfl⟩ := by decide
  have hne : sampleCall.context ≠ [] := by decide
  simp [Encrypted, hr, hne, sampleGcmCalls]

theorem sampleGcm_ideal : sampleGcm.Ideal {sampleCall} := by
  refine ⟨?_, ?_, ?_⟩
  · rintro ⟨key, nonce, p, aad⟩ ct
    rw [encrypted_sample]
    constructor
    · intro h
      obtain ⟨y, hy, rfl⟩ := Option.map_eq_some_iff.mp h
      have hmem := List.mem_of_find?_eq_some hy
      have hfound := List.find?_some hy
      obtain ⟨rfl, rfl, rfl, hct⟩ := of_decide_eq_true hfound
      exact ⟨hmem, hct⟩
    · rintro ⟨hx, rfl⟩
      obtain hx | hx := List.mem_pair.mp hx <;> cases hx <;> decide
  · intro x y hx hy h
    rw [encrypted_sample] at hx hy
    obtain rfl | rfl := List.mem_pair.mp hx <;> obtain rfl | rfl := List.mem_pair.mp hy <;>
      first | rfl | cases h
  · rintro _ rfl _ rfl -
    rfl

/-- The ring after a second key was added and made active. -/
def rotatedRing : Keyring :=
  { activeVersion := 2
    keys := fun v => if v = 2 then some (List.replicate 32 2) else sampleRing.keys v }

theorem sampleRing_rootKey {v : UInt32} {r : Octets 32} (h : sampleRing.rootKey v = some r) :
    v = 1 ∧ r = ⟨List.replicate 32 1, rfl⟩ := by
  by_cases hv : v = 1
  · subst hv
    exact ⟨rfl, (Option.some.inj h).symm⟩
  · simp [Keyring.rootKey, sampleRing, hv] at h

theorem rotatedRing_rootKey {v : UInt32} {r : Octets 32} (h : rotatedRing.rootKey v = some r) :
    (v = 2 ∧ r = ⟨List.replicate 32 2, rfl⟩) ∨ sampleRing.rootKey v = some r := by
  by_cases hv : v = 2
  · subst hv
    exact .inl ⟨rfl, (Option.some.inj h).symm⟩
  · exact .inr (by simpa [Keyring.rootKey, rotatedRing, hv] using h)

theorem rotatedRing_distinct :
    DistinctKeys (insert rotatedRing (SealCall.ring '' {sampleCall})) := by
  have hheld : ∀ k ∈ insert rotatedRing (SealCall.ring '' {sampleCall}), ∀ v r,
      k.rootKey v = some r → (v = 2 ∧ r = ⟨List.replicate 32 2, rfl⟩) ∨
        v = 1 ∧ r = ⟨List.replicate 32 1, rfl⟩ := by
    rintro _ (rfl | ⟨_, rfl, rfl⟩) v r h
    · exact (rotatedRing_rootKey h).imp_right sampleRing_rootKey
    · exact .inr (sampleRing_rootKey h)
  intro k hk k' hk' v v' r h h'
  rcases hheld k hk v r h with ⟨rfl, rfl⟩ | ⟨rfl, rfl⟩
  · rcases hheld k' hk' v' _ h' with ⟨rfl, -⟩ | ⟨-, heq⟩
    · rfl
    · cases heq
  · rcases hheld k' hk' v' _ h' with ⟨-, heq⟩ | ⟨rfl, -⟩
    · cases heq
    · rfl

/-- A value sealed before the active key was changed. -/
theorem sealed_opens_only_unchanged_sample :
    sampleGcm.Ideal {sampleCall} ∧
      DistinctKeys (insert rotatedRing (SealCall.ring '' {sampleCall})) ∧
      rotatedRing.activeVersion ≠ sampleCall.ring.activeVersion ∧
      ∃ sealed, sampleCall.sealBytes sampleGcm = .ok sealed ∧
        rotatedRing.openBytes sampleGcm [1] sealed = .ok [2] :=
  ⟨sampleGcm_ideal, rotatedRing_distinct, by decide, _, rfl,
    (sealed_opens_only_unchanged sampleGcm_ideal rotatedRing_distinct rfl rfl).1 rfl⟩

end NotificationServer.Envelope
