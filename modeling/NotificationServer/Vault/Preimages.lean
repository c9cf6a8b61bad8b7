import NotificationServer.Gate8.Wrapper
import NotificationServer.Push.Policy

/-!
# What the vault hashes and authenticates

The inputs of the lookup digests (`crypto.go`, `store.go`), of the commitments
(`a9trust/primitives.go`) and of the additional data of the vault's encryption,
byte for byte.  Each input starts with a domain string that a zero byte ends and
goes on with fields of fixed length or behind their length.
-/

namespace NotificationServer

open Framing Trust
open Gate8 (domainBytes Octets)
open Push (Slice)

def lengthDelimited (values : List Slice) : Bytes := values.flatMap fun v => frame v.val

/-- The namespaces `environmentLookupDigest` is called with. -/
inductive EnvironmentNamespace
  | installation
  | incarnation
  | topic
  | routeKeyCommitment
  | welcomeNonce
  | welcomeEnvelope
  | welcomeBudget
  deriving DecidableEq

/-- The arguments of the value that is looked up: a nonce comes with the identity of the
installation it authorizes. -/
abbrev EnvironmentNamespace.Value : EnvironmentNamespace → Type
  | welcomeNonce => Slice × Slice
  | installation | incarnation | topic | routeKeyCommitment | welcomeEnvelope | welcomeBudget => Slice

def EnvironmentNamespace.valueBytes : (ns : EnvironmentNamespace) → ns.Value → Bytes
  | welcomeNonce, (identity, nonce) => lengthDelimited [identity, nonce]
  | installation, v | incarnation, v | topic, v | routeKeyCommitment, v | welcomeEnvelope, v
  | welcomeBudget, v => v.val

/-- The namespaces of `Digest`. -/
inductive LookupNamespace
  | environment (ns : EnvironmentNamespace)
  | routeHistory
  | installationDeletion
  | deliverySourceEvent
  | rootBinding
  deriving DecidableEq

def LookupNamespace.domain : LookupNamespace → String
  | environment .installation => "installation"
  | environment .incarnation => "incarnation"
  | environment .topic => "topic"
  | environment .routeKeyCommitment => "route-key-commitment"
  | environment .welcomeNonce => "welcome-nonce"
  | environment .welcomeEnvelope => "welcome-envelope"
  | environment .welcomeBudget => "welcome-budget"
  | routeHistory => "route-history"
  | installationDeletion => "installation-deletion"
  | deliverySourceEvent => "delivery-source-event"
  | rootBinding => "lookup-root-binding"

/-- The calls of `Digest`, by the arguments of the functions that make them.  The checks those make
first only refuse arguments. -/
inductive LookupCall
  | environmentLookupDigest (ns : EnvironmentNamespace) (epoch : UInt64)
      (lookupEnvironment : Slice) (value : ns.Value)
  | routeHistoryIdentity (lookupEnvironment installationID rawTopic : Slice)
  | installationDeletionIdentity (lookupEnvironment installationID : Slice)
  | deliverySourceEventLookup (leaseID : Octets 16) (trafficClass : UInt8) (sourceEventID : Slice)
  | rootCommitment

namespace LookupCall

def ns : LookupCall → LookupNamespace
  | environmentLookupDigest ns _ _ _ => .environment ns
  | routeHistoryIdentity .. => .routeHistory
  | installationDeletionIdentity .. => .installationDeletion
  | deliverySourceEventLookup .. => .deliverySourceEvent
  | rootCommitment => .rootBinding

def epoch : LookupCall → UInt64
  | environmentLookupDigest _ epoch _ _ => epoch
  | _ => 0

def value : LookupCall → Bytes
  | environmentLookupDigest ns _ lookupEnvironment value =>
    domainBytes "hytch.push.vault.environment.v1" ++
      (frame lookupEnvironment.val ++ frame (ns.valueBytes value))
  | routeHistoryIdentity lookupEnvironment installationID rawTopic =>
    lengthDelimited [lookupEnvironment, installationID, rawTopic]
  | installationDeletionIdentity lookupEnvironment installationID =>
    lengthDelimited [lookupEnvironment, installationID]
  | deliverySourceEventLookup leaseID trafficClass sourceEventID =>
    leaseID.bytes ++ trafficClass :: lengthDelimited [sourceEventID]
  | rootCommitment => textBytes "hytch.push.vault.lookup-root.v1"

/-- What `LookupKey.Digest` authenticates behind its label. -/
def message (c : LookupCall) : Bytes :=
  domainBytes c.ns.domain ++ (bigEndian 8 c.epoch.toNat ++ frame c.value)

end LookupCall

/-- A text of at most 255 bytes, behind its length in one byte. -/
abbrev ShortText := { text : Bytes // text.length ≤ 255 }

def ShortText.encoded (t : ShortText) : Bytes := UInt8.ofNat t.val.length :: t.val

/-- `[0-9a-f]`. -/
def lowerHexDigit (c : UInt8) : Bool := (0x30 ≤ c && c ≤ 0x39) || (0x61 ≤ c && c ≤ 0x66)

/-- Groups of lower-case digits of these lengths, with a dash between any two. -/
def matchesGroups : List Nat → Bytes → Bool
  | [], text => text.isEmpty
  | [n], text => text.length == n && text.all lowerHexDigit
  | n :: ns, text =>
    (text.take n).length == n && (text.take n).all lowerHexDigit &&
      match text.drop n with
      | [] => false
      | c :: rest => c == 0x2d && matchesGroups ns rest

def canonicalUUIDPattern (text : Bytes) : Bool := matchesGroups [8, 4, 4, 4, 12] text

def parseCanonicalUUID (text : Bytes) : Option (Octets 16) := do
  guard (canonicalUUIDPattern text)
  let compact := text.filter (· != 0x2d)
  let decoded ← Gate8.hexDecodeString compact
  Octets.ofBytes? 16 decoded

/-- A text that `ParseCanonicalUUID` accepts, and what it returns. -/
structure CanonicalUUID where
  text : Bytes
  decoded : Octets 16
  parsed : parseCanonicalUUID text = some decoded

structure TupleInput where
  environment : ShortText
  accountIncarnationID : CanonicalUUID
  hytchConversationID : CanonicalUUID
  conversationGeneration : UInt32
  rosterVersion : UInt32
  rosterCommitment : Octets 32
  transportConversationID : Octets 64

/-- The tuple state and the transport conversation id, which is 64 digits. -/
def transportField (id : Octets 64) : Bytes :=
  6 :: textBytes "ACTIVE" ++ bigEndian 2 64 ++ id.bytes

/-- What `TupleCommitment` authenticates behind its domain. -/
def TupleInput.message (t : TupleInput) : Bytes :=
  t.environment.encoded ++ (t.accountIncarnationID.decoded.bytes ++
    (t.hytchConversationID.decoded.bytes ++ (bigEndian 4 t.conversationGeneration.toNat ++
      (bigEndian 4 t.rosterVersion.toNat ++ (t.rosterCommitment.bytes ++
        transportField t.transportConversationID)))))

/-- What is authenticated under a lookup root or a commitment key. -/
inductive MacCall
  | lookup (call : LookupCall)
  | rosterCommitment (environment : ShortText) (rosterDigest : Octets 32)
  | topicBinding (topic : Octets 33)
  | tupleCommitment (input : TupleInput)

inductive MacPurpose
  | lookup
  | roster
  | topic
  | tuple
  deriving DecidableEq

def MacPurpose.domain : MacPurpose → String
  | lookup => "hytch.vault.lookup.v1"
  | roster => "Hytch A9 bridge roster v1"
  | topic => "Hytch A9 bridge topic v1"
  | tuple => "Hytch A9 push tuple v1"

namespace MacCall

def purpose : MacCall → MacPurpose
  | lookup _ => .lookup
  | rosterCommitment .. => .roster
  | topicBinding _ => .topic
  | tupleCommitment _ => .tuple

def message : MacCall → Bytes
  | lookup call => call.message
  | rosterCommitment environment rosterDigest => environment.encoded ++ rosterDigest.bytes
  | topicBinding topic => bigEndian 4 33 ++ topic.bytes
  | tupleCommitment input => input.message

def input (c : MacCall) : Bytes := domainBytes c.purpose.domain ++ c.message

end MacCall

inductive VaultKind
  | installation
  | lease
  | deliveryJob
  | welcomeAuthorization
  deriving DecidableEq

def VaultKind.name : VaultKind → String
  | installation => "installation"
  | lease => "lease"
  | deliveryJob => "delivery-job"
  | welcomeAuthorization => "welcome-authorization"

def vaultContext (kind : VaultKind) (identifier : Slice) (field : Bytes) : Bytes :=
  domainBytes "hytch.push.vault.v1" ++ (domainBytes kind.name ++ (frame identifier.val ++ 0 :: field))

/-- The two keys an envelope uses, by the domain of their additional data. -/
inductive AADDomain
  | data
  | wrap
  deriving DecidableEq

def AADDomain.name : AADDomain → String
  | data => "hytch.vault.data.v1"
  | wrap => "hytch.vault.wrap.v1"

def vaultAAD (domain : AADDomain) (context : Bytes) : Bytes :=
  domainBytes domain.name ++ frame context

theorem frame_append_inj {u v : Slice} {xs ys : Bytes} :
    frame u.val ++ xs = frame v.val ++ ys ↔ u = v ∧ xs = ys := by
  have hfr : Spells (fun v : Slice => frame v.val) Subtype.val :=
    Spells.frame fun v => lt_trans v.property (by decide)
  rw [hfr u v xs ys, Subtype.ext_iff]

/-- Nothing follows the last field, so its length does not matter. -/
theorem frame_injective : Function.Injective frame := by
  intro u v h
  exact (List.append_inj h (by simp)).2

theorem lengthDelimited_injective : Function.Injective lengthDelimited := by
  intro us
  induction us with
  | nil =>
    intro vs h
    cases vs with
    | nil => rfl
    | cons v vs => cases h
  | cons u us ih =>
    intro vs h
    cases vs with
    | nil => cases h
    | cons v vs =>
      obtain ⟨rfl, hvs⟩ := frame_append_inj.mp h
      rw [ih hvs]

/-- Domain strings are told apart by the zero byte that ends them. -/
theorem domainBytes_append_inj {α : Type} {name : α → String} (hnul : ∀ a, 0 ∉ textBytes (name a))
    (hinj : ∀ a b, textBytes (name a) = textBytes (name b) → a = b) {a b : α} {xs ys : Bytes}
    (h : domainBytes (name a) ++ xs = domainBytes (name b) ++ ys) : a = b ∧ xs = ys := by
  obtain ⟨hname, hxs⟩ := (Spells.terminated hnul a b xs ys).mp h
  exact ⟨hinj a b hname, hxs⟩

theorem LookupNamespace.domain_append_inj {ns ns' : LookupNamespace} {xs ys : Bytes}
    (h : domainBytes ns.domain ++ xs = domainBytes ns'.domain ++ ys) : ns = ns' ∧ xs = ys := by
  refine domainBytes_append_inj ?_ ?_ h
  · rintro (ns | _ | _ | _ | _)
    · cases ns <;> decide
    all_goals decide
  · rintro (ns | _ | _ | _ | _) (ns' | _ | _ | _ | _)
    · cases ns <;> cases ns' <;> decide
    all_goals first | decide | (cases ns <;> decide) | (cases ns' <;> decide)

theorem octets_ext {n : Nat} {a b : Octets n} (h : a.bytes = b.bytes) : a = b := by
  cases a
  cases b
  cases h
  rfl

theorem octets_append_inj {n : Nat} {a b : Octets n} {xs ys : Bytes}
    (h : a.bytes ++ xs = b.bytes ++ ys) : a = b ∧ xs = ys := by
  obtain ⟨hab, hxs⟩ := List.append_inj h (a.length_eq.trans b.length_eq.symm)
  exact ⟨octets_ext hab, hxs⟩

theorem EnvironmentNamespace.valueBytes_injective (ns : EnvironmentNamespace) :
    Function.Injective ns.valueBytes := by
  intro v v' h
  cases ns with
  | welcomeNonce =>
    obtain ⟨hidentity, hnonce⟩ := List.cons.inj (lengthDelimited_injective h)
    exact Prod.ext hidentity (List.cons.inj hnonce).1
  | installation | incarnation | topic | routeKeyCommitment | welcomeEnvelope | welcomeBudget =>
    exact Subtype.ext h

theorem LookupCall.value_injective {c c' : LookupCall} (hns : c.ns = c'.ns)
    (hep : c.epoch = c'.epoch) (h : c.value = c'.value) : c = c' := by
  cases c with
  | environmentLookupDigest =>
    cases c' <;> cases hns
    obtain ⟨rfl, hvalue⟩ := frame_append_inj.mp (List.append_cancel_left h)
    cases EnvironmentNamespace.valueBytes_injective _ (frame_injective hvalue)
    cases hep
    rfl
  | routeHistoryIdentity | installationDeletionIdentity =>
    cases c' <;> cases hns
    cases lengthDelimited_injective h
    rfl
  | deliverySourceEventLookup =>
    cases c' <;> cases hns
    obtain ⟨rfl, htail⟩ := octets_append_inj h
    obtain ⟨rfl, hid⟩ := List.cons.inj htail
    cases lengthDelimited_injective hid
    rfl
  | rootCommitment =>
    cases c' <;> cases hns
    rfl

theorem LookupCall.message_injective : Function.Injective LookupCall.message := by
  intro c c' h
  obtain ⟨hns, h⟩ := LookupNamespace.domain_append_inj h
  obtain ⟨hep, h⟩ := List.append_inj h (by simp)
  have hepoch := bigEndian_injective c.epoch.toNat_lt c'.epoch.toNat_lt hep
  exact value_injective hns (UInt64.toNat_inj.mp hepoch) (frame_injective h)

theorem ShortText.append_inj {a b : ShortText} {xs ys : Bytes}
    (h : a.encoded ++ xs = b.encoded ++ ys) : a = b ∧ xs = ys := by
  obtain ⟨hlen, h⟩ := List.cons.inj h
  have hnats := congrArg UInt8.toNat hlen
  rw [UInt8.toNat_ofNat', UInt8.toNat_ofNat'] at hnats
  have ha := a.property
  have hb := b.property
  obtain ⟨hab, hxs⟩ := List.append_inj h (by omega)
  exact ⟨Subtype.ext hab, hxs⟩

theorem uint32_append_inj {m n : UInt32} {xs ys : Bytes}
    (h : bigEndian 4 m.toNat ++ xs = bigEndian 4 n.toNat ++ ys) : m = n ∧ xs = ys := by
  obtain ⟨hmn, hxs⟩ := List.append_inj h (by simp)
  exact ⟨UInt32.toNat_inj.mp (bigEndian_injective m.toNat_lt n.toNat_lt hmn), hxs⟩

/-- Upper-case digits have the same values, but are not lower-case digits. -/
theorem hexDigitValue_injective {a b : UInt8} (ha : lowerHexDigit a) (hb : lowerHexDigit b)
    (h : hexDigitValue a = hexDigitValue b) : a = b := by
  rw [← UInt8.toNat_inj]
  simp only [lowerHexDigit, Bool.or_eq_true, Bool.and_eq_true, decide_eq_true_eq,
    UInt8.le_iff_toNat_le, UInt8.reduceToNat] at ha hb
  simp only [hexDigitValue, UInt8.le_iff_toNat_le, UInt8.reduceToNat] at h
  grind

theorem hexDigitValue_lt {c : UInt8} {n : Nat} (h : hexDigitValue c = some n) : n < 16 := by
  simp only [hexDigitValue, UInt8.le_iff_toNat_le, UInt8.reduceToNat] at h
  grind

theorem hexDecodeString_injective {a b decoded : Bytes} (ha : a.all lowerHexDigit)
    (hb : b.all lowerHexDigit) (hda : Gate8.hexDecodeString a = some decoded)
    (hdb : Gate8.hexDecodeString b = some decoded) : a = b := by
  induction a using Gate8.hexDecodeString.induct generalizing b decoded with
  | case1 =>
    cases hda
    match b, hdb with
    | [], _ => rfl
    | [_], hdb => cases hdb
    | _ :: _ :: _, hdb => simp [Gate8.hexDecodeString, Option.bind_eq_some_iff] at hdb
  | case2 => cases hda
  | case3 high low rest ih =>
    simp only [Gate8.hexDecodeString, Option.bind_eq_bind, Option.bind_eq_some_iff,
      Option.some.injEq] at hda
    obtain ⟨x, hx, y, hy, tail, htail, rfl⟩ := hda
    match b, hdb with
    | [], hdb => cases hdb
    | [_], hdb => cases hdb
    | high' :: low' :: rest', hdb =>
      simp only [Gate8.hexDecodeString, Option.bind_eq_bind, Option.bind_eq_some_iff,
        Option.some.injEq] at hdb
      obtain ⟨x', hx', y', hy', tail', htail', hsame⟩ := hdb
      obtain ⟨hbyte, rfl⟩ := List.cons.inj hsame
      simp only [List.all_cons, Bool.and_eq_true] at ha hb
      have hnats := congrArg UInt8.toNat hbyte
      rw [UInt8.toNat_ofNat', UInt8.toNat_ofNat'] at hnats
      have hlt := hexDigitValue_lt hx
      have hlt' := hexDigitValue_lt hx'
      have hly := hexDigitValue_lt hy
      have hly' := hexDigitValue_lt hy'
      obtain rfl : x' = x := by omega
      obtain rfl : y' = y := by omega
      rw [hexDigitValue_injective ha.1 hb.1 (hx.trans hx'.symm),
        hexDigitValue_injective ha.2.1 hb.2.1 (hy.trans hy'.symm), ih ha.2.2 hb.2.2 htail htail']

theorem matchesGroups_cons {n m : Nat} {ns : List Nat} {text : Bytes}
    (h : matchesGroups (n :: m :: ns) text) :
    ∃ digits rest, text = digits ++ 0x2d :: rest ∧ digits.length = n ∧ digits.all lowerHexDigit ∧
      matchesGroups (m :: ns) rest := by
  simp only [matchesGroups, Bool.and_eq_true, beq_iff_eq] at h
  obtain ⟨⟨hlen, hdigits⟩, hrest⟩ := h
  split at hrest
  · cases hrest
  · rename_i c rest hdrop
    simp only [Bool.and_eq_true, beq_iff_eq] at hrest
    obtain ⟨rfl, hrest⟩ := hrest
    refine ⟨text.take n, rest, ?_, hlen, hdigits, hrest⟩
    rw [← hdrop, List.take_append_drop]

theorem filter_digits {digits : Bytes} (h : digits.all lowerHexDigit) :
    digits.filter (· != 0x2d) = digits := by
  rw [List.filter_eq_self]
  intro c hc
  have hdigit := List.all_eq_true.mp h c hc
  by_contra hdash
  obtain rfl : c = 0x2d := by simpa using hdash
  cases hdigit

theorem matchesGroups_compact {ns : List Nat} {text : Bytes} (h : matchesGroups ns text) :
    (text.filter (· != 0x2d)).all lowerHexDigit := by
  induction ns generalizing text with
  | nil =>
    rw [List.isEmpty_iff.mp h]
    rfl
  | cons n ns ih =>
    cases ns with
    | nil =>
      simp only [matchesGroups, Bool.and_eq_true] at h
      rw [filter_digits h.2]
      exact h.2
    | cons m ns =>
      obtain ⟨digits, rest, rfl, -, hdigits, hrest⟩ := matchesGroups_cons h
      rw [List.filter_append, filter_digits hdigits, List.all_append, hdigits]
      simpa using ih hrest

theorem matchesGroups_injective {ns : List Nat} {a b : Bytes} (ha : matchesGroups ns a)
    (hb : matchesGroups ns b) (h : a.filter (· != 0x2d) = b.filter (· != 0x2d)) : a = b := by
  induction ns generalizing a b with
  | nil => rw [List.isEmpty_iff.mp ha, List.isEmpty_iff.mp hb]
  | cons n ns ih =>
    cases ns with
    | nil =>
      simp only [matchesGroups, Bool.and_eq_true] at ha hb
      rwa [filter_digits ha.2, filter_digits hb.2] at h
    | cons m ns =>
      obtain ⟨digits, rest, rfl, hlen, hdigits, hrest⟩ := matchesGroups_cons ha
      obtain ⟨digits', rest', rfl, hlen', hdigits', hrest'⟩ := matchesGroups_cons hb
      rw [List.filter_append, List.filter_append, filter_digits hdigits, filter_digits hdigits'] at h
      obtain ⟨rfl, htail⟩ := List.append_inj h (hlen.trans hlen'.symm)
      rw [ih hrest hrest' (by simpa using htail)]

theorem parseCanonicalUUID_eq_some {text : Bytes} {decoded : Octets 16}
    (h : parseCanonicalUUID text = some decoded) :
    canonicalUUIDPattern text ∧
      Gate8.hexDecodeString (text.filter (· != 0x2d)) = some decoded.bytes := by
  simp only [parseCanonicalUUID, Option.bind_eq_bind, Option.bind_eq_some_iff,
    Option.guard_eq_some', exists_const] at h
  obtain ⟨hpattern, bytes, hdecoded, hlen⟩ := h
  rw [Octets.ofBytes?_eq_some.mp hlen] at hdecoded
  exact ⟨hpattern, hdecoded⟩

/-- The canonical text of a UUID is the only one that is accepted for its bytes. -/
theorem CanonicalUUID.ext_decoded {a b : CanonicalUUID} (h : a.decoded = b.decoded) : a = b := by
  obtain ⟨hpatterna, hda⟩ := parseCanonicalUUID_eq_some a.parsed
  obtain ⟨hpatternb, hdb⟩ := parseCanonicalUUID_eq_some b.parsed
  rw [← h] at hdb
  have htext : a.text = b.text := by
    refine matchesGroups_injective hpatterna hpatternb ?_
    exact hexDecodeString_injective (matchesGroups_compact hpatterna)
      (matchesGroups_compact hpatternb) hda hdb
  cases a
  cases b
  cases h
  cases htext
  rfl

example : (parseCanonicalUUID (textBytes "00112233-4455-6677-8899-aabbccddeeff")).map (·.bytes) =
    some [0x00, 0x11, 0x22, 0x33, 0x44, 0x55, 0x66, 0x77, 0x88, 0x99, 0xaa, 0xbb, 0xcc, 0xdd, 0xee,
      0xff] := by decide +kernel

theorem CanonicalUUID.append_inj {a b : CanonicalUUID} {xs ys : Bytes}
    (h : a.decoded.bytes ++ xs = b.decoded.bytes ++ ys) : a = b ∧ xs = ys := by
  obtain ⟨hdecoded, hxs⟩ := octets_append_inj h
  exact ⟨ext_decoded hdecoded, hxs⟩

theorem TupleInput.message_injective : Function.Injective TupleInput.message := by
  rintro ⟨⟩ ⟨⟩ h
  obtain ⟨rfl, h⟩ := ShortText.append_inj h
  obtain ⟨rfl, h⟩ := CanonicalUUID.append_inj h
  obtain ⟨rfl, h⟩ := CanonicalUUID.append_inj h
  obtain ⟨rfl, h⟩ := uint32_append_inj h
  obtain ⟨rfl, h⟩ := uint32_append_inj h
  obtain ⟨rfl, h⟩ := octets_append_inj h
  cases octets_ext (List.append_cancel_left h)
  rfl

theorem MacCall.input_injective : Function.Injective MacCall.input := by
  intro c c' h
  obtain ⟨hp, hm⟩ : c.purpose = c'.purpose ∧ c.message = c'.message := by
    refine domainBytes_append_inj ?_ ?_ h
    · rintro (_ | _ | _ | _) <;> decide
    · rintro (_ | _ | _ | _) (_ | _ | _ | _) <;> decide
  cases c with
  | lookup =>
    cases c' <;> cases hp
    rw [LookupCall.message_injective hm]
  | rosterCommitment =>
    cases c' <;> cases hp
    obtain ⟨rfl, hd⟩ := ShortText.append_inj hm
    rw [octets_ext hd]
  | topicBinding =>
    cases c' <;> cases hp
    rw [octets_ext (List.append_cancel_left hm)]
  | tupleCommitment =>
    cases c' <;> cases hp
    rw [TupleInput.message_injective hm]

theorem vaultContext_injective {kind kind' : VaultKind} {identifier identifier' : Slice}
    {field field' : Bytes}
    (h : vaultContext kind identifier field = vaultContext kind' identifier' field') :
    kind = kind' ∧ identifier = identifier' ∧ field = field' := by
  obtain ⟨hk, h⟩ := domainBytes_append_inj (by rintro (_ | _ | _ | _) <;> decide)
    (by rintro (_ | _ | _ | _) (_ | _ | _ | _) <;> decide) (List.append_cancel_left h)
  obtain ⟨hi, h⟩ := frame_append_inj.mp h
  exact ⟨hk, hi, (List.cons.inj h).2⟩

theorem vaultAAD_injective {domain domain' : AADDomain} {context context' : Bytes}
    (h : vaultAAD domain context = vaultAAD domain' context') :
    domain = domain' ∧ context = context' := by
  obtain ⟨hd, h⟩ := domainBytes_append_inj (by rintro (_ | _) <;> decide)
    (by rintro (_ | _) (_ | _) <;> decide) h
  exact ⟨hd, frame_injective h⟩

/-- No two calls have the same input: not with other arguments, and not for another purpose.  So
under an ideal keyed hash equal digests come from equal calls. -/
theorem inputs_unambiguous {D : Type} (hmac : Bytes → Bytes → D)
    (ideal : ∀ key, Function.Injective (hmac key)) :
    Function.Injective MacCall.input ∧
      (∀ key, Function.Injective fun c : MacCall => hmac key c.input) ∧
      (Function.Injective fun x : VaultKind × Slice × Bytes => vaultContext x.1 x.2.1 x.2.2) ∧
      Function.Injective fun x : AADDomain × Bytes => vaultAAD x.1 x.2 := by
  refine ⟨MacCall.input_injective, fun key => (ideal key).comp MacCall.input_injective, ?_, ?_⟩
  · rintro ⟨k, i, f⟩ ⟨k', i', f'⟩ h
    obtain ⟨rfl, rfl, rfl⟩ := vaultContext_injective h
    rfl
  · rintro ⟨d, c⟩ ⟨d', c'⟩ h
    obtain ⟨rfl, rfl⟩ := vaultAAD_injective h
    rfl

theorem inputs_unambiguous_pairs :
    (∀ key : Bytes, Function.Injective (Prod.mk key : Bytes → Bytes × Bytes)) ∧
      ∀ key : Bytes, Function.Injective fun c : MacCall => (key, c.input) := by
  have ideal : ∀ key : Bytes, Function.Injective (Prod.mk key : Bytes → Bytes × Bytes) :=
    fun _ _ _ h => (Prod.mk.inj h).2
  exact ⟨ideal, (inputs_unambiguous Prod.mk ideal).2.1⟩

end NotificationServer
