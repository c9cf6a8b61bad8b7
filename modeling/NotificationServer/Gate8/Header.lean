import NotificationServer.Lib.Framing
import NotificationServer.Trust.Decoder

/-!
# The wrapper header

The authenticated header of a push wrapper (`gate8wrapper/header.go`): what
makes it valid, its canonical JSON text, and the parser of that text.  The parser
is `json.Decoder` with `DisallowUnknownFields` on a struct, followed by a
comparison with the canonical text; every error it returns is `ErrInvalidHeader`.
-/

namespace NotificationServer.Gate8

open Trust

inductive WrapperError
  | invalidRouteKey
  | invalidTopic
  | invalidEnvironment
  | invalidDay
  | invalidSequence
  | invalidHeader
  | invalidCapability
  | invalidPayload
  | sizeLimit
  | budgetRequired
  | payloadTooLarge
  | authentication
  | routeMismatch
  | replay
  | replayState
  deriving DecidableEq

/-- `if p { return e }`. -/
def reject (p : Prop) [Decidable p] (e : WrapperError) : Except WrapperError Unit :=
  if p then .error e else .ok ()

section Reject

variable {p : Prop} [Decidable p] {e : WrapperError} {α : Type} {a : α}
  {rest : Unit → Except WrapperError α}

theorem reject_ok : reject p e = .ok () ↔ ¬ p := by
  unfold reject
  by_cases h : p
  · simp [h]
  · simp [h]

theorem reject_of_not (h : ¬ p) : reject p e = .ok () := reject_ok.mpr h

theorem reject_bind_ok : (reject p e >>= rest) = .ok a ↔ ¬ p ∧ rest () = .ok a := by
  by_cases h : p
  · have hstop : reject p e = .error e := if_pos h
    rw [hstop]
    exact ⟨(fun hok => nomatch hok), fun hok => absurd h hok.1⟩
  · rw [reject_of_not h]
    exact ⟨fun hok => ⟨h, hok⟩, fun hok => hok.2⟩

end Reject

/-- `[n]byte`. -/
structure Octets (n : Nat) where
  bytes : Bytes
  length_eq : bytes.length = n
  deriving DecidableEq

namespace Octets

variable {n : Nat}

/-- The `n` bytes of a slice of that length. -/
def ofBytes? (n : Nat) (bytes : Bytes) : Option (Octets n) :=
  if h : bytes.length = n then some ⟨bytes, h⟩ else none

theorem ofBytes?_eq_some {bytes : Bytes} {a : Octets n} :
    ofBytes? n bytes = some a ↔ bytes = a.bytes := by
  unfold ofBytes?
  constructor
  · intro h
    split at h
    · rw [← Option.some.inj h]
    · cases h
  · rintro rfl
    rw [dif_pos a.length_eq]

end Octets

def schemaVersion : UInt32 := 1

def routeKeySize : Nat := 32

def maxTopicBytes : Nat := 4 * 1024

def maxCanonicalInteger : Nat := 2 ^ 53 - 1

/-- `Environment`, a string type: the two constants and every other text. -/
inductive Environment
  | dev
  | production
  | other (text : String) (h : text ≠ "dev" ∧ text ≠ "production")
  deriving DecidableEq

namespace Environment

def text : Environment → String
  | .dev => "dev"
  | .production => "production"
  | .other text _ => text

/-- `Environment(text)`. -/
def ofText (text : String) : Environment :=
  if hdev : text = "dev" then .dev
  else if hproduction : text = "production" then .production
  else .other text ⟨hdev, hproduction⟩

@[simp] theorem ofText_text (e : Environment) : ofText e.text = e := by
  cases e with
  | dev | production => rfl
  | other text h =>
    unfold ofText
    rw [Environment.text, dif_neg h.1, dif_neg h.2]

end Environment

abbrev RouteAlias := Octets 16

abbrev NoncePrefix := Octets 4

structure Header where
  schemaVersion : UInt32
  environment : Environment
  aliasDay : String
  routeAlias : RouteAlias
  routeKeyEpoch : UInt32
  noncePrefix : NoncePrefix
  deliverySequence : UInt64
  deriving DecidableEq

/-- The date that ten bytes of the layout `2006-01-02` name: `time.Parse` with `time.DateOnly`. -/
def parseDateOnly (text : Bytes) : Option (Nat × Nat × Nat) := do
  guard (text.length = 10 ∧ text[4]? = some 0x2d ∧ text[7]? = some 0x2d)
  let year ← decimal (text.take 4)
  let month ← decimal ((text.drop 5).take 2)
  let day ← decimal (text.drop 8)
  guard (1 ≤ month ∧ month ≤ 12 ∧ 1 ≤ day ∧ day ≤ daysIn month year)
  some (year, month, day)

/-- A number in at least so many decimal digits; the dates of `parseDateOnly` have no more. -/
def padded (width n : Nat) : Bytes :=
  (List.range width).map fun i => UInt8.ofNat (48 + n / 10 ^ (width - 1 - i) % 10)

/-- `Format(time.DateOnly)`. -/
def formatDateOnly : Nat × Nat × Nat → Bytes
  | (year, month, day) => padded 4 year ++ [0x2d] ++ padded 2 month ++ [0x2d] ++ padded 2 day

def validateEnvironment : Environment → Except WrapperError Unit
  | .dev | .production => .ok ()
  | .other _ _ => .error .invalidEnvironment

def validateAliasDay (aliasDay : String) : Except WrapperError Unit :=
  if (textBytes aliasDay).length ≠ 10 then .error .invalidDay
  else match parseDateOnly (textBytes aliasDay) with
    | none => .error .invalidDay
    | some date =>
      if formatDateOnly date ≠ textBytes aliasDay then .error .invalidDay else .ok ()

def validateRouteInputs (routeKey topic : Bytes) (environment : Environment) (aliasDay : String) :
    Except WrapperError Unit := do
  reject (routeKey.length ≠ routeKeySize) .invalidRouteKey
  reject (topic.length = 0 ∨ maxTopicBytes < topic.length) .invalidTopic
  validateEnvironment environment
  validateAliasDay aliasDay

def Header.validate (header : Header) : Except WrapperError Unit := do
  reject (header.schemaVersion ≠ Gate8.schemaVersion) .invalidHeader
  reject (header.routeKeyEpoch = 0) .invalidHeader
  (validateEnvironment header.environment).mapError fun _ => .invalidHeader
  (validateAliasDay header.aliasDay).mapError fun _ => .invalidHeader
  reject (maxCanonicalInteger < header.deliverySequence.toNat) .invalidHeader

def hexByte (n : Nat) : UInt8 := (hexDigit n).toUInt8

/-- `hex.EncodeToString`. -/
def hexEncodeToString (bytes : Bytes) : Bytes :=
  bytes.flatMap fun b => [hexByte (b.toNat / 16), hexByte (b.toNat % 16)]

/-- `hex.DecodeString`, which also takes upper-case digits. -/
def hexDecodeString : Bytes → Option Bytes
  | [] => some []
  | [_] => none
  | high :: low :: rest => do
    let high ← hexDigitValue high
    let low ← hexDigitValue low
    let decoded ← hexDecodeString rest
    some (UInt8.ofNat (16 * high + low) :: decoded)

/-- `strconv.AppendUint` in base 10. -/
def appendUint (n : Nat) : Bytes := textBytes (toString n)

def Header.canonicalAAD (header : Header) : Except WrapperError Bytes := do
  header.validate
  .ok (textBytes "\x7b\"alias_day\":\"" ++ textBytes header.aliasDay ++
    textBytes "\",\"delivery_sequence\":" ++ appendUint header.deliverySequence.toNat ++
    textBytes ",\"environment\":\"" ++ textBytes header.environment.text ++
    textBytes "\",\"nonce_prefix\":\"" ++ hexEncodeToString header.noncePrefix.bytes ++
    textBytes "\",\"route_alias\":\"" ++ hexEncodeToString header.routeAlias.bytes ++
    textBytes "\",\"route_key_epoch\":" ++ appendUint header.routeKeyEpoch.toNat ++
    textBytes ",\"schema_version\":" ++ appendUint header.schemaVersion.toNat ++
    textBytes "\x7d")

structure HeaderJSON where
  aliasDay : String := ""
  deliverySequence : UInt64 := 0
  environment : String := ""
  noncePrefix : String := ""
  routeAlias : String := ""
  routeKeyEpoch : UInt32 := 0
  schemaVersion : UInt32 := 0

/-- The fields of `headerJSON`. -/
inductive HeaderField
  | aliasDay
  | deliverySequence
  | environment
  | noncePrefix
  | routeAlias
  | routeKeyEpoch
  | schemaVersion
  deriving DecidableEq

namespace HeaderField

def name : HeaderField → String
  | .aliasDay => "alias_day"
  | .deliverySequence => "delivery_sequence"
  | .environment => "environment"
  | .noncePrefix => "nonce_prefix"
  | .routeAlias => "route_alias"
  | .routeKeyEpoch => "route_key_epoch"
  | .schemaVersion => "schema_version"

def all : List HeaderField :=
  [.aliasDay, .deliverySequence, .environment, .noncePrefix, .routeAlias, .routeKeyEpoch,
    .schemaVersion]

/-- `foldRune` of `encoding/json`.  Beside the letters, two runes fold onto an ASCII one; the others
fold among themselves, and no field name has them. -/
def foldRune (c : Char) : Char :=
  if c.val = 0x17f then 'S' else if c.val = 0x212a then 'K' else c.toUpper

/-- The field a member is stored in: the one of that name, or else of that name up to case. -/
def named? (name : String) : Option HeaderField :=
  match all.find? fun field => field.name = name with
  | some field => some field
  | none => all.find? fun field => field.name.toList.map foldRune = name.toList.map foldRune

end HeaderField

/-- `strconv.ParseUint` of a number of so many bits. -/
def parseUint (raw : String) (bits : Nat) : Option Nat := do
  let n ← decimal (textBytes raw)
  guard (n < 2 ^ bits)
  some n

/-- `literalStore`, of a value that is one token; `none` is an `UnmarshalTypeError`. -/
def HeaderJSON.store (wire : HeaderJSON) (field : HeaderField) : Token → Option HeaderJSON
  | .null => some wire
  | .string s =>
    match field with
    | .aliasDay => some { wire with aliasDay := s }
    | .environment => some { wire with environment := s }
    | .noncePrefix => some { wire with noncePrefix := s }
    | .routeAlias => some { wire with routeAlias := s }
    | _ => none
  | .number raw =>
    match field with
    | .deliverySequence =>
      (parseUint raw 64).map fun n => { wire with deliverySequence := .ofNat n }
    | .routeKeyEpoch => (parseUint raw 32).map fun n => { wire with routeKeyEpoch := .ofNat n }
    | .schemaVersion => (parseUint raw 32).map fun n => { wire with schemaVersion := .ofNat n }
    | _ => none
  -- No field takes a boolean, an array or an object.
  | .bool _ | .delim _ => none

/-- The members that are left of the object, and its end.  A later member overwrites an earlier
one; an unknown one is an error.  A round reads at least one byte, so the first argument, which
bounds the rounds, never cuts the walk off if it is the number of bytes.  Text that is not UTF-8 is
refused here; `encoding/json` reads it as U+FFFD, which no field of a valid header holds. -/
def decodeMembers : Nat → HeaderJSON → Decoder → Option (HeaderJSON × Decoder)
  | 0, _, _ => none
  | fuel + 1, wire, d =>
    if d.more = true then
      match d.token with
      | some (.string name, d) => do
        let field ← HeaderField.named? name
        let (value, d) ← d.token
        let wire ← wire.store field value
        decodeMembers fuel wire d
      | _ => none
    else
      match d.token with
      | some (.delim .closeObject, d) => some (wire, d)
      | _ => none

/-- `Decode(&wire)`. -/
def decodeWire (encoded : Bytes) : Option (HeaderJSON × Decoder) :=
  match (Decoder.start encoded).token with
  | some (.null, d) => some ({}, d)
  | some (.delim .openObject, d) => decodeMembers encoded.length {} d
  | _ => none

def decodeLowerHex (n : Nat) (text : String) : Option (Octets n) := do
  let decoded ← hexDecodeString (textBytes text)
  let octets ← Octets.ofBytes? n decoded
  guard (textBytes text = hexEncodeToString decoded)
  some octets

/-- `ParseCanonicalAAD`, where `none` is an error. -/
def parseHeader (encoded : Bytes) : Option Header := do
  let (wire, d) ← decodeWire encoded
  -- The second `Decode` returns `io.EOF` exactly if only white space is left.
  guard d.atEnd
  let routeAlias ← decodeLowerHex 16 wire.routeAlias
  let noncePrefix ← decodeLowerHex 4 wire.noncePrefix
  let header : Header :=
    { schemaVersion := wire.schemaVersion, environment := .ofText wire.environment
      aliasDay := wire.aliasDay, routeAlias := routeAlias
      routeKeyEpoch := wire.routeKeyEpoch, noncePrefix := noncePrefix
      deliverySequence := wire.deliverySequence }
  let canonical ← header.canonicalAAD.toOption
  guard (canonical = encoded)
  some header

def parseCanonicalAAD (encoded : Bytes) : Except WrapperError Header :=
  (parseHeader encoded).elim (.error .invalidHeader) .ok

end NotificationServer.Gate8
