import Mathlib.Data.List.Sort
import NotificationServer.Vault.Basic

/-!
# Signed JSON objects

The JSON values of `a9trust` with the readers and encoders its trust rules use:
integers by their spelling (`signed.go`), the canonical form (`jcs.go`), wire
times and unpadded Base64url.  `ParseStrictJSON`, SHA-256 and Ed25519 are
parameters; nothing is assumed of them.
-/

namespace NotificationServer.Trust

/-- A value `ParseStrictJSON` returns.  A number keeps its spelling; the parser rejects an object
that names a field twice. -/
inductive Json
  | null
  | bool (b : Bool)
  | number (raw : String)
  | string (s : String)
  | array (items : List Json)
  | object (fields : List (String × Json))

/-- `map[string]any`. -/
abbrev JsonObject := List (String × Json)

inductive Reason
  | keyState
  | integerRange
  | nonIJSONNumber
  | fieldDomain
  | noncanonicalBase64URL
  | badSignature
  deriving DecidableEq

inductive Verdict
  | eligible
  | invalid (reason : Reason)
  | inconclusive (reason : Reason)
  deriving DecidableEq

/-- What a keyset is parsed and verified with: the strict parser of `jcs.go`, which `parseStrictJSON`
models on its own, and the cryptography of the standard library. -/
structure Primitives where
  /-- `ParseStrictJSON`, over the token decoder of `encoding/json`. -/
  parseStrictJSON : Bytes → Option Json
  /-- `sha256.Sum256`. -/
  sha256 : Bytes → Bytes32
  /-- `ed25519.Verify`, of a public key, a message and a signature. -/
  ed25519Verify : Bytes → Bytes → Bytes → Bool

-- Quantifiers over the bytes of a text go through the text, not through all bytes.

instance (priority := 2000) decidableForallMemBytes (text : Bytes) (p : UInt8 → Prop)
    [DecidablePred p] : Decidable (∀ c ∈ text, p c) :=
  List.decidableBAll p text

instance (priority := 2000) decidableExistsMemBytes (text : Bytes) (p : UInt8 → Prop)
    [DecidablePred p] : Decidable (∃ c ∈ text, p c) :=
  List.decidableBEx p text

def textBytes (s : String) : Bytes := s.toByteArray.data.toList

/-- `objectString`: the empty string stands for a field that is missing or no string. -/
def objectString (object : JsonObject) (field : String) : String :=
  match object.lookup field with
  | some (.string s) => s
  | _ => ""

def decimal (digits : Bytes) : Option Nat :=
  if digits ≠ [] ∧ ∀ c ∈ digits, 48 ≤ c ∧ c ≤ 57 then
    some (digits.foldl (fun n c => 10 * n + (c.toNat - 48)) 0)
  else none

/-- `nonnegativeInteger` of a value of a parsed object. -/
def nonnegativeInteger (value : Option Json) : Except Verdict Nat :=
  match value with
  | some (.number raw) =>
    if ∃ c ∈ textBytes raw, c ∈ textBytes ".eE+-" then .error (.invalid .nonIJSONNumber)
    else match decimal (textBytes raw) with
      | none => .error (.invalid .integerRange)
      | some n => if maxSafeInteger < n then .error (.invalid .integerRange) else .ok n
  | _ => .error (.invalid .fieldDomain)

def positiveInteger (value : Option Json) : Except Verdict Nat := do
  let n ← nonnegativeInteger value
  if n = 0 then .error (.invalid .integerRange) else .ok n

def objectIntegerEquals (object : JsonObject) (field : String) (expected : Nat) : Prop :=
  (nonnegativeInteger (object.lookup field)).toOption = some expected
  deriving Decidable

def isASCII (s : String) : Prop := ∀ c ∈ textBytes s, c < 0x80
  deriving Decidable

def hexDigit (n : Nat) : Char :=
  ['0', '1', '2', '3', '4', '5', '6', '7', '8', '9', 'a', 'b', 'c', 'd', 'e', 'f'].getD n '0'

def escapeByte (c : UInt8) : Bytes :=
  if c = 0x22 ∨ c = 0x5c then [0x5c, c]
  else if c = 0x08 then textBytes "\\b"
  else if c = 0x0c then textBytes "\\f"
  else if c = 0x0a then textBytes "\\n"
  else if c = 0x0d then textBytes "\\r"
  else if c = 0x09 then textBytes "\\t"
  else if c < 0x20 then
    textBytes "\\u00" ++ [(hexDigit (c.toNat / 16)).toUInt8, (hexDigit (c.toNat % 16)).toUInt8]
  else [c]

/-- `appendASCIIString`. -/
def asciiString (s : String) : Option Bytes :=
  if isASCII s then some ([0x22] ++ (textBytes s).flatMap escapeByte ++ [0x22]) else none

def canonicalInteger (raw : String) : Option Bytes := do
  guard (raw = "0" ∨ (textBytes raw).head? ≠ some 48)
  let n ← decimal (textBytes raw)
  guard (n ≤ maxSafeInteger)
  some (textBytes (toString n))

/-- Items with a comma between them, between two brackets. -/
def bracketed (left right : UInt8) (items : List Bytes) : Bytes :=
  [left] ++ (items.intersperse [0x2c]).flatten ++ [right]

/-- The fields of an object in the order of `sort.Strings`. -/
def sortedFields (fields : List (String × Bytes)) : List Bytes :=
  (fields.insertionSort fun a b => textBytes a.1 ≤ textBytes b.1).map Prod.snd

mutual

/-- `Canonicalize`; `none` is a value outside the profile. -/
def canonicalize : Json → Option Bytes
  | .null => some (textBytes "null")
  | .bool b => some (textBytes (if b then "true" else "false"))
  | .number raw => canonicalInteger raw
  | .string s => asciiString s
  | .array items => (canonicalItems items).map (bracketed 0x5b 0x5d)
  | .object fields =>
    (canonicalFields fields).map fun fs => bracketed 0x7b 0x7d (sortedFields fs)

def canonicalItems : List Json → Option (List Bytes)
  | [] => some []
  | v :: vs => do
    let item ← canonicalize v
    let items ← canonicalItems vs
    some (item :: items)

/-- Each field as its name and the bytes `"name":value`. -/
def canonicalFields : List (String × Json) → Option (List (String × Bytes))
  | [] => some []
  | (name, v) :: fields => do
    let key ← asciiString name
    let value ← canonicalize v
    let rest ← canonicalFields fields
    some ((name, key ++ [0x3a] ++ value) :: rest)

end

def daysIn (month year : Nat) : Nat :=
  if month = 2 then if year % 4 = 0 ∧ (year % 100 ≠ 0 ∨ year % 400 = 0) then 29 else 28
  else if month = 4 ∨ month = 6 ∨ month = 9 ∨ month = 11 then 30 else 31

/-- The days from 1970-01-01 to a date of the proleptic Gregorian calendar. -/
def civilDays (year month day : Nat) : Int :=
  let y : Int := year - 1
  365 * y + y / 4 - y / 100 + y / 400 - 719162 +
    (((List.range (month - 1)).map fun m => daysIn (m + 1) year).sum + (day - 1) : Nat)

/-- `parseWireTime`: exactly `2006-01-02T15:04:05.000Z`. -/
def parseWireTime (value : String) : Option Time := do
  let cs := textBytes value
  let field (start length : Nat) : Option Nat := decimal ((cs.drop start).take length)
  guard (cs.length = 24)
  -- The separators of the layout, `-`, `-`, `T`, `:`, `:`, `.` and `Z`.
  guard ([4, 7, 10, 13, 16, 19, 23].map (cs[·]?) = (textBytes "--T::.Z").map some)
  let year ← field 0 4
  let month ← field 5 2
  let dayOfMonth ← field 8 2
  let hours ← field 11 2
  let minutes ← field 14 2
  let seconds ← field 17 2
  let milliseconds ← field 20 3
  guard (1 ≤ month ∧ month ≤ 12 ∧ 1 ≤ dayOfMonth ∧ dayOfMonth ≤ daysIn month year)
  guard (hours < 24 ∧ minutes < 60 ∧ seconds < 60)
  some (civilDays year month dayOfMonth * day + hours * hour + minutes * minute +
    seconds * second + milliseconds * 1000)

/-- The six bits a character of the URL alphabet stands for. -/
def base64URLDigit (c : UInt8) : Option Nat :=
  if 65 ≤ c ∧ c ≤ 90 then some (c.toNat - 65)
  else if 97 ≤ c ∧ c ≤ 122 then some (c.toNat - 71)
  else if 48 ≤ c ∧ c ≤ 57 then some (c.toNat + 4)
  else if c = 45 then some 62
  else if c = 95 then some 63
  else none

/-- The bytes of unpadded Base64 digits; the bits a last byte leaves over are zero. -/
def base64Bytes : List Nat → Option Bytes
  | [] => some []
  | [a, b] => if b % 16 = 0 then some [.ofNat (4 * a + b / 16)] else none
  | [a, b, c] =>
    if c % 4 = 0 then some [.ofNat (4 * a + b / 16), .ofNat (16 * (b % 16) + c / 4)] else none
  | a :: b :: c :: d :: rest => do
    let bytes ← base64Bytes rest
    some (.ofNat (4 * a + b / 16) :: .ofNat (16 * (b % 16) + c / 4) ::
      .ofNat (64 * (c % 4) + d) :: bytes)
  | _ => none

/-- `DecodeBase64URL`, and `decodeA9Base64URL` of the stores, which accepts the same strings. -/
def decodeBase64URL (value : String) (expectedLength : Nat) : Option Bytes := do
  guard (value ≠ "")
  let digits ← (textBytes value).mapM base64URLDigit
  let decoded ← base64Bytes digits
  guard (decoded.length = expectedLength)
  some decoded

/-- `hex.EncodeToString` of 32 bytes. -/
def hexEncode (b : Bytes32) : String :=
  String.ofList ((List.range 64).map fun i => hexDigit (b.toNat / 16 ^ (63 - i) % 16))

def hexValue (c : UInt8) : Option Nat :=
  if 48 ≤ c ∧ c ≤ 57 then some (c.toNat - 48)
  else if 97 ≤ c ∧ c ≤ 102 then some (c.toNat - 87)
  else none

/-- `decodeA9LowerHex`: 64 lower-case digits after a fixed start. -/
def decodeA9LowerHex (value start : String) : Option Bytes32 := do
  guard (textBytes start <+: textBytes value)
  let raw := (textBytes value).drop (textBytes start).length
  guard (raw.length = 64)
  let digits ← raw.mapM hexValue
  let decoded := BitVec.ofNat 256 (digits.foldl (fun n d => 16 * n + d) 0)
  guard (start ++ hexEncode decoded = value)
  some decoded

namespace Primitives

variable (P : Primitives)

def sha256LowerHex (b : Bytes) : String := hexEncode (P.sha256 b)

def ed25519KeyID (publicKey : Bytes) : Option String :=
  if publicKey.length = 32 then some ("ed25519-sha256:" ++ P.sha256LowerHex publicKey) else none

/-- The signing input of `SignedTranscript`. -/
def signedTranscript (object : JsonObject) (signatureField : String) (domain : Bytes) :
    Option Bytes := do
  guard (object.lookup signatureField).isSome
  let canonical ← canonicalize (.object (object.filter fun f => f.1 ≠ signatureField))
  some (domain ++ canonical)

def verifyObject (object : JsonObject) (signatureField : String) (domain publicKey : Bytes) :
    Verdict :=
  if publicKey.length ≠ 32 then .invalid .keyState
  else match object.lookup signatureField with
    | some (.string encoded) =>
      match decodeBase64URL encoded 64 with
      | none => .invalid .noncanonicalBase64URL
      | some signature =>
        match signedTranscript object signatureField domain with
        | none => .invalid .fieldDomain
        | some input =>
          if P.ed25519Verify publicKey input signature = true then .eligible
          else .invalid .badSignature
    | _ => .invalid .fieldDomain

/-- `parseA9CanonicalObject`: an object whose bytes are its canonical form. -/
def parseA9CanonicalObject (raw : Bytes) : Option JsonObject := do
  let value ← P.parseStrictJSON raw
  guard (canonicalize value = some raw)
  match value with
  | .object fields => some fields
  | _ => none

end Primitives

end NotificationServer.Trust
