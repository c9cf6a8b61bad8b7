import NotificationServer.Trust.Decoder

/-!
# Two strict parsers

`ParseStrictJSON` (`a9trust/jcs.go`) and `a9schema.Parse` (`strictjson.go`) walk
the tokens of a text in the same way.  They differ in the errors they return, in
the numbers and strings they accept and in what they allow around the value.
-/

namespace NotificationServer.Trust

inductive Fault
  /-- `Token` returned an error. -/
  | token
  | nameNotString
  | duplicateKey (name : String)
  | unterminatedObject
  | unterminatedArray
  | unexpectedDelimiter
  /-- The walk was cut off; it never is, see `walk_fuel`. -/
  | cutOff
  deriving DecidableEq

/-- What the two parsers do not share: their errors, and the check on a number. -/
structure Reader (ε : Type) where
  fault : Fault → String → ε
  number : String → String → Except ε Unit

def objectPath (parent key : String) : String := parent ++ "." ++ key

def arrayPath (parent : String) (index : Nat) : String :=
  parent ++ "[" ++ toString index ++ "]"

/-- `map[string]any` already has a name. -/
def HasField (object : JsonObject) (name : String) : Prop := name ∈ object.map Prod.fst
  deriving Decidable

section Walk

variable {ε : Type} (R : Reader ε)

mutual

/-- `parseJSONValue` and `decodeValue`.  The first argument bounds the recursion. -/
def decodeValue : Nat → String → Decoder → Except ε (Json × Decoder)
  | 0, path, _ => .error (R.fault .cutOff path)
  | fuel + 1, path, d =>
    match d.token with
    | none => .error (R.fault .token path)
    | some (.delim .openObject, d) => decodeMembers fuel path [] d
    | some (.delim .openArray, d) => decodeItems fuel path [] d
    | some (.delim _, _) => .error (R.fault .unexpectedDelimiter path)
    | some (.number raw, d) => do
      R.number raw path
      .ok (.number raw, d)
    | some (.string s, d) => .ok (.string s, d)
    | some (.bool b, d) => .ok (.bool b, d)
    | some (.null, d) => .ok (.null, d)

def decodeMembers : Nat → String → JsonObject → Decoder → Except ε (Json × Decoder)
  | 0, path, _, _ => .error (R.fault .cutOff path)
  | fuel + 1, path, object, d =>
    if d.more = true then
      match d.token with
      | none => .error (R.fault .token path)
      | some (.string name, d) =>
        if HasField object name then .error (R.fault (.duplicateKey name) path)
        else do
          let (child, d) ← decodeValue fuel (objectPath path "<member>") d
          decodeMembers fuel path (object ++ [(name, child)]) d
      | some _ => .error (R.fault .nameNotString path)
    else
      match d.token with
      | none => .error (R.fault .token path)
      | some (.delim .closeObject, d) => .ok (.object object, d)
      | some _ => .error (R.fault .unterminatedObject path)

def decodeItems : Nat → String → List Json → Decoder → Except ε (Json × Decoder)
  | 0, path, _, _ => .error (R.fault .cutOff path)
  | fuel + 1, path, array, d =>
    if d.more = true then do
      let (child, d) ← decodeValue fuel (arrayPath path array.length) d
      decodeItems fuel path (array ++ [child]) d
    else
      match d.token with
      | none => .error (R.fault .token path)
      | some (.delim .closeArray, d) => .ok (.array array, d)
      | some _ => .error (R.fault .unterminatedArray path)

end

def decodeFirst (raw : Bytes) : Except ε (Json × Decoder) :=
  decodeValue R (2 * raw.length + 1) "$" (.start raw)

end Walk

def utf8Valid (raw : Bytes) : Prop := (⟨raw.toArray⟩ : ByteArray).IsValidUTF8
  deriving Decidable

inductive StrictError
  /-- `ErrNonIJSON`. -/
  | invalidUTF8
  | stopped (fault : Fault)
  | trailing (token : Token)
  deriving DecidableEq

def strictReader : Reader StrictError where
  fault f _ := .stopped f
  number _ _ := .ok ()

def parseStrictJSON (raw : Bytes) : Except StrictError Json :=
  if ¬ utf8Valid raw then .error .invalidUTF8
  else do
    let (value, d) ← decodeFirst strictReader raw
    if d.atEnd then .ok value
    else match d.token with
      | none => .error (.stopped .token)
      | some (token, _) => .error (.trailing token)

namespace Schema

/-- The reasons `Parse` gives. -/
inductive Reason
  | fieldDomain
  | duplicateKey
  | nonIJSONNumber
  | integerRange
  deriving DecidableEq

structure Failure where
  reason : Reason
  path : String
  deriving DecidableEq

/-- `decodeHexQuad`, and what follows the four digits. -/
def decodeHexQuad (raw : Bytes) : Option (Nat × Bytes) := hexQuad raw

/-- `consumeJSONEscape`: what follows the escape; the backslash has been read. -/
def consumeJSONEscape : Bytes → Option Bytes
  | [] => none
  | c :: rest =>
    if c = 0x22 ∨ c = 0x5c ∨ c = 0x2f ∨ c = 0x62 ∨ c = 0x66 ∨ c = 0x6e ∨ c = 0x72 ∨ c = 0x74 then
      some rest
    else if c = 0x75 then do
      let (codePoint, next) ← decodeHexQuad rest
      if isHighSurrogate codePoint then (lowSurrogate next).map Prod.snd
      else if isLowSurrogate codePoint then none
      else some next
    else none

/-- The width `utf8.DecodeRune` returns on valid UTF-8. -/
def runeWidth (c : UInt8) : Nat :=
  if c < 0x80 then 1 else if c < 0xe0 then 2 else if c < 0xf0 then 3 else 4

theorem consumeJSONEscape_length {input rest : Bytes} (h : consumeJSONEscape input = some rest) :
    rest.length < input.length := by
  cases input with
  | nil => cases h
  | cons c input =>
    rw [List.length_cons]
    simp only [consumeJSONEscape] at h
    split at h
    · cases h
      exact Nat.lt_succ_self _
    · split at h
      · obtain ⟨⟨code, next⟩, hquad, h⟩ := Option.bind_eq_some_iff.mp h
        have hlen := hexQuad_length hquad
        simp only at h
        split at h
        · obtain ⟨⟨low, rest'⟩, hlow, rfl⟩ := Option.map_eq_some_iff.mp h
          have hshorter := lowSurrogate_length hlow
          simp only
          omega
        · split at h
          · cases h
          · cases h
            omega
      · cases h

/-- `validateJSONStringEncoding`; `inside` says whether a string is open. -/
def validateStrings (inside : Bool) (raw : Bytes) : Bool :=
  match raw with
  | [] => !inside
  | c :: rest =>
    if inside = false then
      if c = 0x22 then validateStrings true rest else validateStrings false rest
    else if c = 0x22 then validateStrings false rest
    else if c = 0x5c then
      match _h : consumeJSONEscape rest with
      | none => false
      | some rest' => validateStrings true rest'
    else if c < 0x20 then false
    else validateStrings true (rest.drop (runeWidth c - 1))
termination_by raw.length
decreasing_by
  · simp
  · simp
  · simp
  · have hlength := consumeJSONEscape_length _h
    simp only [List.length_cons]
    omega
  · simp only [List.length_cons, List.length_drop]
    omega

def validateJSONStringEncoding (raw : Bytes) : Bool := validateStrings false raw

def validateJSONNumber (value path : String) : Except Failure Unit :=
  let digits :=
    if (textBytes value).head? = some 0x2d then (textBytes value).tail else textBytes value
  if value = "" ∨ value = "-0" ∨ digits = [] then .error ⟨.nonIJSONNumber, path⟩
  else if digits.head? = some 0x30 ∧ digits.length ≠ 1 then .error ⟨.nonIJSONNumber, path⟩
  else match decimal digits with
    | none => .error ⟨.nonIJSONNumber, path⟩
    | some n => if maxSafeInteger < n then .error ⟨.integerRange, path⟩ else .ok ()

def reader : Reader Failure where
  fault f path := match f with
    | .duplicateKey _ => ⟨.duplicateKey, objectPath path "<duplicate>"⟩
    | _ => ⟨.fieldDomain, path⟩
  number := validateJSONNumber

def parse (raw : Bytes) : Except Failure Json :=
  if [0xef, 0xbb, 0xbf] <+: raw then .error ⟨.fieldDomain, "$"⟩
  else if ¬ utf8Valid raw then .error ⟨.fieldDomain, "$"⟩
  else if validateJSONStringEncoding raw = false then .error ⟨.fieldDomain, "$"⟩
  else do
    let (value, d) ← decodeFirst reader raw
    if d.input = [] then .ok value else .error ⟨.fieldDomain, "$"⟩

end Schema

end NotificationServer.Trust
