import NotificationServer.Trust.Json

/-!
# The token decoder

`json.Decoder` of the Go standard library, as `ParseStrictJSON` and
`a9schema.Parse` use it: `Token`, `More` and `InputOffset`, with `UseNumber`.
The texts it accepts are those of RFC 8259; a number keeps its spelling, and an
unpaired surrogate is read as U+FFFD.
-/

namespace NotificationServer.Trust

def hexDigitValue (c : UInt8) : Option Nat :=
  if 0x30 ≤ c ∧ c ≤ 0x39 then some (c.toNat - 0x30)
  else if 0x61 ≤ c ∧ c ≤ 0x66 then some (c.toNat - 0x61 + 10)
  else if 0x41 ≤ c ∧ c ≤ 0x46 then some (c.toNat - 0x41 + 10)
  else none

def hexQuad : Bytes → Option (Nat × Bytes)
  | a :: b :: c :: d :: rest => do
    let a ← hexDigitValue a
    let b ← hexDigitValue b
    let c ← hexDigitValue c
    let d ← hexDigitValue d
    some (((a * 16 + b) * 16 + c) * 16 + d, rest)
  | _ => none

def isHighSurrogate (code : Nat) : Prop := 0xd800 ≤ code ∧ code ≤ 0xdbff
  deriving Decidable

def isLowSurrogate (code : Nat) : Prop := 0xdc00 ≤ code ∧ code ≤ 0xdfff
  deriving Decidable

/-- The second half of a surrogate pair, as a further escape. -/
def lowSurrogate : Bytes → Option (Nat × Bytes)
  | slash :: u :: rest => do
    guard (slash = 0x5c ∧ u = 0x75)
    let (code, rest) ← hexQuad rest
    guard (isLowSurrogate code)
    some (code, rest)
  | _ => none

def encodeRune (code : Nat) : Bytes := String.utf8EncodeChar (Char.ofNat code)

def escapedByte (c : UInt8) : Option UInt8 :=
  if c = 0x22 ∨ c = 0x5c ∨ c = 0x2f then some c
  else if c = 0x62 then some 0x08
  else if c = 0x66 then some 0x0c
  else if c = 0x6e then some 0x0a
  else if c = 0x72 then some 0x0d
  else if c = 0x74 then some 0x09
  else none

/-- What an escape stands for and what follows it; the backslash has been read. -/
def scanEscape : Bytes → Option (Bytes × Bytes)
  | [] => none
  | c :: rest =>
    if c = 0x75 then do
      let (code, rest) ← hexQuad rest
      if isHighSurrogate code ∨ isLowSurrogate code then
        match lowSurrogate rest with
        | some (low, rest') =>
          if isHighSurrogate code then
            some (encodeRune (0x10000 + (code - 0xd800) * 0x400 + (low - 0xdc00)), rest')
          else some (encodeRune 0xfffd, rest)
        | none => some (encodeRune 0xfffd, rest)
      else some (encodeRune code, rest)
    else (escapedByte c).map fun b => ([b], rest)

theorem hexQuad_length {input rest : Bytes} {code : Nat} (h : hexQuad input = some (code, rest)) :
    rest.length + 4 = input.length := by
  match input with
  | a :: b :: c :: d :: rest' =>
    simp only [hexQuad, Option.bind_eq_bind, Option.bind_eq_some_iff, Option.some.injEq,
      Prod.mk.injEq] at h
    obtain ⟨_, -, _, -, _, -, _, -, -, rfl⟩ := h
    rfl
  | [] | [_] | [_, _] | [_, _, _] => cases h

theorem lowSurrogate_length {input rest : Bytes} {code : Nat}
    (h : lowSurrogate input = some (code, rest)) : rest.length < input.length := by
  match input with
  | slash :: u :: input' =>
    simp only [lowSurrogate, Option.bind_eq_bind, Option.bind_eq_some_iff, Option.some.injEq] at h
    obtain ⟨_, -, ⟨code', rest'⟩, hquad, _, -, heq⟩ := h
    cases heq
    have hlen := hexQuad_length hquad
    simp only [List.length_cons]
    omega
  | [] | [_] => cases h

theorem scanEscape_length {input rest decoded : Bytes}
    (h : scanEscape input = some (decoded, rest)) : rest.length < input.length := by
  cases input with
  | nil => cases h
  | cons c input =>
    rw [List.length_cons]
    simp only [scanEscape] at h
    split at h
    · obtain ⟨⟨code, rest1⟩, hquad, h⟩ := Option.bind_eq_some_iff.mp h
      have hlen := hexQuad_length hquad
      simp only at h
      split at h
      · split at h
        · next low rest2 hlow =>
          have hshorter := lowSurrogate_length hlow
          split at h
          · obtain ⟨-, rfl⟩ := Prod.mk.inj (Option.some.inj h)
            omega
          · cases h
            omega
        · cases h
          omega
      · cases h
        omega
    · obtain ⟨b, -, heq⟩ := Option.map_eq_some_iff.mp h
      obtain ⟨-, rfl⟩ := Prod.mk.inj heq
      exact Nat.lt_succ_self _

/-- The bytes of a string and what follows it; the opening quote has been read. -/
def scanString (input : Bytes) : Option (Bytes × Bytes) :=
  match input with
  | [] => none
  | c :: rest =>
    if c = 0x22 then some ([], rest)
    else if c = 0x5c then
      match _h : scanEscape rest with
      | none => none
      | some (decoded, rest') => (scanString rest').map fun r => (decoded ++ r.1, r.2)
    else if c < 0x20 then none
    else (scanString rest).map fun r => (c :: r.1, r.2)
termination_by input.length
decreasing_by
  · have hlength := scanEscape_length _h
    simp only [List.length_cons]
    omega
  · simp

theorem scanString_length {input rest decoded : Bytes}
    (h : scanString input = some (decoded, rest)) : rest.length < input.length := by
  fun_induction scanString input generalizing decoded rest with
  | case1 => cases h
  | case2 input =>
    cases h
    simp
  | case3 => cases h
  | case4 input decoded' rest' hescape _ ih =>
    obtain ⟨r, hr, heq⟩ := Option.map_eq_some_iff.mp h
    cases heq
    have hlen := scanEscape_length hescape
    have hshorter := ih hr
    simp only [List.length_cons]
    omega
  | case5 => cases h
  | case6 c input _ _ _ ih =>
    obtain ⟨r, hr, heq⟩ := Option.map_eq_some_iff.mp h
    cases heq
    have hshorter := ih hr
    simp only [List.length_cons]
    omega

def scanText (input : Bytes) : Option (String × Bytes) := do
  let (decoded, rest) ← scanString input
  let s ← String.fromUTF8? ⟨decoded.toArray⟩
  some (s, rest)

def isDigit (c : UInt8) : Bool := decide (0x30 ≤ c ∧ c ≤ 0x39)

def scanDigits (input : Bytes) : Option (Bytes × Bytes) :=
  if input.takeWhile isDigit = [] then none
  else some (input.takeWhile isDigit, input.dropWhile isDigit)

/-- The integer part: a single zero, or digits that do not start with one. -/
def scanInteger (input : Bytes) : Option (Bytes × Bytes) :=
  if input.head? = some 0x30 then some ([0x30], input.tail) else scanDigits input

/-- What follows the integer part: a fraction, if there is a point. -/
def scanFraction (input : Bytes) : Option (Bytes × Bytes) :=
  if input.head? = some 0x2e then (scanDigits input.tail).map fun r => (0x2e :: r.1, r.2)
  else some ([], input)

def scanSign (input : Bytes) : Bytes × Bytes :=
  match input with
  | c :: rest => if c = 0x2b ∨ c = 0x2d then ([c], rest) else ([], input)
  | [] => ([], [])

def scanExponent (input : Bytes) : Option (Bytes × Bytes) :=
  match input with
  | c :: rest =>
    if c = 0x65 ∨ c = 0x45 then
      (scanDigits (scanSign rest).2).map fun r => (c :: (scanSign rest).1 ++ r.1, r.2)
    else some ([], input)
  | [] => some ([], [])

def scanNumber (input : Bytes) : Option (Bytes × Bytes) := do
  let (minus, unsigned) : Bytes × Bytes :=
    if input.head? = some 0x2d then ([0x2d], input.tail) else ([], input)
  let (integer, input) ← scanInteger unsigned
  let (fraction, input) ← scanFraction input
  let (exponent, input) ← scanExponent input
  some (minus ++ integer ++ fraction ++ exponent, input)

inductive Delim
  | openObject
  | closeObject
  | openArray
  | closeArray
  deriving DecidableEq

/-- `json.Token`, with `UseNumber`. -/
inductive Token
  | delim (d : Delim)
  | null
  | bool (b : Bool)
  | number (raw : String)
  | string (s : String)
  deriving DecidableEq

def scanLiteral (text : String) (token : Token) (input : Bytes) : Option (Token × Bytes) :=
  if textBytes text <+: input then some (token, input.drop (textBytes text).length) else none

/-- A value that is neither an object nor an array; its first byte decides which. -/
def scanScalar (input : Bytes) : Option (Token × Bytes) :=
  match input with
  | [] => none
  | c :: rest =>
    if c = 0x22 then (scanText rest).map fun r => (.string r.1, r.2)
    else if c = 0x74 then scanLiteral "true" (.bool true) input
    else if c = 0x66 then scanLiteral "false" (.bool false) input
    else if c = 0x6e then scanLiteral "null" .null input
    else do
      let (raw, rest) ← scanNumber input
      let raw ← String.fromUTF8? ⟨raw.toArray⟩
      some (.number raw, rest)

inductive TokenState
  | topValue
  | arrayStart
  | arrayValue
  | arrayComma
  | objectStart
  | objectKey
  | objectColon
  | objectValue
  | objectComma
  deriving DecidableEq

/-- `tokenValueAllowed`. -/
def TokenState.AllowsValue (s : TokenState) : Prop :=
  s = .topValue ∨ s = .arrayStart ∨ s = .arrayValue ∨ s = .objectValue
  deriving Decidable

/-- `tokenValueEnd`. -/
def TokenState.afterValue : TokenState → TokenState
  | .arrayStart | .arrayValue => .arrayComma
  | .objectValue => .objectComma
  | s => s

/-- The input that is left, with the state between tokens and those of the enclosing values. -/
structure Decoder where
  input : Bytes
  state : TokenState
  stack : List TokenState

def isSpace (c : UInt8) : Bool := decide (c = 0x20 ∨ c = 0x09 ∨ c = 0x0a ∨ c = 0x0d)

def skipSpace (input : Bytes) : Bytes := input.dropWhile isSpace

namespace Decoder

def start (raw : Bytes) : Decoder := ⟨raw, .topValue, []⟩

def more (d : Decoder) : Bool :=
  match skipSpace d.input with
  | [] => false
  | c :: _ => decide (c ≠ 0x5d ∧ c ≠ 0x7d)

/-- Reads a colon or a comma where the state expects one; `none` is a misplaced one. -/
def pastSeparator (d : Decoder) : Option Decoder :=
  match skipSpace d.input with
  | [] => some { d with input := [] }
  | c :: rest =>
    if c = 0x3a then
      if d.state = .objectColon then some { d with input := rest, state := .objectValue } else none
    else if c = 0x2c then
      if d.state = .arrayComma then some { d with input := rest, state := .arrayValue }
      else if d.state = .objectComma then some { d with input := rest, state := .objectKey }
      else none
    else some { d with input := c :: rest }

def enter (d : Decoder) (delim : Delim) (inside : TokenState) (rest : Bytes) :
    Option (Token × Decoder) := do
  guard d.state.AllowsValue
  some (.delim delim, ⟨rest, inside, d.state :: d.stack⟩)

/-- The end of an array or object, at its start or after one of its values. -/
def leave (d : Decoder) (delim : Delim) (first later : TokenState) (rest : Bytes) :
    Option (Token × Decoder) := do
  guard (d.state = first ∨ d.state = later)
  let outer ← d.stack.head?
  some (.delim delim, ⟨rest, outer.afterValue, d.stack.tail⟩)

/-- The token at the start of the input, once separators have been read. -/
def tokenHere (d : Decoder) : Option (Token × Decoder) :=
  match skipSpace d.input with
  | [] => none
  | c :: rest =>
    if c = 0x5b then d.enter .openArray .arrayStart rest
    else if c = 0x5d then d.leave .closeArray .arrayStart .arrayComma rest
    else if c = 0x7b then d.enter .openObject .objectStart rest
    else if c = 0x7d then d.leave .closeObject .objectStart .objectComma rest
    else if c = 0x22 ∧ (d.state = .objectStart ∨ d.state = .objectKey) then do
      let (name, rest) ← scanText rest
      some (.string name, ⟨rest, .objectColon, d.stack⟩)
    else do
      guard d.state.AllowsValue
      let (token, rest) ← scanScalar (c :: rest)
      some (token, ⟨rest, d.state.afterValue, d.stack⟩)

/-- `Token`; `none` is an error or the end of the input. -/
def token (d : Decoder) : Option (Token × Decoder) := d.pastSeparator.bind tokenHere

def atEnd (d : Decoder) : Prop := skipSpace d.input = []
  deriving Decidable

end Decoder

end NotificationServer.Trust
