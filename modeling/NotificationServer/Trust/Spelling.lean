import Mathlib.Data.List.Induction
import NotificationServer.Trust.Walk

/-!
# Canonical spellings are read back

The decoder reads the canonical spelling of a string, a number or a literal and
leaves what follows it, and `validateJSONStringEncoding` passes over it.
-/

namespace NotificationServer.Trust

variable {c : UInt8} {rest : Bytes} {s : String}

theorem encodeRune_ascii (hc : c < 0x80) : encodeRune c.toNat = [c] := by
  have hlt : c.toNat < 128 := hc
  have hvalid : c.toNat.isValidChar := Or.inl (by omega)
  have hval : (Char.ofNat c.toNat).val.toNat = c.toNat := by
    rw [Char.ofNat, dif_pos hvalid]
    rfl
  unfold encodeRune
  rw [String.utf8EncodeChar_eq_singleton]
  · have hbyte : (Char.ofNat c.toNat).val.toUInt8 = c := by
      apply UInt8.toNat.inj
      rw [UInt32.toNat_toUInt8, hval]
      omega
    rw [hbyte]
  · unfold Char.utf8Size
    rw [if_pos]
    show (Char.ofNat c.toNat).val.toNat ≤ 127
    omega

theorem fromUTF8?_textBytes (s : String) : String.fromUTF8? ⟨(textBytes s).toArray⟩ = some s := by
  have hval := s.isValidUTF8
  unfold textBytes String.fromUTF8?
  rw [dif_pos hval]
  rfl

theorem scanString_backslash {rest' decoded : Bytes} (h : scanEscape rest = some (decoded, rest')) :
    scanString (0x5c :: rest) = (scanString rest').map fun r => (decoded ++ r.1, r.2) := by
  rw [scanString, if_neg (by decide), if_pos rfl]
  split
  · next hnone => cases h.symm.trans hnone
  · next hsome =>
    obtain ⟨rfl, rfl⟩ := Prod.mk.inj (Option.mem_unique h hsome)
    rfl

theorem validateStrings_backslash {rest' : Bytes} (h : Schema.consumeJSONEscape rest = some rest') :
    Schema.validateStrings true (0x5c :: rest) = Schema.validateStrings true rest' := by
  rw [Schema.validateStrings, if_neg (by decide), if_neg (by decide), if_pos rfl]
  split
  · next hnone => cases h.symm.trans hnone
  · next hsome =>
    obtain rfl := Option.mem_unique h hsome
    rfl

theorem hexDigitValue_hexDigit : ∀ n < 16, hexDigitValue (hexDigit n).toUInt8 = some n := by decide

theorem hexQuad_control (hc : c < 0x20) (tail : Bytes) :
    hexQuad (0x30 :: 0x30 :: (hexDigit (c.toNat / 16)).toUInt8 ::
      (hexDigit (c.toNat % 16)).toUInt8 :: tail) = some (c.toNat, tail) := by
  have hlt : c.toNat < 32 := hc
  have hzero : hexDigitValue 0x30 = some 0 := by decide
  have hhigh := hexDigitValue_hexDigit (c.toNat / 16) (by omega)
  have hlow := hexDigitValue_hexDigit (c.toNat % 16) (by omega)
  simp only [hexQuad, hzero, hhigh, hlow, Option.bind_eq_bind, Option.bind_some]
  congr 2
  omega

/-- How one byte of a string is spelled: as itself, or as an escape. -/
theorem escapeByte_cases (hc : c < 0x80) :
    (escapeByte c = [c] ∧ c ≠ 0x22 ∧ c ≠ 0x5c ∧ ¬ c < 0x20) ∨
    ∃ body, escapeByte c = 0x5c :: body ∧ (∀ tail, scanEscape (body ++ tail) = some ([c], tail)) ∧
      (∀ tail, Schema.consumeJSONEscape (body ++ tail) = some tail) ∧ ∀ b ∈ body, b < 0x80 := by
  unfold escapeByte
  split
  · next hquo =>
    refine .inr ⟨[c], rfl, ?_, ?_, ?_⟩
    · intro tail
      rcases hquo with rfl | rfl <;> rfl
    · intro tail
      rcases hquo with rfl | rfl <;> rfl
    · intro b hb
      rwa [List.mem_singleton.mp hb]
  split
  · next h =>
    subst h
    exact .inr ⟨[0x62], by decide, fun _ => rfl, fun _ => rfl, by decide +kernel⟩
  split
  · next h =>
    subst h
    exact .inr ⟨[0x66], by decide, fun _ => rfl, fun _ => rfl, by decide +kernel⟩
  split
  · next h =>
    subst h
    exact .inr ⟨[0x6e], by decide, fun _ => rfl, fun _ => rfl, by decide +kernel⟩
  split
  · next h =>
    subst h
    exact .inr ⟨[0x72], by decide, fun _ => rfl, fun _ => rfl, by decide +kernel⟩
  split
  · next h =>
    subst h
    exact .inr ⟨[0x74], by decide, fun _ => rfl, fun _ => rfl, by decide +kernel⟩
  split
  · next hctl =>
    have hlt : c.toNat < 32 := hctl
    have hsurr : ¬ (isHighSurrogate c.toNat ∨ isLowSurrogate c.toNat) := by
      unfold isHighSurrogate isLowSurrogate
      omega
    refine .inr ⟨[0x75, 0x30, 0x30, (hexDigit (c.toNat / 16)).toUInt8,
      (hexDigit (c.toNat % 16)).toUInt8], rfl, ?_, ?_, ?_⟩
    · intro tail
      simp only [List.cons_append, List.nil_append, scanEscape, ↓reduceIte,
        hexQuad_control hctl, Option.bind_eq_bind, Option.bind_some]
      rw [if_neg hsurr, encodeRune_ascii hc]
    · intro tail
      simp only [List.cons_append, List.nil_append, Schema.consumeJSONEscape,
        Schema.decodeHexQuad, hexQuad_control hctl, Option.bind_eq_bind, Option.bind_some]
      rw [if_neg (by decide), if_pos trivial, if_neg fun h => hsurr (.inl h),
        if_neg fun h => hsurr (.inr h)]
    · have hdig : ∀ n < 16, (hexDigit n).toUInt8 < 0x80 := by decide
      have hhigh := hdig (c.toNat / 16) (by omega)
      have hlow := hdig (c.toNat % 16) (by omega)
      simp only [List.forall_mem_cons]
      exact ⟨by decide, by decide, by decide, hhigh, hlow, fun _ h => absurd h List.not_mem_nil⟩
  · next hquo _ _ _ _ _ hctl =>
    exact .inl ⟨rfl, fun h => hquo (.inl h), fun h => hquo (.inr h), hctl⟩

theorem escapeByte_ascii (hc : c < 0x80) : ∀ b ∈ escapeByte c, b < 0x80 := by
  rcases escapeByte_cases hc with ⟨hself, -⟩ | ⟨body, heq, -, -, hbody⟩
  · rw [hself]
    intro b hb
    rwa [List.mem_singleton.mp hb]
  · rw [heq]
    exact List.forall_mem_cons.mpr ⟨by decide, hbody⟩

/-- The decoder reads the body of a canonical string back. -/
theorem scanString_escaped {body : Bytes} (h : ∀ c ∈ body, c < 0x80) (rest : Bytes) :
    scanString (body.flatMap escapeByte ++ 0x22 :: rest) = some (body, rest) := by
  induction body with
  | nil =>
    show scanString (0x22 :: rest) = _
    rw [scanString, if_pos rfl]
  | cons c body ih =>
    have hrest := ih fun b hb => h b (.tail _ hb)
    rw [List.flatMap_cons, List.append_assoc]
    rcases escapeByte_cases (h c (.head _)) with ⟨hself, hquo, hslash, hctl⟩ |
      ⟨escape, heq, hscan, -⟩
    · rw [hself, List.singleton_append, scanString, if_neg hquo, if_neg hslash, if_neg hctl, hrest]
      rfl
    · rw [heq, List.cons_append, scanString_backslash (hscan _), hrest]
      rfl

theorem validateStrings_escaped {body : Bytes} (h : ∀ c ∈ body, c < 0x80) (rest : Bytes) :
    Schema.validateStrings true (body.flatMap escapeByte ++ 0x22 :: rest) =
      Schema.validateStrings false rest := by
  induction body with
  | nil =>
    show Schema.validateStrings true (0x22 :: rest) = _
    rw [Schema.validateStrings, if_neg (by decide), if_pos rfl]
  | cons c body ih =>
    have hc := h c (.head _)
    have hrest := ih fun b hb => h b (.tail _ hb)
    rw [List.flatMap_cons, List.append_assoc]
    rcases escapeByte_cases hc with ⟨hself, hquo, hslash, hctl⟩ |
      ⟨escape, heq, -, hconsume, -⟩
    · have hwidth : Schema.runeWidth c = 1 := if_pos hc
      rw [hself, List.singleton_append, Schema.validateStrings, if_neg (by decide), if_neg hquo,
        if_neg hslash, if_neg hctl, hwidth]
      exact hrest
    · rw [heq, List.cons_append, validateStrings_backslash (hconsume _), hrest]

/-- A canonical string: the quotes around its escaped bytes. -/
def quoted (s : String) : Bytes := 0x22 :: ((textBytes s).flatMap escapeByte ++ [0x22])

theorem asciiString_eq (h : isASCII s) : asciiString s = some (quoted s) := by
  unfold asciiString quoted
  rw [if_pos h]
  rfl

theorem quoted_append (s : String) (rest : Bytes) :
    quoted s ++ rest = 0x22 :: ((textBytes s).flatMap escapeByte ++ 0x22 :: rest) := by
  simp [quoted]

def Plain (c : UInt8) : Prop := c < 0x80 ∧ ¬ c < 0x20 ∧ c ≠ 0x22 ∧ c ≠ 0x5c
  deriving Decidable

theorem escapeByte_plain (h : Plain c) : escapeByte c = [c] := by
  obtain ⟨-, hctl, hquo, hslash⟩ := h
  have hne : ∀ d : UInt8, d < 0x20 → c ≠ d := by
    rintro d hd rfl
    exact hctl hd
  unfold escapeByte
  rw [if_neg (not_or.mpr ⟨hquo, hslash⟩), if_neg (hne 0x08 (by decide)),
    if_neg (hne 0x0c (by decide)), if_neg (hne 0x0a (by decide)), if_neg (hne 0x0d (by decide)),
    if_neg (hne 0x09 (by decide)), if_neg hctl]

theorem flatMap_escapeByte {body : Bytes} (h : ∀ c ∈ body, Plain c) :
    body.flatMap escapeByte = body := by
  induction body with
  | nil => rfl
  | cons c body ih =>
    rw [List.flatMap_cons, escapeByte_plain (h c List.mem_cons_self),
      ih fun b hb => h b (.tail _ hb), List.singleton_append]

theorem quoted_plain (h : ∀ c ∈ textBytes s, Plain c) :
    quoted s = 0x22 :: (textBytes s ++ [0x22]) := by
  rw [quoted, flatMap_escapeByte h]

theorem scanText_quoted (h : isASCII s) (rest : Bytes) :
    scanText ((textBytes s).flatMap escapeByte ++ 0x22 :: rest) = some (s, rest) := by
  unfold scanText
  rw [scanString_escaped h]
  simp only [Option.bind_eq_bind, Option.bind_some, fromUTF8?_textBytes]

theorem validateStrings_quoted (h : isASCII s) (rest : Bytes) :
    Schema.validateStrings false (quoted s ++ rest) = Schema.validateStrings false rest := by
  rw [quoted_append, Schema.validateStrings, if_pos rfl, if_pos rfl, validateStrings_escaped h]

theorem quoted_ascii (h : isASCII s) : ∀ c ∈ quoted s, c < 0x80 := by
  intro c hc
  rcases List.mem_cons.mp hc with rfl | hc
  · decide
  rcases List.mem_append.mp hc with hc | hc
  · obtain ⟨b, hb, hcb⟩ := List.mem_flatMap.mp hc
    exact escapeByte_ascii (h b hb) c hcb
  · rw [List.mem_singleton.mp hc]
    decide

def digitByte (d : Nat) : UInt8 := UInt8.ofNat (48 + d)

theorem digitByte_toNat : ∀ d < 10, (digitByte d).toNat = 48 + d := by decide

theorem utf8EncodeChar_digitChar :
    ∀ d < 10, String.utf8EncodeChar (Nat.digitChar d) = [digitByte d] := by decide

theorem textBytes_ofList (cs : List Char) :
    textBytes (String.ofList cs) = cs.flatMap String.utf8EncodeChar := by
  unfold textBytes
  rw [String.toByteArray_ofList, List.utf8Encode]
  simp

theorem textBytes_toString (n : Nat) :
    textBytes (toString n) =
      if n < 10 then [digitByte n] else textBytes (toString (n / 10)) ++ [digitByte (n % 10)] := by
  have hbytes : ∀ m : Nat, textBytes (toString m) =
      (Nat.toDigits 10 m).flatMap String.utf8EncodeChar := by
    intro m
    rw [← textBytes_ofList, ← Nat.repr_eq_ofList_toDigits]
    rfl
  rw [hbytes, hbytes]
  split
  · next hlt =>
    rw [Nat.toDigits_of_lt_base hlt, List.flatMap_singleton, utf8EncodeChar_digitChar n hlt]
  · next hge =>
    rw [Nat.toDigits_of_base_le (by omega) (by omega), List.flatMap_append, List.flatMap_singleton,
      utf8EncodeChar_digitChar _ (by omega)]

theorem isDigit_digitByte : ∀ d < 10, isDigit (digitByte d) = true := by decide

theorem isDigit_iff : isDigit c = true ↔ 48 ≤ c ∧ c ≤ 57 := by
  unfold isDigit
  rw [decide_eq_true_eq]

/-- The spelling of a number: digits, without a leading zero. -/
theorem toString_digits (n : Nat) :
    (∀ c ∈ textBytes (toString n), isDigit c = true) ∧ textBytes (toString n) ≠ [] ∧
      ((textBytes (toString n)).head? = some 0x30 → n = 0) := by
  induction n using Nat.strong_induction_on with
  | h n ih =>
    rw [textBytes_toString]
    split
    · next hlt =>
      refine ⟨?_, by simp, ?_⟩
      · intro c hc
        rw [List.mem_singleton.mp hc]
        exact isDigit_digitByte n hlt
      · intro hhead
        have hbyte : digitByte n = 0x30 := Option.some.inj hhead
        have hnat := digitByte_toNat n hlt
        rw [hbyte] at hnat
        have hzero : (0x30 : UInt8).toNat = 48 := rfl
        omega
    · next hge =>
      obtain ⟨hdig, hne, hhead⟩ := ih (n / 10) (by omega)
      refine ⟨?_, by simp, ?_⟩
      · intro c hc
        rcases List.mem_append.mp hc with hc | hc
        · exact hdig c hc
        · rw [List.mem_singleton.mp hc]
          exact isDigit_digitByte _ (by omega)
      · rw [List.head?_append_of_ne_nil _ hne]
        intro h
        have := hhead h
        omega

def digitsValue (ds : Bytes) : Nat := ds.foldl (fun n c => 10 * n + (c.toNat - 48)) 0

theorem digitsValue_append (ds : Bytes) (c : UInt8) :
    digitsValue (ds ++ [c]) = 10 * digitsValue ds + (c.toNat - 48) := by
  simp [digitsValue]

theorem decimal_eq_some {ds : Bytes} {n : Nat} :
    decimal ds = some n ↔ ds ≠ [] ∧ (∀ c ∈ ds, isDigit c = true) ∧ digitsValue ds = n := by
  unfold decimal digitsValue
  simp only [isDigit_iff, Option.ite_none_right_eq_some, Option.some.injEq, and_assoc]

theorem digitsValue_toString (n : Nat) : digitsValue (textBytes (toString n)) = n := by
  induction n using Nat.strong_induction_on with
  | h n ih =>
    rw [textBytes_toString]
    split
    · next hlt =>
      show 10 * 0 + ((digitByte n).toNat - 48) = n
      rw [digitByte_toNat n hlt]
      omega
    · next hge =>
      rw [digitsValue_append, ih _ (by omega), digitByte_toNat _ (by omega)]
      omega

theorem decimal_toString (n : Nat) : decimal (textBytes (toString n)) = some n := by
  obtain ⟨hdig, hne, -⟩ := toString_digits n
  exact decimal_eq_some.mpr ⟨hne, hdig, digitsValue_toString n⟩

theorem digitByte_of_isDigit (h : isDigit c = true) :
    c.toNat - 48 < 10 ∧ digitByte (c.toNat - 48) = c := by
  obtain ⟨hlow, hhigh⟩ := isDigit_iff.mp h
  have hlow : 48 ≤ c.toNat := hlow
  have hhigh : c.toNat ≤ 57 := hhigh
  refine ⟨by omega, ?_⟩
  unfold digitByte
  rw [Nat.add_sub_cancel' hlow, UInt8.ofNat_toNat]

/-- Digits without a leading zero are the spelling of their value. -/
theorem toString_digitsValue {ds : Bytes} (hne : ds ≠ []) (hdig : ∀ c ∈ ds, isDigit c = true)
    (hhead : ds.head? = some 0x30 → ds = [0x30]) : textBytes (toString (digitsValue ds)) = ds := by
  induction ds using List.reverseRecOn with
  | nil => exact absurd rfl hne
  | append_singleton ds c ih =>
    obtain ⟨hlt, hbyte⟩ := digitByte_of_isDigit (hdig c (by simp))
    rw [digitsValue_append]
    by_cases hds : ds = []
    · subst hds
      rw [textBytes_toString, if_pos (by simpa [digitsValue] using hlt)]
      simp [digitsValue, hbyte]
    · have hfst : ds.head? ≠ some 0x30 := by
        intro h
        have hall := hhead (by rw [List.head?_append_of_ne_nil _ hds]; exact h)
        have hlen := congrArg List.length hall
        have hpos := List.length_pos_iff.mpr hds
        simp only [List.length_append, List.length_singleton] at hlen
        omega
      have hspelled := ih hds (fun b hb => hdig b (by simp [hb])) fun h => absurd h hfst
      have hpos : 0 < digitsValue ds := by
        rcases Nat.eq_zero_or_pos (digitsValue ds) with hzero | hpos
        · rw [hzero] at hspelled
          exact absurd (by rw [← hspelled]; decide) hfst
        · exact hpos
      rw [textBytes_toString, if_neg (by omega), Nat.mul_add_div (by omega),
        Nat.div_eq_of_lt hlt, Nat.add_zero, hspelled, Nat.mul_add_mod, Nat.mod_eq_of_lt hlt, hbyte]

theorem textBytes_injective {t : String} (h : textBytes s = textBytes t) : s = t := by
  have hs := fromUTF8?_textBytes s
  rw [h, fromUTF8?_textBytes t] at hs
  exact (Option.some.inj hs).symm

/-- The spellings that `canonicalInteger` accepts are those of the integers in range. -/
theorem canonicalInteger_eq_some {raw : String} {spelling : Bytes} :
    canonicalInteger raw = some spelling ↔
      ∃ n ≤ maxSafeInteger, raw = toString n ∧ spelling = textBytes (toString n) := by
  simp only [canonicalInteger, Option.bind_eq_bind, Option.bind_eq_some_iff,
    Option.guard_eq_some', exists_const, Option.some.injEq]
  constructor
  · rintro ⟨hlead, n, hn, hmax, rfl⟩
    obtain ⟨hne, hdig, hval⟩ := decimal_eq_some.mp hn
    refine ⟨n, hmax, ?_, rfl⟩
    apply textBytes_injective
    rw [← hval]
    refine (toString_digitsValue hne hdig fun hhead => ?_).symm
    rcases hlead with rfl | hlead
    · decide
    · exact absurd hhead hlead
  · rintro ⟨n, hmax, rfl, rfl⟩
    refine ⟨?_, n, decimal_toString n, hmax, rfl⟩
    by_cases hhead : (textBytes (toString n)).head? = some 48
    · left
      rw [(toString_digits n).2.2 hhead]
      rfl
    · exact .inr hhead

/-- What follows a value inside a canonical text, or after it. -/
def Follows (rest : Bytes) : Prop := ∀ c ∈ rest.head?, c = 0x2c ∨ c = 0x5d ∨ c = 0x7d

theorem Follows.takeWhile {digits : Bytes} (h : Follows rest)
    (hdig : ∀ c ∈ digits, isDigit c = true) :
    (digits ++ rest).takeWhile isDigit = digits ∧ (digits ++ rest).dropWhile isDigit = rest := by
  have hrest : rest.takeWhile isDigit = [] ∧ rest.dropWhile isDigit = rest := by
    cases rest with
    | nil => exact ⟨rfl, rfl⟩
    | cons c rest =>
      have hc : isDigit c = false := by rcases h c rfl with rfl | rfl | rfl <;> decide
      simp [hc]
  rw [List.takeWhile_append_of_pos hdig, List.dropWhile_append_of_pos hdig, hrest.1, hrest.2,
    List.append_nil]
  exact ⟨rfl, rfl⟩

theorem scanNumber_toString (n : Nat) (h : Follows rest) :
    scanNumber (textBytes (toString n) ++ rest) = some (textBytes (toString n), rest) := by
  obtain ⟨hdig, hne, hzero⟩ := toString_digits n
  obtain ⟨htake, hdrop⟩ := h.takeWhile hdig
  have hhead : (textBytes (toString n) ++ rest).head? = (textBytes (toString n)).head? :=
    List.head?_append_of_ne_nil _ hne
  have hminus : (textBytes (toString n) ++ rest).head? ≠ some 0x2d := by
    rw [hhead]
    intro hminus
    have hdigit := hdig 0x2d (List.mem_of_head? hminus)
    cases hdigit
  have hinteger : scanInteger (textBytes (toString n) ++ rest) =
      some (textBytes (toString n), rest) := by
    unfold scanInteger
    split
    · next hfst =>
      rw [hhead] at hfst
      obtain rfl := hzero hfst
      rfl
    · unfold scanDigits
      rw [htake, hdrop, if_neg hne]
  have hfrac : scanFraction rest = some ([], rest) := by
    unfold scanFraction
    rw [if_neg]
    intro hpoint
    rcases h _ hpoint with h | h | h <;> cases h
  have hexpo : scanExponent rest = some ([], rest) := by
    unfold scanExponent
    split
    · next c rest =>
      rw [if_neg]
      rintro (rfl | rfl)
      all_goals rcases h _ rfl with h | h | h <;> cases h
    · rfl
  unfold scanNumber
  rw [if_neg hminus]
  simp only [hinteger, hfrac, hexpo, Option.bind_eq_bind, Option.bind_some,
    List.nil_append, List.append_nil]

end NotificationServer.Trust
