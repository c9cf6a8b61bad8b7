import NotificationServer.Lib.Transaction
import NotificationServer.Trust.StrictJson

/-!
# The walk over the tokens

Every token takes at least one byte of the input, so the bound on the recursion
is never reached, and the objects a walk returns have no field twice.
-/

namespace NotificationServer.Trust

variable {input rest digits : Bytes}

theorem scanText_length {s : String} (h : scanText input = some (s, rest)) :
    rest.length < input.length := by
  obtain ⟨⟨decoded, rest'⟩, hscan, h⟩ := Option.bind_eq_some_iff.mp h
  obtain ⟨s', -, heq⟩ := Option.bind_eq_some_iff.mp h
  cases heq
  exact scanString_length hscan

theorem scanDigits_length (h : scanDigits input = some (digits, rest)) :
    rest.length < input.length := by
  unfold scanDigits at h
  split at h
  · cases h
  next hdig =>
  cases h
  have hlen : (input.takeWhile isDigit).length + (input.dropWhile isDigit).length =
      input.length := by
    rw [← List.length_append, List.takeWhile_append_dropWhile]
  have hpos := List.length_pos_iff.mpr hdig
  omega

theorem scanInteger_length (h : scanInteger input = some (digits, rest)) :
    rest.length < input.length := by
  unfold scanInteger at h
  split at h
  · next hhead =>
    cases h
    cases input with
    | nil => cases hhead
    | cons c input => simp
  · exact scanDigits_length h

theorem scanFraction_length (h : scanFraction input = some (digits, rest)) :
    rest.length ≤ input.length := by
  unfold scanFraction at h
  split at h
  · obtain ⟨r, hr, heq⟩ := Option.map_eq_some_iff.mp h
    obtain ⟨-, rfl⟩ := Prod.mk.inj heq
    have hlen := scanDigits_length hr
    rw [List.length_tail] at hlen
    omega
  · cases h
    exact le_rfl

theorem scanSign_length (input : Bytes) : (scanSign input).2.length ≤ input.length := by
  unfold scanSign
  split
  · split
    · simp
    · exact le_rfl
  · exact le_rfl

theorem scanExponent_length (h : scanExponent input = some (digits, rest)) :
    rest.length ≤ input.length := by
  unfold scanExponent at h
  split at h
  · next c input =>
    split at h
    · obtain ⟨r, hr, heq⟩ := Option.map_eq_some_iff.mp h
      obtain ⟨-, rfl⟩ := Prod.mk.inj heq
      have hlen := scanDigits_length hr
      have hsign := scanSign_length input
      rw [List.length_cons]
      omega
    · cases h
      exact le_rfl
  · cases h
    exact le_rfl

theorem scanNumber_length {raw : Bytes} (h : scanNumber input = some (raw, rest)) :
    rest.length < input.length := by
  unfold scanNumber at h
  split at h
  next minus unsigned hminus =>
  have hunsi : unsigned.length ≤ input.length := by
    split at hminus
    · obtain ⟨-, rfl⟩ := Prod.mk.inj hminus
      simp
    · obtain ⟨-, rfl⟩ := Prod.mk.inj hminus
      exact le_rfl
  obtain ⟨⟨integer, rest1⟩, hinteger, h⟩ := Option.bind_eq_some_iff.mp h
  obtain ⟨⟨fraction, rest2⟩, hfrac, h⟩ := Option.bind_eq_some_iff.mp h
  obtain ⟨⟨exponent, rest3⟩, hexpo, h⟩ := Option.bind_eq_some_iff.mp h
  cases h
  have h1 := scanInteger_length hinteger
  have h2 := scanFraction_length hfrac
  have h3 := scanExponent_length hexpo
  omega

theorem scanLiteral_length {text : String} {token t : Token} (htext : textBytes text ≠ [])
    (h : scanLiteral text token input = some (t, rest)) : rest.length < input.length := by
  unfold scanLiteral at h
  split at h
  · next hstarts =>
    cases h
    have hle := hstarts.length_le
    have hpos := List.length_pos_iff.mpr htext
    rw [List.length_drop]
    omega
  · cases h

theorem scanScalar_length {t : Token} (h : scanScalar input = some (t, rest)) :
    rest.length < input.length := by
  unfold scanScalar at h
  split at h
  · cases h
  next c input =>
  split at h
  · obtain ⟨r, hr, heq⟩ := Option.map_eq_some_iff.mp h
    obtain ⟨-, rfl⟩ := Prod.mk.inj heq
    exact (scanText_length hr).trans (Nat.lt_succ_self _)
  split at h
  · exact scanLiteral_length (by decide) h
  split at h
  · exact scanLiteral_length (by decide) h
  split at h
  · exact scanLiteral_length (by decide) h
  · obtain ⟨⟨raw, rest'⟩, hraw, h⟩ := Option.bind_eq_some_iff.mp h
    obtain ⟨raw', -, heq⟩ := Option.bind_eq_some_iff.mp h
    cases heq
    exact scanNumber_length hraw

namespace Decoder

variable {d d' : Decoder} {t : Token}

theorem skipSpace_length (input : Bytes) : (skipSpace input).length ≤ input.length :=
  (List.dropWhile_sublist _).length_le

theorem pastSeparator_length (h : d.pastSeparator = some d') :
    d'.input.length ≤ d.input.length := by
  have hskip := skipSpace_length d.input
  unfold pastSeparator at h
  split at h
  · cases h
    exact Nat.zero_le _
  next c rest hinput =>
  rw [hinput, List.length_cons] at hskip
  split at h
  · split at h
    · cases h
      exact (Nat.le_succ _).trans hskip
    · cases h
  split at h
  · split at h
    · cases h
      exact (Nat.le_succ _).trans hskip
    split at h
    · cases h
      exact (Nat.le_succ _).trans hskip
    · cases h
  · cases h
    exact hskip

theorem enter_input {delim : Delim} {inside : TokenState} {rest : Bytes}
    (h : d.enter delim inside rest = some (t, d')) : d'.input = rest := by
  obtain ⟨_, -, heq⟩ := Option.bind_eq_some_iff.mp h
  cases heq
  rfl

theorem leave_input {delim : Delim} {first later : TokenState} {rest : Bytes}
    (h : d.leave delim first later rest = some (t, d')) : d'.input = rest := by
  obtain ⟨_, -, h⟩ := Option.bind_eq_some_iff.mp h
  obtain ⟨_, -, heq⟩ := Option.bind_eq_some_iff.mp h
  cases heq
  rfl

theorem tokenHere_length (h : d.tokenHere = some (t, d')) : d'.input.length < d.input.length := by
  have hskip := skipSpace_length d.input
  unfold tokenHere at h
  split at h
  · cases h
  next c rest hinput =>
  rw [hinput, List.length_cons] at hskip
  split at h
  · rw [enter_input h]
    exact hskip
  split at h
  · rw [leave_input h]
    exact hskip
  split at h
  · rw [enter_input h]
    exact hskip
  split at h
  · rw [leave_input h]
    exact hskip
  split at h
  · obtain ⟨⟨name, rest'⟩, htext, heq⟩ := Option.bind_eq_some_iff.mp h
    cases heq
    exact (scanText_length htext).trans hskip
  · obtain ⟨_, -, h⟩ := Option.bind_eq_some_iff.mp h
    obtain ⟨⟨token, rest'⟩, hscalar, heq⟩ := Option.bind_eq_some_iff.mp h
    cases heq
    exact (scanScalar_length hscalar).trans_le hskip

theorem token_length (h : d.token = some (t, d')) : d'.input.length < d.input.length := by
  obtain ⟨d1, hpast, hhere⟩ := Option.bind_eq_some_iff.mp h
  exact (tokenHere_length hhere).trans_le (pastSeparator_length hpast)

end Decoder

inductive Json.DistinctFields : Json → Prop
  | null : DistinctFields .null
  | bool (b : Bool) : DistinctFields (.bool b)
  | number (raw : String) : DistinctFields (.number raw)
  | string (s : String) : DistinctFields (.string s)
  | array {items : List Json} (h : ∀ v ∈ items, DistinctFields v) : DistinctFields (.array items)
  | object {fields : JsonObject} (hnames : (fields.map Prod.fst).Nodup)
      (h : ∀ f ∈ fields, DistinctFields f.2) : DistinctFields (.object fields)

section Walk

variable {ε : Type} {R : Reader ε} {fuel fuel' : Nat} {path : String} {d d' : Decoder} {v : Json}
  {r : Json × Decoder}

/-- What every part of a walk keeps: input was read, and the value has distinct fields. -/
def Walked (d : Decoder) (r : Json × Decoder) : Prop :=
  r.2.input.length < d.input.length ∧ r.1.DistinctFields

theorem Walked.after {d1 : Decoder} (h : Walked d1 r) (hle : d1.input.length ≤ d.input.length) :
    Walked d r :=
  ⟨h.1.trans_le hle, h.2⟩

def FieldsSoFar (object : JsonObject) : Prop :=
  (object.map Prod.fst).Nodup ∧ ∀ f ∈ object, f.2.DistinctFields

theorem FieldsSoFar.append {object : JsonObject} {name : String} (h : FieldsSoFar object)
    (hname : ¬ HasField object name) (hv : v.DistinctFields) :
    FieldsSoFar (object ++ [(name, v)]) := by
  constructor
  · rw [List.map_append, List.nodup_append]
    refine ⟨h.1, List.nodup_singleton _, ?_⟩
    intro a ha b hb hab
    obtain rfl : b = name := List.mem_singleton.mp hb
    exact hname (hab ▸ ha)
  · intro f hf
    rcases List.mem_append.mp hf with hf | hf
    · exact h.2 f hf
    · rw [List.mem_singleton.mp hf]
      exact hv

theorem decodeMembers_close {object : JsonObject} (hobj : FieldsSoFar object)
    (h : (match d.token with
      | none => .error (R.fault .token path)
      | some (.delim .closeObject, d) => .ok (.object object, d)
      | some _ => .error (R.fault .unterminatedObject path)) = Except.ok r) : Walked d r := by
  split at h
  · cases h
  · next d1 htok =>
    cases h
    exact ⟨Decoder.token_length htok, .object hobj.1 hobj.2⟩
  · cases h

theorem decodeItems_close {items : List Json} (hitems : ∀ v ∈ items, v.DistinctFields)
    (h : (match d.token with
      | none => .error (R.fault .token path)
      | some (.delim .closeArray, d) => .ok (.array items, d)
      | some _ => .error (R.fault .unterminatedArray path)) = Except.ok r) : Walked d r := by
  split at h
  · cases h
  · next d1 htok =>
    cases h
    exact ⟨Decoder.token_length htok, .array hitems⟩
  · cases h

theorem walk_walked (fuel : Nat) :
    (∀ path d r, decodeValue R fuel path d = .ok r → Walked d r) ∧
    (∀ path object d r, FieldsSoFar object → decodeMembers R fuel path object d = .ok r →
      Walked d r) ∧
    ∀ path items d r, (∀ v ∈ items, v.DistinctFields) →
      decodeItems R fuel path items d = .ok r → Walked d r := by
  -- the three functions recurse into each other with one unit of fuel less
  induction fuel with
  | zero =>
    refine ⟨?_, ?_, ?_⟩
    · intro path d r h
      simp [decodeValue] at h
    · intro path object d r _ h
      simp [decodeMembers] at h
    · intro path items d r _ h
      simp [decodeItems] at h
  | succ fuel ih =>
    obtain ⟨hval, hmembers, hitems⟩ := ih
    refine ⟨?_, ?_, ?_⟩
    · intro path d r h
      simp only [decodeValue] at h
      split at h
      · cases h
      · next htok =>
        have hemp : FieldsSoFar [] := ⟨List.nodup_nil, nofun⟩
        exact (hmembers _ _ _ _ hemp h).after (Decoder.token_length htok).le
      · next htok => exact (hitems _ _ _ _ (by simp) h).after (Decoder.token_length htok).le
      · cases h
      · next htok =>
        obtain ⟨_, -, heq⟩ := Except.bind_eq_ok.mp h
        cases heq
        exact ⟨Decoder.token_length htok, .number _⟩
      · next htok =>
        cases h
        exact ⟨Decoder.token_length htok, .string _⟩
      · next htok =>
        cases h
        exact ⟨Decoder.token_length htok, .bool _⟩
      · next htok =>
        cases h
        exact ⟨Decoder.token_length htok, .null⟩
    · intro path object d r hobj h
      simp only [decodeMembers] at h
      split at h
      · split at h
        · cases h
        · next name d1 htok =>
          split at h
          · cases h
          next hname =>
          obtain ⟨⟨child, d2⟩, hchild, h⟩ := Except.bind_eq_ok.mp h
          obtain ⟨hshorter, hdist⟩ := hval _ _ _ hchild
          have hrest := hmembers _ _ _ _ (hobj.append hname hdist) h
          exact hrest.after (hshorter.le.trans (Decoder.token_length htok).le)
        · cases h
      · exact decodeMembers_close hobj h
    · intro path items d r hitems' h
      simp only [decodeItems] at h
      split at h
      · obtain ⟨⟨child, d2⟩, hchild, h⟩ := Except.bind_eq_ok.mp h
        obtain ⟨hshorter, hdist⟩ := hval _ _ _ hchild
        refine (hitems _ _ _ _ ?_ h).after hshorter.le
        intro v hv
        rcases List.mem_append.mp hv with hv | hv
        · exact hitems' v hv
        · rw [List.mem_singleton.mp hv]
          exact hdist
      · exact decodeItems_close hitems' h

theorem decodeValue_walked (h : decodeValue R fuel path d = .ok r) : Walked d r :=
  (walk_walked fuel).1 _ _ _ h

/-- The bound on the recursion is never reached: any bound above twice the length of the input gives
the same walk. -/
theorem walk_fuel (fuel : Nat) :
    (∀ fuel' path d, 2 * d.input.length < fuel → 2 * d.input.length < fuel' →
      decodeValue R fuel path d = decodeValue R fuel' path d) ∧
    (∀ fuel' path object d, 2 * d.input.length + 1 < fuel → 2 * d.input.length + 1 < fuel' →
      decodeMembers R fuel path object d = decodeMembers R fuel' path object d) ∧
    ∀ fuel' path items d, 2 * d.input.length + 1 < fuel → 2 * d.input.length + 1 < fuel' →
      decodeItems R fuel path items d = decodeItems R fuel' path items d := by
  induction fuel with
  | zero =>
    refine ⟨?_, ?_, ?_⟩
    all_goals
      intros
      omega
  | succ fuel ih =>
    obtain ⟨hval, hmembers, hitems⟩ := ih
    refine ⟨?_, ?_, ?_⟩
    · intro fuel' path d h h'
      obtain ⟨fuel', rfl⟩ := Nat.exists_eq_succ_of_ne_zero (by omega : fuel' ≠ 0)
      simp only [decodeValue]
      split
      · rfl
      · next htok =>
        have hlen := Decoder.token_length htok
        exact hmembers _ _ _ _ (by omega) (by omega)
      · next htok =>
        have hlen := Decoder.token_length htok
        exact hitems _ _ _ _ (by omega) (by omega)
      all_goals rfl
    · intro fuel' path object d h h'
      obtain ⟨fuel', rfl⟩ := Nat.exists_eq_succ_of_ne_zero (by omega : fuel' ≠ 0)
      simp only [decodeMembers]
      split
      · split
        · rfl
        · next name d1 htok =>
          have hlen := Decoder.token_length htok
          split
          · rfl
          rw [← hval fuel' _ d1 (by omega) (by omega)]
          cases hchild : decodeValue R fuel (objectPath path "<member>") d1 with
          | error e => rfl
          | ok r =>
            have hshorter := (decodeValue_walked hchild).1
            exact hmembers _ _ _ _ (by omega) (by omega)
        · rfl
      · rfl
    · intro fuel' path items d h h'
      obtain ⟨fuel', rfl⟩ := Nat.exists_eq_succ_of_ne_zero (by omega : fuel' ≠ 0)
      simp only [decodeItems]
      split
      · rw [← hval fuel' _ d (by omega) (by omega)]
        cases hchild : decodeValue R fuel (arrayPath path items.length) d with
        | error e => rfl
        | ok r =>
          have hshorter := (decodeValue_walked hchild).1
          exact hitems _ _ _ _ (by omega) (by omega)
      · rfl

end Walk

end NotificationServer.Trust
