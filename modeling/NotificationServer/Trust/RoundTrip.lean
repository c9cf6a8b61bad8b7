import NotificationServer.Trust.Spelling

/-!
# Canonical texts

The values of the v1 profile, as Go maps have them: the fields of an object have
no order, and `sorted` puts them in that of their names.  A canonical text is
read back by both parsers as the sorted value, so `Canonicalize` is injective up
to the order of fields and the parsers agree on canonical texts.
-/

namespace NotificationServer.Trust

/-- The values `Canonicalize` is meant for: null, booleans, integers from 0 to 2^53-1, ASCII
strings, arrays, and objects with distinct ASCII names. -/
inductive Json.InProfile : Json → Prop
  | null : InProfile .null
  | bool (b : Bool) : InProfile (.bool b)
  | number {n : Nat} (h : n ≤ maxSafeInteger) : InProfile (.number (toString n))
  | string {s : String} (h : isASCII s) : InProfile (.string s)
  | array {items : List Json} (h : ∀ v ∈ items, InProfile v) : InProfile (.array items)
  | object {fields : JsonObject} (hnames : (fields.map Prod.fst).Nodup)
      (hascii : ∀ f ∈ fields, isASCII f.1) (h : ∀ f ∈ fields, InProfile f.2) :
      InProfile (.object fields)

/-- The order of `sort.Strings`. -/
def NameLe (a b : String × Json) : Prop := textBytes a.1 ≤ textBytes b.1
  deriving Decidable

mutual

/-- The value with the fields of every object in the order of their names. -/
def Json.sorted : Json → Json
  | .array items => .array (sortedItems items)
  | .object fields => .object ((sortedMembers fields).insertionSort NameLe)
  | v => v

def sortedItems : List Json → List Json
  | [] => []
  | v :: vs => v.sorted :: sortedItems vs

def sortedMembers : JsonObject → JsonObject
  | [] => []
  | (name, v) :: fields => (name, v.sorted) :: sortedMembers fields

end

mutual

/-- The text of a value, its fields in the order they have. -/
def spell : Json → Bytes
  | .null => textBytes "null"
  | .bool b => textBytes (if b then "true" else "false")
  | .number raw => textBytes raw
  | .string s => quoted s
  | .array items => bracketed 0x5b 0x5d (spellItems items)
  | .object fields => bracketed 0x7b 0x7d (spellMembers fields)

def spellItems : List Json → List Bytes
  | [] => []
  | v :: vs => spell v :: spellItems vs

def spellMembers : JsonObject → List Bytes
  | [] => []
  | (name, v) :: fields => (quoted name ++ [0x3a] ++ spell v) :: spellMembers fields

end

theorem sortedItems_eq (items : List Json) : sortedItems items = items.map Json.sorted := by
  induction items with
  | nil => rfl
  | cons v items ih => rw [sortedItems, ih, List.map_cons]

theorem sortedMembers_eq (fields : JsonObject) :
    sortedMembers fields = fields.map fun f => (f.1, f.2.sorted) := by
  induction fields with
  | nil => rfl
  | cons f fields ih => rw [sortedMembers, ih, List.map_cons]

theorem spellItems_eq (items : List Json) : spellItems items = items.map spell := by
  induction items with
  | nil => rfl
  | cons v items ih => rw [spellItems, ih, List.map_cons]

theorem spellMembers_eq (fields : JsonObject) :
    spellMembers fields = fields.map fun f => quoted f.1 ++ [0x3a] ++ spell f.2 := by
  induction fields with
  | nil => rfl
  | cons f fields ih => rw [spellMembers, ih, List.map_cons]

theorem canonicalItems_of {items : List Json} (spelling : Json → Bytes)
    (h : ∀ v ∈ items, canonicalize v = some (spelling v)) :
    canonicalItems items = some (items.map spelling) := by
  induction items with
  | nil => rfl
  | cons v items ih =>
    rw [canonicalItems, h v List.mem_cons_self, ih fun w hw => h w (.tail _ hw)]
    rfl

theorem canonicalFields_of {fields : JsonObject} (spelling : Json → Bytes)
    (hascii : ∀ f ∈ fields, isASCII f.1)
    (h : ∀ f ∈ fields, canonicalize f.2 = some (spelling f.2)) :
    canonicalFields fields =
      some (fields.map fun f => (f.1, quoted f.1 ++ [0x3a] ++ spelling f.2)) := by
  induction fields with
  | nil => rfl
  | cons f fields ih =>
    obtain ⟨name, v⟩ := f
    rw [canonicalFields, asciiString_eq (hascii _ List.mem_cons_self), h _ List.mem_cons_self,
      ih (fun g hg => hascii g (.tail _ hg)) fun g hg =>
        h g (.tail _ hg)]
    rfl

/-- The canonical form is the text of the sorted value. -/
theorem canonicalize_eq {v : Json} (h : v.InProfile) : canonicalize v = some (spell v.sorted) := by
  induction h with
  | null | bool => rfl
  | number hmax => exact canonicalInteger_eq_some.mpr ⟨_, hmax, rfl, rfl⟩
  | string hascii => exact asciiString_eq hascii
  | array _ ih =>
    rw [canonicalize, canonicalItems_of (fun v => spell v.sorted) ih, Json.sorted, spell,
      spellItems_eq, sortedItems_eq, List.map_map]
    rfl
  | @object fields hnm hascii _ ih =>
    -- the spelled fields are sorted by name, as the fields themselves are
    have hsort := List.map_insertionSort NameLe (fun a b => textBytes a.1 ≤ textBytes b.1)
      (fun f => (f.1, quoted f.1 ++ [0x3a] ++ spell f.2)) (fields.map fun f => (f.1, f.2.sorted))
      fun _ _ _ _ => Iff.rfl
    rw [canonicalize, canonicalFields_of (fun v => spell v.sorted) hascii ih, Json.sorted, spell,
      spellMembers_eq, sortedMembers_eq, Option.map_some, sortedFields]
    rw [List.map_map] at hsort
    have hmap := congrArg (List.map Prod.snd) hsort
    rw [List.map_map] at hmap
    exact congrArg (fun items => some (bracketed 0x7b 0x7d items)) hmap.symm

theorem Json.InProfile.sorted {v : Json} (h : v.InProfile) : v.sorted.InProfile := by
  induction h with
  | null => exact .null
  | bool b => exact .bool b
  | number hmax => exact .number hmax
  | string hascii => exact .string hascii
  | array _ ih =>
    rw [Json.sorted, sortedItems_eq]
    refine .array fun v hv => ?_
    obtain ⟨w, hw, rfl⟩ := List.mem_map.mp hv
    exact ih w hw
  | @object fields hnm hascii _ ih =>
    have hperm := List.perm_insertionSort NameLe (fields.map fun f => (f.1, f.2.sorted))
    have hmem : ∀ g ∈ (fields.map fun f => (f.1, f.2.sorted)).insertionSort NameLe,
        ∃ f ∈ fields, (f.1, f.2.sorted) = g := fun g hg => List.mem_map.mp (hperm.mem_iff.mp hg)
    rw [Json.sorted, sortedMembers_eq]
    refine .object ?_ ?_ ?_
    · rw [(hperm.map Prod.fst).nodup_iff, List.map_map]
      exact hnm
    · intro g hg
      obtain ⟨f, hf, rfl⟩ := hmem g hg
      exact hascii f hf
    · intro g hg
      obtain ⟨f, hf, rfl⟩ := hmem g hg
      exact ih f hf

theorem canonicalItems_eq_some {items : List Json} {texts : List Bytes}
    (h : canonicalItems items = some texts) : ∀ v ∈ items, (canonicalize v).isSome = true := by
  induction items generalizing texts with
  | nil => nofun
  | cons v items ih =>
    obtain ⟨text, htext, h⟩ := Option.bind_eq_some_iff.mp h
    obtain ⟨texts', hrest, -⟩ := Option.bind_eq_some_iff.mp h
    intro w hw
    rcases List.mem_cons.mp hw with rfl | hw
    · rw [htext]
      rfl
    · exact ih hrest w hw

theorem canonicalFields_eq_some {fields : JsonObject} {texts : List (String × Bytes)}
    (h : canonicalFields fields = some texts) :
    ∀ f ∈ fields, isASCII f.1 ∧ (canonicalize f.2).isSome = true := by
  induction fields generalizing texts with
  | nil => nofun
  | cons f fields ih =>
    obtain ⟨name, v⟩ := f
    obtain ⟨key, hkey, h⟩ := Option.bind_eq_some_iff.mp h
    obtain ⟨text, htext, h⟩ := Option.bind_eq_some_iff.mp h
    obtain ⟨texts', hrest, -⟩ := Option.bind_eq_some_iff.mp h
    intro g hg
    rcases List.mem_cons.mp hg with rfl | hg
    · refine ⟨?_, by rw [htext]; rfl⟩
      unfold asciiString at hkey
      split at hkey
      · assumption
      · cases hkey
    · exact ih hrest g hg

/-- A value with distinct fields that has a canonical form is in the profile. -/
theorem Json.DistinctFields.inProfile {v : Json} (h : v.DistinctFields)
    (hsome : (canonicalize v).isSome = true) : v.InProfile := by
  induction h with
  | null => exact .null
  | bool b => exact .bool b
  | number raw =>
    obtain ⟨text, htext⟩ := Option.isSome_iff_exists.mp hsome
    obtain ⟨n, hmax, rfl, -⟩ := canonicalInteger_eq_some.mp htext
    exact .number hmax
  | string s =>
    obtain ⟨text, htext⟩ := Option.isSome_iff_exists.mp hsome
    rw [canonicalize, asciiString] at htext
    split at htext
    · next hascii => exact .string hascii
    · cases htext
  | array _ ih =>
    obtain ⟨text, htext⟩ := Option.isSome_iff_exists.mp hsome
    obtain ⟨texts, htexts, -⟩ := Option.map_eq_some_iff.mp htext
    exact .array fun v hv => ih v hv (canonicalItems_eq_some htexts v hv)
  | object hnm _ ih =>
    obtain ⟨text, htext⟩ := Option.isSome_iff_exists.mp hsome
    obtain ⟨texts, htexts, -⟩ := Option.map_eq_some_iff.mp htext
    have hfields := canonicalFields_eq_some htexts
    exact .object hnm (fun f hf => (hfields f hf).1) fun f hf => ih f hf (hfields f hf).2

def Opens (c : UInt8) : Prop :=
  isSpace c = false ∧ c ≠ 0x3a ∧ c ≠ 0x2c ∧ c ≠ 0x5d ∧ c ≠ 0x7d
  deriving Decidable

theorem isDigit_opens {c : UInt8} (h : isDigit c = true) :
    Opens c ∧ c ≠ 0x5b ∧ c ≠ 0x7b ∧
    c ≠ 0x22 ∧ c ≠ 0x74 ∧ c ≠ 0x66 ∧ c ≠ 0x6e := by
  obtain ⟨hlt, hbyte⟩ := digitByte_of_isDigit h
  have hdig : ∀ d < 10, Opens (digitByte d) ∧ digitByte d ≠ 0x5b ∧ digitByte d ≠ 0x7b ∧
      digitByte d ≠ 0x22 ∧ digitByte d ≠ 0x74 ∧ digitByte d ≠ 0x66 ∧ digitByte d ≠ 0x6e := by
    decide
  rw [← hbyte]
  exact hdig _ hlt

theorem scanScalar_quoted {s : String} (h : isASCII s) (rest : Bytes) :
    scanScalar (quoted s ++ rest) = some (.string s, rest) := by
  rw [quoted_append]
  unfold scanScalar
  simp only [↓reduceIte, scanText_quoted h rest]
  rfl

theorem scanScalar_toString (n : Nat) {rest : Bytes} (h : Follows rest) :
    scanScalar (textBytes (toString n) ++ rest) = some (.number (toString n), rest) := by
  obtain ⟨hdig, hne, -⟩ := toString_digits n
  obtain ⟨c, tail, heq⟩ := List.exists_cons_of_ne_nil hne
  obtain ⟨-, -, -, hquo, htrue, hfalse, hnull⟩ :=
    isDigit_opens (hdig c (by rw [heq]; exact .head _))
  have hscan := scanNumber_toString n h
  rw [heq, List.cons_append] at hscan ⊢
  unfold scanScalar
  simp only
  rw [if_neg hquo, if_neg htrue, if_neg hfalse, if_neg hnull, hscan, ← heq]
  simp only [Option.bind_eq_bind, Option.bind_some, fromUTF8?_textBytes]

/-- How the text of a value in the profile starts. -/
theorem spell_opens {v : Json} (h : v.InProfile) : ∃ c tail, spell v = c :: tail ∧ Opens c := by
  cases h with
  | null => exact ⟨0x6e, _, rfl, by decide⟩
  | bool b =>
    cases b with
    | true => exact ⟨0x74, _, rfl, by decide⟩
    | false => exact ⟨0x66, _, rfl, by decide⟩
  | @number n hmax =>
    obtain ⟨hdig, hne, -⟩ := toString_digits n
    obtain ⟨c, tail, heq⟩ := List.exists_cons_of_ne_nil hne
    refine ⟨c, tail, heq, (isDigit_opens (hdig c ?_)).1⟩
    rw [heq]
    exact .head _
  | string _ => exact ⟨0x22, _, rfl, by decide⟩
  | array _ => exact ⟨0x5b, _, rfl, by decide⟩
  | object _ _ _ => exact ⟨0x7b, _, rfl, by decide⟩

namespace Decoder

variable {c : UInt8} {tail rest : Bytes} {st outer : TokenState} {stack : List TokenState}

theorem skipSpace_of_not {tail : Bytes} (h : isSpace c = false) :
    skipSpace (c :: tail) = c :: tail := by
  unfold skipSpace
  rw [List.dropWhile_cons, if_neg (by simp [h])]

theorem pastSeparator_of_opens (h : Opens c) :
    pastSeparator ⟨c :: tail, st, stack⟩ = some ⟨c :: tail, st, stack⟩ := by
  obtain ⟨hspace, hcolon, hcomma, -⟩ := h
  unfold pastSeparator
  simp only [skipSpace_of_not hspace]
  rw [if_neg hcolon, if_neg hcomma]

theorem more_of_opens (h : Opens c) : more ⟨c :: tail, st, stack⟩ = true := by
  obtain ⟨hspace, -, -, harray, hobj⟩ := h
  unfold more
  simp only [skipSpace_of_not hspace]
  exact decide_eq_true ⟨harray, hobj⟩

theorem more_comma : more ⟨0x2c :: tail, st, stack⟩ = true := rfl

theorem more_close_array : more ⟨0x5d :: tail, st, stack⟩ = false := rfl

theorem more_close_object : more ⟨0x7d :: tail, st, stack⟩ = false := rfl

theorem token_close_array (h : st = .arrayStart ∨ st = .arrayComma) :
    token ⟨0x5d :: rest, st, outer :: stack⟩ =
      some (.delim .closeArray, ⟨rest, outer.afterValue, stack⟩) := by
  rcases h with rfl | rfl <;> rfl

theorem token_close_object (h : st = .objectStart ∨ st = .objectComma) :
    token ⟨0x7d :: rest, st, outer :: stack⟩ =
      some (.delim .closeObject, ⟨rest, outer.afterValue, stack⟩) := by
  rcases h with rfl | rfl <;> rfl

variable {d : Decoder}

theorem token_of_past {e : Decoder} (h : d.pastSeparator = some e) : d.token = e.tokenHere := by
  unfold token
  rw [h, Option.bind_some]

theorem token_open_array (h : d.pastSeparator = some ⟨0x5b :: rest, st, stack⟩)
    (hst : st.AllowsValue) :
    d.token = some (.delim .openArray, ⟨rest, .arrayStart, st :: stack⟩) := by
  rw [token_of_past h]
  unfold tokenHere
  simp only [skipSpace_of_not (show isSpace 0x5b = false by decide), ↓reduceIte, enter, guard,
    if_pos hst]
  rfl

theorem token_open_object (h : d.pastSeparator = some ⟨0x7b :: rest, st, stack⟩)
    (hst : st.AllowsValue) :
    d.token = some (.delim .openObject, ⟨rest, .objectStart, st :: stack⟩) := by
  rw [token_of_past h]
  unfold tokenHere
  simp only [skipSpace_of_not (show isSpace 0x7b = false by decide)]
  rw [if_neg (by decide), if_neg (by decide), if_pos trivial]
  simp only [enter, guard, if_pos hst]
  rfl

/-- A value that is neither an array nor an object. -/
theorem token_scalar {t : Token} (h : d.pastSeparator = some ⟨c :: tail, st, stack⟩)
    (hst : st.AllowsValue) (hc : Opens c) (harray : c ≠ 0x5b) (hobj : c ≠ 0x7b)
    (hscan : scanScalar (c :: tail) = some (t, rest)) :
    d.token = some (t, ⟨rest, st.afterValue, stack⟩) := by
  obtain ⟨hspace, -, -, hcloseArray, hclos⟩ := hc
  have hname : ¬ (c = 0x22 ∧ (st = .objectStart ∨ st = .objectKey)) := by
    rintro ⟨-, rfl | rfl⟩
    · exact absurd hst (by decide)
    · exact absurd hst (by decide)
  rw [token_of_past h]
  unfold tokenHere
  simp only [skipSpace_of_not hspace]
  rw [if_neg harray, if_neg hcloseArray, if_neg hobj, if_neg hclos, if_neg hname]
  simp only [guard, if_pos hst, hscan]
  rfl

theorem token_name {name : String} (h : d.pastSeparator = some ⟨quoted name ++ rest, st, stack⟩)
    (hst : st = .objectStart ∨ st = .objectKey) (hascii : isASCII name) :
    d.token = some (.string name, ⟨rest, .objectColon, stack⟩) := by
  rw [token_of_past h]
  unfold tokenHere
  simp only [quoted_append, skipSpace_of_not (show isSpace 0x22 = false by decide)]
  rw [if_neg (by decide), if_neg (by decide), if_neg (by decide), if_neg (by decide),
    if_pos ⟨trivial, hst⟩, scanText_quoted hascii]
  rfl

end Decoder

section Reading

variable {ε : Type} {R : Reader ε}

/-- With enough fuel, the walk reads the text of a value and stops behind it. -/
def Reads (R : Reader ε) (v : Json) : Prop :=
  ∃ n, ∀ fuel ≥ n, ∀ path d st stack rest, d.pastSeparator = some ⟨spell v ++ rest, st, stack⟩ →
    st.AllowsValue → Follows rest →
    decodeValue R fuel path d = .ok (v, ⟨rest, st.afterValue, stack⟩)

/-- The texts of the items that are left of an array, each after a comma. -/
def laterItems (items : List Json) : Bytes := items.flatMap fun v => 0x2c :: spell v

/-- The texts of the fields that are left of an object, each after a comma. -/
def laterFields (fields : JsonObject) : Bytes :=
  fields.flatMap fun f => 0x2c :: (quoted f.1 ++ 0x3a :: spell f.2)

theorem follows_laterItems (items : List Json) (rest : Bytes) :
    Follows (laterItems items ++ 0x5d :: rest) := by
  cases items with
  | nil =>
    intro c hc
    exact .inr (.inl (Option.some.inj hc).symm)
  | cons v items =>
    intro c hc
    exact .inl (Option.some.inj hc).symm

theorem follows_laterFields (fields : JsonObject) (rest : Bytes) :
    Follows (laterFields fields ++ 0x7d :: rest) := by
  cases fields with
  | nil =>
    intro c hc
    exact .inr (.inr (Option.some.inj hc).symm)
  | cons f fields =>
    intro c hc
    exact .inl (Option.some.inj hc).symm

theorem flatten_intersperse (first : Bytes) (later : List Bytes) :
    ((first :: later).intersperse [0x2c]).flatten =
      first ++ later.flatMap fun text => 0x2c :: text := by
  induction later generalizing first with
  | nil => simp
  | cons text later ih =>
    rw [List.intersperse_cons_cons, List.flatten_cons, List.flatten_cons, ih, List.flatMap_cons]
    rfl

theorem spell_array_cons (v : Json) (items : List Json) (rest : Bytes) :
    spell (.array (v :: items)) ++ rest =
      0x5b :: (spell v ++ (laterItems items ++ 0x5d :: rest)) := by
  rw [spell, spellItems, spellItems_eq, bracketed, flatten_intersperse, laterItems,
    List.flatMap_map]
  simp

theorem spell_object_cons (f : String × Json) (fields : JsonObject) (rest : Bytes) :
    spell (.object (f :: fields)) ++ rest =
      0x7b :: (quoted f.1 ++ 0x3a :: (spell f.2 ++ (laterFields fields ++ 0x7d :: rest))) := by
  rw [spell, spellMembers, spellMembers_eq, bracketed, flatten_intersperse, laterFields,
    List.flatMap_map]
  simp

/-- The rounds of `decodeItems` after the first one. -/
theorem reads_laterItems {items : List Json} (h : ∀ v ∈ items, Reads R v) :
    ∃ n, ∀ fuel ≥ n, ∀ path acc outer stack rest, decodeItems R fuel path acc
        ⟨laterItems items ++ 0x5d :: rest, .arrayComma, outer :: stack⟩ =
        .ok (.array (acc ++ items), ⟨rest, outer.afterValue, stack⟩) := by
  induction items with
  | nil =>
    refine ⟨1, fun fuel hfuel path acc outer stack rest => ?_⟩
    obtain ⟨fuel, rfl⟩ := Nat.exists_eq_succ_of_ne_zero (by omega : fuel ≠ 0)
    rw [List.append_nil]
    show decodeItems R (fuel + 1) path acc ⟨0x5d :: rest, .arrayComma, outer :: stack⟩ = _
    rw [decodeItems, Decoder.more_close_array, if_neg (by decide),
      Decoder.token_close_array (.inr rfl)]
  | cons v items ih =>
    obtain ⟨m, hv⟩ := h v (.head _)
    obtain ⟨n, hrest⟩ := ih fun w hw => h w (.tail _ hw)
    refine ⟨max m n + 1, fun fuel hfuel path acc outer stack rest => ?_⟩
    obtain ⟨fuel, rfl⟩ := Nat.exists_eq_succ_of_ne_zero (by omega : fuel ≠ 0)
    have hinput : laterItems (v :: items) ++ 0x5d :: rest =
        0x2c :: (spell v ++ (laterItems items ++ 0x5d :: rest)) := by
      simp [laterItems]
    have hval := hv fuel (by omega) (arrayPath path acc.length)
      ⟨0x2c :: (spell v ++ (laterItems items ++ 0x5d :: rest)), .arrayComma, outer :: stack⟩
      .arrayValue (outer :: stack) (laterItems items ++ 0x5d :: rest) rfl (by decide)
      (follows_laterItems items rest)
    rw [hinput, decodeItems, Decoder.more_comma, if_pos rfl, hval]
    show decodeItems R fuel path (acc ++ [v])
      ⟨laterItems items ++ 0x5d :: rest, .arrayComma, outer :: stack⟩ = _
    rw [hrest fuel (by omega), List.append_assoc]
    rfl

/-- The rounds of `decodeMembers` after the first one. -/
theorem reads_laterFields {fields : JsonObject} (hascii : ∀ f ∈ fields, isASCII f.1)
    (h : ∀ f ∈ fields, Reads R f.2) :
    ∃ n, ∀ fuel ≥ n, ∀ path acc outer stack rest, ((acc ++ fields).map Prod.fst).Nodup →
      decodeMembers R fuel path acc
        ⟨laterFields fields ++ 0x7d :: rest, .objectComma, outer :: stack⟩ =
        .ok (.object (acc ++ fields), ⟨rest, outer.afterValue, stack⟩) := by
  induction fields with
  | nil =>
    refine ⟨1, fun fuel hfuel path acc outer stack rest _ => ?_⟩
    obtain ⟨fuel, rfl⟩ := Nat.exists_eq_succ_of_ne_zero (by omega : fuel ≠ 0)
    rw [List.append_nil]
    show decodeMembers R (fuel + 1) path acc ⟨0x7d :: rest, .objectComma, outer :: stack⟩ = _
    rw [decodeMembers, Decoder.more_close_object, if_neg (by decide),
      Decoder.token_close_object (.inr rfl)]
  | cons f fields ih =>
    obtain ⟨m, hv⟩ := h f (.head _)
    obtain ⟨n, hrest⟩ := ih (fun g hg => hascii g (.tail _ hg)) fun g hg =>
      h g (.tail _ hg)
    refine ⟨max m n + 1, fun fuel hfuel path acc outer stack rest hnm => ?_⟩
    obtain ⟨fuel, rfl⟩ := Nat.exists_eq_succ_of_ne_zero (by omega : fuel ≠ 0)
    have hinput : laterFields (f :: fields) ++ 0x7d :: rest =
        0x2c :: (quoted f.1 ++ 0x3a :: (spell f.2 ++ (laterFields fields ++ 0x7d :: rest))) := by
      simp [laterFields]
    have hname := Decoder.token_name (d := ⟨0x2c :: (quoted f.1 ++ 0x3a ::
      (spell f.2 ++ (laterFields fields ++ 0x7d :: rest))), .objectComma, outer :: stack⟩)
      rfl (.inr rfl) (hascii f (.head _))
    have hnew : ¬ HasField acc f.1 := by
      intro hmem
      rw [List.map_append, List.nodup_append] at hnm
      exact hnm.2.2 _ hmem _ List.mem_cons_self rfl
    have hval := hv fuel (by omega) (objectPath path "<member>")
      ⟨0x3a :: (spell f.2 ++ (laterFields fields ++ 0x7d :: rest)), .objectColon, outer :: stack⟩
      .objectValue (outer :: stack) (laterFields fields ++ 0x7d :: rest) rfl (by decide)
      (follows_laterFields fields rest)
    rw [hinput, decodeMembers, Decoder.more_comma, if_pos rfl, hname]
    simp only
    rw [if_neg hnew, hval]
    show decodeMembers R fuel path (acc ++ [(f.1, f.2)])
      ⟨laterFields fields ++ 0x7d :: rest, .objectComma, outer :: stack⟩ = _
    rw [hrest fuel (by omega) _ _ _ _ _ (by rw [List.append_assoc]; exact hnm), List.append_assoc]
    rfl

theorem reads_array {items : List Json} (hprofile : ∀ v ∈ items, v.InProfile)
    (h : ∀ v ∈ items, Reads R v) : Reads R (.array items) := by
  cases items with
  | nil =>
    refine ⟨2, fun fuel hfuel path d st stack rest hd hst _ => ?_⟩
    obtain ⟨fuel, rfl⟩ := Nat.exists_eq_add_of_le' hfuel
    have hopen : d.token = some (.delim .openArray, ⟨0x5d :: rest, .arrayStart, st :: stack⟩) :=
      Decoder.token_open_array hd hst
    rw [decodeValue, hopen]
    show decodeItems R (fuel + 1) path [] ⟨0x5d :: rest, .arrayStart, st :: stack⟩ = _
    rw [decodeItems, Decoder.more_close_array, if_neg (by decide),
      Decoder.token_close_array (.inl rfl)]
  | cons v items =>
    obtain ⟨c, tail, hspell, hc⟩ := spell_opens (hprofile v (.head _))
    obtain ⟨m, hv⟩ := h v (.head _)
    obtain ⟨n, hlat⟩ := reads_laterItems fun w hw => h w (.tail _ hw)
    refine ⟨max m n + 2, fun fuel hfuel path d st stack rest hd hst _ => ?_⟩
    obtain ⟨fuel, rfl⟩ := Nat.exists_eq_add_of_le' (by omega : 2 ≤ fuel)
    rw [spell_array_cons] at hd
    have hopen := Decoder.token_open_array hd hst
    rw [hspell] at hopen
    have hpast : Decoder.pastSeparator
        ⟨c :: tail ++ (laterItems items ++ 0x5d :: rest), .arrayStart, st :: stack⟩ =
        some ⟨spell v ++ (laterItems items ++ 0x5d :: rest), .arrayStart, st :: stack⟩ := by
      rw [hspell]
      exact Decoder.pastSeparator_of_opens hc
    have hval := hv fuel (by omega) (arrayPath path 0) _ _ _ _ hpast (by decide)
      (follows_laterItems items rest)
    rw [decodeValue, hopen]
    show decodeItems R (fuel + 1) path [] _ = _
    rw [decodeItems, List.cons_append, Decoder.more_of_opens hc, if_pos rfl, ← List.cons_append,
      List.length_nil, hval]
    exact hlat fuel (by omega) path [v] st stack rest

theorem reads_object {fields : JsonObject} (hnm : (fields.map Prod.fst).Nodup)
    (hascii : ∀ f ∈ fields, isASCII f.1) (h : ∀ f ∈ fields, Reads R f.2) :
    Reads R (.object fields) := by
  cases fields with
  | nil =>
    refine ⟨2, fun fuel hfuel path d st stack rest hd hst _ => ?_⟩
    obtain ⟨fuel, rfl⟩ := Nat.exists_eq_add_of_le' hfuel
    have hopen : d.token = some (.delim .openObject, ⟨0x7d :: rest, .objectStart, st :: stack⟩) :=
      Decoder.token_open_object hd hst
    rw [decodeValue, hopen]
    show decodeMembers R (fuel + 1) path [] ⟨0x7d :: rest, .objectStart, st :: stack⟩ = _
    rw [decodeMembers, Decoder.more_close_object, if_neg (by decide),
      Decoder.token_close_object (.inl rfl)]
  | cons f fields =>
    obtain ⟨m, hv⟩ := h f (.head _)
    obtain ⟨n, hlat⟩ := reads_laterFields (fun g hg => hascii g (.tail _ hg))
      fun g hg => h g (.tail _ hg)
    refine ⟨max m n + 2, fun fuel hfuel path d st stack rest hd hst _ => ?_⟩
    obtain ⟨fuel, rfl⟩ := Nat.exists_eq_add_of_le' (by omega : 2 ≤ fuel)
    rw [spell_object_cons] at hd
    have hopen := Decoder.token_open_object hd hst
    have hquo : Opens 0x22 := by decide
    have hpast : Decoder.pastSeparator ⟨quoted f.1 ++ 0x3a ::
        (spell f.2 ++ (laterFields fields ++ 0x7d :: rest)), .objectStart, st :: stack⟩ =
        some ⟨quoted f.1 ++ 0x3a :: (spell f.2 ++ (laterFields fields ++ 0x7d :: rest)),
          .objectStart, st :: stack⟩ := Decoder.pastSeparator_of_opens hquo
    have hname := Decoder.token_name hpast (.inl rfl) (hascii f (.head _))
    have hmore : Decoder.more ⟨quoted f.1 ++ 0x3a ::
        (spell f.2 ++ (laterFields fields ++ 0x7d :: rest)), .objectStart, st :: stack⟩ = true :=
      Decoder.more_of_opens hquo
    have hval := hv fuel (by omega) (objectPath path "<member>")
      ⟨0x3a :: (spell f.2 ++ (laterFields fields ++ 0x7d :: rest)), .objectColon, st :: stack⟩
      .objectValue (st :: stack) (laterFields fields ++ 0x7d :: rest) rfl (by decide)
      (follows_laterFields fields rest)
    rw [decodeValue, hopen]
    show decodeMembers R (fuel + 1) path [] _ = _
    rw [decodeMembers, hmore, if_pos rfl, hname]
    simp only
    rw [if_neg (by simp [HasField]), hval]
    exact hlat fuel (by omega) path [(f.1, f.2)] st stack rest hnm

theorem reads_scalar {v : Json} {t : Token} {c : UInt8} {tail : Bytes} (hspell : spell v = c :: tail)
    (hc : Opens c) (harray : c ≠ 0x5b) (hobj : c ≠ 0x7b)
    (hscan : ∀ rest, Follows rest → scanScalar (c :: tail ++ rest) = some (t, rest))
    (hdec : ∀ fuel path d e, Decoder.token d = some (t, e) →
      decodeValue R (fuel + 1) path d = .ok (v, e)) : Reads R v := by
  refine ⟨1, fun fuel hfuel path d st stack rest hd hst hrest => ?_⟩
  obtain ⟨fuel, rfl⟩ := Nat.exists_eq_add_of_le' hfuel
  rw [hspell] at hd
  exact hdec fuel path d _ (Decoder.token_scalar hd hst hc harray hobj (hscan rest hrest))

/-- The walk reads the text of every value in the profile, if its reader accepts the canonical
integers. -/
theorem reads {v : Json}
    (hnumber : ∀ n ≤ maxSafeInteger, ∀ path, R.number (toString n) path = .ok ())
    (h : v.InProfile) : Reads R v := by
  induction h with
  | null =>
    refine reads_scalar (t := .null) (c := 0x6e) rfl (by decide) (by decide) (by decide) ?_ ?_
    · intro rest _
      rfl
    · intro fuel path d e htok
      rw [decodeValue, htok]
  | bool b =>
    cases b with
    | true =>
      refine reads_scalar (t := .bool true) (c := 0x74) rfl (by decide) (by decide) (by decide) ?_ ?_
      · intro rest _
        rfl
      · intro fuel path d e htok
        rw [decodeValue, htok]
    | false =>
      refine reads_scalar (t := .bool false) (c := 0x66) rfl (by decide) (by decide) (by decide) ?_ ?_
      · intro rest _
        rfl
      · intro fuel path d e htok
        rw [decodeValue, htok]
  | @number n hmax =>
    obtain ⟨hdig, hne, -⟩ := toString_digits n
    obtain ⟨c, tail, heq⟩ := List.exists_cons_of_ne_nil hne
    obtain ⟨hopens, harray, hobj, -⟩ :=
      isDigit_opens (hdig c (by rw [heq]; exact .head _))
    refine reads_scalar (t := .number (toString n)) heq hopens harray hobj ?_ ?_
    · intro rest hrest
      rw [← heq]
      exact scanScalar_toString n hrest
    · intro fuel path d e htok
      rw [decodeValue, htok]
      simp only [hnumber n hmax]
      rfl
  | @string s hascii =>
    refine reads_scalar (t := .string s) (c := 0x22) rfl (by decide) (by decide) (by decide) ?_ ?_
    · intro rest _
      exact scanScalar_quoted hascii rest
    · intro fuel path d e htok
      rw [decodeValue, htok]
  | array hprofile ih => exact reads_array hprofile ih
  | object hnm hascii _ ih => exact reads_object hnm hascii ih

/-- The walk over a canonical text reads the value and leaves nothing. -/
theorem decodeFirst_spell {v : Json}
    (hnumber : ∀ n ≤ maxSafeInteger, ∀ path, R.number (toString n) path = .ok ())
    (h : v.InProfile) : decodeFirst R (spell v) = .ok (v, ⟨[], .topValue, []⟩) := by
  obtain ⟨n, hreads⟩ := reads hnumber h
  obtain ⟨c, tail, hspell, hc⟩ := spell_opens h
  have hpast : (Decoder.start (spell v)).pastSeparator = some ⟨spell v ++ [], .topValue, []⟩ := by
    rw [List.append_nil, Decoder.start, hspell]
    exact Decoder.pastSeparator_of_opens hc
  have hval := hreads (max n (2 * (spell v).length + 1)) (le_max_left _ _) "$" _ _ _ _ hpast
    (.inl rfl) nofun
  -- the bound on the recursion is beside the point
  have hbd : decodeValue R (2 * (spell v).length + 1) "$" (.start (spell v)) =
      decodeValue R (max n (2 * (spell v).length + 1)) "$" (.start (spell v)) :=
    (walk_fuel _).1 _ _ _ (Nat.lt_succ_self _)
      (lt_of_lt_of_le (Nat.lt_succ_self _) (le_max_right _ _))
  exact hbd.trans hval

end Reading

theorem spell_array_nil (rest : Bytes) : spell (.array []) ++ rest = 0x5b :: 0x5d :: rest := rfl

theorem spell_object_nil (rest : Bytes) : spell (.object []) ++ rest = 0x7b :: 0x7d :: rest := rfl

theorem spell_ascii {v : Json} (h : v.InProfile) : ∀ c ∈ spell v, c < 0x80 := by
  induction h with
  | null => decide +kernel
  | bool b => cases b <;> decide +kernel
  | @number n hmax =>
    intro c hc
    obtain ⟨-, hle⟩ := isDigit_iff.mp ((toString_digits n).1 c hc)
    exact UInt8.lt_of_le_of_lt hle (by decide)
  | string hascii => exact quoted_ascii hascii
  | @array items _ ih =>
    cases items with
    | nil => decide +kernel
    | cons v items =>
      have hlat : ∀ c ∈ laterItems items, c < 0x80 := by
        intro c hc
        obtain ⟨w, hw, hc⟩ := List.mem_flatMap.mp hc
        rcases List.mem_cons.mp hc with rfl | hc
        · decide
        · exact ih w (.tail _ hw) c hc
      rw [← List.append_nil (spell _), spell_array_cons]
      simp only [List.forall_mem_cons, List.forall_mem_append]
      exact ⟨by decide, ih v (.head _), hlat, by decide, nofun⟩
  | @object fields _ hascii _ ih =>
    cases fields with
    | nil => decide +kernel
    | cons f fields =>
      have hlat : ∀ c ∈ laterFields fields, c < 0x80 := by
        intro c hc
        obtain ⟨g, hg, hc⟩ := List.mem_flatMap.mp hc
        have hg := List.mem_cons_of_mem f hg
        simp only [List.mem_cons, List.mem_append] at hc
        rcases hc with rfl | hc | rfl | hc
        · decide
        · exact quoted_ascii (hascii g hg) c hc
        · decide
        · exact ih g hg c hc
      rw [← List.append_nil (spell _), spell_object_cons]
      simp only [List.forall_mem_cons, List.forall_mem_append]
      exact ⟨by decide, quoted_ascii (hascii f (.head _)), by decide,
        ih f (.head _), hlat, by decide, nofun⟩

theorem utf8Valid_of_ascii {raw : Bytes} (h : ∀ c ∈ raw, c < 0x80) : utf8Valid raw := by
  have hencode : (raw.map fun c => Char.ofNat c.toNat).flatMap String.utf8EncodeChar = raw := by
    induction raw with
    | nil => rfl
    | cons c raw ih =>
      rw [List.map_cons, List.flatMap_cons, ih fun b hb => h b (.tail _ hb)]
      have hc : String.utf8EncodeChar (Char.ofNat c.toNat) = [c] :=
        encodeRune_ascii (h c (.head _))
      rw [hc]
      rfl
  refine ⟨raw.map fun c => Char.ofNat c.toNat, ?_⟩
  rw [List.utf8Encode, hencode]
  exact ByteArray.ext (by simp)

section Strings

open Schema

theorem validateStrings_plain {text : Bytes} (h : ∀ c ∈ text, c ≠ 0x22) (rest : Bytes) :
    validateStrings false (text ++ rest) = validateStrings false rest := by
  induction text with
  | nil => rfl
  | cons c text ih =>
    rw [List.cons_append, validateStrings, if_pos rfl, if_neg (h c List.mem_cons_self)]
    exact ih fun b hb => h b (.tail _ hb)

theorem validateStrings_byte {c : UInt8} (h : c ≠ 0x22) (rest : Bytes) :
    validateStrings false (c :: rest) = validateStrings false rest := by
  rw [validateStrings, if_pos rfl, if_neg h]

theorem validateStrings_laterItems {items : List Json}
    (h : ∀ v ∈ items, ∀ rest, validateStrings false (spell v ++ rest) = validateStrings false rest)
    (rest : Bytes) :
    validateStrings false (laterItems items ++ rest) = validateStrings false rest := by
  induction items with
  | nil => rfl
  | cons v items ih =>
    rw [laterItems, List.flatMap_cons, List.append_assoc, List.cons_append,
      validateStrings_byte (by decide), h v (.head _)]
    exact ih fun w hw => h w (.tail _ hw)

theorem validateStrings_laterFields {fields : JsonObject} (hascii : ∀ f ∈ fields, isASCII f.1)
    (h : ∀ f ∈ fields, ∀ rest,
      validateStrings false (spell f.2 ++ rest) = validateStrings false rest) (rest : Bytes) :
    validateStrings false (laterFields fields ++ rest) = validateStrings false rest := by
  induction fields with
  | nil => rfl
  | cons f fields ih =>
    rw [laterFields, List.flatMap_cons, List.append_assoc, List.cons_append,
      validateStrings_byte (by decide), List.append_assoc,
      validateStrings_quoted (hascii f (.head _)), List.cons_append,
      validateStrings_byte (by decide), h f (.head _)]
    exact ih (fun g hg => hascii g (.tail _ hg)) fun g hg =>
      h g (.tail _ hg)

theorem validateStrings_spell {v : Json} (h : v.InProfile) (rest : Bytes) :
    validateStrings false (spell v ++ rest) = validateStrings false rest := by
  induction h generalizing rest with
  | null => exact validateStrings_plain (by decide +kernel) rest
  | bool b => cases b <;> exact validateStrings_plain (by decide +kernel) rest
  | @number n hmax =>
    refine validateStrings_plain (fun c hc => ?_) rest
    exact (isDigit_opens ((toString_digits n).1 c hc)).2.2.2.1
  | string hascii => exact validateStrings_quoted hascii rest
  | @array items _ ih =>
    cases items with
    | nil =>
      rw [spell_array_nil, validateStrings_byte (by decide), validateStrings_byte (by decide)]
    | cons v items =>
      rw [spell_array_cons, validateStrings_byte (by decide), ih v List.mem_cons_self,
        validateStrings_laterItems fun w hw => ih w (.tail _ hw),
        validateStrings_byte (by decide)]
  | @object fields _ hascii _ ih =>
    cases fields with
    | nil =>
      rw [spell_object_nil, validateStrings_byte (by decide), validateStrings_byte (by decide)]
    | cons f fields =>
      rw [spell_object_cons, validateStrings_byte (by decide),
        validateStrings_quoted (hascii f (.head _)), validateStrings_byte (by decide),
        ih f (.head _),
        validateStrings_laterFields (fun g hg => hascii g (.tail _ hg)) fun g hg =>
          ih g (.tail _ hg), validateStrings_byte (by decide)]

end Strings

theorem parseStrictJSON_spell {v : Json} (h : v.InProfile) : parseStrictJSON (spell v) = .ok v := by
  unfold parseStrictJSON
  rw [if_neg (not_not.mpr (utf8Valid_of_ascii (spell_ascii h))),
    decodeFirst_spell (fun _ _ _ => rfl) h]
  rfl

theorem validateJSONNumber_toString {n : Nat} (hmax : n ≤ maxSafeInteger) (path : String) :
    Schema.validateJSONNumber (toString n) path = .ok () := by
  obtain ⟨hdig, hne, hzero⟩ := toString_digits n
  have hminus : (textBytes (toString n)).head? ≠ some 0x2d := by
    intro hminus
    cases hdig _ (List.mem_of_head? hminus)
  unfold Schema.validateJSONNumber
  rw [if_neg hminus]
  simp only
  rw [if_neg, if_neg, decimal_toString]
  · simp only
    rw [if_neg (by omega)]
  · rintro ⟨hhead, hlen⟩
    obtain rfl := hzero hhead
    exact hlen rfl
  · rintro (hemp | hnega | hnil)
    · exact hne (by rw [hemp]; rfl)
    · exact hminus (by rw [hnega]; rfl)
    · exact hne hnil

theorem parse_spell {v : Json} (h : v.InProfile) : Schema.parse (spell v) = .ok v := by
  have hascii := spell_ascii h
  have hbom : ¬ [0xef, 0xbb, 0xbf] <+: spell v := by
    intro hbom
    exact absurd (hascii 0xef (hbom.subset (.head _))) (by decide)
  have hstrings : Schema.validateJSONStringEncoding (spell v) = true := by
    have hspell := validateStrings_spell h []
    rw [List.append_nil] at hspell
    unfold Schema.validateJSONStringEncoding
    rw [hspell, Schema.validateStrings]
    rfl
  unfold Schema.parse
  rw [if_neg hbom, if_neg (not_not.mpr (utf8Valid_of_ascii hascii)), if_neg (by simp [hstrings]),
    decodeFirst_spell (fun _ hmax path => validateJSONNumber_toString hmax path) h]
  rfl

theorem parseStrictJSON_distinct {raw : Bytes} {v : Json} (h : parseStrictJSON raw = .ok v) :
    v.DistinctFields := by
  unfold parseStrictJSON at h
  split at h
  · cases h
  obtain ⟨⟨value, d⟩, hdec, h⟩ := Except.bind_eq_ok.mp h
  have hwalked := decodeValue_walked hdec
  simp only at h
  split at h
  · cases h
    exact hwalked.2
  · split at h <;> cases h

theorem parse_distinct {raw : Bytes} {v : Json} (h : Schema.parse raw = .ok v) :
    v.DistinctFields := by
  unfold Schema.parse at h
  split at h
  · cases h
  split at h
  · cases h
  split at h
  · cases h
  obtain ⟨⟨value, d⟩, hdec, h⟩ := Except.bind_eq_ok.mp h
  have hwalked := decodeValue_walked hdec
  simp only at h
  split at h
  · cases h
    exact hwalked.2
  · cases h

/-- A value with distinct fields and the canonical text `raw`: both parsers read it back. -/
theorem parsers_of_canonical {raw : Bytes} {v : Json} (hdist : v.DistinctFields)
    (hcan : canonicalize v = some raw) :
    parseStrictJSON raw = .ok v.sorted ∧ Schema.parse raw = .ok v.sorted := by
  have hprofile : v.InProfile := hdist.inProfile (by rw [hcan]; rfl)
  obtain rfl : spell v.sorted = raw :=
    Option.mem_unique (canonicalize_eq hprofile) hcan
  exact ⟨parseStrictJSON_spell hprofile.sorted, parse_spell hprofile.sorted⟩

theorem Json.InProfile.distinct {v : Json} (h : v.InProfile) : v.DistinctFields := by
  induction h with
  | null => exact .null
  | bool b => exact .bool b
  | number _ => exact .number _
  | string _ => exact .string _
  | array _ ih => exact .array ih
  | object hnm _ _ ih => exact .object hnm ih

/-- Canonical texts: a value of the profile has one, both parsers read it back up to the order of
fields, different values have different ones, and a text is canonical for one parser exactly if it
is for the other, with the same value. -/
theorem canonical_texts_agree :
    (∀ v : Json, v.InProfile → ∃ raw, canonicalize v = some raw ∧
      parseStrictJSON raw = .ok v.sorted ∧ Schema.parse raw = .ok v.sorted) ∧
    (∀ v w : Json, v.InProfile → w.InProfile → canonicalize v = canonicalize w →
      v.sorted = w.sorted) ∧
    ∀ raw v, (parseStrictJSON raw = .ok v ∧ canonicalize v = some raw) ↔
      (Schema.parse raw = .ok v ∧ canonicalize v = some raw) := by
  refine ⟨?_, ?_, ?_⟩
  · intro v hv
    exact ⟨_, canonicalize_eq hv, parsers_of_canonical hv.distinct (canonicalize_eq hv)⟩
  · intro v w hv hw heq
    have hparseV := (parsers_of_canonical hv.distinct (canonicalize_eq hv)).1
    have hparseW := (parsers_of_canonical hw.distinct (heq ▸ canonicalize_eq hv)).1
    exact Except.ok.inj (hparseV.symm.trans hparseW)
  · intro raw v
    constructor
    · rintro ⟨hparse, hcan⟩
      obtain ⟨hstrict, hschema⟩ := parsers_of_canonical (parseStrictJSON_distinct hparse) hcan
      rw [← Except.ok.inj (hparse.symm.trans hstrict)] at hschema
      exact ⟨hschema, hcan⟩
    · rintro ⟨hparse, hcan⟩
      obtain ⟨hstrict, hschema⟩ := parsers_of_canonical (parse_distinct hparse) hcan
      rw [← Except.ok.inj (hparse.symm.trans hschema)] at hstrict
      exact ⟨hstrict, hcan⟩

/-- Two fields, not in the order of their names. -/
theorem canonical_texts_agree_sample :
    ∃ raw, canonicalize (.object [("b", .null), ("a", .bool true)]) = some raw ∧
      parseStrictJSON raw = .ok (.object [("a", .bool true), ("b", .null)]) ∧
      Schema.parse raw = .ok (.object [("a", .bool true), ("b", .null)]) := by
  refine canonical_texts_agree.1 (.object [("b", .null), ("a", .bool true)])
    (.object (by decide +kernel) (by decide +kernel) fun f hf => ?_)
  rcases List.mem_cons.mp hf with rfl | hf
  · exact .null
  · obtain rfl := List.mem_singleton.mp hf
    exact .bool true

end NotificationServer.Trust
