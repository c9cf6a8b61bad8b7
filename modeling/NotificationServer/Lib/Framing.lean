import Mathlib.Algebra.GroupWithZero.Nat
import Mathlib.Data.List.Induction
import Mathlib.Tactic.Common

/-!
# Length-prefixed encodings

An encoding *spells* a view of its argument when the view can be read off the
front of any stream that starts with the encoding, and the rest of the stream
with it.  Spellings compose by concatenation and under an optional flag, so a
record written field after field spells the tuple of what its fields spell,
whatever follows it.
-/

namespace Framing

/-- Numbers with the same last `n` digits agree modulo the `n`-th power of the base. -/
theorem mod_pow_eq_of_digits {base a b n : Nat}
    (h : ∀ k < n, a / base ^ k % base = b / base ^ k % base) : a % base ^ n = b % base ^ n := by
  induction n with
  | zero => simp [Nat.mod_one]
  | succ n ih =>
    rw [Nat.mod_pow_succ, Nat.mod_pow_succ, ih fun k hk => h k (by omega), h n (by omega)]

/-- The last `width` base-256 digits of a number, most significant first. -/
def bigEndian (width n : Nat) : List UInt8 :=
  (List.range width).map fun i => UInt8.ofNat (n / 256 ^ (width - 1 - i) % 256)

@[simp] theorem bigEndian_length (width n : Nat) : (bigEndian width n).length = width := by
  simp [bigEndian]

theorem bigEndian_injective {width m n : Nat} (hm : m < 256 ^ width) (hn : n < 256 ^ width)
    (h : bigEndian width m = bigEndian width n) : m = n := by
  have hdig : ∀ k < width, m / 256 ^ k % 256 = n / 256 ^ k % 256 := by
    intro k hk
    have hbytes := List.map_inj_left.mp h (width - 1 - k) (List.mem_range.mpr (by omega))
    have hnats := congrArg UInt8.toNat hbytes
    rw [show width - 1 - (width - 1 - k) = k by omega] at hnats
    rw [UInt8.toNat_ofNat', UInt8.toNat_ofNat'] at hnats
    omega
  have hmod := mod_pow_eq_of_digits hdig
  rwa [Nat.mod_eq_of_lt hm, Nat.mod_eq_of_lt hn] at hmod

/-- The number that base-256 digits spell, most significant first. -/
def ofBigEndian (digits : List UInt8) : Nat := digits.foldl (fun n b => 256 * n + b.toNat) 0

theorem bigEndian_succ (width n : Nat) :
    bigEndian (width + 1) n = bigEndian width (n / 256) ++ [UInt8.ofNat (n % 256)] := by
  unfold bigEndian
  rw [List.range_succ, List.map_append, List.map_singleton]
  congr 1
  · apply List.map_congr_left
    intro i hi
    have hlt : i < width := List.mem_range.mp hi
    rw [Nat.div_div_eq_div_mul, ← Nat.pow_succ', show width + 1 - 1 - i = width - 1 - i + 1 by omega]
  · simp

theorem ofBigEndian_append (digits : List UInt8) (b : UInt8) :
    ofBigEndian (digits ++ [b]) = 256 * ofBigEndian digits + b.toNat := by
  simp [ofBigEndian]

theorem ofBigEndian_bigEndian (width n : Nat) :
    ofBigEndian (bigEndian width n) = n % 256 ^ width := by
  induction width generalizing n with
  | zero => simp [bigEndian, ofBigEndian, Nat.mod_one]
  | succ width ih =>
    have hdigit : (UInt8.ofNat (n % 256)).toNat = n % 256 := by
      rw [UInt8.toNat_ofNat']
      omega
    rw [bigEndian_succ, ofBigEndian_append, ih, hdigit, Nat.pow_succ', Nat.mod_mul, Nat.add_comm]

theorem bigEndian_ofBigEndian (digits : List UInt8) :
    bigEndian digits.length (ofBigEndian digits) = digits := by
  induction digits using List.reverseRecOn with
  | nil => rfl
  | append_singleton digits b ih =>
    have hb : b.toNat < 256 := b.toNat_lt
    have hquot : (256 * ofBigEndian digits + b.toNat) / 256 = ofBigEndian digits := by omega
    have hrema : (256 * ofBigEndian digits + b.toNat) % 256 = b.toNat := by omega
    rw [List.length_append, List.length_singleton, bigEndian_succ, ofBigEndian_append, hquot,
      hrema, ih, UInt8.ofNat_toNat]

/-- A value behind its length in eight bytes. -/
def frame (value : List UInt8) : List UInt8 := bigEndian 8 value.length ++ value

/-- `encode` spells `view`: two streams that start with encodings are equal exactly when the views
are equal and the streams go on alike. -/
def Spells {α β γ : Type} (encode : α → List β) (view : α → γ) : Prop :=
  ∀ a b xs ys, encode a ++ xs = encode b ++ ys ↔ view a = view b ∧ xs = ys

namespace Spells

variable {α β γ δ : Type} {encode encode' : α → List β} {view : α → γ} {view' : α → δ}

theorem eq_iff (h : Spells encode view) (a b : α) : encode a = encode b ↔ view a = view b := by
  have hstreams := h a b [] []
  rwa [List.append_nil, List.append_nil, and_iff_left rfl] at hstreams

/-- A framed value is read off by its length. -/
theorem frame {value : α → List UInt8} (hbd : ∀ a, (value a).length < 2 ^ 64) :
    Spells (fun a => Framing.frame (value a)) value := by
  intro a b xs ys
  constructor
  · intro h
    simp only [Framing.frame, List.append_assoc] at h
    obtain ⟨hlengths, hrest⟩ := List.append_inj h (by simp)
    have hsize : 256 ^ 8 = 2 ^ 64 := by decide
    have hlen : (value a).length = (value b).length :=
      bigEndian_injective (hsize ▸ hbd a) (hsize ▸ hbd b) hlengths
    exact List.append_inj hrest hlen
  · rintro ⟨hval, rfl⟩
    simp only [hval]

/-- A value in front of a mark that it does not hold. -/
theorem terminated [DecidableEq β] {value : α → List β} {mark : β} (h : ∀ a, mark ∉ value a) :
    Spells (fun a => value a ++ [mark]) value := by
  have hread : ∀ a xs, (value a ++ mark :: xs).takeWhile (· ≠ mark) = value a := by
    intro a xs
    have hpass : ∀ b ∈ value a, decide (b ≠ mark) = true := by
      intro b hb
      exact decide_eq_true fun he => h a (he ▸ hb)
    rw [List.takeWhile_append_of_pos hpass, List.takeWhile_cons_of_neg (by simp), List.append_nil]
  intro a b xs ys
  rw [List.append_assoc, List.append_assoc]
  constructor
  · intro he
    have hval : value a = value b := by
      rw [← hread a xs, ← hread b ys]
      exact congrArg _ he
    rw [hval] at he
    exact ⟨hval, (List.cons.inj (List.append_cancel_left he)).2⟩
  · rintro ⟨hval, rfl⟩
    rw [hval]

/-- What is spelled may be read as anything that says the same. -/
theorem read (h : Spells encode view) (hview : ∀ a b, view a = view b ↔ view' a = view' b) :
    Spells encode view' := by
  intro a b xs ys
  rw [h a b xs ys, hview a b]

theorem append (h : Spells encode view) (h' : Spells encode' view') :
    Spells (fun a => encode a ++ encode' a) (fun a => (view a, view' a)) := by
  intro a b xs ys
  simp only [List.append_assoc]
  rw [h a b, h' a b, Prod.mk.injEq, and_assoc]

theorem comp {ι : Type} (h : Spells encode view) (f : ι → α) :
    Spells (fun i => encode (f i)) (fun i => view (f i)) :=
  fun i j xs ys => h (f i) (f j) xs ys

/-- An optional value behind the flag that tells whether it is there. -/
theorem option {flag : Bool → List β} (hflag : Spells flag fun value => value)
    (h : Spells encode view) :
    Spells (fun o : Option α => o.elim (flag false) fun a => flag true ++ encode a)
      (fun o => o.map view) := by
  intro a b xs ys
  cases a with
  | none =>
    cases b with
    | none => simp [hflag false false]
    | some b => simp [List.append_assoc, hflag false true]
  | some a =>
    cases b with
    | none => simp [List.append_assoc, hflag true false]
    | some b => simp [List.append_assoc, hflag true true, h a b]

end Spells

end Framing
