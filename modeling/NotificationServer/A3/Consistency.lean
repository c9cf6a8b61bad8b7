import NotificationServer.Lib.Merkle
import NotificationServer.Lib.Transaction
import NotificationServer.Vault.Basic

/-!
# Consistency of two tree heads

`verifyConsistency` (`a3trust/witness.go`) rebuilds the old and the new root from
one list of hashes, taking the old root itself at the left edge.  SHA-256 is the
parameter `hash`, over the inputs of `Merkle.Input`.

A run that rebuilds the root of a tree takes the hashes of the proof from that
tree, and rebuilds as old root that of the tree's first leaves.
-/

namespace NotificationServer.A3

open Merkle

variable {value : Nat}

/-- How `verify` ends without a result: it fails, or the loop of `largestPowerOfTwoLessThan` does
not end. -/
inductive Stop
  | fails
  | loops
  deriving DecidableEq

/-- The loop of `largestPowerOfTwoLessThan` on `uint64`, in `fuel` rounds; `none` if it has not
ended. -/
def growBelow (value : Nat) : Nat → Nat → Option Nat
  | 0, _ => none
  | fuel + 1, result =>
    if result * 2 % 2 ^ 64 < value then growBelow value fuel (result * 2 % 2 ^ 64) else some result

/-- `largestPowerOfTwoLessThan`.  After 64 rounds the result is zero and stays zero, so a loop that
has not ended by then never ends. -/
def largestPowerOfTwoLessThan (value : Nat) : Option Nat :=
  if value ≤ 1 then some 0 else growBelow value 64 1

theorem growBelow_lt {fuel result k : Nat} (hres : result < value)
    (h : growBelow value fuel result = some k) : k < value := by
  induction fuel generalizing result with
  | zero => cases h
  | succ fuel ih =>
    unfold growBelow at h
    split at h
    · next hnext => exact ih hnext h
    · cases h
      exact hres

theorem largestPowerOfTwoLessThan_lt {k : Nat} (hk : k ≠ 0)
    (h : largestPowerOfTwoLessThan value = some k) : k < value := by
  unfold largestPowerOfTwoLessThan at h
  split at h
  · exact absurd (Option.some.inj h).symm hk
  · next hval => exact growBelow_lt (by omega) h

/-- In round `j` the result is the `j`-th power of two. -/
theorem growBelow_pow {fuel j : Nat} (hmax : value ≤ 2 ^ 63) (hfuel : j + fuel = 64)
    (hlt : 2 ^ j < value) : growBelow value fuel (2 ^ j) = some (split value) := by
  induction fuel generalizing j with
  | zero =>
    have hj : 2 ^ 63 < 2 ^ j := Nat.pow_lt_pow_right (by omega) (by omega)
    omega
  | succ fuel ih =>
    have hj : j < 63 := (Nat.pow_lt_pow_iff_right (by omega)).mp (hlt.trans_le hmax)
    have hdouble : 2 ^ j * 2 % 2 ^ 64 = 2 ^ (j + 1) := by
      rw [← Nat.pow_succ]
      exact Nat.mod_eq_of_lt (Nat.pow_lt_pow_right (by omega) (by omega))
    unfold growBelow
    rw [hdouble]
    split
    · next hnext => exact ih (by omega) hnext
    · next hstop =>
      rw [split_eq hlt (by rw [Nat.pow_succ] at hstop; omega)]

theorem largestPowerOfTwoLessThan_eq (htwo : 2 ≤ value) (hmax : value ≤ 2 ^ 63) :
    largestPowerOfTwoLessThan value = some (split value) := by
  unfold largestPowerOfTwoLessThan
  rw [if_neg (by omega)]
  have hgrow : growBelow value 64 (2 ^ 0) = some (split value) := growBelow_pow hmax rfl htwo
  exact hgrow

section Verify

variable {L D : Type} (hash : Input L D → D)

def merkleNodeHash (left right : D) : D := hash (.node left right)

/-- The hash at `index`, and the rest of the proof. -/
def next : List D → Except Stop (D × List D)
  | [] => .error .fails
  | value :: proof => .ok (value, proof)

/-- The closure `verify`: the two roots it rebuilds, and the part of the proof it leaves. -/
def verify (oldRoot : D) (oldCount newCount : Nat) (leftmost : Bool) (proof : List D) :
    Except Stop (D × D × List D) :=
  if oldCount = newCount then
    if leftmost = true then .ok (oldRoot, oldRoot, proof)
    else do
      let (value, proof) ← next proof
      pure (value, value, proof)
  else
    match _hk : largestPowerOfTwoLessThan newCount with
    | none => .error .loops
    | some k =>
      if _hz : k = 0 then .error .fails
      else if oldCount ≤ k then do
        let (oldLeft, newLeft, proof) ← verify oldRoot oldCount k leftmost proof
        let (right, proof) ← next proof
        pure (oldLeft, merkleNodeHash hash newLeft right, proof)
      else do
        let (oldRight, newRight, proof) ← verify oldRoot (oldCount - k) (newCount - k) false proof
        let (left, proof) ← next proof
        pure (merkleNodeHash hash left oldRight, merkleNodeHash hash left newRight, proof)
termination_by newCount
decreasing_by
  · exact largestPowerOfTwoLessThan_lt _hz _hk
  · have hlt := largestPowerOfTwoLessThan_lt _hz _hk
    omega

/-- `verifyConsistency`; `none` if it does not return. -/
def verifyConsistency [DecidableEq D] (oldSize newSize : Nat) (oldRoot newRoot : D)
    (proof : List D) : Option Bool :=
  if oldSize = newSize then some (decide (proof = [] ∧ oldRoot = newRoot))
  else if oldSize = 0 then some true
  else if newSize < oldSize ∨ proof = [] then some false
  else
    match verify hash oldRoot oldSize newSize true proof with
    | .ok (computedOld, computedNew, rest) =>
      some (decide (rest = [] ∧ computedOld = oldRoot ∧ computedNew = newRoot))
    | .error .fails => some false
    | .error .loops => none

end Verify

section Runs

variable {L D : Type} {hash : Input L D → D} {oldRoot a b : D} {m : Nat} {leftmost : Bool}
  {leaves : List L} {proof rest : List D} {n : Nat}

theorem next_eq_ok {value : D} : next proof = .ok (value, rest) ↔ proof = value :: rest := by
  cases proof with
  | _ => simp [next]

/-- Subtrees of one size: the old root at the left edge, the next hash of the proof elsewhere. -/
theorem verify_self :
    verify hash oldRoot n n leftmost proof = .ok (a, b, rest) ↔
    a = b ∧ if leftmost = true then a = oldRoot ∧ rest = proof else proof = a :: rest := by
  rw [verify, if_pos rfl]
  split
  · simp only [Except.ok.injEq, Prod.mk.injEq]
    constructor
    · rintro ⟨rfl, rfl, rfl⟩
      exact ⟨rfl, rfl, rfl⟩
    · rintro ⟨rfl, rfl, rfl⟩
      exact ⟨rfl, rfl, rfl⟩
  · rw [Except.bind_eq_ok]
    constructor
    · rintro ⟨⟨value, left⟩, hnext, hval⟩
      cases hval
      exact ⟨rfl, next_eq_ok.mp hnext⟩
    · rintro ⟨rfl, hproof⟩
      exact ⟨(a, rest), next_eq_ok.mpr hproof, rfl⟩

theorem verify_left (hmax : n ≤ 2 ^ 63) (htwo : 2 ≤ n) (hlt : m < n) (hle : m ≤ split n) :
    verify hash oldRoot m n leftmost proof = .ok (a, b, rest) ↔ ∃ newLeft right,
        verify hash oldRoot m (split n) leftmost proof = .ok (a, newLeft, right :: rest) ∧
          b = merkleNodeHash hash newLeft right := by
  have hk := largestPowerOfTwoLessThan_eq htwo hmax
  have hpos := split_pos n
  rw [verify, if_neg (by omega)]
  split
  · next hnone => cases hk.symm.trans hnone
  next k hsome =>
  obtain rfl : split n = k := Option.mem_unique hk hsome
  rw [dif_neg (by omega), if_pos hle, Except.bind_eq_ok]
  constructor
  · rintro ⟨⟨oldLeft, newLeft, after⟩, hver, hrest⟩
    obtain ⟨⟨right, left⟩, hnext, hval⟩ := Except.bind_eq_ok.mp hrest
    cases hval
    rw [next_eq_ok.mp hnext] at hver
    exact ⟨newLeft, right, hver, rfl⟩
  · rintro ⟨newLeft, right, hver, rfl⟩
    exact ⟨_, hver, rfl⟩

theorem verify_right (hmax : n ≤ 2 ^ 63) (htwo : 2 ≤ n) (hlt : m < n) (hle : split n < m) :
    verify hash oldRoot m n leftmost proof = .ok (a, b, rest) ↔ ∃ oldRight newRight left,
        verify hash oldRoot (m - split n) (n - split n) false proof =
          .ok (oldRight, newRight, left :: rest) ∧
        a = merkleNodeHash hash left oldRight ∧ b = merkleNodeHash hash left newRight := by
  have hk := largestPowerOfTwoLessThan_eq htwo hmax
  have hpos := split_pos n
  rw [verify, if_neg (by omega)]
  split
  · next hnone => cases hk.symm.trans hnone
  next k hsome =>
  obtain rfl : split n = k := Option.mem_unique hk hsome
  rw [dif_neg (by omega), if_neg (by omega), Except.bind_eq_ok]
  constructor
  · rintro ⟨⟨oldRight, newRight, after⟩, hver, hrest⟩
    obtain ⟨⟨left, after'⟩, hnext, hval⟩ := Except.bind_eq_ok.mp hrest
    cases hval
    rw [next_eq_ok.mp hnext] at hver
    exact ⟨oldRight, newRight, left, hver, rfl, rfl⟩
  · rintro ⟨oldRight, newRight, left, hver, rfl, rfl⟩
    exact ⟨_, hver, rfl⟩

/-- A run that rebuilds the root of a tree rebuilds the root of its first leaves as old root, and
what it took from the proof is the consistency proof. -/
theorem verify_sound (hinj : Function.Injective hash) (hlen : leaves.length = n) (hmax : n ≤ 2 ^ 63)
    (hm : 0 < m) (hle : m ≤ n)
    (h : verify hash oldRoot m n leftmost proof = .ok (a, root hash leaves, rest)) :
    a = root hash (leaves.take m) ∧ proof = consistency hash m leftmost leaves ++ rest := by
  induction n using Nat.strong_induction_on generalizing leaves m leftmost a proof rest with
  | h n ih =>
    subst hlen
    rcases Nat.lt_or_eq_of_le hle with hlt | rfl
    · have htwo : 2 ≤ leaves.length := by omega
      have hspl := split_lt htwo
      have hpos := split_pos leaves.length
      by_cases hside : m ≤ split leaves.length
      · obtain ⟨newLeft, right, hver, hroot⟩ := (verify_left hmax htwo hlt hside).mp h
        rw [root_of_two_le htwo] at hroot
        obtain ⟨rfl, rfl⟩ := Input.node.inj (hinj hroot)
        obtain ⟨hold, hproof⟩ := ih _ hspl (List.length_take_of_le hspl.le) (by omega) hm hside
          hver
        rw [List.take_take, min_eq_left hside] at hold
        rw [consistency_left hlt hside htwo, List.append_assoc]
        exact ⟨hold, hproof⟩
      · have hside := Nat.lt_of_not_le hside
        obtain ⟨oldRight, newRight, left, hver, hold, hroot⟩ :=
          (verify_right hmax htwo hlt hside).mp h
        rw [root_of_two_le htwo] at hroot
        obtain ⟨rfl, rfl⟩ := Input.node.inj (hinj hroot)
        obtain ⟨hright, hproof⟩ := ih _ (by omega) List.length_drop (by omega) (by omega) (by omega)
          hver
        rw [consistency_right hlt hside htwo, List.append_assoc, root_take htwo hside hle, hold,
          hright]
        exact ⟨rfl, hproof⟩
    · obtain ⟨rfl, hself⟩ := verify_self.mp h
      rw [consistency_self rfl, List.take_length]
      refine ⟨rfl, ?_⟩
      by_cases hleft : leftmost = true
      · rw [if_pos hleft] at hself ⊢
        exact hself.2.symm
      · rw [if_neg hleft] at hself ⊢
        exact hself

/-- The verifier rebuilds both roots from the consistency proof. -/
theorem verify_complete (hlen : leaves.length = n) (hmax : n ≤ 2 ^ 63) (hm : 0 < m) (hle : m ≤ n)
    (hold : leftmost = true → root hash (leaves.take m) = oldRoot) :
    verify hash oldRoot m n leftmost (consistency hash m leftmost leaves ++ rest) =
      .ok (root hash (leaves.take m), root hash leaves, rest) := by
  induction n using Nat.strong_induction_on generalizing leaves m leftmost rest with
  | h n ih =>
    subst hlen
    rcases Nat.lt_or_eq_of_le hle with hlt | rfl
    · have htwo : 2 ≤ leaves.length := by omega
      have hspl := split_lt htwo
      have hpos := split_pos leaves.length
      by_cases hside : m ≤ split leaves.length
      · have htake : (leaves.take (split leaves.length)).take m = leaves.take m := by
          rw [List.take_take, min_eq_left hside]
        rw [consistency_left hlt hside htwo, List.append_assoc, root_of_two_le htwo]
        refine (verify_left hmax htwo hlt hside).mpr ⟨_, _, ?_, rfl⟩
        rw [← htake]
        refine ih _ hspl (List.length_take_of_le hspl.le) (by omega) hm hside ?_
        rw [htake]
        exact hold
      · have hside := Nat.lt_of_not_le hside
        rw [consistency_right hlt hside htwo, List.append_assoc, root_take htwo hside hle,
          root_of_two_le htwo]
        refine (verify_right hmax htwo hlt hside).mpr ⟨_, _, _, ?_, rfl, rfl⟩
        exact ih _ (by omega) List.length_drop (by omega) (by omega) (by omega) nofun
    · rw [List.take_length] at hold
      rw [consistency_self rfl, List.take_length]
      refine verify_self.mpr ⟨rfl, ?_⟩
      by_cases hleft : leftmost = true
      · rw [if_pos hleft, if_pos hleft]
        exact ⟨hold hleft, rfl⟩
      · rw [if_neg hleft, if_neg hleft]
        rfl

theorem bind_ne_loops {α β : Type} {x : Except Stop α} {f : α → Except Stop β}
    (hx : x ≠ .error .loops) (hf : ∀ z, f z ≠ .error .loops) : (x >>= f) ≠ .error .loops := by
  cases x with
  | error e => exact fun h => hx (congrArg Except.error (Except.error.inj h))
  | ok z => exact hf z

theorem next_ne_loops : next proof ≠ .error .loops := by
  cases proof with
  | _ => nofun

/-- The loop of `largestPowerOfTwoLessThan` ends for every size up to `2 ^ 63`. -/
theorem verify_returns (hmax : n ≤ 2 ^ 63) (hm : 0 < m) (hle : m ≤ n) :
    verify hash oldRoot m n leftmost proof ≠ .error .loops := by
  induction n using Nat.strong_induction_on generalizing m leftmost with
  | h n ih =>
    rw [verify]
    split
    · split
      · nofun
      · exact bind_ne_loops next_ne_loops fun _ => nofun
    next hne =>
    have htwo : 2 ≤ n := by omega
    have hk := largestPowerOfTwoLessThan_eq htwo hmax
    have hspl := split_lt htwo
    have hpos := split_pos n
    split
    · next hnone => cases hk.symm.trans hnone
    next k hsome =>
    obtain rfl : split n = k := Option.mem_unique hk hsome
    rw [dif_neg (by omega)]
    split
    · next hside =>
      refine bind_ne_loops (ih _ hspl (by omega) hm hside) fun _ => ?_
      exact bind_ne_loops next_ne_loops fun _ => nofun
    · refine bind_ne_loops (ih _ (by omega) (by omega) (by omega) (by omega)) fun _ => ?_
      exact bind_ne_loops next_ne_loops fun _ => nofun

theorem consistency_ne_nil (hlt : m < leaves.length) (hm : 0 < m) :
    consistency hash m leftmost leaves ≠ [] := by
  have htwo : 2 ≤ leaves.length := by omega
  by_cases hside : m ≤ split leaves.length
  · rw [consistency_left hlt hside htwo]
    simp
  · rw [consistency_right hlt (by omega) htwo]
    simp

end Runs

section Accepted

variable {L D : Type} [DecidableEq D] {hash : Input L D → D} {m n : Nat} {oldRoot newRoot : D}
  {proof : List D}

theorem verifyConsistency_of_lt (hm : 0 < m) (hlt : m < n) :
    verifyConsistency hash m n oldRoot newRoot proof = some true ↔
      proof ≠ [] ∧ verify hash oldRoot m n true proof = .ok (oldRoot, newRoot, []) := by
  unfold verifyConsistency
  rw [if_neg (by omega), if_neg (by omega)]
  by_cases hproof : proof = []
  · simp [hproof]
  rw [if_neg (by simp [hproof]; omega)]
  split
  · next computedOld computedNew rest hver =>
    simp only [hver, Option.some.injEq, decide_eq_true_eq, Except.ok.injEq, Prod.mk.injEq]
    tauto
  · next hver => simp [hver]
  · next hver => simp [hver]

theorem verifyConsistency_returns (hm : 0 < m) (hlt : m < n) (hmax : n ≤ maxSafeInteger) :
    (verifyConsistency hash m n oldRoot newRoot proof).isSome = true := by
  have hbd : n ≤ 2 ^ 63 := hmax.trans (by decide)
  unfold verifyConsistency
  split
  · rfl
  split
  · rfl
  split
  · rfl
  split
  · rfl
  · rfl
  · next hloops => exact absurd hloops (verify_returns hbd hm hlt.le)

/-- An accepted proof shows the old leaves to be the first of the new ones; the consistency proof
of a tree is accepted, and no other is; the verifier always returns. -/
theorem verifyConsistency_correct (hinj : Function.Injective hash) (hm : 0 < m) (hlt : m < n)
    (hmax : n ≤ maxSafeInteger) :
    (∀ old new : List L, old.length = m → new.length = n → ∀ proof,
      verifyConsistency hash m n (root hash old) (root hash new) proof = some true → old <+: new) ∧
    (∀ new : List L, new.length = n →
      verifyConsistency hash m n (root hash (new.take m)) (root hash new)
        (consistency hash m true new) = some true ∧
      ∀ proof, verifyConsistency hash m n (root hash (new.take m)) (root hash new) proof =
        some true → proof = consistency hash m true new) ∧
    ∀ oldRoot newRoot proof, (verifyConsistency hash m n oldRoot newRoot proof).isSome = true := by
  have hbd : n ≤ 2 ^ 63 := hmax.trans (by decide)
  refine ⟨?_, ?_, fun _ _ _ => verifyConsistency_returns hm hlt hmax⟩
  · intro old new hold hnew proof h
    obtain ⟨-, hver⟩ := (verifyConsistency_of_lt hm hlt).mp h
    obtain ⟨hroot, -⟩ := verify_sound hinj hnew hbd hm hlt.le hver
    have hlen : old.length = (new.take m).length := by
      rw [hold, List.length_take_of_le (by omega)]
    rw [root_injective hinj hlen hroot]
    exact List.take_prefix m new
  · intro new hnew
    constructor
    · refine (verifyConsistency_of_lt hm hlt).mpr ⟨consistency_ne_nil (by omega) hm, ?_⟩
      rw [← List.append_nil (consistency hash m true new)]
      exact verify_complete hnew hbd hm hlt.le fun _ => rfl
    · intro proof h
      obtain ⟨-, hver⟩ := (verifyConsistency_of_lt hm hlt).mp h
      obtain ⟨-, hproof⟩ := verify_sound hinj hnew hbd hm hlt.le hver
      rwa [List.append_nil] at hproof

inductive FreeDigest
  | empty
  | leaf (data : Nat)
  | node (left right : FreeDigest)
  deriving DecidableEq

def freeHash : Input Nat FreeDigest → FreeDigest
  | .empty => .empty
  | .leaf data => .leaf data
  | .node left right => .node left right

theorem freeHash_injective : Function.Injective freeHash := by
  intro x y h
  cases x <;> cases y <;> cases h <;> rfl

/-- Five leaves out of seven: the right subtree is entered, and its left one in it. -/
theorem verifyConsistency_correct_sample :
    verifyConsistency freeHash 5 7 (root freeHash [1, 2, 3, 4, 5])
      (root freeHash [1, 2, 3, 4, 5, 6, 7]) (consistency freeHash 5 true [1, 2, 3, 4, 5, 6, 7]) =
        some true :=
  ((verifyConsistency_correct freeHash_injective (by decide) (by decide) (by decide)).2.1
    [1, 2, 3, 4, 5, 6, 7] rfl).1

end Accepted

end NotificationServer.A3
