import Mathlib.Algebra.GroupWithZero.Nat
import Mathlib.Data.Nat.Log
import Mathlib.Data.List.Basic

/-!
# Merkle trees over lists

The tree of a list splits it at the largest power of two below its length
(RFC 6962, section 2.1).  The hash is a function of structured inputs, so that
leaves, nodes and the empty tree are separate domains.  Over an injective hash a
root determines the leaves of a tree of known size.
-/

namespace Merkle

/-- What is hashed: `0x00` with a leaf, `0x01` with two subtrees, or nothing. -/
inductive Input (L D : Type*)
  | empty
  | leaf (data : L)
  | node (left right : D)
  deriving DecidableEq

/-- The largest power of two below `n`. -/
def split (n : Nat) : Nat := 2 ^ Nat.log 2 (n - 1)

theorem split_pos (n : Nat) : 0 < split n := Nat.two_pow_pos _

theorem split_lt {n : Nat} (h : 2 ≤ n) : split n < n := by
  have hle : split n ≤ n - 1 := Nat.pow_log_le_self 2 (by omega)
  omega

theorem le_two_mul_split {n : Nat} (h : 2 ≤ n) : n ≤ 2 * split n := by
  have hlt : n - 1 < 2 ^ (Nat.log 2 (n - 1)).succ := Nat.lt_pow_succ_log_self (by omega) _
  have hsucc : 2 ^ (Nat.log 2 (n - 1)).succ = 2 * split n := by
    rw [split, Nat.pow_succ, Nat.mul_comm]
  omega

/-- A power of two is the split point of the sizes above it and up to its double. -/
theorem split_eq {n j : Nat} (hlt : 2 ^ j < n) (hle : n ≤ 2 * 2 ^ j) : split n = 2 ^ j := by
  have hpos : 0 < 2 ^ j := Nat.two_pow_pos j
  have hlog : Nat.log 2 (n - 1) = j := by
    apply Nat.log_eq_of_pow_le_of_lt_pow
    · omega
    · rw [Nat.pow_succ]
      omega
  rw [split, hlog]

/-- A size between the split point and `n` splits where `n` does. -/
theorem split_eq_split {m n : Nat} (hn : 2 ≤ n) (hlt : split n < m) (hle : m ≤ n) :
    split m = split n := by
  have htwo := le_two_mul_split hn
  apply split_eq hlt
  exact hle.trans htwo

section Tree

variable {L D : Type*} (hash : Input L D → D)

/-- The root of the tree over a list of leaves. -/
def root : List L → D
  | [] => hash .empty
  | [x] => hash (.leaf x)
  | x :: y :: rest =>
    hash (.node (root ((x :: y :: rest).take (split (rest.length + 2))))
      (root ((x :: y :: rest).drop (split (rest.length + 2)))))
termination_by leaves => leaves.length
decreasing_by
  · have hlt : split (rest.length + 2) < rest.length + 2 := split_lt (by omega)
    simp only [List.length_take, List.length_cons]
    omega
  · have hpos : 0 < split (rest.length + 2) := split_pos _
    simp only [List.length_drop, List.length_cons]
    omega

/-- The hashes that prove the tree of the first `m` leaves consistent with the whole tree; at the
left edge the old root itself is known. -/
def consistency (m : Nat) (leftmost : Bool) (leaves : List L) : List D :=
  if m = leaves.length then
    if leftmost = true then [] else [root hash leaves]
  else if leaves.length < 2 then []
  else if m ≤ split leaves.length then
    consistency m leftmost (leaves.take (split leaves.length)) ++
      [root hash (leaves.drop (split leaves.length))]
  else
    consistency (m - split leaves.length) false (leaves.drop (split leaves.length)) ++
      [root hash (leaves.take (split leaves.length))]
termination_by leaves.length
decreasing_by
  · have hlt : split leaves.length < leaves.length := split_lt (by omega)
    simp only [List.length_take]
    omega
  · have hpos : 0 < split leaves.length := split_pos _
    simp only [List.length_drop]
    omega

variable {hash} {leaves : List L} {m : Nat} {leftmost : Bool}

theorem root_of_two_le (h : 2 ≤ leaves.length) :
    root hash leaves = hash (.node (root hash (leaves.take (split leaves.length)))
      (root hash (leaves.drop (split leaves.length)))) := by
  match leaves, h with
  | x :: y :: rest, _ =>
    rw [root]
    rfl

theorem consistency_self (h : m = leaves.length) :
    consistency hash m leftmost leaves = if leftmost = true then [] else [root hash leaves] := by
  rw [consistency, if_pos h]

theorem consistency_left (hlt : m < leaves.length) (hle : m ≤ split leaves.length)
    (h : 2 ≤ leaves.length) :
    consistency hash m leftmost leaves =
      consistency hash m leftmost (leaves.take (split leaves.length)) ++
        [root hash (leaves.drop (split leaves.length))] := by
  rw [consistency, if_neg (by omega), if_neg (by omega), if_pos hle]

theorem consistency_right (hlt : m < leaves.length) (hle : split leaves.length < m)
    (h : 2 ≤ leaves.length) :
    consistency hash m leftmost leaves =
      consistency hash (m - split leaves.length) false (leaves.drop (split leaves.length)) ++
        [root hash (leaves.take (split leaves.length))] := by
  rw [consistency, if_neg (by omega), if_neg (by omega), if_neg (by omega)]

/-- A smaller tree that ends to the right of the split point has the same left half. -/
theorem root_take (h : 2 ≤ leaves.length) (hlt : split leaves.length < m)
    (hle : m ≤ leaves.length) :
    root hash (leaves.take m) = hash (.node (root hash (leaves.take (split leaves.length)))
      (root hash ((leaves.drop (split leaves.length)).take (m - split leaves.length)))) := by
  have hpos : 0 < split leaves.length := split_pos _
  have hlen : (leaves.take m).length = m := List.length_take_of_le hle
  have hspl : split (leaves.take m).length = split leaves.length := by
    rw [hlen]
    exact split_eq_split h hlt hle
  rw [root_of_two_le (by omega), hspl, List.take_take, min_eq_left (by omega), List.drop_take]

/-- The hash is injective on inputs of one tree size at a time. -/
theorem root_injective (hinj : Function.Injective hash) {leaves leaves' : List L}
    (hlen : leaves.length = leaves'.length) (hroot : root hash leaves = root hash leaves') :
    leaves = leaves' := by
  induction hn : leaves.length using Nat.strong_induction_on generalizing leaves leaves' with
  | h n ih =>
    match leaves, leaves' with
    | [], [] => rfl
    | [x], [y] =>
      simp only [root] at hroot
      obtain rfl := Input.leaf.inj (hinj hroot)
      rfl
    | x :: y :: rest, x' :: y' :: rest' =>
      have htwo : 2 ≤ (x :: y :: rest).length := by simp
      have hlt : split (x :: y :: rest).length < (x :: y :: rest).length := split_lt htwo
      have hpos : 0 < split (x :: y :: rest).length := split_pos _
      have htwo' : 2 ≤ (x' :: y' :: rest').length := hlen ▸ htwo
      rw [root_of_two_le htwo', ← hlen, root_of_two_le htwo] at hroot
      obtain ⟨hleft, hright⟩ := Input.node.inj (hinj hroot)
      -- both halves are shorter, so the induction gives the halves
      have htake := ih _ (by rw [List.length_take]; omega)
        (by rw [List.length_take, List.length_take, hlen]) hleft rfl
      have hdrop := ih _ (by rw [List.length_drop]; omega)
        (by rw [List.length_drop, List.length_drop, hlen]) hright rfl
      rw [← List.take_append_drop (split (x :: y :: rest).length) (x :: y :: rest), htake, hdrop,
        List.take_append_drop]

end Tree

end Merkle
