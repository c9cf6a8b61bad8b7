import Mathlib.Algebra.GroupWithZero.Nat
import Mathlib.Data.List.Nodup

/-!
# Relational tables as lists of rows

A table is a list of rows.  `Unique` is a primary key or a UNIQUE constraint,
`References` a foreign key whose child columns may be null (`none` refers to
nothing, as under MATCH SIMPLE), `updateWhere` is an UPDATE with a WHERE clause
and `upsert` is INSERT with ON CONFLICT DO UPDATE.  The lemmas say which rows a
statement leaves behind and which constraints it keeps.  `Numbered` says that
the rows of an append-only table carry the numbers 1 to `n`, each once.
-/

namespace Relational

variable {α β κ : Type}

/-- No two rows agree on `key`. -/
def Unique (key : α → κ) (rows : List α) : Prop := (rows.map key).Nodup

instance [DecidableEq κ] (key : α → κ) (rows : List α) : Decidable (Unique key rows) :=
  inferInstanceAs (Decidable (rows.map key).Nodup)

/-- Every reference a child row makes is the key of a parent row. -/
def References (fk : α → Option κ) (rows : List α) (key : β → κ) (parents : List β) : Prop :=
  ∀ r ∈ rows, ∀ k ∈ fk r, k ∈ parents.map key

instance [DecidableEq κ] (fk : α → Option κ) (rows : List α) (key : β → κ) (parents : List β) :
    Decidable (References fk rows key parents) :=
  inferInstanceAs (Decidable (∀ r ∈ rows, ∀ k ∈ fk r, k ∈ parents.map key))

/-- `UPDATE … SET f WHERE p`. -/
def updateWhere (p : α → Prop) [DecidablePred p] (f : α → α) (rows : List α) : List α :=
  rows.map fun r => if p r then f r else r

/-- `DELETE … WHERE p`. -/
def deleteWhere (p : α → Prop) [DecidablePred p] (rows : List α) : List α :=
  rows.filter fun r => ¬ p r

/-- `INSERT x ON CONFLICT (key) DO UPDATE SET merge`. -/
def upsert [DecidableEq κ] (key : α → κ) (merge : α → α → α) (x : α) (rows : List α) : List α :=
  if key x ∈ rows.map key then updateWhere (fun r => key r = key x) (fun r => merge r x) rows
  else x :: rows

/-- A query returns a row that meets its condition. -/
theorem found {p : α → Prop} [DecidablePred p] {rows : List α} {a : α}
    (h : (rows.find? fun r => p r) = some a) : a ∈ rows ∧ p a := by
  have hp := List.find?_some h
  exact ⟨List.mem_of_find?_eq_some h, of_decide_eq_true hp⟩

section Unique

variable {key : α → κ} {rows : List α}

theorem Unique.eq_of_key_eq (h : Unique key rows) {a b : α} (ha : a ∈ rows) (hb : b ∈ rows)
    (hk : key a = key b) : a = b :=
  List.inj_on_of_nodup_map h ha hb hk

theorem Unique.find?_eq_some [DecidableEq κ] (h : Unique key rows) {a : α} (ha : a ∈ rows) :
    (rows.find? fun r => key r = key a) = some a := by
  cases hr : rows.find? fun r => key r = key a with
  | none => exact absurd (List.find?_eq_none.mp hr a ha) (by simp)
  | some r =>
    rw [h.eq_of_key_eq (found hr).1 ha (found hr).2]

theorem unique_nil : Unique key [] := List.nodup_nil

theorem unique_cons {x : α} :
    Unique key (x :: rows) ↔ (∀ r ∈ rows, key r ≠ key x) ∧ Unique key rows := by
  simp [Unique, List.nodup_cons, List.mem_map]

theorem Unique.filter_eq_singleton [DecidableEq κ] (h : Unique key rows) {a : α} (ha : a ∈ rows) :
    (rows.filter fun r => key r = key a) = [a] := by
  induction rows with
  | nil => cases ha
  | cons r rows ih =>
    obtain ⟨hfree, hrest⟩ := unique_cons.mp h
    rcases List.mem_cons.mp ha with rfl | ha
    · have hnil : (rows.filter fun r => key r = key a) = [] :=
        List.filter_eq_nil_iff.mpr fun b hb => by simpa using hfree b hb
      rw [List.filter_cons_of_pos (by simp), hnil]
    · have hne : key r ≠ key a := (hfree a ha).symm
      rw [List.filter_cons_of_neg (by simpa using hne), ih hrest ha]

theorem Unique.deleteWhere (h : Unique key rows) (p : α → Prop) [DecidablePred p] :
    Unique key (deleteWhere p rows) :=
  List.Nodup.sublist (List.Sublist.map key List.filter_sublist) h

/-- A statement that rewrites and deletes rows and leaves the key alone keeps it unique. -/
theorem Unique.filterMap (h : Unique key rows) {f : α → Option α}
    (hf : ∀ r ∈ rows, ∀ r' ∈ f r, key r' = key r) : Unique key (rows.filterMap f) := by
  induction rows with
  | nil => exact h
  | cons x rows ih =>
    obtain ⟨hx, h⟩ := unique_cons.mp h
    have hrest := ih h fun r hr => hf r (.tail _ hr)
    cases hfx : f x with
    | none => rwa [List.filterMap_cons_none hfx]
    | some x' =>
      rw [List.filterMap_cons_some hfx]
      refine unique_cons.mpr ⟨fun r' hr' => ?_, hrest⟩
      obtain ⟨r, hr, hfr⟩ := List.mem_filterMap.mp hr'
      rw [hf r (.tail _ hr) r' hfr, hf x List.mem_cons_self x' hfx]
      exact hx r hr

/-- A total over selected rows does not grow if no rewritten row is newly selected or weighs
more. -/
theorem sum_filter_filterMap_le {p : α → Prop} [DecidablePred p] {w : α → Nat} {f : α → Option α}
    (hf : ∀ r ∈ rows, ∀ r' ∈ f r, p r' → p r ∧ w r' ≤ w r) :
    (((rows.filterMap f).filter p).map w).sum ≤ ((rows.filter p).map w).sum := by
  induction rows with
  | nil => exact (Nat.le_refl _)
  | cons x rows ih =>
    have hrest := ih fun r hr => hf r (.tail _ hr)
    have hgrow : ((rows.filter p).map w).sum ≤ (((x :: rows).filter p).map w).sum := by
      by_cases hx : p x
      · simp [hx]
      · simp [hx]
    cases hfx : f x with
    | none =>
      rw [List.filterMap_cons_none hfx]
      exact Nat.le_trans hrest hgrow
    | some x' =>
      rw [List.filterMap_cons_some hfx]
      by_cases hx' : p x'
      · obtain ⟨hx, hw⟩ := hf x List.mem_cons_self x' hfx hx'
        simp only [List.filter_cons_of_pos, decide_eq_true hx', decide_eq_true hx, List.map_cons,
          List.sum_cons]
        omega
      · rw [List.filter_cons_of_neg (by simpa using hx')]
        exact Nat.le_trans hrest hgrow

/-- An update that leaves the key alone keeps it unique. -/
theorem Unique.updateWhere (h : Unique key rows) {p : α → Prop} [DecidablePred p] {f : α → α}
    (hf : ∀ r ∈ rows, p r → key (f r) = key r) : Unique key (updateWhere p f rows) := by
  have hmap : (Relational.updateWhere p f rows).map key = rows.map key := by
    unfold Relational.updateWhere
    rw [List.map_map]
    refine List.map_congr_left fun r hr => ?_
    by_cases hp : p r
    · simp [hp, hf r hr hp]
    · simp [hp]
  unfold Unique
  rw [hmap]
  exact h

end Unique

section Membership

variable {p Q : α → Prop} {rows : List α} {f : α → α} {key : α → κ}

@[simp] theorem mem_deleteWhere [DecidablePred p] {r : α} :
    r ∈ deleteWhere p rows ↔ r ∈ rows ∧ ¬ p r := by
  simp [deleteWhere]

theorem mem_updateWhere [DecidablePred p] {r : α} :
    r ∈ updateWhere p f rows ↔ (∃ a ∈ rows, p a ∧ f a = r) ∨ (r ∈ rows ∧ ¬ p r) := by
  unfold updateWhere
  rw [List.mem_map]
  constructor
  · rintro ⟨a, ha, rfl⟩
    by_cases hp : p a
    · exact .inl ⟨a, ha, hp, by simp [hp]⟩
    · exact .inr (by simp [hp, ha])
  · rintro (⟨a, ha, hp, rfl⟩ | ⟨hr, hp⟩)
    · exact ⟨a, ha, by simp [hp]⟩
    · exact ⟨r, hr, by simp [hp]⟩

/-- A lookup of the updated rows finds the updated row. -/
theorem find?_updateWhere [DecidablePred p] (hf : ∀ r, p r → p (f r)) (rows : List α) :
    (updateWhere p f rows).find? (fun r => p r) = (rows.find? fun r => p r).map f := by
  induction rows with
  | nil => rfl
  | cons r rows ih =>
    unfold updateWhere at ih ⊢
    by_cases hp : p r
    · simp [hp, hf r hp]
    · simp [hp, ih]

/-- A lookup of other rows does not see the update. -/
theorem find?_updateWhere_of_not {q : α → Prop} [DecidablePred p] [DecidablePred q]
    (hf : ∀ r, p r → ¬ q r ∧ ¬ q (f r)) (rows : List α) :
    (updateWhere p f rows).find? (fun r => q r) = rows.find? fun r => q r := by
  induction rows with
  | nil => rfl
  | cons r rows ih =>
    unfold updateWhere at ih ⊢
    by_cases hp : p r
    · obtain ⟨h1, h2⟩ := hf r hp
      simp [hp, h1, h2, ih]
    · simp [hp, List.find?_cons, ih]

theorem mem_upsert [DecidableEq κ] {merge : α → α → α} {x r : α} :
    r ∈ upsert key merge x rows ↔
      (∃ a ∈ rows, key a = key x ∧ merge a x = r) ∨ (r ∈ rows ∧ key r ≠ key x) ∨
        (r = x ∧ ∀ a ∈ rows, key a ≠ key x) := by
  unfold upsert
  split
  case isTrue h =>
    rw [mem_updateWhere]
    constructor
    · rintro (h | h)
      · exact .inl h
      · exact .inr (.inl h)
    · rintro (h' | h' | ⟨-, hne⟩)
      · exact .inl h'
      · exact .inr h'
      · obtain ⟨a, ha, hk⟩ := List.mem_map.mp h
        exact absurd hk (hne a ha)
  case isFalse h =>
    have hne : ∀ a ∈ rows, key a ≠ key x := fun a ha hk => h (List.mem_map.mpr ⟨a, ha, hk⟩)
    rw [List.mem_cons]
    constructor
    · rintro (rfl | hr)
      · exact .inr (.inr ⟨rfl, hne⟩)
      · exact .inr (.inl ⟨hr, hne r hr⟩)
    · rintro (⟨a, ha, hk, -⟩ | ⟨hr, -⟩ | ⟨rfl, -⟩)
      · exact absurd hk (hne a ha)
      · exact .inr hr
      · exact .inl rfl

theorem forall_mem_deleteWhere [DecidablePred p] (h : ∀ r ∈ rows, Q r) :
    ∀ r ∈ deleteWhere p rows, Q r :=
  fun r hr => h r (mem_deleteWhere.mp hr).1

theorem forall_mem_updateWhere [DecidablePred p] (h : ∀ r ∈ rows, Q r)
    (hf : ∀ r ∈ rows, p r → Q r → Q (f r)) : ∀ r ∈ updateWhere p f rows, Q r := by
  intro r hr
  rcases mem_updateWhere.mp hr with ⟨a, ha, hp, rfl⟩ | ⟨hr, -⟩
  · exact hf a ha hp (h a ha)
  · exact h r hr

theorem forall_mem_upsert [DecidableEq κ] {merge : α → α → α} {x : α} (h : ∀ r ∈ rows, Q r)
    (hx : Q x) (hm : ∀ r ∈ rows, key r = key x → Q r → Q (merge r x)) :
    ∀ r ∈ upsert key merge x rows, Q r := by
  intro r hr
  rcases mem_upsert.mp hr with ⟨a, ha, hk, rfl⟩ | ⟨hr, -⟩ | ⟨rfl, -⟩
  · exact hm a ha hk (h a ha)
  · exact h r hr
  · exact hx

theorem mem_upsert_replace [DecidableEq κ] {x r : α}
    (h : r ∈ upsert key (fun _ new => new) x rows) : r = x ∨ (r ∈ rows ∧ key r ≠ key x) := by
  rcases mem_upsert.mp h with ⟨-, -, -, rfl⟩ | h | ⟨rfl, -⟩
  · exact .inl rfl
  · exact .inr h
  · exact .inl rfl

end Membership

section Upsert

variable [DecidableEq κ] {key : α → κ}

/-- An upsert whose merge leaves the key alone keeps it unique. -/
theorem Unique.upsert {rows : List α} {merge : α → α → α} {x : α} (h : Unique key rows)
    (hm : ∀ r ∈ rows, key r = key x → key (merge r x) = key r) :
    Unique key (upsert key merge x rows) := by
  unfold Relational.upsert
  split
  case isTrue => exact h.updateWhere hm
  case isFalse hnone =>
    exact unique_cons.mpr ⟨fun r hr hk => hnone (List.mem_map.mpr ⟨r, hr, hk⟩), h⟩

theorem mem_upsert_self {rows : List α} {x : α} : x ∈ upsert key (fun _ new => new) x rows := by
  by_cases hex : ∃ a ∈ rows, key a = key x
  · obtain ⟨a, ha, hkey⟩ := hex
    exact mem_upsert.mpr (.inl ⟨a, ha, hkey, rfl⟩)
  · exact mem_upsert.mpr (.inr (.inr ⟨rfl, fun a ha hkey => hex ⟨a, ha, hkey⟩⟩))

theorem exists_key_upsert {rows : List α} {x : α} {k : κ} :
    (∃ r ∈ upsert key (fun _ new => new) x rows, key r = k) ↔
      k = key x ∨ ∃ r ∈ rows, key r = k := by
  constructor
  · rintro ⟨r, hr, rfl⟩
    rcases mem_upsert_replace hr with rfl | ⟨hr, -⟩
    · exact .inl rfl
    · exact .inr ⟨r, hr, rfl⟩
  · intro h
    by_cases hk : k = key x
    · exact ⟨x, mem_upsert_self, hk.symm⟩
    · rcases h with h | ⟨r, hr, rfl⟩
      · exact absurd h hk
      · exact ⟨r, mem_upsert.mpr (.inr (.inl ⟨hr, hk⟩)), rfl⟩

variable {xs rows : List α}

/-- Rows upserted one after the other, a later row replacing an earlier one of its key. -/
def upsertAll (key : α → κ) (xs rows : List α) : List α :=
  xs.foldl (fun m x => upsert key (fun _ new => new) x m) rows

theorem unique_upsertAll (h : Unique key rows) : Unique key (upsertAll key xs rows) := by
  induction xs generalizing rows with
  | nil => exact h
  | cons x xs ih => exact ih (h.upsert fun _ _ hk => hk.symm)

theorem mem_upsertAll {r : α} (h : r ∈ upsertAll key xs rows) : r ∈ xs ∨ r ∈ rows := by
  induction xs generalizing rows with
  | nil => exact .inr h
  | cons x xs ih =>
    rcases ih h with h | h
    · exact .inl (.tail _ h)
    · rcases mem_upsert_replace h with rfl | ⟨h, -⟩
      · exact .inl (.head _)
      · exact .inr h

theorem exists_key_upsertAll {k : κ} :
    (∃ r ∈ upsertAll key xs rows, key r = k) ↔ (∃ x ∈ xs, key x = k) ∨ ∃ r ∈ rows, key r = k := by
  induction xs generalizing rows with
  | nil => simp [upsertAll]
  | cons x xs ih =>
    have hstep := @ih (upsert key (fun _ new => new) x rows)
    rw [exists_key_upsert] at hstep
    refine hstep.trans ?_
    simp only [List.mem_cons, exists_eq_or_imp, eq_comm (a := k), or_assoc, or_left_comm]

end Upsert

section References

variable {fk : α → Option κ} {rows : List α} {key : β → κ} {parents : List β}

theorem References.exists_parent (h : References fk rows key parents) {r : α} {k : κ}
    (hr : r ∈ rows) (hk : fk r = some k) : ∃ q ∈ parents, key q = k :=
  List.mem_map.mp (h r hr k hk)

/-- Parents that are referred to must stay, with their keys. -/
theorem References.of_parents (h : References fk rows key parents) {parents' : List β}
    (hstay : ∀ r ∈ rows, ∀ q ∈ parents, fk r = some (key q) → ∃ q' ∈ parents', key q' = key q) :
    References fk rows key parents' := by
  intro r hr k hk
  obtain ⟨q, hq, rfl⟩ := h.exists_parent hr hk
  exact List.mem_map.mpr (hstay r hr q hq hk)

/-- An update of children that changes no reference, or gives it up. -/
theorem References.updateWhere (h : References fk rows key parents) {p : α → Prop} [DecidablePred p]
    {f : α → α} (hf : ∀ r ∈ rows, p r → fk (f r) = fk r ∨ fk (f r) = none) :
    References fk (updateWhere p f rows) key parents := by
  intro r hr k hk
  rcases mem_updateWhere.mp hr with ⟨a, ha, hp, rfl⟩ | ⟨hr, -⟩
  · rcases hf a ha hp with he | he
    · exact h a ha k (he ▸ hk)
    · rw [he] at hk
      cases hk
  · exact h r hr k hk

end References

section Numbered

/-- The rows carry exactly the numbers 1 to `n`, each once. -/
def Numbered (number : α → Nat) (n : Nat) (rows : List α) : Prop :=
  (rows.map number).Perm (List.range' 1 n)

variable {number : α → Nat} {n : Nat} {rows : List α}

theorem numbered_nil : Numbered number 0 [] := List.Perm.refl _

/-- Appending the row that carries the next number. -/
theorem Numbered.cons {x : α} (h : Numbered number n rows) (hx : number x = n + 1) :
    Numbered number (n + 1) (x :: rows) := by
  unfold Numbered
  rw [List.map_cons, hx, List.range'_concat, Nat.one_mul, Nat.add_comm 1 n]
  exact ((List.perm_append_singleton _ _).trans (h.symm.cons _)).symm

theorem Numbered.mem_iff (h : Numbered number n rows) {k : Nat} :
    (∃ r ∈ rows, number r = k) ↔ 1 ≤ k ∧ k ≤ n := by
  rw [← List.mem_map, List.Perm.mem_iff h, List.mem_range'_1]
  omega

theorem Numbered.length_eq (h : Numbered number n rows) : rows.length = n := by
  rw [← List.length_map (f := number), List.Perm.length_eq h, List.length_range']

end Numbered

section Correspondence

variable {R : α → β → Prop} {xs : List α} {ys : List β}

/-- Elements that each have a partner correspond to a list of partners. -/
theorem exists_forall₂ (h : ∀ x ∈ xs, ∃ y, R x y) : ∃ ys, List.Forall₂ R xs ys := by
  induction xs with
  | nil => exact ⟨[], .nil⟩
  | cons x xs ih =>
    obtain ⟨y, hy⟩ := h x (.head _)
    obtain ⟨ys, hys⟩ := ih fun x' hx' => h x' (.tail _ hx')
    exact ⟨y :: ys, .cons hy hys⟩

theorem forall₂_exists_right (h : List.Forall₂ R xs ys) {x : α} (hx : x ∈ xs) :
    ∃ y ∈ ys, R x y := by
  induction h with
  | nil => cases hx
  | cons hxy _ ih =>
    rcases List.mem_cons.mp hx with rfl | hx
    · exact ⟨_, .head _, hxy⟩
    · obtain ⟨y, hy, hR⟩ := ih hx
      exact ⟨y, .tail _ hy, hR⟩

theorem forall₂_exists_left (h : List.Forall₂ R xs ys) {y : β} (hy : y ∈ ys) : ∃ x ∈ xs, R x y := by
  obtain ⟨x, hx, hR⟩ := forall₂_exists_right h.flip hy
  exact ⟨x, hx, hR⟩

theorem forall₂_getLast? (h : List.Forall₂ R xs ys) {y : β} (hy : ys.getLast? = some y) :
    ∃ x, xs.getLast? = some x ∧ R x y := by
  rw [← List.head?_reverse] at hy
  have hreverse := List.forall₂_reverse_iff.mpr h
  cases hxs : xs.reverse with
  | nil =>
    rw [hxs, List.forall₂_nil_left_iff] at hreverse
    simp [hreverse] at hy
  | cons x rest =>
    rw [hxs, List.forall₂_cons_left_iff] at hreverse
    obtain ⟨y', rest', hR, -, hys⟩ := hreverse
    rw [hys, List.head?_cons] at hy
    cases hy
    refine ⟨x, ?_, hR⟩
    rw [← List.head?_reverse, hxs, List.head?_cons]

end Correspondence

end Relational
