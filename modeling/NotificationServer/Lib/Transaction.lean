import Mathlib.Tactic.Common

/-!
# Transactions

A transaction body reads and rewrites a state and may fail.  A body that fails
has no final state: whoever runs it keeps the state it started from, which is
what a database rollback means.  The rules below peel a committed body apart
(`bind_ok`), compose what its statements do to the state (`Moves`) and what they
leave alone (`Keeps`).
-/

theorem Except.bind_eq_ok {ε α β : Type} {x : Except ε α} {f : α → Except ε β} {y : β} :
    (x >>= f) = .ok y ↔ ∃ z, x = .ok z ∧ f z = .ok y := by
  cases x with
  | _ => simp [bind, Except.bind]

/-- A transaction body over states `σ`, failing with `ε` and returning `α`. -/
def Tx (σ ε α : Type) : Type := σ → Except ε (α × σ)

namespace Tx

variable {σ ε α β γ : Type} {a : α} {s s' : σ} {x : Tx σ ε α} {e : ε}

instance : Monad (Tx σ ε) where
  pure a := fun s => .ok (a, s)
  bind x f := fun s =>
    match x s with
    | .ok (a, s') => f a s'
    | .error e => .error e

/-- Reads a projection of the state. -/
def read (f : σ → α) : Tx σ ε α := fun s => .ok (f s, s)

/-- Fails with `e`. -/
def fail (e : ε) : Tx σ ε α := fun _ => .error e

/-- Continues only if `c` holds. -/
def require (c : Prop) [Decidable c] (e : ε) : Tx σ ε Unit :=
  if c then pure () else fail e

/-- Runs a body only if `c` holds. -/
def when (c : Prop) [Decidable c] (x : Tx σ ε Unit) : Tx σ ε Unit :=
  if c then x else pure ()

/-- One statement: changes the state and fails with `e` if the result is not valid. -/
def change (valid : σ → Prop) [DecidablePred valid] (f : σ → σ) (e : ε) : Tx σ ε Unit := fun s =>
  if valid (f s) then .ok ((), f s) else .error e

/-- Runs a body under another error type. -/
def mapError {ε' : Type} (f : ε → ε') (x : Tx σ ε α) : Tx σ ε' α := fun s =>
  match x s with
  | .ok r => .ok r
  | .error e => .error (f e)

/-- Runs a body and keeps what it did only if it returns a value: a body that returns `none` ends
without a commit. -/
def orRollback (x : Tx σ ε (Option α)) : Tx σ ε (Option α) := fun s =>
  match x s with
  | .ok (some a, s') => .ok (some a, s')
  | .ok (none, _) => .ok (none, s)
  | .error e => .error e

/-- Runs `f` on every element, first to last, and stops at the first failure. -/
def forEach : List β → (β → Tx σ ε Unit) → Tx σ ε Unit
  | [], _ => pure ()
  | b :: bs, f => do
    f b
    forEach bs f

/-- Like `forEach`, and returns what the rounds returned. -/
def collect : List β → (β → Tx σ ε γ) → Tx σ ε (List γ)
  | [], _ => pure []
  | b :: bs, f => do
    let c ← f b
    let cs ← collect bs f
    pure (c :: cs)

@[simp] theorem pure_ok {b : α} : (pure a : Tx σ ε α) s = .ok (b, s') ↔ a = b ∧ s = s' := by
  change Except.ok (a, s) = .ok (b, s') ↔ _
  simp

theorem bind_apply (x : Tx σ ε α) (f : α → Tx σ ε β) (s : σ) : (x >>= f) s = match x s with
      | .ok (a, s') => f a s'
      | .error e => .error e := rfl

@[simp] theorem bind_ok {f : α → Tx σ ε β} {r : β × σ} :
    (x >>= f) s = .ok r ↔ ∃ a s1, x s = .ok (a, s1) ∧ f a s1 = .ok r := by
  rw [bind_apply]
  cases h : x s with
  | error e => simp
  | ok p => simp [Prod.ext_iff]

/-- A body continues from where its first part ended. -/
theorem bind_of_ok {f : α → Tx σ ε β} {s1 : σ} (h : x s = .ok (a, s1)) : (x >>= f) s = f a s1 := by
  rw [bind_apply, h]

@[simp] theorem read_ok {f : σ → α} : (read f : Tx σ ε α) s = .ok (a, s') ↔ f s = a ∧ s = s' := by
  simp [read]

@[simp] theorem fail_ok {r : α × σ} : (fail e : Tx σ ε α) s = .ok r ↔ False := by
  simp [fail]

@[simp] theorem require_ok {c : Prop} [Decidable c] {u : Unit} :
    (require c e : Tx σ ε Unit) s = .ok (u, s') ↔ c ∧ s = s' := by
  unfold require
  split <;> simp_all

@[simp] theorem change_ok {valid : σ → Prop} [DecidablePred valid] {f : σ → σ} {u : Unit} :
    (change valid f e : Tx σ ε Unit) s = .ok (u, s') ↔ valid (f s) ∧ f s = s' := by
  unfold change
  split <;> simp_all

/-- A body continues after a check that holds. -/
theorem require_bind_of {c : Prop} [Decidable c] {f : Unit → Tx σ ε β} (hc : c) :
    (require c e >>= f) s = f () s :=
  bind_of_ok (require_ok.mpr ⟨hc, rfl⟩)

theorem ite_ok {c : Prop} [Decidable c] {y : Tx σ ε α} {r : α × σ} :
    (if c then x else y) s = .ok r ↔ (c ∧ x s = .ok r) ∨ (¬ c ∧ y s = .ok r) := by
  split <;> simp_all

@[simp] theorem mapError_ok {ε' : Type} {f : ε → ε'} {r : α × σ} :
    (mapError f x) s = .ok r ↔ x s = .ok r := by
  unfold mapError
  cases x s <;> simp

theorem orRollback_ok {x : Tx σ ε (Option α)} {r : Option α} :
    (orRollback x) s = .ok (r, s') ↔
      (r.isSome ∧ x s = .ok (r, s')) ∨ (r = none ∧ s = s' ∧ ∃ t, x s = .ok (none, t)) := by
  unfold orRollback
  rcases h : x s with e | ⟨_ | a, t⟩
  · simp
  · cases r <;> simp
  · cases r <;> simp

/-- A loop keeps what holds of its state and of the elements that are left. -/
theorem forEach_ok {xs : List β} {g : β → Tx σ ε Unit} {I : List β → σ → Prop} {u : Unit}
    (hstep : ∀ b bs t t', I (b :: bs) t → g b t = .ok ((), t') → I bs t') (hinit : I xs s)
    (h : forEach xs g s = .ok (u, s')) : I [] s' := by
  induction xs generalizing s with
  | nil =>
    obtain ⟨-, rfl⟩ := pure_ok.mp h
    exact hinit
  | cons b bs ih =>
    simp only [forEach, bind_ok] at h
    obtain ⟨_, t, hb, hbs⟩ := h
    exact ih (hstep b bs s t hinit hb) hbs

/-- A loop that returns a value per round keeps what holds of its state, of the elements that are
left and of the values returned so far. -/
theorem collect_invariant {xs : List β} {g : β → Tx σ ε γ} {I : List β → List γ → σ → Prop}
    {acc cs : List γ}
    (hstep : ∀ b bs acc c t t', I (b :: bs) acc t → g b t = .ok (c, t') → I bs (acc ++ [c]) t')
    (hinit : I xs acc s) (h : collect xs g s = .ok (cs, s')) : I [] (acc ++ cs) s' := by
  induction xs generalizing s acc cs with
  | nil =>
    obtain ⟨rfl, rfl⟩ := pure_ok.mp h
    rwa [List.append_nil]
  | cons b bs ih =>
    simp only [collect, bind_ok, pure_ok] at h
    obtain ⟨c, t, hb, cs', t', hbs, rfl, rfl⟩ := h
    have hrest := ih (hstep b bs acc c s t hinit hb) hbs
    rwa [List.append_assoc] at hrest

/-- Rounds that only read return one value per element. -/
theorem collect_ok {xs : List β} {g : β → Tx σ ε γ} {P : β → γ → Prop} {cs : List γ}
    (hg : ∀ b c t, g b s = .ok (c, t) → t = s ∧ P b c) (h : collect xs g s = .ok (cs, s')) :
    s' = s ∧ (∀ c ∈ cs, ∃ b ∈ xs, P b c) ∧ ∀ b ∈ xs, ∃ c ∈ cs, P b c := by
  induction xs generalizing cs with
  | nil =>
    obtain ⟨rfl, rfl⟩ := pure_ok.mp h
    simp
  | cons b bs ih =>
    simp only [collect, bind_ok, pure_ok] at h
    obtain ⟨c, s1, hb, cs', s2, hbs, rfl, rfl⟩ := h
    obtain ⟨rfl, hP⟩ := hg b c s1 hb
    obtain ⟨rfl, hmem, hcovers⟩ := ih hbs
    refine ⟨rfl, fun c' hc' => ?_, fun b' hb' => ?_⟩
    · rcases List.mem_cons.mp hc' with rfl | hc'
      · exact ⟨b, .head _, hP⟩
      · obtain ⟨b', hb', h⟩ := hmem c' hc'
        exact ⟨b', .tail _ hb', h⟩
    · rcases List.mem_cons.mp hb' with rfl | hb'
      · exact ⟨c, .head _, hP⟩
      · obtain ⟨c', hc', h⟩ := hcovers b' hb'
        exact ⟨c', .tail _ hc', h⟩

/-- A committed run of `x` relates the state before it to the state after it by `r`. -/
def Moves (r : σ → σ → Prop) (x : Tx σ ε α) : Prop := ∀ s a s', x s = .ok (a, s') → r s s'

namespace Moves

variable {r : σ → σ → Prop} {x : Tx σ ε α}

theorem fail (e : ε) : Moves r (Tx.fail e : Tx σ ε α) := by
  intro s a s' h
  cases h

theorem ite {c : Prop} [Decidable c] {y : Tx σ ε α} (hx : Moves r x) (hy : Moves r y) :
    Moves r (if c then x else y) := by
  split
  · exact hx
  · exact hy

theorem mapError {ε' : Type} {g : ε → ε'} (hx : Moves r x) : Moves r (Tx.mapError g x) := by
  intro s a s' h
  exact hx s a s' (mapError_ok.mp h)

theorem bind [IsTrans σ r] {g : α → Tx σ ε β} (hx : Moves r x) (hg : ∀ a, Moves r (g a)) :
    Moves r (x >>= g) := by
  intro s b s' h
  obtain ⟨a, s1, h1, h2⟩ := bind_ok.mp h
  exact IsTrans.trans _ _ _ (hx s a s1 h1) (hg a s1 b s' h2)

theorem require_bind {c : Prop} [Decidable c] {e : ε} {g : Unit → Tx σ ε β}
    (hg : c → Moves r (g ())) : Moves r (Tx.require c e >>= g) := by
  intro s b s' h
  obtain ⟨_, _, h1, h2⟩ := bind_ok.mp h
  obtain ⟨hc, rfl⟩ := require_ok.mp h1
  exact hg hc s b s' h2

variable [Std.Refl r]

theorem pure (a : α) : Moves r (Pure.pure a : Tx σ ε α) := by
  intro s b s' h
  rw [(pure_ok.mp h).2]
  exact Std.Refl.refl s'

theorem read (g : σ → α) : Moves r (Tx.read g : Tx σ ε α) := by
  intro s a s' h
  rw [(read_ok.mp h).2]
  exact Std.Refl.refl s'

theorem require (c : Prop) [Decidable c] (e : ε) : Moves r (Tx.require c e : Tx σ ε Unit) := by
  intro s a s' h
  rw [(require_ok.mp h).2]
  exact Std.Refl.refl s'

theorem when {c : Prop} [Decidable c] {x : Tx σ ε Unit} (hx : Moves r x) :
    Moves r (Tx.when c x) :=
  ite hx (pure ())

omit [Std.Refl r] in
theorem change {valid : σ → Prop} [DecidablePred valid] {f : σ → σ} {e : ε} (hf : ∀ s, r s (f s)) :
    Moves r (Tx.change valid f e) := by
  intro s a s' h
  rw [← (change_ok.mp h).2]
  exact hf s

theorem orRollback {x : Tx σ ε (Option α)} (hx : Moves r x) : Moves r (Tx.orRollback x) := by
  intro s a s' h
  rcases orRollback_ok.mp h with ⟨-, h⟩ | ⟨-, rfl, -⟩
  · exact hx s a s' h
  · exact Std.Refl.refl s

variable [IsTrans σ r]

theorem forEach {xs : List β} {g : β → Tx σ ε Unit} (hg : ∀ b ∈ xs, Moves r (g b)) :
    Moves r (Tx.forEach xs g) := by
  induction xs with
  | nil => exact pure ()
  | cons b bs ih =>
    exact bind (hg b (.head _)) fun _ => ih fun b hb => hg b (.tail _ hb)

theorem collect {xs : List β} {g : β → Tx σ ε α} (hg : ∀ b ∈ xs, Moves r (g b)) :
    Moves r (Tx.collect xs g) := by
  induction xs with
  | nil => exact pure []
  | cons b bs ih =>
    exact bind (hg b (.head _)) fun c =>
      bind (ih fun b hb => hg b (.tail _ hb)) fun cs => pure (c :: cs)

end Moves

/-- A committed run of `x` leaves `f` of the state alone. -/
abbrev Keeps (f : σ → γ) (x : Tx σ ε α) : Prop := Moves (fun s s' => f s' = f s) x

instance (f : σ → γ) : Std.Refl fun s s' => f s' = f s := ⟨fun _ => rfl⟩

instance (f : σ → γ) : IsTrans σ fun s s' => f s' = f s := ⟨fun _ _ _ h h' => h'.trans h⟩

/-- A run of `x` from `s` commits. -/
def Succeeds (x : Tx σ ε α) (s : σ) : Prop := ∃ a s', x s = .ok (a, s')

namespace Succeeds

variable {s : σ} {x : Tx σ ε α}

theorem pure (a : α) : Succeeds (Pure.pure a : Tx σ ε α) s := ⟨a, s, rfl⟩

theorem read (f : σ → α) : Succeeds (Tx.read f : Tx σ ε α) s := ⟨f s, s, rfl⟩

theorem require {c : Prop} [Decidable c] (hc : c) (e : ε) :
    Succeeds (Tx.require c e : Tx σ ε Unit) s :=
  ⟨(), s, require_ok.mpr ⟨hc, rfl⟩⟩

/-- A body commits if its parts do, each from where the part before it can end. -/
theorem bind {f : α → Tx σ ε β} (hx : Succeeds x s)
    (hf : ∀ a s', x s = .ok (a, s') → Succeeds (f a) s') : Succeeds (x >>= f) s := by
  obtain ⟨a, s1, h1⟩ := hx
  obtain ⟨b, s2, h2⟩ := hf a s1 h1
  exact ⟨b, s2, bind_ok.mpr ⟨a, s1, h1, h2⟩⟩

theorem ite {c : Prop} [Decidable c] {y : Tx σ ε α} (hx : c → Succeeds x s)
    (hy : ¬ c → Succeeds y s) : Succeeds (if c then x else y) s := by
  by_cases hc : c
  · rw [if_pos hc]
    exact hx hc
  · rw [if_neg hc]
    exact hy hc

theorem mapError {ε' : Type} {f : ε → ε'} (hx : Succeeds x s) : Succeeds (Tx.mapError f x) s := by
  obtain ⟨a, s', h⟩ := hx
  exact ⟨a, s', mapError_ok.mpr h⟩

/-- A loop of rounds that only read commits if every round does. -/
theorem collect {xs : List β} {g : β → Tx σ ε γ} (hg : ∀ b ∈ xs, ∃ c, g b s = .ok (c, s)) :
    ∃ cs, Tx.collect xs g s = .ok (cs, s) := by
  induction xs with
  | nil => exact ⟨[], rfl⟩
  | cons b bs ih =>
    obtain ⟨c, hc⟩ := hg b (.head _)
    obtain ⟨cs, hcs⟩ := ih fun b' hb' => hg b' (.tail _ hb')
    exact ⟨c :: cs, bind_ok.mpr ⟨c, s, hc, bind_ok.mpr ⟨cs, s, hcs, rfl⟩⟩⟩

/-- A loop commits if every round does in what the rounds before it keep. -/
theorem forEach {xs : List β} {g : β → Tx σ ε Unit} {I : List β → σ → Prop}
    (hstep : ∀ b bs t, I (b :: bs) t → Succeeds (g b) t ∧ ∀ t', g b t = .ok ((), t') → I bs t')
    (hinit : I xs s) : Succeeds (Tx.forEach xs g) s := by
  induction xs generalizing s with
  | nil => exact pure ()
  | cons b bs ih =>
    obtain ⟨hb, hnext⟩ := hstep b bs s hinit
    exact bind hb fun _ s' h => ih (hnext s' h)

end Succeeds

/-- A body run as a transaction: what its caller is told and what is committed.  A failed body is
rolled back. -/
def commit (x : Tx σ ε α) (s : σ) : Except ε α × σ :=
  match x s with
  | .ok (a, s') => (.ok a, s')
  | .error e => (.error e, s)

theorem commit_of_ok (h : x s = .ok (a, s')) : x.commit s = (.ok a, s') := by
  simp only [commit, h]

theorem commit_of_error (h : x s = .error e) : x.commit s = (.error e, s) := by
  simp only [commit, h]

theorem toOption_eq_some {x : Except ε α} : x.toOption = some a ↔ x = .ok a := by
  cases x <;> simp [Except.toOption]

theorem isNone_iff {x : Except ε α} : x.toOption.isNone = true ↔ ∃ e, x = .error e := by
  cases x <;> simp [Except.toOption]

theorem any_iff {x : Except ε (α × β)} {P : α → β → Prop} [∀ a b, Decidable (P a b)] :
    (x.toOption.any fun p => decide (P p.1 p.2)) = true ↔ ∃ a b, x = .ok (a, b) ∧ P a b := by
  cases x with
  | error e => simp [Except.toOption]
  | ok p =>
    obtain ⟨a, b⟩ := p
    simp [Except.toOption]

/-! Whether a computation fails, and whether it ends in a given way, is computed by running it. -/

instance {x : Except ε α} : Decidable (∃ e, x = .error e) := decidable_of_iff _ isNone_iff

instance {x : Except ε (α × β)} {P : α → β → Prop} [∀ a b, Decidable (P a b)] :
    Decidable (∃ a b, x = .ok (a, b) ∧ P a b) :=
  decidable_of_iff _ any_iff

end Tx
