import Mathlib.Logic.Relation

/-!
# Labelled transition systems

Initial states, labelled steps, the states reached from an initial state, and
the two induction rules every invariant below is proved with.  `restrict` keeps
only the steps that meet a condition; a run of the restricted system is a run
whose every step meets it.
-/

/-- A transition system over states `S` with labels `L`. -/
structure Machine (S L : Type) where
  init : S → Prop
  step : S → L → S → Prop

namespace Machine

variable {S L : Type} {M : Machine S L} {P : S → Prop} {s : S} {trace : List (S × L × S)}

/-- The states reached from an initial state. -/
inductive Reachable (M : Machine S L) : S → Prop
  | init {s : S} : M.init s → Reachable M s
  | step {s : S} {l : L} {s' : S} : Reachable M s → M.step s l s' → Reachable M s'

/-- Zero or more steps from one state to another. -/
inductive Path (M : Machine S L) : S → S → Prop
  | refl (s : S) : Path M s s
  | tail {s t : S} {l : L} {t' : S} : Path M s t → M.step t l t' → Path M s t'

/-- The same system, taking only the steps that meet `ok`. -/
def restrict (M : Machine S L) (ok : S → L → S → Prop) : Machine S L where
  init := M.init
  step s l s' := M.step s l s' ∧ ok s l s'

/-- A property of the initial states that every step preserves holds in every reachable state. -/
theorem Reachable.invariant (hinit : ∀ s, M.init s → P s)
    (hstep : ∀ s l s', M.Reachable s → P s → M.step s l s' → P s') (h : M.Reachable s) : P s := by
  induction h with
  | init h => exact hinit _ h
  | step hs hst ih => exact hstep _ _ _ hs ih hst

theorem Reachable.of_restrict {ok : S → L → S → Prop} (h : (M.restrict ok).Reachable s) :
    M.Reachable s := by
  induction h with
  | init h => exact .init h
  | step _ hst ih => exact .step ih hst.1

theorem Path.of_restrict {ok : S → L → S → Prop} {t : S} (h : (M.restrict ok).Path s t) :
    M.Path s t := by
  induction h with
  | refl => exact .refl _
  | tail _ hst ih => exact .tail ih hst.1

/-- Restricting twice is restricting to both conditions. -/
theorem Path.restrict_and {p q : S → L → S → Prop} {t : S}
    (h : (M.restrict fun s l s' => p s l s' ∧ q s l s').Path s t) :
    ((M.restrict p).restrict q).Path s t := by
  induction h with
  | refl => exact .refl _
  | tail _ hst ih => exact .tail ih ⟨⟨hst.1, hst.2.1⟩, hst.2.2⟩

theorem Path.trans {t u : S} (h : M.Path s t) (h' : M.Path t u) : M.Path s u := by
  induction h' with
  | refl => exact h
  | tail _ hst ih => exact .tail ih hst

theorem Reachable.path {t : S} (h : M.Reachable s) (hp : M.Path s t) : M.Reachable t := by
  induction hp with
  | refl => exact h
  | tail _ hst ih => exact .step ih hst

/-- A property that every step preserves is carried along a path that starts in a reachable state. -/
theorem Path.invariant {t : S} (h : M.Path s t) (hs : M.Reachable s)
    (hstep : ∀ s l s', M.Reachable s → P s → M.step s l s' → P s') (h0 : P s) : P t := by
  induction h with
  | refl => exact h0
  | tail hp hst ih => exact hstep _ _ _ (hs.path hp) ih hst

/-- A run: the steps taken, the latest first, and the state they lead to. -/
inductive Run (M : Machine S L) : List (S × L × S) → S → Prop
  | init {s : S} : M.init s → Run M [] s
  | step {trace : List (S × L × S)} {s : S} {l : L} {s' : S} :
      Run M trace s → M.step s l s' → Run M ((s, l, s') :: trace) s'

theorem Run.reachable (h : M.Run trace s) : M.Reachable s := by
  induction h with
  | init h => exact .init h
  | step _ hst ih => exact .step ih hst

theorem Reachable.run (h : M.Reachable s) : ∃ trace, M.Run trace s := by
  induction h with
  | init h => exact ⟨[], .init h⟩
  | step _ hst ih =>
    obtain ⟨trace, hrun⟩ := ih
    exact ⟨_, .step hrun hst⟩

/-- A step of a run leads from a reachable state to one on the way to the last. -/
theorem Run.of_mem {u : S} {l : L} {u' : S} (h : M.Run trace s) (hmem : (u, l, u') ∈ trace) :
    M.Reachable u ∧ M.step u l u' ∧ M.Path u' s := by
  induction h with
  | init => cases hmem
  | step hrun hst ih =>
    rcases List.mem_cons.mp hmem with heq | hmem
    · simp only [Prod.mk.injEq] at heq
      obtain ⟨rfl, rfl, rfl⟩ := heq
      exact ⟨hrun.reachable, hst, .refl _⟩
    · obtain ⟨hu, hstep, hpath⟩ := ih hmem
      exact ⟨hu, hstep, .tail hpath hst⟩

/-- What holds now and did not hold initially was brought about by a step of the run. -/
theorem Run.exists_step (h : M.Run trace s) (hinit : ∀ s, M.init s → ¬ P s) (hP : P s) :
    ∃ u l u', (u, l, u') ∈ trace ∧ M.step u l u' ∧ ¬ P u ∧ P u' := by
  induction h with
  | init h => exact absurd hP (hinit _ h)
  | @step trace s l s' hrun hst ih =>
    by_cases hs : P s
    · obtain ⟨u, l, u', hmem, hrest⟩ := ih hs
      exact ⟨u, l, u', .tail _ hmem, hrest⟩
    · exact ⟨s, l, s', .head _, hst, hs, hP⟩

/-- Takes the steps that `next` computes, one for each order, if it computes them all. -/
def follow {O : Type} (next : O → S → Option (L × S)) : List O → S → Option S
  | [], s => some s
  | o :: os, s => (next o s).bind fun r => follow next os r.2

theorem follow_path {O : Type} {next : O → S → Option (L × S)}
    (hnext : ∀ o s l s', next o s = some (l, s') → M.step s l s') {os : List O} {s' : S}
    (h : follow next os s = some s') : M.Path s s' := by
  induction os generalizing s with
  | nil =>
    obtain rfl := Option.some.inj h
    exact .refl s
  | cons o os ih =>
    obtain ⟨⟨l, t⟩, ht, h⟩ := Option.bind_eq_some_iff.mp h
    have hfst : M.Path s t := .tail (.refl s) (hnext o s l t ht)
    exact hfst.trans (ih h)

end Machine
