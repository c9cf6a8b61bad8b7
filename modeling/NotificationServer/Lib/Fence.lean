import Mathlib.Data.List.Chain
import NotificationServer.Lib.Transition

/-!
# An append-only log behind a latch

Numbered entries are appended in increasing order, each allowed after the last
one; the latch closes the log for good.  A system refines it when every step
appends one entry, sets the latch or changes nothing here; what holds of the log
then holds in every run of the system.
-/

/-- The entries of a log, the latest first, and the value of its latch. -/
structure Fence (K R : Type) where
  log : List K
  latch : Option R

namespace Fence

variable {K R : Type}

/-- One step of the log. -/
inductive Step (seq : K → Nat) (follows : K → K → Prop) : Fence K R → Fence K R → Prop
  | stay (f : Fence K R) : Step seq follows f f
  | append {log : List K} (k : K) : (∀ p ∈ log.head?, seq p < seq k ∧ follows p k) →
      Step seq follows ⟨log, none⟩ ⟨k :: log, none⟩
  | latch {log : List K} (r : R) : Step seq follows ⟨log, none⟩ ⟨log, some r⟩

/-- The number of the latest entry. -/
def level (seq : K → Nat) (log : List K) : Nat := (log.head?.map seq).getD 0

/-- Entries are numbered in order and each was allowed after the one before it. -/
structure Ordered (seq : K → Nat) (follows : K → K → Prop) (log : List K) : Prop where
  increasing : log.Pairwise fun newer older => seq older < seq newer
  follows : log.IsChain fun newer older => follows older newer

variable {seq : K → Nat} {follows : K → K → Prop} {f f' : Fence K R}

theorem Ordered.nil : Ordered seq follows [] := ⟨.nil, .nil⟩

theorem Ordered.cons {log : List K} {k : K} (h : Ordered seq follows log)
    (hk : ∀ p ∈ log.head?, seq p < seq k ∧ follows p k) : Ordered seq follows (k :: log) := by
  cases log with
  | nil => exact ⟨List.pairwise_singleton _ _, .singleton _⟩
  | cons p log =>
    obtain ⟨hseq, hfollows⟩ := hk p rfl
    refine ⟨List.pairwise_cons.mpr ⟨?_, h.increasing⟩, .cons_cons hfollows h.follows⟩
    intro older hmem
    rcases List.mem_cons.mp hmem with rfl | hmem
    · exact hseq
    · exact (List.rel_of_pairwise_cons h.increasing hmem).trans hseq

/-- Two entries with one number are the same. -/
theorem Ordered.eq_of_seq {log : List K} {a b : K} (h : Ordered seq follows log) (ha : a ∈ log)
    (hb : b ∈ log) (hseq : seq a = seq b) : a = b := by
  induction log with
  | nil => cases ha
  | cons p log ih =>
    obtain ⟨hlt, hrest⟩ := List.pairwise_cons.mp h.increasing
    have hordered : Ordered seq follows log := ⟨hrest, h.follows.tail⟩
    rcases List.mem_cons.mp ha with rfl | ha'
    · rcases List.mem_cons.mp hb with rfl | hb'
      · rfl
      · have := hlt b hb'
        omega
    · rcases List.mem_cons.mp hb with rfl | hb'
      · have := hlt a ha'
        omega
      · exact ih hordered ha' hb'

theorem Step.ordered (h : Step seq follows f f') (hf : Ordered seq follows f.log) :
    Ordered seq follows f'.log := by
  cases h with
  | stay => exact hf
  | append k hk => exact hf.cons hk
  | latch r => exact hf

theorem Step.suffix (h : Step seq follows f f') : f.log <:+ f'.log := by
  cases h with
  | stay => exact List.suffix_rfl
  | append k hk => exact List.suffix_cons k _
  | latch r => exact List.suffix_rfl

theorem Step.level_le (h : Step seq follows f f') : level seq f.log ≤ level seq f'.log := by
  cases h with
  | stay => exact le_refl _
  | @append log k hk =>
    cases log with
    | nil => exact Nat.zero_le _
    | cons p log => exact (hk p rfl).1.le
  | latch r => exact le_refl _

theorem Step.eq_of_latched {r : R} (h : Step seq follows f f') (hf : f.latch = some r) :
    f' = f := by
  cases h with
  | stay => rfl
  | _ => cases hf

/-- A log behind a row that latches it from when the row is closed. -/
def behind (log : List K) (row : Option R) (closed : R → Prop) [DecidablePred closed] : Fence K R :=
  ⟨log, row.filter fun r => closed r⟩

section Behind

variable {log : List K} {row row' : Option R} {closed : R → Prop} [DecidablePred closed] {r : R}

theorem behind_latch : (behind log row closed).latch = some r ↔ row = some r ∧ closed r := by
  simp [behind, Option.filter_eq_some_iff]

theorem behind_of_open (h : ∀ r ∈ row, ¬ closed r) : behind log row closed = ⟨log, none⟩ := by
  cases row with
  | none => rfl
  | some r => simp [behind, h r rfl]

theorem Step.of_open (h : ∀ r ∈ row, ¬ closed r) (h' : ∀ r ∈ row', ¬ closed r) :
    Step seq follows (behind log row closed) (behind log row' closed) := by
  rw [behind_of_open h, behind_of_open h']
  exact .stay _

theorem Step.of_closing (h : ∀ r ∈ row, ¬ closed r) (hr : closed r) :
    Step seq follows (behind log row closed) (behind log (some r) closed) := by
  rw [behind_of_open h, show behind log (some r) closed = ⟨log, some r⟩ by simp [behind, hr]]
  exact .latch r

theorem Step.of_append {k : K} (h : ∀ r ∈ row, ¬ closed r) (h' : ∀ r ∈ row', ¬ closed r)
    (hk : ∀ p ∈ log.head?, seq p < seq k ∧ follows p k) :
    Step seq follows (behind log row closed) (behind (k :: log) row' closed) := by
  rw [behind_of_open h, behind_of_open h']
  exact .append k hk

/-- A row that keeps the number of the latest entry, if there is one. -/
theorem level_of_row {number : R → Nat} (hnone : row = none → log = [])
    (hsome : ∀ r ∈ row, number r = level seq log) : (row.map number).getD 0 = level seq log := by
  cases row with
  | none =>
    rw [hnone rfl]
    rfl
  | some r => exact hsome r rfl

end Behind

end Fence

/-- Every step of the system is a step of the log. -/
structure Machine.Refines {S L K R : Type} (M : Machine S L) (seq : K → Nat)
    (follows : K → K → Prop) (view : S → Fence K R) : Prop where
  init : ∀ s, M.init s → view s = ⟨[], none⟩
  step : ∀ s l s', M.Reachable s → M.step s l s' → Fence.Step seq follows (view s) (view s')

namespace Machine.Refines

variable {S L K R : Type} {M : Machine S L} {seq : K → Nat} {follows : K → K → Prop}
  {view : S → Fence K R} {s s' : S}

theorem ordered (h : M.Refines seq follows view) (hs : M.Reachable s) :
    Fence.Ordered seq follows (view s).log := by
  induction hs with
  | init hinit =>
    rw [h.init _ hinit]
    exact .nil
  | step hs hst ih => exact (h.step _ _ _ hs hst).ordered ih

theorem suffix (h : M.Refines seq follows view) (hs : M.Reachable s) (hp : M.Path s s') :
    (view s).log <:+ (view s').log := by
  induction hp with
  | refl => exact List.suffix_rfl
  | tail hp hst ih => exact ih.trans (h.step _ _ _ (hs.path hp) hst).suffix

theorem level_le (h : M.Refines seq follows view) (hs : M.Reachable s) (hp : M.Path s s') :
    Fence.level seq (view s).log ≤ Fence.level seq (view s').log := by
  induction hp with
  | refl => exact le_refl _
  | tail hp hst ih => exact ih.trans (h.step _ _ _ (hs.path hp) hst).level_le

theorem latched (h : M.Refines seq follows view) {r : R} (hs : M.Reachable s) (hp : M.Path s s')
    (hr : (view s).latch = some r) : view s' = view s := by
  induction hp with
  | refl => rfl
  | tail hp hst ih =>
    have hstep := h.step _ _ _ (hs.path hp) hst
    rw [hstep.eq_of_latched (ih ▸ hr), ih]

/-- Where the steps of a run record entries under numbers, one number has one entry. -/
theorem recorded_unique {H : Type} {value : K → H} {recorded : L → Option (Nat × H)}
    (h : M.Refines seq follows view)
    (hrec : ∀ {u e u' n x}, M.Reachable u → M.step u e u' → recorded e = some (n, x) →
      ∃ k ∈ (view u').log, seq k = n ∧ value k = x)
    {trace : List (S × L × S)} (hrun : M.Run trace s) {u u' w w' : S} {e e' : L} {n : Nat}
    {x y : H} (he : (u, e, u') ∈ trace) (he' : (w, e', w') ∈ trace)
    (hx : recorded e = some (n, x)) (hy : recorded e' = some (n, y)) : x = y := by
  have hstored : ∀ {u u' : S} {e : L} {x : H}, (u, e, u') ∈ trace → recorded e = some (n, x) →
      ∃ k ∈ (view s).log, seq k = n ∧ value k = x := by
    intro u u' e x hmem hx
    obtain ⟨hu, hstep, hpath⟩ := hrun.of_mem hmem
    obtain ⟨k, hk, hrest⟩ := hrec hu hstep hx
    exact ⟨k, (h.suffix (.step hu hstep) hpath).subset hk, hrest⟩
  obtain ⟨k, hk, hkseq, rfl⟩ := hstored he hx
  obtain ⟨k', hk', hkseq', rfl⟩ := hstored he' hy
  rw [(h.ordered hrun.reachable).eq_of_seq hk hk' (hkseq.trans hkseq'.symm)]

end Machine.Refines
