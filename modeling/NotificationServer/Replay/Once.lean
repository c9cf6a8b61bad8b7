import NotificationServer.Replay.Store

/-!
# A token is consumed at most once

What every statement keeps: one transaction at a time holds a key, a key that is
held has no committed row, a purge touches only rows past their deadline, and a
call that won left a row that lasts until the deadline.  A call that inserts after
the purge of such a row finds its second clock sample past the deadline.
-/

namespace NotificationServer.Replay

open Keyset Trust

def Call.Holds (c : Call) : Prop := c.pending.isSome

def Call.Won (c : Call) : Prop := c.phase = .returned (.ok true)

def Call.Confirmed (c : Call) : Prop := ∃ t, c.phase = .confirmed t

def ConsumeRequest.Same (r r' : ConsumeRequest) : Prop :=
  r.key = r'.key ∧ r.retainUntil = r'.retainUntil

theorem Call.pending_key {c : Call} {r : ReceiptRow} (h : c.pending = some r) :
    r.key = c.request.key := by
  unfold Call.pending at h
  split at h
  · cases h
    rfl
  · cases h
    rfl
  · cases h

theorem Call.Confirmed.holds {c : Call} (h : c.Confirmed) : c.Holds := by
  obtain ⟨t, ht⟩ := h
  simp [Call.Holds, Call.pending, ht]

theorem ReplayState.writing_iff {s : ReplayState} {key : Key} :
    s.Writing key ↔ (∃ c ∈ s.calls, c.Holds ∧ c.request.key = key) ∨
      ∃ p ∈ s.purges, key ∈ p.deleting := by
  refine or_congr_left (exists_congr fun c => and_congr_right fun _ => ?_)
  constructor
  · rintro ⟨r, hr, rfl⟩
    have hpend := Option.mem_toList.mp hr
    exact ⟨Option.isSome_of_mem hpend, (Call.pending_key hpend).symm⟩
  · rintro ⟨hhold, rfl⟩
    obtain ⟨r, hr⟩ := Option.isSome_iff_exists.mp hhold
    exact ⟨r, Option.mem_toList.mpr hr, Call.pending_key hr⟩

inductive Change (s s' : ReplayState) : Prop
  | tick (clock : Time) : s.clock ≤ clock → s' = { s with clock := clock } → Change s s'
  | arrive (c : Call) : ¬ c.Holds → ¬ c.Won → s' = { s with calls := s.calls ++ [c] } → Change s s'
  | quiet (i : Nat) (c : Call) (phase : Phase) : s.calls[i]? = some c →
      ¬ Call.Holds ⟨c.request, phase⟩ → ¬ Call.Won ⟨c.request, phase⟩ →
      s' = s.setPhase i c phase → Change s s'
  | insert (i : Nat) (c : Call) (t : Time) : s.calls[i]? = some c →
      ¬ s.Writing c.request.key → (∀ r ∈ s.receipts, r.key ≠ c.request.key) →
      s' = s.setPhase i c (.inserted t) → Change s s'
  | confirm (i : Nat) (c : Call) (t : Time) : s.calls[i]? = some c → c.Holds →
      s.clock ≤ c.request.retainUntil → s' = s.setPhase i c (.confirmed t) → Change s s'
  | commit (i : Nat) (c : Call) (t : Time) (phase : Phase) : s.calls[i]? = some c → c.Confirmed →
      ¬ Call.Holds ⟨c.request, phase⟩ →
      s' = { s.setPhase i c phase with receipts := c.request.row t :: s.receipts } → Change s s'
  | purge (purges : List Purge) : (∀ p ∈ purges, p ∈ s.purges ∨ p.deleting = []) →
      s' = { s with purges := purges } → Change s s'
  | delete (purges : List Purge) (key : Key) (r : ReceiptRow) : ¬ s.Writing key → r ∈ s.receipts →
      r.key = key → r.deleteAfter < s.clock →
      (∀ p ∈ purges, p ∈ s.purges ∨ ∀ k ∈ p.deleting, k = key ∨ ∃ q ∈ s.purges, k ∈ q.deleting) →
      s' = { s with purges := purges } → Change s s'
  | commitPurge (purges : List Purge) (deleted : List Key) : .running deleted ∈ s.purges →
      (∀ p ∈ purges, p ∈ s.purges ∨ p.deleting = []) →
      s' = { s with receipts := s.receipts.filter fun r => r.key ∉ deleted, purges := purges } →
      Change s s'

section Steps

variable {store : ReplayStore} {s s' : ReplayState} {e : ReplayEvent}

theorem mem_set_ended {purges : List Purge} {i : Nat} {p : Purge} (h : p ∈ purges.set i .ended) :
    p ∈ purges ∨ p.deleting = [] := by
  rcases List.mem_or_eq_of_mem_set h with h | rfl
  · exact .inl h
  · exact .inr rfl

theorem performPurge_change {i : Nat} {deleted : List Key}
    (hi : s.purges[i]? = some (.running deleted))
    (h : ReplayStore.performPurge s i deleted e = some s') : Change s s' := by
  have hmem : Purge.running deleted ∈ s.purges := List.mem_of_getElem? hi
  cases e with
  | delete p key =>
    simp only [ReplayStore.performPurge, Option.ite_none_right_eq_some, Option.some.injEq] at h
    obtain ⟨⟨hwr, r, hr, hkey, hdue⟩, rfl⟩ := h
    refine .delete _ key r hwr hr hkey hdue (fun q hq => ?_) rfl
    rcases List.mem_or_eq_of_mem_set hq with hq | rfl
    · exact .inl hq
    · refine .inr fun k hk => (List.mem_cons.mp hk).imp id fun hk => ⟨_, hmem, hk⟩
  | commitPurge p =>
    cases h
    exact .commitPurge _ deleted hmem (fun q hq => mem_set_ended hq) rfl
  | failPurge p =>
    cases h
    exact .purge _ (fun q hq => mem_set_ended hq) rfl
  | tick | call | sampleDatabaseNow | insert | sampleCommitClock | commit | fail | purge => cases h

theorem sample_change {i : Nat} {c : Call} {next : Phase} (hi : s.calls[i]? = some c)
    (hnext : s.clock ≤ c.request.retainUntil → Change s (s.setPhase i c next)) :
    Change s (store.sample s i c next) := by
  unfold ReplayStore.sample
  split
  · exact .quiet i c _ hi (by simp [Call.Holds, Call.pending]) (by simp [Call.Won]) rfl
  · next hclk => exact hnext (by lia)

theorem insertReceipt_change {i : Nat} {c : Call} {t : Time} (hi : s.calls[i]? = some c)
    (h : store.insertReceipt s i c t = some s') : Change s s' := by
  unfold ReplayStore.insertReceipt at h
  split at h
  · cases h
  next hwr =>
  split at h
  · cases h
    exact .quiet i c _ hi (by simp [Call.Holds, Call.pending]) (by simp [Call.Won]) rfl
  next hnone =>
  push Not at hnone
  split at h
  · cases h
    exact .insert i c t hi hwr hnone rfl
  · cases h
    exact .quiet i c _ hi (by simp [Call.Holds, Call.pending]) (by simp [Call.Won]) rfl

theorem performCall_change {i : Nat} {c : Call} (hi : s.calls[i]? = some c)
    (h : store.performCall s i c e = some s') : Change s s' := by
  cases e with
  | sampleDatabaseNow j =>
    simp only [ReplayStore.performCall] at h
    split at h
    · cases h
      exact sample_change hi fun _ =>
        .quiet i c _ hi (by simp [Call.Holds, Call.pending]) (by simp [Call.Won]) rfl
    · cases h
  | insert j =>
    simp only [ReplayStore.performCall] at h
    split at h
    · exact insertReceipt_change hi h
    · cases h
  | sampleCommitClock j =>
    simp only [ReplayStore.performCall] at h
    split at h
    · next t hph =>
      cases h
      have hhold : c.Holds := by simp [Call.Holds, Call.pending, hph]
      exact sample_change hi fun hclk => .confirm i c t hi hhold hclk rfl
    · cases h
  | commit j acknowledged =>
    simp only [ReplayStore.performCall] at h
    split at h
    · cases h
      refine .quiet i c _ hi (by simp [Call.Holds, Call.pending, ReplayStore.committed]) ?_ rfl
      cases acknowledged <;> simp [Call.Won, ReplayStore.committed]
    · next t hph =>
      cases h
      exact .commit i c t _ hi ⟨t, hph⟩
        (by simp [Call.Holds, Call.pending, ReplayStore.committed]) rfl
    · cases h
  | fail j =>
    simp only [ReplayStore.performCall] at h
    split at h
    · cases h
    · cases h
      exact .quiet i c _ hi (by simp [Call.Holds, Call.pending]) (by simp [Call.Won]) rfl
  | tick | call | purge | delete | commitPurge | failPurge => cases h

theorem perform_change (h : store.perform e s = some s') : Change s s' := by
  have hcall : ∀ i, (s.calls[i]?.bind fun c => store.performCall s i c e) = some s' →
      Change s s' := by
    intro i h
    obtain ⟨c, hi, h⟩ := Option.bind_eq_some_iff.mp h
    exact performCall_change hi h
  have hpurge : ∀ i (k : Purge → Option ReplayState), k .ended = none →
      (∀ deleted, k (.running deleted) = ReplayStore.performPurge s i deleted e) →
      s.purges[i]?.bind k = some s' → Change s s' := by
    intro i k hend hrunning h
    obtain ⟨q, hi, h⟩ := Option.bind_eq_some_iff.mp h
    cases q with
    | running deleted => exact performPurge_change hi (hrunning deleted ▸ h)
    | ended => cases hend.symm.trans h
  cases e with
  | tick clock =>
    simp only [ReplayStore.perform, Option.ite_none_right_eq_some, Option.some.injEq] at h
    exact .tick clock h.1 h.2.symm
  | call request =>
    cases h
    refine .arrive _ ?_ ?_ rfl
    · split <;> simp [Call.Holds, Call.pending]
    · split <;> simp [Call.Won]
  | sampleDatabaseNow i | insert i | sampleCommitClock i | commit i acknowledged | fail i =>
    exact hcall i h
  | purge =>
    cases h
    refine .purge _ (fun p hp => ?_) rfl
    rcases List.mem_append.mp hp with hp | hp
    · exact .inl hp
    · obtain rfl := List.mem_singleton.mp hp
      exact .inr rfl
  | delete p key | commitPurge p | failPurge p => exact hpurge p _ rfl (fun _ => rfl) h

end Steps

theorem getElem?_set_of {α : Type} {l : List α} {i j : Nat} {b x : α}
    (h : (l.set i b)[j]? = some x) : (j = i ∧ x = b) ∨ (j ≠ i ∧ l[j]? = some x) := by
  by_cases hij : j = i
  · subst hij
    by_cases hlt : j < l.length
    · rw [List.getElem?_set_self hlt, Option.some.injEq] at h
      exact .inl ⟨rfl, h.symm⟩
    · rw [List.getElem?_eq_none (by simp; omega)] at h
      cases h
  · rw [List.getElem?_set_ne (by omega)] at h
    exact .inr ⟨hij, h⟩

structure Fenced (s : ReplayState) : Prop where
  keys : ∀ r ∈ s.receipts, ∀ r' ∈ s.receipts, r.key = r'.key → r = r'
  /-- One transaction at a time holds a key. -/
  sole : ∀ (i j : Nat) (a b : Call), s.calls[i]? = some a → s.calls[j]? = some b →
    a.Holds → b.Holds → a.request.key = b.request.key → i = j
  /-- A key that a call holds is not being purged. -/
  apart : ∀ c ∈ s.calls, c.Holds → ∀ p ∈ s.purges, c.request.key ∉ p.deleting
  /-- A key that a call holds has no committed row. -/
  fresh : ∀ c ∈ s.calls, c.Holds → ∀ r ∈ s.receipts, r.key ≠ c.request.key
  /-- Only rows past their deadline are purged. -/
  due : ∀ p ∈ s.purges, ∀ r ∈ s.receipts, r.key ∈ p.deleting → r.deleteAfter < s.clock
  /-- The row of a call that won lasts until the deadline. -/
  won : ∀ c ∈ s.calls, c.Won →
    (∃ r ∈ s.receipts, r.key = c.request.key ∧ r.deleteAfter = c.request.retainUntil) ∨
      c.request.retainUntil < s.clock
  /-- No call is about to win a token that another call won. -/
  confirmed : ∀ c ∈ s.calls, c.Confirmed → ∀ w ∈ s.calls, w.Won → ¬ w.request.Same c.request
  once : ∀ (i j : Nat) (a b : Call), s.calls[i]? = some a → s.calls[j]? = some b → a.Won → b.Won →
    a.request.Same b.request → i = j

namespace Fenced

variable {s s' : ReplayState}

theorem init (hrecs : s.receipts = []) (hcl : s.calls = []) (hpur : s.purges = []) : Fenced s := by
  constructor <;> simp [hrecs, hcl, hpur]

theorem tick (h : Fenced s) {clock : Time} (hclk : s.clock ≤ clock) :
    Fenced { s with clock := clock } where
  keys := h.keys
  sole := h.sole
  apart := h.apart
  fresh := h.fresh
  due p hp r hr hk := by
    have := h.due p hp r hr hk
    show r.deleteAfter < clock
    lia
  won c hc hwon := by
    refine (h.won c hc hwon).imp id fun hlt => ?_
    show c.request.retainUntil < clock
    lia
  confirmed := h.confirmed
  once := h.once

theorem arrive (h : Fenced s) {c : Call} (hhold : ¬ c.Holds) (hwon : ¬ c.Won) :
    Fenced { s with calls := s.calls ++ [c] } := by
  have hmem : ∀ {x}, x ∈ s.calls ++ [c] → (x.Holds ∨ x.Won) → x ∈ s.calls := by
    intro x hx hor
    rcases List.mem_append.mp hx with hx | hx
    · exact hx
    · obtain rfl := List.mem_singleton.mp hx
      exact absurd hor (by simp [hhold, hwon])
  have hget : ∀ {i : Nat} {x : Call}, (s.calls ++ [c])[i]? = some x → (x.Holds ∨ x.Won) →
      s.calls[i]? = some x := by
    intro i x hi hor
    by_cases hlt : i < s.calls.length
    · rwa [List.getElem?_append_left hlt] at hi
    · rw [List.getElem?_append_right (by omega)] at hi
      obtain rfl := List.mem_singleton.mp (List.mem_of_getElem? hi)
      exact absurd hor (by simp [hhold, hwon])
  constructor
  case keys => exact h.keys
  case sole =>
    intro i j a b hi hj ha hb hkey
    exact h.sole i j a b (hget hi (.inl ha)) (hget hj (.inl hb)) ha hb hkey
  case apart => exact fun x hx hxh => h.apart x (hmem hx (.inl hxh)) hxh
  case fresh => exact fun x hx hxh => h.fresh x (hmem hx (.inl hxh)) hxh
  case due => exact h.due
  case won => exact fun x hx hxw => h.won x (hmem hx (.inr hxw)) hxw
  case confirmed =>
    intro x hx hxc w hw hww
    exact h.confirmed x (hmem hx (.inl hxc.holds)) hxc w (hmem hw (.inr hww)) hww
  case once =>
    intro i j a b hi hj ha hb hsame
    exact h.once i j a b (hget hi (.inr ha)) (hget hj (.inr hb)) ha hb hsame

/-- A call moves on without winning: it may take a key that is free, and may be confirmed while it
holds its key before the deadline. -/
theorem setPhase (h : Fenced s) {i : Nat} {c : Call} {phase : Phase} (hi : s.calls[i]? = some c)
    (hhold : Call.Holds ⟨c.request, phase⟩ →
      c.Holds ∨ ¬ s.Writing c.request.key ∧ ∀ r ∈ s.receipts, r.key ≠ c.request.key)
    (hwon : ¬ Call.Won ⟨c.request, phase⟩)
    (hconf : Call.Confirmed ⟨c.request, phase⟩ → c.Holds ∧ s.clock ≤ c.request.retainUntil) :
    Fenced (s.setPhase i c phase) := by
  have hc : c ∈ s.calls := List.mem_of_getElem? hi
  -- the key of a call that holds one is held by no other call
  have hoth : Call.Holds ⟨c.request, phase⟩ → ∀ j b, j ≠ i → s.calls[j]? = some b → b.Holds →
      b.request.key ≠ c.request.key := by
    intro hnew j b hji hj hb hkey
    rcases hhold hnew with hold | ⟨hwr, -⟩
    · exact hji (h.sole j i b c hj hi hb hold hkey)
    · exact hwr (ReplayState.writing_iff.mpr (.inl ⟨b, List.mem_of_getElem? hj, hb, hkey⟩))
  have hmem : ∀ {x}, x ∈ s.calls.set i ⟨c.request, phase⟩ → x ∈ s.calls ∨ x = ⟨c.request, phase⟩ :=
    fun hx => List.mem_or_eq_of_mem_set hx
  constructor
  case keys => exact h.keys
  case sole =>
    intro j k a b hj hk ha hb hkey
    rcases getElem?_set_of hj with ⟨rfl, rfl⟩ | ⟨hji, hj'⟩ <;>
      rcases getElem?_set_of hk with ⟨rfl, rfl⟩ | ⟨hki, hk'⟩
    · rfl
    · exact absurd hkey.symm (hoth ha k b hki hk' hb)
    · exact absurd hkey (hoth hb j a hji hj' ha)
    · exact h.sole j k a b hj' hk' ha hb hkey
  case apart =>
    intro x hx hxh p hp hdel
    rcases hmem hx with hx | rfl
    · exact h.apart x hx hxh p hp hdel
    · rcases hhold hxh with hold | ⟨hwr, -⟩
      · exact h.apart c hc hold p hp hdel
      · exact hwr (ReplayState.writing_iff.mpr (.inr ⟨p, hp, hdel⟩))
  case fresh =>
    intro x hx hxh
    rcases hmem hx with hx | rfl
    · exact h.fresh x hx hxh
    · rcases hhold hxh with hold | ⟨-, hnone⟩
      · exact h.fresh c hc hold
      · exact hnone
  case due => exact h.due
  case won =>
    intro x hx hxw
    rcases hmem hx with hx | rfl
    · exact h.won x hx hxw
    · exact absurd hxw hwon
  case confirmed =>
    intro x hx hxc w hw hww hsame
    rcases hmem hw with hw | rfl
    · rcases hmem hx with hx | rfl
      · exact h.confirmed x hx hxc w hw hww hsame
      -- the row of a winner is either still there or past the deadline
      · obtain ⟨hold, hclk⟩ := hconf hxc
        obtain ⟨hkey, hretain⟩ := hsame
        rcases h.won w hw hww with ⟨r, hr, hrkey, -⟩ | hlt
        · exact h.fresh c hc hold r hr (hrkey.trans hkey)
        · have : w.request.retainUntil = c.request.retainUntil := hretain
          lia
    · exact hwon hww
  case once =>
    intro j k a b hj hk ha hb hsame
    rcases getElem?_set_of hj with ⟨-, rfl⟩ | ⟨-, hj⟩
    · exact absurd ha hwon
    rcases getElem?_set_of hk with ⟨-, rfl⟩ | ⟨-, hk⟩
    · exact absurd hb hwon
    exact h.once j k a b hj hk ha hb hsame

theorem commit (h : Fenced s) {i : Nat} {c : Call} {t : Time} {phase : Phase}
    (hi : s.calls[i]? = some c) (hconf : c.Confirmed) (hhold : ¬ Call.Holds ⟨c.request, phase⟩) :
    Fenced { s.setPhase i c phase with receipts := c.request.row t :: s.receipts } := by
  have hc : c ∈ s.calls := List.mem_of_getElem? hi
  have hmem : ∀ {x}, x ∈ s.calls.set i ⟨c.request, phase⟩ → x ∈ s.calls ∨ x = ⟨c.request, phase⟩ :=
    fun hx => List.mem_or_eq_of_mem_set hx
  -- a call that still holds a key is another one, so its key differs
  have hoth : ∀ x ∈ s.calls.set i ⟨c.request, phase⟩, x.Holds →
      x ∈ s.calls ∧ x.request.key ≠ c.request.key := by
    intro x hx hxh
    obtain ⟨j, hj⟩ := List.getElem?_of_mem hx
    rcases getElem?_set_of hj with ⟨-, rfl⟩ | ⟨hji, hj⟩
    · exact absurd hxh hhold
    · exact ⟨List.mem_of_getElem? hj, fun hkey => hji (h.sole j i x c hj hi hxh hconf.holds hkey)⟩
  constructor
  case keys =>
    intro r hr r' hr' hkey
    rcases List.mem_cons.mp hr with rfl | hr <;> rcases List.mem_cons.mp hr' with rfl | hr'
    · rfl
    · exact absurd hkey.symm (h.fresh c hc hconf.holds r' hr')
    · exact absurd hkey (h.fresh c hc hconf.holds r hr)
    · exact h.keys r hr r' hr' hkey
  case sole =>
    intro j k a b hj hk ha hb hkey
    rcases getElem?_set_of hj with ⟨-, rfl⟩ | ⟨-, hj⟩
    · exact absurd ha hhold
    rcases getElem?_set_of hk with ⟨-, rfl⟩ | ⟨-, hk⟩
    · exact absurd hb hhold
    exact h.sole j k a b hj hk ha hb hkey
  case apart => exact fun x hx hxh => h.apart x (hoth x hx hxh).1 hxh
  case fresh =>
    intro x hx hxh r hr
    obtain ⟨hx, hne⟩ := hoth x hx hxh
    rcases List.mem_cons.mp hr with rfl | hr
    · exact hne.symm
    · exact h.fresh x hx hxh r hr
  case due =>
    intro p hp r hr hdel
    rcases List.mem_cons.mp hr with rfl | hr
    · exact absurd hdel (h.apart c hc hconf.holds p hp)
    · exact h.due p hp r hr hdel
  case won =>
    intro x hx hxw
    rcases hmem hx with hx | rfl
    · refine (h.won x hx hxw).imp (fun ⟨r, hr, hrow⟩ => ⟨r, .tail _ hr, hrow⟩) id
    · exact .inl ⟨_, .head _, rfl, rfl⟩
  case confirmed =>
    intro x hx hxc w hw hww hsame
    obtain ⟨hx, hne⟩ := hoth x hx hxc.holds
    rcases hmem hw with hw | rfl
    · exact h.confirmed x hx hxc w hw hww hsame
    · exact hne hsame.1.symm
  case once =>
    intro j k a b hj hk ha hb hsame
    rcases getElem?_set_of hj with ⟨rfl, rfl⟩ | ⟨-, hj'⟩ <;>
      rcases getElem?_set_of hk with ⟨rfl, rfl⟩ | ⟨-, hk'⟩
    · rfl
    · exact absurd ⟨hsame.1.symm, hsame.2.symm⟩
        (h.confirmed c hc hconf b (List.mem_of_getElem? hk') hb)
    · exact absurd hsame (h.confirmed c hc hconf a (List.mem_of_getElem? hj') ha)
    · exact h.once j k a b hj' hk' ha hb hsame

/-- A purge marks rows past their deadline that no call holds, or ends. -/
theorem purge (h : Fenced s) {purges : List Purge}
    (hpur : ∀ p ∈ purges, ∀ k ∈ p.deleting, (∃ q ∈ s.purges, k ∈ q.deleting) ∨
      ¬ s.Writing k ∧ ∀ r ∈ s.receipts, r.key = k → r.deleteAfter < s.clock) :
    Fenced { s with purges := purges } where
  keys := h.keys
  sole := h.sole
  apart c hc hhold p hp hdel := by
    rcases hpur p hp _ hdel with ⟨q, hq, hdel⟩ | ⟨hwr, -⟩
    · exact h.apart c hc hhold q hq hdel
    · exact hwr (ReplayState.writing_iff.mpr (.inl ⟨c, hc, hhold, rfl⟩))
  fresh := h.fresh
  due p hp r hr hdel := by
    rcases hpur p hp _ hdel with ⟨q, hq, hdel⟩ | ⟨-, hdue⟩
    · exact h.due q hq r hr hdel
    · exact hdue r hr rfl
  won := h.won
  confirmed := h.confirmed
  once := h.once

/-- The rows a purge removes when it commits are past their deadline. -/
theorem filter (h : Fenced s) {deleted : List Key} (hmem : .running deleted ∈ s.purges) :
    Fenced { s with receipts := s.receipts.filter fun r => r.key ∉ deleted } where
  keys r hr r' hr' := h.keys r (List.mem_of_mem_filter hr) r' (List.mem_of_mem_filter hr')
  sole := h.sole
  apart := h.apart
  fresh c hc hhold r hr := h.fresh c hc hhold r (List.mem_of_mem_filter hr)
  due p hp r hr hdel := h.due p hp r (List.mem_of_mem_filter hr) hdel
  won c hc hwon := by
    rcases h.won c hc hwon with ⟨r, hr, hkey, hretain⟩ | hlt
    · by_cases hdel : r.key ∈ deleted
      · have hdue : r.deleteAfter < s.clock := h.due _ hmem r hr hdel
        exact .inr (hretain ▸ hdue)
      · exact .inl ⟨r, List.mem_filter.mpr ⟨hr, by simpa using hdel⟩, hkey, hretain⟩
    · exact .inr hlt
  confirmed := h.confirmed
  once := h.once

theorem step (h : Fenced s) (hchg : Change s s') : Fenced s' := by
  have hquiet : ∀ {purges : List Purge}, (∀ p ∈ purges, p ∈ s.purges ∨ p.deleting = []) →
      ∀ p ∈ purges, ∀ k ∈ p.deleting, ∃ q ∈ s.purges, k ∈ q.deleting := by
    intro purges hpur p hp k hk
    rcases hpur p hp with hp | hnil
    · exact ⟨p, hp, hk⟩
    · rw [hnil] at hk
      exact absurd hk List.not_mem_nil
  cases hchg with
  | tick clock hclk hs =>
    subst hs
    exact h.tick hclk
  | arrive c hhold hwon hs =>
    subst hs
    exact h.arrive hhold hwon
  | quiet i c phase hi hhold hwon hs =>
    subst hs
    exact h.setPhase hi (fun hnew => absurd hnew hhold) hwon
      (fun hnew => absurd hnew.holds hhold)
  | insert i c t hi hwr hnone hs =>
    subst hs
    exact h.setPhase hi (fun _ => .inr ⟨hwr, hnone⟩) (by simp [Call.Won])
      (by simp [Call.Confirmed])
  | confirm i c t hi hhold hclk hs =>
    subst hs
    exact h.setPhase hi (fun _ => .inl hhold) (by simp [Call.Won]) (fun _ => ⟨hhold, hclk⟩)
  | commit i c t phase hi hconf hhold hs =>
    subst hs
    exact h.commit hi hconf hhold
  | purge purges hpur hs =>
    subst hs
    exact h.purge fun p hp k hk => .inl (hquiet hpur p hp k hk)
  | delete purges key r hwr hr hkey hdue hpur hs =>
    subst hs
    refine h.purge fun p hp k hk => ?_
    rcases hpur p hp with hp | hkeys
    · exact .inl ⟨p, hp, hk⟩
    rcases hkeys k hk with rfl | hold
    · refine .inr ⟨hwr, fun r' hr' hkey' => ?_⟩
      rwa [h.keys r' hr' r hr (hkey'.trans hkey.symm)]
    · exact .inl hold
  | commitPurge purges deleted hmem hpur hs =>
    subst hs
    exact (h.filter hmem).purge fun p hp k hk => .inl (hquiet hpur p hp k hk)

end Fenced

theorem reachable_fenced {store : ReplayStore} {s : ReplayState} (h : store.replays.Reachable s) :
    Fenced s := by
  refine Machine.Reachable.invariant (fun s hs => ?_) (fun s e s' _ hs hstep => ?_) h
  · obtain ⟨hrecs, hcl, hpur⟩ := hs
    exact .init hrecs hcl hpur
  · exact hs.step (perform_change hstep)

/-- Whatever the replicas, purges, failures and clock do, of all the calls for one environment, jti
and deadline at most one returned true. -/
theorem consume_returns_true_at_most_once (store : ReplayStore) {s : ReplayState}
    (h : store.replays.Reachable s) {i j : Nat} {a b : Call} (hi : s.calls[i]? = some a)
    (hj : s.calls[j]? = some b) (henvironment : a.request.environment = b.request.environment)
    (hjti : a.request.jti = b.request.jti) (hretain : a.request.retainUntil = b.request.retainUntil)
    (ha : a.phase = .returned (.ok true)) (hb : b.phase = .returned (.ok true)) : i = j := by
  have hkey : a.request.key = b.request.key := by
    simp only [ConsumeRequest.key, henvironment, hjti]
  exact (reachable_fenced h).once i j a b hi hj ha hb ⟨hkey, hretain⟩

namespace Sample

def token : ConsumeRequest :=
  { environment := "production", jti := "00000000-0000-4000-8000-000000000001"
    retainUntil := 100 * second, now := 40 * second }

def start : ReplayState := { clock := 41 * second, receipts := [], calls := [], purges := [] }

/-- Two replicas consume one token; the INSERT of the second waits for the COMMIT of the first, and
a third call after the deadline and the purge of the row is refused. -/
def events : List ReplayEvent :=
  [.call token, .call token, .sampleDatabaseNow 1, .sampleDatabaseNow 0, .insert 0, .purge,
    .sampleCommitClock 0, .commit 0 true, .insert 1, .commit 1 true, .call token, .sampleDatabaseNow
    2, .tick (101 * second), .delete 0 token.key, .commitPurge 0, .insert 2, .sampleCommitClock 2]

def answer : Phase → Option Bool
  | .returned (.ok consumed) => some consumed
  | _ => none

def finish (store : ReplayStore) : Option ReplayState :=
  Machine.follow (fun e s => (store.perform e s).map (e, ·)) events start

theorem finish_reachable {store : ReplayStore} {s : ReplayState} (h : finish store = some s) :
    store.replays.Reachable s := by
  have hinit : store.replays.Reachable start := .init ⟨rfl, rfl, rfl⟩
  refine hinit.path (Machine.follow_path (fun e t l t' hnext => ?_) h)
  obtain ⟨t'', hstep, heq⟩ := Option.map_eq_some_iff.mp hnext
  obtain ⟨rfl, rfl⟩ := Prod.mk.inj heq
  exact hstep

theorem finish_answers (store : ReplayStore) :
    (finish store).map (fun s => s.calls.map fun c => (c.request, answer c.phase)) =
      some [(token, some true), (token, some false), (token, none)] := by
  cases store <;> decide +kernel

theorem answer_eq_some {phase : Phase} {consumed : Bool} (h : answer phase = some consumed) :
    phase = .returned (.ok consumed) := by
  unfold answer at h
  split at h
  · rw [Option.some.inj h]
  · cases h

end Sample

open Sample in
theorem consume_returns_true_at_most_once_sample :
    ∃ s, ReplayStore.a9.replays.Reachable s ∧ ∃ a, s.calls[0]? = some a ∧
      a.request = token ∧ a.phase = .returned (.ok true) ∧ ∀ j b, s.calls[j]? = some b →
        b.request = token → b.phase = .returned (.ok true) → 0 = j := by
  obtain ⟨s, hs, hanswers⟩ := Option.map_eq_some_iff.mp (finish_answers .a9)
  obtain ⟨a, rest, hcl, hfst, -⟩ := List.map_eq_cons_iff.mp hanswers
  obtain ⟨hrequest, hans⟩ := Prod.mk.inj hfst
  have hreach := finish_reachable hs
  have ha : s.calls[0]? = some a := by rw [hcl, List.getElem?_cons_zero]
  have htrue := answer_eq_some hans
  refine ⟨s, hreach, a, ha, hrequest, htrue, fun j b hj hb hwon => ?_⟩
  have hsame : a.request = b.request := hrequest.trans hb.symm
  exact consume_returns_true_at_most_once .a9 hreach ha hj (congrArg _ hsame)
    (congrArg _ hsame) (congrArg _ hsame) htrue hwon

end NotificationServer.Replay
