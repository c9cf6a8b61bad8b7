import NotificationServer.A9.Outcome

/-!
# The subscription generation

Only an applied replacement changes the generation of an installation, and it
moves it to the next one.  An installation without a row is at generation 0,
which is the generation its row is created with.
-/

namespace NotificationServer

open Relational

def Db.generation (db : Db) (i : Bytes16) : Nat :=
  ((db.authority i).map fun a => a.subscriptionGeneration).getD 0

theorem Ledger.RowDecided.generation {E : Bytes16} {a a' : AuthorityRow} {ws : List AuthorityWrite}
    (h : Ledger.RowDecided E a ws a') (hno : .replaced ∉ ws) :
    a'.subscriptionGeneration = a.subscriptionGeneration := by
  cases h with
  | unchanged | latched | advanced => rfl
  | watermarked w now =>
    unfold AuthorityRow.withWatermark
    cases w.status <;> rfl
  | replaced => exact absurd List.mem_cons_self hno

namespace Db

variable {db db' : Db} {i j E : Bytes16} {a : AuthorityRow}

theorem generation_of_authority (h : db.authority i = some a) :
    db.generation i = a.subscriptionGeneration := by
  simp only [generation, h, Option.map_some, Option.getD_some]

theorem generation_of_row (h : db.ledger.Row i a) : db.generation i = a.subscriptionGeneration :=
  generation_of_authority (authority_of_row h)

theorem generation_of_none (h : ∀ a ∈ db.authorities, a.installationBindingID ≠ i) :
    db.generation i = 0 := by
  have hnone : db.authority i = none := List.find?_eq_none.mpr fun a ha => by simpa using h a ha
  simp only [generation, hnone, Option.map_none, Option.getD_none]

theorem generation_congr (h : db'.authorities = db.authorities) :
    db'.generation = db.generation := by
  unfold generation authority
  rw [h]

/-- An answer that decides nothing leaves every generation. -/
theorem Undecided.generation (h : db.Undecided i E db') : db'.generation j = db.generation j := by
  by_cases hj : j = i
  · subst hj
    cases ha : db.authority j with
    | some a =>
      rw [generation_of_authority ha]
      rcases h.row a ha with h' | ⟨reason, now, h'⟩
      · exact generation_of_authority h'
      · rw [generation_of_authority h']
        rfl
    | none =>
      rw [generation_of_none (authority_eq_none ha)]
      cases ha' : db'.authority j with
      | none => exact generation_of_none (authority_eq_none ha')
      | some a' =>
        rw [generation_of_authority ha']
        obtain ⟨state, reason, now, rfl | ⟨reason', now', rfl⟩⟩ := h.created ha a' ha'
        · rfl
        · rfl
  · unfold Db.generation
    rw [h.others j hj]

/-- A transaction without a replacement leaves every generation. -/
theorem generation_transaction {ws : List AuthorityWrite} (hdb : db.Constraints)
    (hdb' : db'.Constraints) (h : Ledger.Transaction i E db.ledger ws db'.ledger)
    (hno : .replaced ∉ ws) (j : Bytes16) : db'.generation j = db.generation j := by
  by_cases hj : j = i
  · subst hj
    obtain ⟨a0, a', opened, decided, hrow', hopen, hdecided⟩ := h.row_self
    have hgen : a'.subscriptionGeneration = a0.subscriptionGeneration := by
      rcases hdecided with ⟨rfl, hdec⟩ | ⟨-, rfl, now, hdec⟩
      · exact hdec.generation fun hmem => hno (List.mem_append_left _ hmem)
      · exact hdec.generation fun hmem => hno (List.mem_append_left _ hmem)
    rw [generation_of_row hrow', hgen]
    rcases hopen with ⟨hrow, -⟩ | ⟨state, reason, now, hnone, -, rfl, -⟩
    · rw [generation_of_row hrow]
    · rw [generation_of_none hnone]
      rfl
  · have hrows : ∀ b, db'.authority j = some b ↔ db.authority j = some b := fun b =>
      hdb'.row_iff.symm.trans ((h.row_ne hj).trans hdb.row_iff)
    unfold Db.generation
    rw [Option.ext hrows]

end Db

namespace Store

variable {S : Store} {s s' : Session}

/-- An applied replacement moves its installation to the next generation, and no other. -/
theorem publishA9ReplaceTx_generation {clock : Clock} {random : Bytes → LeaseDraw}
    {request : ReplaceRequest} {normalized : List NormalizedSubscription}
    {routes : List RouteColumns} {a : AuthorityRow} {r : A9Result}
    (ha : s.db.authority request.installationBindingID = some a)
    (hnext : request.subscriptionGeneration = a.subscriptionGeneration + 1)
    (h : S.publishA9ReplaceTx clock random request normalized routes a s = .ok (r, s')) :
    s'.db.generation request.installationBindingID =
        s.db.generation request.installationBindingID + 1 ∧
      ∀ j ≠ request.installationBindingID, s'.db.generation j = s.db.generation j := by
  obtain ⟨⟨rows, -, hled⟩, -⟩ := publishA9ReplaceTx_ok h
  have hauths := congrArg Ledger.authorities hled
  constructor
  · rw [Db.generation_of_authority ha, ← hnext]
    exact Db.generation_of_authority (Db.authority_updated ha hauths fun _ => rfl)
  · intro j hj
    have hrow : s'.db.authority j = (s.db.updateAuthority request.installationBindingID fun a =>
        { a with
          subscriptionGeneration := request.subscriptionGeneration, state := .active
          uncertaintyReason := .none, updatedAt := clock.db }).authority j := by
      unfold Db.authority
      rw [show s'.db.authorities = _ from hauths]
      rfl
    have hsame : s'.db.authority j = s.db.authority j :=
      hrow.trans (Db.authority_updateAuthority_ne hj fun _ => rfl)
    unfold Db.generation
    rw [hsame]

end Store

end NotificationServer
