import NotificationServer.A9.Outcome

/-!
# A9 statements that meet the constraints

The A9 tables refer to the authority row by its installation only, so a new row
and any change that keeps the key meet the foreign keys; what is left is the row
itself.  The statements that open and latch a row therefore succeed, unless the
database clock is behind the creation of the row.
-/

namespace NotificationServer

open Relational

namespace Db.Constraints

variable {db : Db} (h : db.Constraints)

include h

/-- Other authority rows under the same keys, or more. -/
theorem withAuthorities {authorities : List AuthorityRow}
    (hrows : AuthorityConstraints authorities db.watermarks db.acceptedKeysets db.onlineKeys)
    (hkeys : ∀ a ∈ db.authorities, ∃ b ∈ authorities,
      b.installationBindingID = a.installationBindingID) :
    ({ db with authorities } : Db).Constraints := by
  have stay : ∀ {α : Type} {rows : List α} {fk : α → Option Bytes16}, ∀ r ∈ rows,
      ∀ a ∈ db.authorities, fk r = some a.installationBindingID →
      ∃ b ∈ authorities, b.installationBindingID = a.installationBindingID :=
    fun _ _ a ha _ => hkeys a ha
  exact { h with
    authorities := hrows
    gate6Bindings := { h.gate6Bindings with
      authority := h.gate6Bindings.authority.of_parents stay }
    controlEvents := { h.controlEvents with
      authority := h.controlEvents.authority.of_parents stay }
    bindings := { h.bindings with authority := h.bindings.authority.of_parents stay }
    routes := { h.routes with authority := h.routes.authority.of_parents stay } }

theorem latched {i : Bytes16} {reason : UncertaintyReason} {now : Time} (hwhy : reason ≠ .none)
    (hnow : ∀ a ∈ db.authority i, a.createdAt ≤ now) :
    (db.updateAuthority i (.latched reason now)).Constraints := by
  refine h.withAuthorities ?_ fun a ha => ?_
  · have hold := h.authorities
    have hclk : ∀ a ∈ db.authorities, a.installationBindingID = i → a.createdAt ≤ now := by
      intro a ha hi
      refine hnow a ?_
      have := hold.key.find?_eq_some ha
      rwa [hi] at this
    exact
      { key := hold.key.updateWhere fun _ _ _ => rfl
        contiguous_range := forall_mem_updateWhere hold.contiguous_range fun _ _ _ ha => ha
        generation_range := forall_mem_updateWhere hold.generation_range fun _ _ _ ha => ha
        state_reason := forall_mem_updateWhere hold.state_reason fun _ _ _ _ => by
          simp [AuthorityRow.latched, hwhy]
        watermark_valid := forall_mem_updateWhere hold.watermark_valid fun _ _ _ _ _ hw =>
          absurd hw (by simp [AuthorityRow.latched])
        watermark_covered := forall_mem_updateWhere hold.watermark_covered fun _ _ _ _ _ hw =>
          absurd hw (by simp [AuthorityRow.latched])
        updated := forall_mem_updateWhere hold.updated fun a ha hi _ => hclk a ha hi
        watermark_keyset := hold.watermark_keyset.updateWhere fun _ _ _ => .inr rfl
        watermark_signing_key := hold.watermark_signing_key.updateWhere fun _ _ _ => .inr rfl
        current_watermark := hold.current_watermark.updateWhere fun _ _ _ => .inr rfl }
  · by_cases hi : a.installationBindingID = i
    · exact ⟨_, mem_updateWhere.mpr (.inl ⟨a, ha, hi, rfl⟩), rfl⟩
    · exact ⟨a, mem_updateWhere.mpr (.inr ⟨ha, hi⟩), rfl⟩

/-- The row that an operation creates for an installation without one. -/
theorem created {i : Bytes16} (E : Bytes16) {state : AuthorityState} {reason : UncertaintyReason}
    (now : Time) (hnone : db.authority i = none) (hwhy : state = .active ↔ reason = .none) :
    ({ db with authorities := .created i E state reason now :: db.authorities } : Db).Constraints := by
  refine h.withAuthorities ?_ fun a ha => ⟨a, .tail _ ha, rfl⟩
  have hold := h.authorities
  have hfree : ∀ a ∈ db.authorities, a.installationBindingID ≠ i := by
    intro a ha
    simpa using List.find?_eq_none.mp hnone a ha
  exact
    { key := unique_cons.mpr ⟨hfree, hold.key⟩
      contiguous_range := List.forall_mem_cons.mpr ⟨Nat.zero_le _, hold.contiguous_range⟩
      generation_range := List.forall_mem_cons.mpr ⟨Nat.zero_le _, hold.generation_range⟩
      state_reason := List.forall_mem_cons.mpr ⟨hwhy, hold.state_reason⟩
      watermark_valid := List.forall_mem_cons.mpr
        ⟨fun _ hw => absurd hw (by simp [AuthorityRow.created]), hold.watermark_valid⟩
      watermark_covered := List.forall_mem_cons.mpr
        ⟨fun _ hw => absurd hw (by simp [AuthorityRow.created]), hold.watermark_covered⟩
      updated := List.forall_mem_cons.mpr ⟨le_rfl, hold.updated⟩
      watermark_keyset := List.forall_mem_cons.mpr
        ⟨fun _ hk => absurd hk (by simp [AuthorityRow.created]), hold.watermark_keyset⟩
      watermark_signing_key := List.forall_mem_cons.mpr
        ⟨fun _ hk => absurd hk (by simp [AuthorityRow.created]), hold.watermark_signing_key⟩
      current_watermark := List.forall_mem_cons.mpr
        ⟨fun _ hk => absurd hk (by simp [AuthorityRow.created, AuthorityRow.watermarkKey]),
          hold.current_watermark⟩ }

end Db.Constraints

namespace Store

variable {s : Session} {i E : Bytes16}

theorem loadOrInsertA9AuthorityTx_opens {state : AuthorityState} {reason : UncertaintyReason}
    (now : Time) (hwhy : state = .active ↔ reason = .none) :
    ∃ a s', loadOrInsertA9AuthorityTx i E state reason now s = .ok (a, s') ∧
      Db.Opens i E s.db a s'.db ∧ (s.db.authority i = none → a.createdAt = now) := by
  unfold loadOrInsertA9AuthorityTx loadA9AuthorityTx
  simp only [Tx.bind_ok, query_ok]
  cases ha : s.db.authority i with
  | some a =>
    refine ⟨a, s, ⟨_, _, ⟨rfl, rfl⟩, ?_⟩, .found ha, by simp⟩
    simp only [Tx.pure_ok, and_self]
  | none =>
    obtain ⟨u, s1, hexec⟩ := exec_succeeds (f := fun db => { db with
      authorities := .created i E state reason now :: db.authorities })
      (s.valid.created E now ha hwhy)
    obtain ⟨hdb, -⟩ := exec_ok.mp hexec
    let s2 : Session := ⟨s1.vault, (i, .created state reason) :: s1.writes⟩
    refine ⟨.created i E state reason now, s2, ⟨_, _, ⟨rfl, rfl⟩, ?_⟩, ?_, fun _ => rfl⟩
    · simp only [insertA9AuthorityTx, Tx.bind_ok, noteWrite_ok, Tx.pure_ok, true_and]
      exact ⟨(), s2, ⟨u, s1, hexec, rfl, rfl⟩, rfl⟩
    · change Db.Opens i E s.db _ s1.db
      rw [hdb]
      exact .created state reason now ha

theorem latchA9UncertaintyTx_succeeds {a : AuthorityRow} (reason : UncertaintyReason) {now : Time}
    (ha : s.db.authority i = some a) (hwhy : reason ≠ .none) (hnow : a.createdAt ≤ now) :
    Tx.Succeeds (latchA9UncertaintyTx i reason now) s := by
  refine .bind (exec_succeeds (s.valid.latched hwhy fun b hb => ?_)) fun _ s1 hexec =>
    .bind (.read _) fun n s2 hcount => .bind (.require ?_ _) fun _ s3 _ => ⟨_, _, rfl⟩
  · rw [Option.some.inj (Option.mem_def.mp hb |>.symm.trans ha)]
    exact hnow
  · obtain ⟨hdb, -⟩ := exec_ok.mp hexec
    obtain ⟨rfl, rfl⟩ := query_ok.mp hcount
    have hrow : s1.db.authority i = some (a.latched reason now) :=
      Db.authority_updated ha (congrArg Db.authorities hdb) fun _ => rfl
    obtain ⟨hmem, hi⟩ := found hrow
    have hone := s1.valid.authorities.key.filter_eq_singleton hmem
    rw [hi] at hone
    rw [hone]
    rfl

end Store

end NotificationServer
