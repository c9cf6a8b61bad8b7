import NotificationServer.Gate6.Reach
import NotificationServer.Run

/-!
# Whole runs

A run of the store is a run of the authority ledger, and its leases share no
route key.
-/

namespace NotificationServer

open Sample

/-- The ledger by itself.  A step is a transaction, labelled with its statements on the row of its
installation, or changes nothing. -/
def Ledger.system : Machine Ledger (List (Bytes16 × AuthorityWrite)) where
  init L := L = Db.empty.ledger
  step L writes L' := (L' = L ∧ writes = []) ∨
    ∃ i E ws, Transaction i E L ws L' ∧ writes = ws.map (Prod.mk i)

def ledgerStep (x : Sys × Event × Sys) : Ledger × List (Bytes16 × AuthorityWrite) × Ledger :=
  (x.1.db.ledger, x.2.1.writes, x.2.2.db.ledger)

namespace Store

variable {S : Store} {s : Sys}

/-- Every run of the store is, step by step, a run of the ledger. -/
theorem run_refines_ledger {trace : List (Sys × Event × Sys)} (h : S.system.Run trace s) :
    Ledger.system.Run (trace.map ledgerStep) s.db.ledger := by
  induction h with
  | init h => exact .init (congrArg Db.ledger h.1)
  | step _ hst ih =>
    apply Machine.Run.step ih
    rcases step_records hst with hsame | ⟨i, E, ws, htx, hwr, -⟩
    · exact .inl hsame
    · exact .inr ⟨i, E, ws, htx, hwr⟩

theorem run_refines_ledger_routed :
    ∃ trace s, store.system.Run trace s ∧ s.db.routes ≠ [] ∧
    Ledger.system.Run (trace.map ledgerStep) s.db.ledger := by
  obtain ⟨s, hs, hne⟩ := exists_reachable (S := store) routed (P := fun s => s.db.routes ≠ [])
    (by decide +kernel)
  obtain ⟨trace, hrun⟩ := hs.run
  exact ⟨trace, s, hrun, hne, run_refines_ledger hrun⟩

def routeKeyOf (S : Store) (l : LeaseRow) : Option Bytes :=
  S.encryption.openValue (.lease l.leaseID .routeKey) l.encryptedRouteKey

/-- Until eight days after they expire, no two leases hold the same route key. -/
theorem route_key_of_one_lease (h : S.system.Reachable s) {l l' : LeaseRow}
    (hl : l ∈ s.db.leases) (hl' : l' ∈ s.db.leases)
    (ht : s.clock < l.expiresAt + deletionHorizon) (ht' : s.clock < l'.expiresAt + deletionHorizon)
    (hkey : S.routeKeyOf l = S.routeKeyOf l') : l = l' := by
  have hk := reachable_kept h
  -- The commitment of a key is retained under the route of its lease.
  have hrow : ∀ l ∈ s.db.leases, s.clock < l.expiresAt + deletionHorizon →
      ∃ r ∈ s.db.routeKeyHistory, r.routeIdentity = l.routeIdentity ∧
        ∃ key, S.routeKeyOf l = some key ∧ r.routeKeyCommitment = S.routeKeyCommitment key := by
    intro l hl ht
    obtain ⟨i, -, id, topic, key, hlk, hhist⟩ := hk.leases l hl
    rcases hhist.retained with ⟨r, hr, hrk, -⟩ | ⟨-, hgone⟩
    · obtain ⟨hid, hep⟩ := Prod.mk.inj hrk
      exact ⟨r, hr, hid, key, hlk.opens_key, (hhist.newest r hr hid).2 hep⟩
    · lia
  obtain ⟨r, hr, hid, key, ho, hc⟩ := hrow l hl ht
  obtain ⟨r', hr', hid', key', ho', hc'⟩ := hrow l' hl' ht'
  rw [ho, ho'] at hkey
  cases hkey
  have hone : r = r' := s.vault.valid.routeKeyHistory.commitment_key.eq_of_key_eq hr hr'
    (hc.trans hc'.symm)
  exact hk.route_unique s.vault.valid hl hl' (hid.symm.trans (hone ▸ hid'))

/-- Two topics of one installation. -/
theorem route_key_of_one_lease_refreshed :
    ∃ s, gate6.system.Reachable s ∧ ∃ l ∈ s.db.leases,
    ∃ l' ∈ s.db.leases, l ≠ l' ∧ gate6.routeKeyOf l ≠ gate6.routeKeyOf l' := by
  let sub := subscription 70 1 1 1
  let second := { sub with
    topic := 32, routeKey := 2
    receiveCapability := { sub.receiveCapability with topicDigest := ⟨bytesOf 33 32⟩ } }
  obtain ⟨s, hs, l, hl, l', hl', hne, ht, ht'⟩ := exists_reachable (S := gate6)
    [.beginSweep start, .finishSweep ⟨start, start, start⟩,
      .refresh ⟨start, start⟩ (fun t => ⟨if t = sub.topicBytes then 1 else 2, 0⟩)
        (replacement 70 1 [sub, second]).refresh]
    (P := fun s => ∃ l ∈ s.db.leases, ∃ l' ∈ s.db.leases, l ≠ l' ∧
      s.clock < l.expiresAt + deletionHorizon ∧ s.clock < l'.expiresAt + deletionHorizon)
    (by decide +kernel)
  exact ⟨s, hs, l, hl, l', hl', hne, fun h => hne (route_key_of_one_lease hs hl hl' ht ht' h)⟩

end Store

end NotificationServer
