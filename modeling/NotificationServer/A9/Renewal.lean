import NotificationServer.A9.Denial

/-!
# Renewing a routed binding

An UPSERT that is next in its stream and names the next version moves the
binding to its own assertion.  The foreign key from a route to the active
columns of its binding has no ON UPDATE action, so while a route of the binding
exists the statement fails, the transaction with it, and the cursor stays.
-/

namespace NotificationServer

open Relational Sample

namespace Db

/-- The row a binding's query returns is the only one with its key. -/
theorem Constraints.binding_eq {db : Db} (hdb : db.Constraints) {i id : Bytes16} {b c : BindingRow}
    (hb : db.binding i id = some b) (hc : c ∈ db.bindings) (hi : c.installationBindingID = i)
    (hid : c.bindingID = id) : c = b := by
  obtain ⟨hbmem, hbkey⟩ := found hb
  refine hdb.bindings.key.eq_of_key_eq hc hbmem ?_
  exact Prod.ext (hi.trans hbkey.1.symm) (hid.trans hbkey.2.symm)

/-- A route is on the stored version of its binding. -/
theorem Constraints.route_version {db : Db} (hdb : db.Constraints) {r : RouteRow}
    (hr : r ∈ db.routes) :
    ∃ c ∈ db.bindings,
      c.installationBindingID = r.columns.installationBindingID ∧
      c.bindingID = r.columns.bindingID ∧ c.bindingVersion = r.columns.bindingVersion := by
  obtain ⟨c, hc, hkey⟩ := List.mem_map.mp (hdb.routes.binding r hr _ rfl)
  unfold BindingRow.activeKey at hkey
  cases hst : c.state with
  | revoked =>
    rw [hst] at hkey
    cases hkey
  | active ref =>
    rw [hst] at hkey
    simp only [Option.some.injEq, RouteColumns.assertionKey, AssertionKey.mk.injEq] at hkey
    exact ⟨c, hc, hkey.1, hkey.2.2.1, hkey.2.2.2.1⟩

/-- An active binding that no tombstone covers is at the highest version of its binding. -/
theorem highestVersion_of_fenced {db : Db} (hfen : db.ledger.Fenced) {i id : Bytes16}
    {b : BindingRow} {ref : AssertionReference} (hb : db.binding i id = some b)
    (hst : b.state = .active ref) :
    db.highestVersion i id = b.bindingVersion ∧
      db.highestTombstoneVersion i id ≤ b.bindingVersion := by
  obtain ⟨-, hbkey⟩ := found hb
  have htomb : db.highestTombstoneVersion i id ≤ b.bindingVersion := by
    unfold highestTombstoneVersion
    refine List.max_le_of_forall_le _ _ fun v hv => ?_
    obtain ⟨t, ht, rfl⟩ := List.mem_map.mp hv
    obtain ⟨htmem, htkey⟩ := List.mem_filter.mp ht
    obtain ⟨hti, htid⟩ := of_decide_eq_true htkey
    have := hfen t htmem b (List.mem_of_find?_eq_some hb) (hbkey.1.trans hti.symm)
      (hbkey.2.trans htid.symm) ref hst
    omega
  refine ⟨?_, htomb⟩
  unfold highestVersion
  rw [hb]
  exact max_eq_left htomb

end Db

namespace Store

variable {S : Store} {s s' : Session}

/-- Storing another version of a routed binding breaks the route's foreign key. -/
theorem applyNextA9ControlTx_routed {event : VerifiedControl} {a : AuthorityRow} {now : Time}
    {r : A9Result} {route : RouteRow} (hact : event.action = .upsert) (hrt : route ∈ s.db.routes)
    (hi : route.columns.installationBindingID = event.installationBindingID)
    (hid : route.columns.bindingID = event.bindingID)
    (hver : route.columns.bindingVersion ≠ event.bindingVersion) :
    S.applyNextA9ControlTx event a now s ≠ .ok (r, s') := by
  intro h
  obtain ⟨-, ⟨-, assertion, -, hl⟩ | ⟨hrevoke, -⟩, -⟩ := applyNextA9ControlTx_ok h
  · have hrts : s'.db.routes = s.db.routes := congrArg Ledger.routes hl
    have hbinds : s'.db.bindings = upsert BindingRow.key (fun _ new => new)
        (event.binding (.active (.ofAssertion assertion))) s.db.bindings :=
      congrArg Ledger.bindings hl
    obtain ⟨c, hc, hci, hcid, hcv⟩ := s'.valid.route_version (hrts ▸ hrt)
    rw [hbinds] at hc
    rcases mem_upsert_replace hc with rfl | ⟨-, hkey⟩
    · exact hver hcv.symm
    · exact hkey (Prod.ext (hci.trans hi) (hcid.trans hid))
  · cases hact.symm.trans hrevoke

/-- The next version of a binding is never accepted while the binding has a route: in every
reachable state `ApplyControl` fails on it. -/
theorem routed_upsert_fails {s : Sys} (hreach : S.system.Reachable s) {clock : Clock}
    {event : VerifiedControl} {a : AuthorityRow} {b : BindingRow} {ref : AssertionReference}
    {route : RouteRow} (ha : s.db.authority event.installationBindingID = some a)
    (hb : s.db.binding event.installationBindingID event.bindingID = some b)
    (hactive : b.state = .active ref) (hroute : route ∈ s.db.routes)
    (hri : route.columns.installationBindingID = event.installationBindingID)
    (hrid : route.columns.bindingID = event.bindingID) (hact : event.action = .upsert)
    (hexp : ¬ event.Expired clock.db)
    (hfirst : ∀ x ∈ s.db.receipts, x.idempotencyKey ≠ event.idempotencyKey)
    (hE : a.sequencerEpoch = event.sequencerEpoch)
    (hseq : event.streamSequence = a.contiguousStreamSequence + 1)
    (hversion : event.bindingVersion = b.bindingVersion + 1) :
    S.applyControl clock event s.session = .error .storeUnavailable := by
  cases hres : S.applyControl clock event s.session with
  | error e =>
    unfold applyControl Tx.mapError at hres
    split at hres
    · cases hres
    · rw [← Except.error.inj hres]
  | ok p =>
    exfalso
    obtain ⟨r, t⟩ := p
    obtain ⟨hval, s1, hdb, h⟩ := applyControl_inEpoch (s := s.session) ha hE hfirst hres
    have hexpected : event.bindingVersion = event.expectedBindingVersion + 1 := hval.2.2.2.2.2.2.1
    have hprevious : event.streamSequence = event.expectedPreviousSequence + 1 := hval.2.2.2.1
    obtain ⟨hhigh, htomb⟩ := Db.highestVersion_of_fenced (reachable_fenced hreach) hb hactive
    have hhigh1 : s1.db.highestVersion event.installationBindingID event.bindingID =
        b.bindingVersion := by rw [hdb]; exact hhigh
    have htomb1 : s1.db.highestTombstoneVersion event.installationBindingID event.bindingID ≤
        b.bindingVersion := by rw [hdb]; exact htomb
    have hroute1 : route ∈ s1.db.routes := by rw [hdb]; exact hroute
    have hrv : route.columns.bindingVersion = b.bindingVersion := by
      obtain ⟨c, hc, hci, hcid, hcv⟩ := s.vault.valid.route_version hroute
      rw [← hcv, s.vault.valid.binding_eq hb hc (hci.trans hri) (hcid.trans hrid)]
    simp only [applyA9ControlInEpochTx, Tx.ite_ok, Tx.bind_ok, query_ok] at h
    rcases h with ⟨hexp', -⟩ | ⟨-, _, _, ⟨rfl, rfl⟩, _, _, ⟨rfl, rfl⟩, h⟩
    · exact hexp hexp'
    rcases h with ⟨⟨-, hle⟩, -⟩ | ⟨-, ⟨hle, -⟩ | ⟨-, ⟨hgap, -⟩ | ⟨-, ⟨hskip, -⟩ | ⟨-, h⟩⟩⟩⟩
    · omega
    · omega
    · omega
    · rcases hskip with hprev | hne
      · exact hprev (by omega)
      · exact hne (by omega)
    · exact applyNextA9ControlTx_routed hact hroute1 hri hrid (by omega) h

/-- The state with a live route refuses the next version of its binding. -/
theorem routed_upsert_fails_sample :
    ∃ s, Sample.store.system.Reachable s ∧ (∃ r ∈ s.db.routes, r.columns.bindingID = 50) ∧
      Sample.store.applyControl Sample.clock (Sample.control 70 2 2 .upsert) s.session =
        .error .storeUnavailable := by
  obtain ⟨s, hs, ⟨a, ha, hE, hc⟩, ⟨b, hb, hv, hst⟩, ⟨r, hr, hri, hrid⟩, hfst⟩ :=
    exists_reachable (S := store) routed
    (P := fun s => (∃ a ∈ s.db.authority 9, a.sequencerEpoch = 70 ∧ a.contiguousStreamSequence = 1)
      ∧ (∃ b ∈ s.db.binding 9 50, b.bindingVersion = 1 ∧ b.state ≠ .revoked) ∧ (∃ r ∈ s.db.routes,
      r.columns.installationBindingID = 9 ∧ r.columns.bindingID = 50) ∧ ∀ x ∈ s.db.receipts,
      x.idempotencyKey ≠ (control 70 2 2 .upsert).idempotencyKey)
    (by decide +kernel)
  refine ⟨s, hs, ⟨r, hr, hrid⟩, ?_⟩
  cases hact : b.state with
  | revoked => exact absurd hact hst
  | active ref =>
    refine routed_upsert_fails hs ha hb hact hr hri hrid rfl (by decide) hfst hE ?_ ?_
    · rw [hc]
      rfl
    · rw [hv]
      rfl

/-- The row is ACTIVE, the binding ACTIVE at version 1 with a live route, the keyset current and
retention safe, and the valid, unexpired, first-seen UPSERT of version 2 next in its stream fails. -/
theorem routed_renewal_rejected :
    ∃ s, Sample.store.system.Reachable s ∧
      (∃ a ∈ s.db.authority 9, a.state = .active ∧ a.sequencerEpoch = 70 ∧
        a.contiguousStreamSequence = 1) ∧
      (∃ b ∈ s.db.binding 9 50, b.bindingVersion = 1 ∧ b.state ≠ .revoked) ∧
      (∃ r ∈ s.db.routes, r.columns.installationBindingID = 9 ∧ r.columns.bindingID = 50) ∧
      (∀ x ∈ s.db.receipts, x.idempotencyKey ≠ (Sample.control 70 2 2 .upsert).idempotencyKey) ∧
      (∀ e ∈ s.db.controlEvents,
        e.signedEventHash ≠ (Sample.control 70 2 2 .upsert).signedObjectHash) ∧
      Sample.store.validA9Control (Sample.control 70 2 2 .upsert) ∧
      ¬ (Sample.control 70 2 2 .upsert).Expired Sample.clock.db ∧
      (∃ k ∈ s.db.keysetState, keysetCurrent Sample.clock.db Sample.keyset k) ∧
      retentionHealth Sample.clock.host s.db.retention ∧
      ∃ e, Sample.store.applyControl Sample.clock (Sample.control 70 2 2 .upsert) s.session =
        .error e := by
  exact exists_reachable routed (by decide +kernel)

end Store

end NotificationServer
