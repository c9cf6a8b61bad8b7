import NotificationServer.Gate6.Written

/-!
# The invariant holds in every reachable state

Both forms of the refresh start from the invariant and end in it, and so does
every other transaction.
-/

namespace NotificationServer

open Relational Tx

variable {a : AuthorityRow} {state : ResultState} {outcome : ResultOutcome}
  {latch : Option UncertaintyReason} {at_ : Time} {installation : Bytes16} {identity : LookupDigest}
  {leases : List ExistingLease}

variable {S : Store} {c now : Time}

theorem guard_bind_eq_some {α : Type} {p : Prop} [Decidable p] {f : Unit → Option α} {a : α} :
    (guard p >>= f) = some a ↔ p ∧ f () = some a := by
  by_cases h : p <;> simp [guard, h, failure]

theorem forall₂_of_mapM {α β : Type} {f : α → Option β} {xs : List α} {ys : List β}
    (h : xs.mapM f = some ys) : List.Forall₂ (fun x y => f x = some y) xs ys := by
  induction xs generalizing ys with
  | nil =>
    obtain rfl : [] = ys := by simpa using h
    exact .nil
  | cons x xs ih =>
    simp only [List.mapM_cons, Option.bind_eq_bind, Option.bind_eq_some_iff, Option.pure_def,
      Option.some.injEq] at h
    obtain ⟨y, hy, ys', hys, rfl⟩ := h
    exact .cons hy (ih hys)

namespace Store

variable {request : RefreshRequest} {normalized : List NormalizedSubscription}
  {random : Bytes → LeaseDraw} {clock : Clock} {R : LookupDigest → Prop}

/-- What `validateRefresh` has checked of the requests it accepts. -/
structure ValidRefresh (S : Store) (request : RefreshRequest) (now : Time)
    (normalized : List NormalizedSubscription) : Prop where
  control : S.verifyPolicyControl request.policyControl now request.installationID
    request.accountIncarnationID
  topics : (request.subscriptions.map fun sub => sub.topic).Nodup
  subscriptions : List.Forall₂ (fun sub n => S.normalizeSubscription request now sub = some n)
    request.subscriptions normalized

theorem validateRefresh_ok (h : S.validateRefresh request now = some normalized) :
    ValidRefresh S request now normalized := by
  unfold validateRefresh at h
  simp only [guard_bind_eq_some] at h
  obtain ⟨-, -, -, -, -, -, -, hctl, htopics, hsubs⟩ := h
  exact ⟨hctl, htopics, forall₂_of_mapM hsubs⟩

/-- A normalized subscription carries the topic, key and epoch it was sent with. -/
theorem normalizeSubscription_ok {sub : SubscriptionRefresh} {n : NormalizedSubscription}
    (h : S.normalizeSubscription request now sub = some n) :
    n.topic = sub.topic ∧ n.routeKey = sub.routeKey ∧ n.routeKeyEpoch = sub.routeKeyEpoch ∧
      sub.routeKeyEpoch ≠ 0 := by
  unfold normalizeSubscription at h
  obtain ⟨kind, -, h⟩ := Option.bind_eq_some_iff.mp h
  simp only [guard_bind_eq_some] at h
  obtain ⟨⟨-, hep⟩, -, -, -, -, h⟩ := h
  obtain ⟨issued, -, h⟩ := Option.bind_eq_some_iff.mp h
  obtain ⟨expires, -, h⟩ := Option.bind_eq_some_iff.mp h
  cases h
  exact ⟨rfl, rfl, rfl, hep⟩

theorem ValidRefresh.map_topic (h : ValidRefresh S request now normalized) :
    (normalized.map fun n => n.topic) = request.subscriptions.map fun sub => sub.topic := by
  have hsubs := h.subscriptions
  clear h
  revert hsubs
  generalize request.subscriptions = subs
  intro hsubs
  induction hsubs with
  | nil => rfl
  | cons hsub _ ih => rw [List.map_cons, List.map_cons, ih, (normalizeSubscription_ok hsub).1]

theorem ValidRefresh.nodup (h : ValidRefresh S request now normalized) :
    (normalized.map fun n => n.topic).Nodup :=
  h.map_topic ▸ h.topics

theorem writeRefresh_preserves {at_ markedAt : Time} {s s' : Session} {u : Unit}
    (hval : ValidRefresh S request now normalized) (hat : at_ ≤ c)
    (hrdy : s.db.Ready S c request.installationID
      (S.installationLookup (lookupEpoch at_) request.installationID))
    (h : S.writeRefreshTx request normalized random at_ markedAt s = .ok (u, s')) :
    s'.db.Kept S c :=
  writeRefreshTx_kept hat hrdy hval.control.2.1.2 hval.nodup h

theorem refresh_preserves {clock : RefreshClock} (hclk : clock.now ≤ c)
    (random : Bytes → LeaseDraw) (request : RefreshRequest) :
    Moves (Session.Preserves S c) (S.refresh clock random request) := by
  intro s r s' h hk
  simp only [refresh, refreshTx, mapError_ok, bind_ok, require_ok, expect_ok] at h
  obtain ⟨_, _, ⟨-, rfl⟩, normalized, _, ⟨hnorm, rfl⟩, _, s1, hsafe, _, s2, hadv,
    existing, _, hfind, h⟩ := h
  have hval := validateRefresh_ok hnorm
  obtain rfl : s1 = s2 := requireTombstoneAdvance_moves _ _ _ hadv
  obtain ⟨rfl, hsome, -⟩ := findInstallation_ok hfind
  have hk2 := (requireRetentionSafeTx_rests _ _ _ hsafe).preserves le_rfl hk
  cases existing with
  | none =>
    simp only [bind_ok, pure_ok] at h
    obtain ⟨_, _, hwr, -, rfl⟩ := h
    exact writeRefresh_preserves hval hclk (hk2.ready (Session.valid _) _ _) hwr
  | some i =>
    simp only [ite_ok, fail_ok, and_false, false_or, bind_ok, require_ok, query_ok, pure_ok] at h
    obtain ⟨-, ⟨-, _, _, ⟨-, rfl⟩, _, _, ⟨-, rfl⟩, -, rfl⟩ |
      ⟨-, _, _, ⟨-, rfl⟩, _, s3, hprep, _, _, hwr, -, rfl⟩⟩ := h
    · exact hk2
    · obtain ⟨-, -, epoch, -, hlook⟩ := hsome i rfl
      exact writeRefresh_preserves hval hclk
        (prepareInstallationTx_ready hk2 hlook hprep) hwr

/-- What the refresh of a replacement leaves: the row with the listed leases, which it returns. -/
theorem applyGate6RefreshTx_writing (hclk : clock.db ≤ c) {expected : Nat}
    {leases : List ExistingLease} {s s' : Session} (hval : ValidRefresh S request now normalized)
    (hk : s.db.Kept S c)
    (h : S.applyGate6RefreshTx clock random request normalized expected s = .ok (leases, s')) :
    ∃ row : InstallationRow,
      row.installationLookup = S.installationLookup (lookupEpoch clock.db) request.installationID ∧
      row.Kept S c request.installationID ∧
      s'.db.Writing S c row request.installationID (· ∈ normalized.map fun n => n.topic)
        (fun _ => False) ∧
      Loaded S s'.db row.installationLookup leases := by
  simp only [applyGate6RefreshTx, bind_ok] at h
  obtain ⟨_, s1, hadv, existing, _, hfind, _, s2, hadmit, _, s3, hwrite, hload⟩ := h
  obtain rfl : s = s1 := requireTombstoneAdvance_moves _ _ _ hadv
  obtain ⟨rfl, hsome, -⟩ := findInstallation_ok hfind
  obtain ⟨rfl, hloaded⟩ := loadExistingLeases_ok hload
  have hrdy : s2.db.Ready S c request.installationID
      (S.installationLookup (lookupEpoch clock.db) request.installationID) := by
    cases existing with
    | none =>
      obtain ⟨-, rfl⟩ := require_ok.mp hadmit
      exact hk.ready (Session.valid _) _ _
    | some i =>
      simp only [admitReplacementTx, bind_ok, require_ok] at hadmit
      obtain ⟨_, _, ⟨-, rfl⟩, _, _, ⟨-, rfl⟩, hprep⟩ := hadmit
      obtain ⟨-, -, epoch, -, hlook⟩ := hsome i rfl
      exact prepareInstallationTx_ready hk hlook hprep
  obtain ⟨row, hrow, hkept, hwr⟩ :=
    writeRefreshTx_writing hclk hrdy hval.control.2.1.2 hval.nodup hwrite
  exact ⟨row, hrow, hkept, hwr, hrow ▸ hloaded⟩

theorem applyGate6RefreshTx_preserves (hclk : clock.db ≤ c) {expected : Nat}
    (hval : ValidRefresh S request now normalized) :
    Moves (Session.Preserves S c)
      (S.applyGate6RefreshTx clock random request normalized expected) := by
  intro s r s' h hk
  obtain ⟨row, -, -, hwr, -⟩ := applyGate6RefreshTx_writing hclk hval hk h
  exact writing_kept hwr

theorem refuseA9ReplaceTx_preserves {request : ReplaceRequest} :
    Moves (Session.Preserves S c) (S.refuseA9ReplaceTx request a state outcome latch at_) :=
  preserves_of_rests fun _ => refuseA9ReplaceTx_rests

theorem bindA9InstallationToGate6Tx_rests :
    Moves (Session.Rests S R now) (bindA9InstallationToGate6Tx installation identity) :=
  .bind (exec_rests fun _ => rfl) fun _ => .bind query_moves fun _ => .require _ _

theorem publishA9RouteTx_rests {request : ReplaceRequest} (route : Bytes × RouteColumns) :
    Moves (Session.Rests S R now) (publishA9RouteTx request identity leases route) :=
  .bind expect_moves fun _ => exec_rests fun _ => rfl

theorem activateA9AuthorityTx_rests {request : ReplaceRequest} :
    Moves (Session.Rests S R now) (activateA9AuthorityTx request at_) :=
  .bind (exec_rests fun _ => rfl) fun _ => noteWrite_rests

theorem replaceValidatedA9Tx_preserves (hclk : clock.db ≤ c) {request : ReplaceRequest}
    (routes : List RouteColumns) (a : AuthorityRow)
    (hval : ValidRefresh S request.refresh now normalized) :
    Moves (Session.Preserves S c)
      (S.replaceValidatedA9Tx clock random request normalized routes a) :=
  .bind (preserves_of_rests fun _ => query_moves) fun _ =>
    .ite refuseA9ReplaceTx_preserves (.bind
      (preserves_of_rests fun _ => exec_rests fun _ => rfl) fun _ =>
      .bind (preserves_of_rests fun _ => cancelA9RoutesTx_rests) fun _ =>
      .bind (preserves_of_rests fun _ => exec_rests fun _ => rfl) fun _ =>
      .bind (applyGate6RefreshTx_preserves hclk hval) fun _ =>
      .bind (preserves_of_rests fun _ => bindA9InstallationToGate6Tx_rests) fun _ =>
      .bind (preserves_of_rests fun _ => .forEach fun _ _ => publishA9RouteTx_rests _)
        fun _ => .bind (preserves_of_rests fun _ => activateA9AuthorityTx_rests) fun _ =>
      .pure _)

theorem replace_preserves (hclk : clock.db ≤ c) (random : Bytes → LeaseDraw)
    (request : ReplaceRequest) (keyset : KeysetReceipt) :
    Moves (Session.Preserves S c) (S.replace clock random request keyset) := by
  refine .mapError (.require_bind fun _ =>
    .bind (preserves_of_rests fun _ => requireA9KeysetTx_rests) fun _ =>
    .bind (preserves_of_rests fun _ => requireRetentionSafeTx_rests) fun _ =>
    .bind (preserves_of_rests fun _ => loadOrInsertA9AuthorityTx_rests) fun a =>
    .bind (preserves_of_rests fun _ => a9ReceiptResultTx_rests) fun replay => ?_)
  cases replay with
  | some r => exact .pure _
  | none =>
    refine .ite refuseA9ReplaceTx_preserves
      (.ite refuseA9ReplaceTx_preserves
        (.ite refuseA9ReplaceTx_preserves ?_))
    split
    · exact refuseA9ReplaceTx_preserves
    intro s r s' h
    simp only [bind_ok, expect_ok, query_ok] at h
    obtain ⟨normalized, _, ⟨hnorm, rfl⟩, check, _, ⟨-, rfl⟩, h⟩ := h
    cases check with
    | revoked | missing => exact refuseA9ReplaceTx_preserves _ _ _ h
    | valid routes =>
      exact replaceValidatedA9Tx_preserves hclk _ _ (validateRefresh_ok hnorm) _ _ _ h

/-- Every transaction keeps the invariant, once no clock reading exceeds `c`. -/
theorem body_preserves {op : Op} (hop : op.latest ≤ c) :
    Moves (Session.Preserves S c) (S.body op) := by
  cases op with
  | applyControl clock e =>
    exact .bind (preserves_of_rests fun _ => applyControl_rests) fun _ => .pure _
  | applyWatermark clock w =>
    exact .bind (preserves_of_rests fun _ => applyWatermark_rests) fun _ => .pure _
  | replace clock random r k =>
    have hclk : clock.db ≤ c := le_trans (le_max_right _ _) hop
    exact .bind (replace_preserves hclk _ _ _) fun _ => .pure _
  | register clock i id token => exact registerVerified_preserves
  | keyset u => exact preserves_of_rests fun _ => updateKeysetTx_rests
  | refresh clock random r =>
    have hclk : clock.now ≤ c := le_trans (le_max_left _ _) hop
    exact .bind (refresh_preserves hclk _ _) fun _ => .pure _
  | advancePolicy t control => exact advancePolicy_preserves hop _
  | beginSweep t => exact preserves_of_rests fun _ => markRetentionUnsafe_rests
  | finishSweep clock =>
    have hclk : clock.startedAt ≤ c := le_trans (le_max_left _ _) hop
    exact .bind (sweepTx_preserves hclk) fun _ => .pure _
  | erase t lookup token => exact .bind (eraseInvalidAPNSToken_preserves hop _ _) fun _ => .pure _
  | reapply t => exact reapplyDeletionTombstones_preserves
  | requireRetentionSafe t => exact preserves_of_rests fun _ => requireRetentionSafeTx_rests
  | worker t w => exact work_preserves

theorem Kept.mono {clock clock' : Time} {db : Db} (h : db.Kept S clock) (hdb : db.Constraints)
    (hclk : clock ≤ clock') : db.Kept S clock' := by
  refine h.next (R := fun _ => False) hdb hclk hclk h.bound (fun i hi => ?_)
    (.refl _ _ _) fun l hl => ⟨l, hl, .refl l, id, fun i hi _ => ⟨i, hi, .refl i⟩⟩
  obtain ⟨id, hi⟩ := h.installations i hi
  exact ⟨id, hi.mono hclk⟩

/-- The routing tables of every reachable state, relative to its latest clock reading. -/
theorem reachable_kept {s : Sys} (h : S.system.Reachable s) : s.db.Kept S s.clock := by
  refine h.invariant (P := fun s => s.db.Kept S s.clock) ?_ ?_
  · rintro s ⟨hdb, -⟩
    rw [hdb]
    exact .empty
  · rintro s e s' - hk ⟨-, ⟨t, hbody, hvault, -⟩, hclk⟩
    have hdb : s'.db = t.db := congrArg Vault.db hvault.symm
    rw [hdb, hclk]
    exact body_preserves (le_max_right _ _) _ _ _ hbody
      (Kept.mono hk s.session.valid (le_max_left _ _))

end Store

end NotificationServer
