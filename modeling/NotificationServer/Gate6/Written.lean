import NotificationServer.Gate6.Preserved

/-!
# The refresh keeps the invariant

A refresh moves the installation row to the current lookup period, rewrites it,
upserts a lease per listed topic and erases the other leases.  In between, the
row and its leases disagree.  `Ready` is what holds before the row is written;
during the loops every lease of the installation is either rewritten or still
one of those that were loaded.
-/

namespace NotificationServer

open Relational Tx

variable {db : Db} {i row : InstallationRow} {id id' : Bytes32} {l : LeaseRow}
  {pending : ExistingLease → Prop}

theorem Db.mem_upsertHistory {x r : RouteKeyHistoryRow} :
    r ∈ (db.upsertHistory x).routeKeyHistory ↔ (∃ a ∈ db.routeKeyHistory, a.key = x.key ∧
        { a with updatedAt := x.updatedAt, expiresAt := x.expiresAt } = r) ∨
      (r ∈ db.routeKeyHistory ∧ r.key ≠ x.key) ∨
      (r = x ∧ ∀ a ∈ db.routeKeyHistory, a.key ≠ x.key) := by
  unfold Db.upsertHistory
  rw [mem_upsert]

theorem historyAdmits_newest {history : List RouteKeyHistoryRow} {commitment : LookupDigest}
    {epoch : Nat} {allowSameEpoch : Bool}
    (h : Store.historyAdmits history commitment epoch allowSameEpoch) {r : RouteKeyHistoryRow}
    (hr : r ∈ history) :
    r.routeKeyEpoch ≤ epoch ∧ (r.routeKeyEpoch = epoch →
      ∃ r' ∈ history, r'.routeKeyEpoch = epoch ∧ r'.routeKeyCommitment = commitment) := by
  unfold Store.historyAdmits at h
  split at h
  case h_1 hnone =>
    rw [List.argmax_eq_none] at hnone
    rw [hnone] at hr
    cases hr
  case h_2 latest hlat =>
    have hle : r.routeKeyEpoch ≤ latest.routeKeyEpoch := List.le_of_mem_argmax hr hlat
    split_ifs at h with hlt heq
    · exact ⟨by omega, fun _ => ⟨latest, List.argmax_mem hlat, heq.symm, h.2⟩⟩
    · exact ⟨by omega, fun he => by omega⟩

/-- What recording a key leaves of the key history of its own route. -/
structure Recorded (history : List RouteKeyHistoryRow) (identity commitment : LookupDigest)
    (epoch : Nat) (expiresAt : Time) : Prop where
  newest : ∀ h ∈ history, h.routeIdentity = identity → h.routeKeyEpoch ≤ epoch ∧
    (h.routeKeyEpoch = epoch → h.routeKeyCommitment = commitment)
  retained : ∃ h ∈ history, h.key = (identity, epoch) ∧ h.expiresAt = expiresAt

namespace Store

variable {S : Store} {c now : Time} {s s' : Session}

theorem recordRouteKeyHistory_ok {identity commitment : LookupDigest} {epoch : Nat}
    {allowSameEpoch : Bool} {expiresAt : Time} {u : Unit}
    (h : recordRouteKeyHistory identity commitment epoch allowSameEpoch now expiresAt s =
      .ok (u, s')) : Recorded s'.db.routeKeyHistory identity commitment epoch expiresAt := by
  simp only [recordRouteKeyHistory, bind_ok, require_ok, query_ok, exec_ok] at h
  obtain ⟨_, _, ⟨-, rfl⟩, _, s1, ⟨-, -⟩, _, _, ⟨rfl, rfl⟩, _, _, ⟨-, rfl⟩, _, _, ⟨hadmits, rfl⟩,
    _, _, ⟨-, rfl⟩, _, _, ⟨-, rfl⟩, _, s2, ⟨hdb2, -⟩, hdb', -⟩ := h
  -- Extending the rows of the route changes neither their epochs nor their commitments.
  have hold : ∀ r ∈ s2.db.routeKeyHistory, r.routeIdentity = identity →
      r.routeKeyEpoch ≤ epoch ∧ (r.routeKeyEpoch = epoch → r.routeKeyCommitment = commitment) := by
    intro r hr hrt
    rw [hdb2] at hr
    obtain ⟨a, ha, hae, hac, hai⟩ : ∃ a ∈ s1.db.routeKeyHistory,
        a.routeKeyEpoch = r.routeKeyEpoch ∧ a.routeKeyCommitment = r.routeKeyCommitment ∧
        a.routeIdentity = identity := by
      rcases mem_updateWhere.mp hr with ⟨a, ha, hp, rfl⟩ | ⟨hr, hp⟩
      · exact ⟨a, ha, rfl, rfl, hp⟩
      · exact absurd hrt hp
    have hmem : a ∈ s1.db.historyOf identity := List.mem_filter.mpr ⟨ha, decide_eq_true hai⟩
    obtain ⟨hle, heq⟩ := historyAdmits_newest hadmits hmem
    rw [← hae, ← hac]
    refine ⟨hle, fun he => ?_⟩
    obtain ⟨a', ha', hae', hac'⟩ := heq he
    obtain ⟨ha', hai'⟩ := List.mem_filter.mp ha'
    have : a = a' := s1.valid.routeKeyHistory.key.eq_of_key_eq ha ha' (by
      simp only [RouteKeyHistoryRow.key, hai, of_decide_eq_true hai', he, hae'])
    rw [this, hac']
  rw [hdb']
  refine ⟨fun r hr hrt => ?_, ?_⟩
  · rcases Db.mem_upsertHistory.mp hr with ⟨a, ha, hkey, rfl⟩ | ⟨hr, -⟩ | ⟨rfl, -⟩
    · exact hold a ha (congrArg Prod.fst hkey)
    · exact hold r hr hrt
    · exact ⟨le_rfl, fun _ => rfl⟩
  · by_cases hex : ∃ a ∈ s2.db.routeKeyHistory, a.key = (identity, epoch)
    · obtain ⟨a, ha, hkey⟩ := hex
      refine ⟨{ a with updatedAt := now, expiresAt := expiresAt }, Db.mem_upsertHistory.mpr (.inl ?_), hkey,
        rfl⟩
      exact ⟨a, ha, hkey, rfl⟩
    · refine ⟨⟨identity, epoch, commitment, now, expiresAt⟩, Db.mem_upsertHistory.mpr (.inr (.inr ?_)), rfl,
        rfl⟩
      exact ⟨rfl, fun a ha hkey => hex ⟨a, ha, hkey⟩⟩

theorem upsertLease_ok {terms : LeaseTerms} {markedAt : Time} {draw : LeaseDraw}
    {sub : NormalizedSubscription} {existing : Option LeaseRow} {u : Unit}
    (h : S.upsertLease terms markedAt draw sub existing s = .ok (u, s')) :
    ∃ nonce t, s.Rests S (· = S.routeHistoryIdentity terms.installationID sub.topic) terms.now t ∧
      Recorded t.db.routeKeyHistory (S.routeHistoryIdentity terms.installationID sub.topic)
        (S.routeKeyCommitment sub.routeKey) sub.routeKeyEpoch (terms.expiresAt + deletionHorizon) ∧
      s'.db = t.db.upsertLease (S.leaseRow terms sub
        ((existing.map fun l => l.leaseID).getD draw.leaseID) nonce) := by
  simp only [upsertLease, bind_ok, require_ok] at h
  obtain ⟨_, s1, hadv, _, _, ⟨-, rfl⟩, nonce, s2, hnonce, _, t, hrec, hls⟩ := h
  refine ⟨nonce, t, ?_, recordRouteKeyHistory_ok hrec, (exec_ok.mp hls).1⟩
  exact .trans (requireTombstoneAdvance_moves _ _ _ hadv) <|
    .trans (leaseNonceTx_moves (fun _ => markDeliveryJobsSafetyForLeaseTx_rests) _ _ _ hnonce)
      (recordRouteKeyHistory_rests (R := (· = _)) rfl _ _ _ hrec)

theorem eraseLease_ok {markedAt : Time} {lease : LeaseRow} {u : Unit}
    (h : S.eraseLease now markedAt lease s = .ok (u, s')) :
    ∃ t, s.Rests S (· = lease.routeIdentity) now t ∧
      s'.db = t.db.deleteLeases (fun l => l.leaseID = lease.leaseID) := by
  simp only [eraseLease, bind_ok, expect_ok] at h
  obtain ⟨_, s1, hmark, _, _, ⟨-, rfl⟩, _, s2, hrec, _, t, hfence, hdel⟩ := h
  refine ⟨t, ?_, (exec_ok.mp hdel).1⟩
  exact (markDeliveryJobsSafetyForLeaseTx_rests _ _ _ hmark).trans <|
    (recordRouteKeyHistory_rests (R := (· = _)) rfl _ _ _ hrec).trans
      (upsertDeletionTombstone_rests _ _ _ hfence)

/-- What `loadExistingLeases` returns: one lease per topic, and every topic of a lease. -/
structure Loaded (S : Store) (db : Db) (lookup : LookupDigest) (existing : List ExistingLease) :
    Prop where
  unique : Unique (fun e => e.topic) existing
  mem : ∀ e ∈ existing, e.lease ∈ db.leases ∧ e.lease.installationLookup = lookup ∧
    S.encryption.openValue (.lease e.lease.leaseID .topic) e.lease.encryptedTopic = some e.topic
  covers : ∀ l ∈ db.leases, l.installationLookup = lookup → ∃ e ∈ existing,
    S.encryption.openValue (.lease l.leaseID .topic) l.encryptedTopic = some e.topic

theorem loadExistingLeases_ok {lookup : LookupDigest} {existing : List ExistingLease}
    (h : S.loadExistingLeases lookup s = .ok (existing, s')) :
    s' = s ∧ Loaded S s.db lookup existing := by
  simp only [loadExistingLeases, bind_ok, query_ok, pure_ok] at h
  obtain ⟨_, _, ⟨rfl, rfl⟩, opened, _, hopened, rfl, rfl⟩ := h
  obtain ⟨rfl, hmem, hcovers⟩ := collect_ok (P := fun l e => e.lease = l ∧
      S.encryption.openValue (.lease l.leaseID .topic) l.encryptedTopic = some e.topic)
    (fun l e t ht => by
      simp only [bind_ok, require_ok, expect_ok, pure_ok] at ht
      obtain ⟨_, _, ⟨-, rfl⟩, topic, _, ⟨hopen, rfl⟩, rfl, rfl⟩ := ht
      exact ⟨rfl, rfl, hopen⟩) hopened
  refine ⟨rfl, unique_upsertAll unique_nil, fun e he => ?_, fun l hl hlook => ?_⟩
  · rcases mem_upsertAll he with he | he
    · obtain ⟨l, hl, rfl, hopen⟩ := hmem e he
      obtain ⟨hl, hlook⟩ := List.mem_filter.mp hl
      exact ⟨hl, of_decide_eq_true hlook, hopen⟩
    · cases he
  · obtain ⟨e, he, -, hopen⟩ := hcovers l (List.mem_filter.mpr ⟨hl, decide_eq_true hlook⟩)
    obtain ⟨e', he', htop⟩ : ∃ e' ∈ upsertAll (fun e : ExistingLease => e.topic) opened [],
        e'.topic = e.topic := exists_key_upsertAll.mpr (.inl ⟨e, he, rfl⟩)
    exact ⟨e', he', by rw [hopen, htop]⟩

end Store

/-- The routing tables when a refresh of `id` is about to write the row stored under `lookup`: all
other rows and leases are as between transactions, and the leases found under the lookup are those
of the installation. -/
structure Db.Ready (S : Store) (c : Time) (id : Bytes32) (lookup : LookupDigest) (db : Db) :
    Prop where
  bound : ∀ k ∈ db.keyBinding, k = S.rootCommitment
  rows : ∀ i ∈ db.installations, i.installationLookup ≠ lookup → ∃ id', i.Kept S c id'
  others : ∀ l ∈ db.leases, l.installationLookup ≠ lookup → db.LeaseKept S c l
  own : ∀ l ∈ db.leases, l.installationLookup = lookup → ∃ topic key,
    l.routeIdentity = S.routeHistoryIdentity id topic ∧
    S.encryption.openValue (.lease l.leaseID .topic) l.encryptedTopic = some topic ∧
    S.encryption.openValue (.lease l.leaseID .routeKey) l.encryptedRouteKey = some key ∧
    HistoryKept S c db.routeKeyHistory l key
  routes : ∀ l ∈ db.leases, ∀ l' ∈ db.leases, l.routeIdentity = l'.routeIdentity → l = l'

variable {S : Store} {c now : Time} {s s' : Session}

/-- A row stored under a lookup of `id` is the row of `id`. -/
theorem InstallationRow.Kept.eq_of_lookup {epoch : Nat} (h : i.Kept S c id')
    (hlook : i.installationLookup = S.installationLookup epoch id) :
    id' = id ∧ i.lookupKeyEpoch = epoch := by
  rw [h.lookup] at hlook
  simpa [Store.installationLookup, and_comm] using hlook

/-- A row with the identity of `id` is the row of `id`. -/
theorem InstallationRow.Kept.eq_of_identity (h : i.Kept S c id')
    (hid : i.installationIdentity = S.installationDeletionIdentity id) : id' = id := by
  rw [h.identity] at hid
  simpa [Store.installationDeletionIdentity] using hid

/-- A lease on a row of `id` is a lease of `id`. -/
theorem LeaseRow.Kept.eq_of_row {topic key : Bytes} (h : l.Kept S i id topic key)
    (hi : i.Kept S c id') : id = id' := by
  have howner := h.owner
  rw [hi.identity] at howner
  simpa [Store.installationDeletionIdentity, eq_comm] using howner

theorem Db.Kept.ready (hk : db.Kept S c) (hdb : db.Constraints) (epoch : Nat) (id : Bytes32) :
    db.Ready S c id (S.installationLookup epoch id) where
  bound := hk.bound
  rows := fun i hi _ => hk.installations i hi
  others := fun l hl _ => hk.leases l hl
  own := by
    intro l hl hlook
    obtain ⟨i, hi, id', topic, key, h, hh⟩ := hk.leases l hl
    obtain ⟨id'', hi'⟩ := hk.installations i hi
    obtain ⟨rfl, -⟩ := hi'.eq_of_lookup (h.lookup.symm.trans hlook)
    obtain rfl := h.eq_of_row hi'
    exact ⟨topic, key, h.route, h.opens_topic, h.opens_key, hh⟩
  routes := fun l hl l' hl' hrt => hk.route_unique hdb hl hl' hrt

/-- Moving a row with its leases to another lookup of its installation. -/
theorem Db.Kept.rekeyed (hk : db.Kept S c) (hdb : db.Constraints) {old : LookupDigest}
    {epoch epoch' : Nat} (incarnation : LookupDigest) (hold : old = S.installationLookup epoch id) :
    (db.rekeyInstallation old (S.installationLookup epoch' id) incarnation epoch').Ready S c id
      (S.installationLookup epoch' id) where
  bound := hk.bound
  rows := by
    intro i' hi' hne
    rcases mem_updateWhere.mp hi' with ⟨i, hi, -, rfl⟩ | ⟨hi, -⟩
    · exact absurd rfl hne
    · exact hk.installations i' hi
  others := by
    intro l' hl' hne
    rcases mem_updateWhere.mp hl' with ⟨l, hl, -, rfl⟩ | ⟨hl, hlook⟩
    · exact absurd rfl hne
    · obtain ⟨i, hi, id', topic, key, h, hh⟩ := hk.leases l' hl
      refine ⟨i, mem_updateWhere.mpr (.inr ⟨hi, fun he => hlook ?_⟩), id', topic, key, h, hh⟩
      rw [h.lookup, he]
  own := by
    intro l' hl' hlook
    rcases mem_updateWhere.mp hl' with ⟨l, hl, hlook', rfl⟩ | ⟨hl, -⟩
    · obtain ⟨topic, key, hrt, htop, hkey, hh⟩ :=
        (hk.ready hdb epoch id).own l hl (hlook'.trans hold)
      exact ⟨topic, key, hrt, htop, hkey, hh.congr rfl rfl rfl⟩
    · exact (hk.ready hdb epoch' id).own l' hl hlook
  routes := by
    intro l1 hl1 l2 hl2 hrt
    obtain ⟨a, ha, rfl⟩ := List.mem_map.mp hl1
    obtain ⟨b, hb, rfl⟩ := List.mem_map.mp hl2
    have hsame : ∀ l : LeaseRow, (if l.installationLookup = old then
        { l with installationLookup := S.installationLookup epoch' id } else l).routeIdentity =
          l.routeIdentity := fun l => by split <;> rfl
    rw [hsame, hsame] at hrt
    rw [hk.route_unique hdb ha hb hrt]

namespace Store

theorem prepareInstallationTx_ready {request : RefreshRequest} {markedAt : Time}
    {existing : InstallationRow} {u : Unit} {epoch : Nat} (hk : s.db.Kept S c)
    (hlook : existing.installationLookup = S.installationLookup epoch request.installationID)
    (h : S.prepareInstallationTx request now markedAt existing s = .ok (u, s')) :
    s'.db.Ready S c request.installationID
      (S.installationLookup (lookupEpoch now) request.installationID) := by
  simp only [prepareInstallationTx, bind_ok] at h
  obtain ⟨changed, s1, hchanged, _, s2, hmark, hrekey⟩ := h
  obtain rfl : s = s1 := apnsTokenChanged_moves _ _ _ hchanged
  have h2 : s.Rests S (fun _ => False) c s2 :=
    Moves.when markDeliveryJobsSafetyForInstallationTx_rests _ _ _ hmark
  have hk2 := h2.preserves le_rfl hk
  simp only [Tx.when, ite_ok, exec_ok, pure_ok] at hrekey
  rcases hrekey with ⟨-, hdb, -⟩ | ⟨-, -, rfl⟩
  · rw [hdb]
    exact hk2.rekeyed s2.valid _ hlook
  · exact hk2.ready s2.valid _ _

theorem findInstallation_ok {installationID : Bytes32} {r : Option InstallationRow}
    (h : S.findInstallation installationID now s = .ok (r, s')) :
    s' = s ∧ (∀ i ∈ r, i ∈ s.db.installations ∧
        i.installationIdentity = S.installationDeletionIdentity installationID ∧
        ∃ epoch ∈ candidateEpochs now,
          i.installationLookup = S.installationLookup epoch installationID) ∧
      (r = none → ∀ epoch ∈ candidateEpochs now, ∀ i ∈ s.db.installations,
        i.installationLookup ≠ S.installationLookup epoch installationID) := by
  simp only [findInstallation, bind_ok, query_ok] at h
  obtain ⟨row, _, ⟨hrow, rfl⟩, h⟩ := h
  cases row with
  | none =>
    obtain ⟨rfl, rfl⟩ := pure_ok.mp h
    refine ⟨rfl, by simp, fun _ epoch hep i hi => ?_⟩
    have hnone := List.findSome?_eq_none_iff.mp hrow epoch hep
    simpa using List.find?_eq_none.mp hnone i hi
  | some i =>
    simp only [bind_ok, require_ok, pure_ok] at h
    obtain ⟨_, _, ⟨hid, rfl⟩, rfl, rfl⟩ := h
    refine ⟨rfl, fun i' hi' => ?_, by simp⟩
    obtain rfl : i = i' := Option.some.inj hi'
    obtain ⟨epoch, hep, hfind⟩ := List.exists_of_findSome?_eq_some hrow
    exact ⟨(found hfind).1, hid, epoch, hep, (found hfind).2⟩

end Store

/-- A lease of the row `row` that the refresh in progress has written. -/
def Db.LeaseWritten (S : Store) (c : Time) (row : InstallationRow) (id : Bytes32) (db : Db)
    (l : LeaseRow) (topic : Bytes) : Prop :=
  ∃ key, l.Kept S row id topic key ∧ HistoryKept S c db.routeKeyHistory l key

/-- The routing tables while a refresh writes leases of the row `row`: `pending` says which of the
loaded leases may still be there, `written` which topics have been written. -/
structure Db.Writing (S : Store) (c : Time) (row : InstallationRow) (id : Bytes32)
    (written : Bytes → Prop) (pending : ExistingLease → Prop) (db : Db) : Prop where
  bound : ∀ k ∈ db.keyBinding, k = S.rootCommitment
  rows : ∀ i ∈ db.installations, ∃ id', i.Kept S c id'
  row_mem : row ∈ db.installations
  others : ∀ l ∈ db.leases, l.installationLookup ≠ row.installationLookup → db.LeaseKept S c l
  own : ∀ l ∈ db.leases, l.installationLookup = row.installationLookup →
    (∃ topic, written topic ∧ db.LeaseWritten S c row id l topic) ∨ ∃ e, pending e ∧ e.lease = l

theorem Db.Writing.imp {written written' : Bytes → Prop} {pending' : ExistingLease → Prop}
    (h : db.Writing S c row id written pending) (hw : ∀ t, written t → written' t)
    (hp : ∀ e, pending e → pending' e) : db.Writing S c row id written' pending' :=
  { h with
    own := fun l hl hlook => (h.own l hl hlook).imp
      (fun ⟨t, ht, h⟩ => ⟨t, hw t ht, h⟩) fun ⟨e, he, h⟩ => ⟨e, hp e he, h⟩ }

/-- No lease of another row has a route of the installation. -/
theorem Db.Writing.route_ne {written : Bytes → Prop} (h : db.Writing S c row id written pending)
    (hdb : db.Constraints) (hrow : row.Kept S c id) (hl : l ∈ db.leases)
    (hne : l.installationLookup ≠ row.installationLookup) (topic : Bytes) :
    l.routeIdentity ≠ S.routeHistoryIdentity id topic := by
  intro hrt
  obtain ⟨i, hi, id', topic', key, hkept, -⟩ := h.others l hl hne
  rw [hkept.route] at hrt
  obtain ⟨rfl, -⟩ : id' = id ∧ topic' = topic := by
    simpa [Store.routeHistoryIdentity] using hrt
  have hsame : i = row := hdb.installations.identity_key.eq_of_key_eq hi h.row_mem (by
    rw [hkept.owner, hrow.identity])
  exact hne (hsame ▸ hkept.lookup)

/-- Statements at rest keep the leases of other rows, and the written ones of other topics. -/
theorem Db.LeaseKept.rests {R : LookupDigest → Prop} (h : s.db.LeaseKept S c l)
    (hrest : s.Rests S R now s') (hR : ¬ R l.routeIdentity) (hnow : now ≤ c) :
    s'.db.LeaseKept S c l := by
  obtain ⟨i, hi, id, topic, key, hkept, hh⟩ := h
  rw [← hrest.installations] at hi
  exact ⟨i, hi, id, topic, key, hkept,
    hh.moves hrest.history hR s.valid.routeKeyHistory.key hnow le_rfl⟩

theorem Db.LeaseWritten.rests {R : LookupDigest → Prop} {topic : Bytes}
    (h : s.db.LeaseWritten S c row id l topic) (hrest : s.Rests S R now s')
    (hR : ¬ R l.routeIdentity) (hnow : now ≤ c) : s'.db.LeaseWritten S c row id l topic := by
  obtain ⟨key, hkept, hh⟩ := h
  exact ⟨key, hkept, hh.moves hrest.history hR s.valid.routeKeyHistory.key hnow le_rfl⟩

theorem Db.mem_upsertLease {x : LeaseRow} (h : l ∈ (db.upsertLease x).leases) :
    l = x ∨ (l ∈ db.leases ∧ l.leaseID ≠ x.leaseID) := by
  unfold Db.upsertLease at h
  exact mem_upsert_replace h

structure LeaseTerms.Of (terms : LeaseTerms) (row : InstallationRow) (id : Bytes32) : Prop where
  installation : terms.installationID = id
  lookup : terms.installationLookup = row.installationLookup
  epoch : terms.lookupEpoch = row.lookupKeyEpoch
  expires : terms.expiresAt = row.expiresAt

namespace Store

variable {row : InstallationRow} {id : Bytes32} {sub : NormalizedSubscription} {db : Db}
  {markedAt : Time} {existing : List ExistingLease} {u : Unit} {request : RefreshRequest}
  {normalized : List NormalizedSubscription} {random : Bytes → LeaseDraw}

theorem leaseRow_written {terms : LeaseTerms} (leaseID : Bytes16) (nonce : NonceState)
    (hterms : terms.Of row id) (hrow : row.Kept S c id)
    (hrec : Recorded db.routeKeyHistory (S.routeHistoryIdentity id sub.topic)
      (S.routeKeyCommitment sub.routeKey) sub.routeKeyEpoch (terms.expiresAt + deletionHorizon)) :
    db.LeaseWritten S c row id (S.leaseRow terms sub leaseID nonce) sub.topic := by
  refine ⟨sub.routeKey, ⟨hterms.lookup, ?_, hrow.identity, hterms.expires, ?_, ?_, ?_, ?_⟩, ?_⟩
  · rw [hrow.identity]
    simp only [leaseRow, hterms.installation]
  · simp only [leaseRow, hterms.installation]
  · simp only [leaseRow, hterms.epoch]
  · simp only [leaseRow, Keyring.openValue_sealValue]
  · simp only [leaseRow, Keyring.openValue_sealValue]
  have hrt : (S.leaseRow terms sub leaseID nonce).routeIdentity =
      S.routeHistoryIdentity id sub.topic := by simp only [leaseRow, hterms.installation]
  refine ⟨fun r hr he => hrec.newest r hr (he.trans hrt), .inl ?_⟩
  obtain ⟨r, hr, hkey, hexp⟩ := hrec.retained
  exact ⟨r, hr, by rw [hrt]; exact hkey, hexp⟩

/-- One round of the loop over the listed topics, of which `rest` come after it. -/
theorem upsertLease_writing {terms : LeaseTerms} {draw : LeaseDraw} {topics rest : List Bytes}
    (hterms : terms.Of row id) (hrow : row.Kept S c id) (hnow : terms.now ≤ c)
    (huniq : Unique (fun e => e.topic) existing) (hmem : sub.topic ∈ topics)
    (hnot : sub.topic ∉ rest)
    (hw : s.db.Writing S c row id (fun t => t ∈ topics ∧ t ∉ sub.topic :: rest)
      fun e => e ∈ existing ∧ (e.topic ∈ sub.topic :: rest ∨ e.topic ∉ topics))
    (h : S.upsertLease terms markedAt draw sub
      ((existing.find? fun e => e.topic = sub.topic).map fun e => e.lease) s = .ok (u, s')) :
    s'.db.Writing S c row id (fun t => t ∈ topics ∧ t ∉ rest)
      fun e => e ∈ existing ∧ (e.topic ∈ rest ∨ e.topic ∉ topics) := by
  obtain ⟨nonce, t, hrest, hrec, hdb⟩ := upsertLease_ok h
  rw [hterms.installation] at hrest hrec
  have hwritten := leaseRow_written (Option.getD
    (Option.map (fun l => l.leaseID) ((existing.find? fun e => e.topic = sub.topic).map
      fun e => e.lease)) draw.leaseID) nonce hterms hrow hrec
  -- The other leases, as the statements before the upsert leave them.
  have hstay : ∀ l ∈ s.db.leases, l.installationLookup ≠ row.installationLookup →
      t.db.LeaseKept S c l := fun l hl hne =>
    (hw.others l hl hne).rests hrest (hw.route_ne s.valid hrow hl hne sub.topic) hnow
  rw [hdb]
  refine ⟨hrest.bound hw.bound, ?_, ?_, fun l hl hne => ?_, fun l hl hlook => ?_⟩
  · exact hrest.installations ▸ hw.rows
  · exact hrest.installations ▸ hw.row_mem
  · rcases Db.mem_upsertLease hl with rfl | ⟨hl, -⟩
    · exact absurd hterms.lookup hne
    · exact hstay l (hrest.leases ▸ hl) hne
  · rcases Db.mem_upsertLease hl with rfl | ⟨hl, hid⟩
    · exact .inl ⟨sub.topic, ⟨hmem, hnot⟩, hwritten⟩
    · rw [hrest.leases] at hl
      rcases hw.own l hl hlook with ⟨topic, ⟨htop, hdone⟩, hwr⟩ | ⟨e, ⟨he, hpend⟩, rfl⟩
      · refine .inl ⟨topic, ⟨htop, fun hr => hdone (.tail _ hr)⟩,
          hwr.rests hrest (fun hrt => hdone ?_) hnow⟩
        obtain ⟨key, hkept, -⟩ := hwr
        rw [hkept.route] at hrt
        have : topic = sub.topic := by simpa [routeHistoryIdentity] using hrt
        exact this ▸ List.mem_cons_self
      · refine .inr ⟨e, ⟨he, ?_⟩, rfl⟩
        rcases hpend with hpend | hpend
        · rcases List.mem_cons.mp hpend with htop | hpend
          · -- The lease of this topic is the one that was overwritten.
            have hfind : (existing.find? fun e => e.topic = sub.topic) = some e := by
              cases hf : existing.find? fun e => e.topic = sub.topic with
              | none => exact absurd htop (by simpa using List.find?_eq_none.mp hf e he)
              | some e' =>
                rw [huniq.eq_of_key_eq (found hf).1 he ((found hf).2.trans htop.symm)]
            rw [hfind] at hid
            exact absurd rfl hid
          · exact .inl hpend
        · exact .inr hpend

/-- One round of the loop over the topics that are not listed any more. -/
theorem eraseLease_writing {topics : List Bytes} {e : ExistingLease} {rest : List ExistingLease}
    (hrow : row.Kept S c id) (hnow : now ≤ c) (htop : e.topic ∉ topics)
    (hrt : e.lease.routeIdentity = S.routeHistoryIdentity id e.topic)
    (hw : s.db.Writing S c row id (· ∈ topics) (· ∈ e :: rest))
    (h : S.eraseLease now markedAt e.lease s = .ok (u, s')) :
    s'.db.Writing S c row id (· ∈ topics) (· ∈ rest) := by
  obtain ⟨t, hrest, hdb⟩ := eraseLease_ok h
  rw [hrt] at hrest
  rw [hdb]
  refine ⟨hrest.bound hw.bound, ?_, ?_, fun l hl hne => ?_, fun l hl hlook => ?_⟩
  · exact hrest.installations ▸ hw.rows
  · exact hrest.installations ▸ hw.row_mem
  · have hl := (mem_deleteWhere.mp hl).1
    rw [hrest.leases] at hl
    exact (hw.others l hl hne).rests hrest (hw.route_ne s.valid hrow hl hne e.topic) hnow
  · obtain ⟨hl, hid⟩ := mem_deleteWhere.mp hl
    rw [hrest.leases] at hl
    rcases hw.own l hl hlook with ⟨topic, hmem, hwr⟩ | ⟨e', he', rfl⟩
    · refine .inl ⟨topic, hmem, hwr.rests hrest (fun hr => htop ?_) hnow⟩
      obtain ⟨key, hkept, -⟩ := hwr
      rw [hkept.route] at hr
      have : topic = e.topic := by simpa [routeHistoryIdentity] using hr
      exact this ▸ hmem
    · rcases List.mem_cons.mp he' with rfl | he'
      · exact absurd rfl hid
      · exact .inr ⟨e', he', rfl⟩

/-- Once every loaded lease is rewritten or erased, the row and its leases agree again. -/
theorem writing_kept {written : Bytes → Prop} (hw : db.Writing S c row id written fun _ => False) :
    db.Kept S c := by
  refine ⟨hw.bound, hw.rows, fun l hl => ?_⟩
  by_cases hlook : l.installationLookup = row.installationLookup
  · rcases hw.own l hl hlook with ⟨topic, -, key, hkept, hh⟩ | ⟨_, hfalse, -⟩
    · exact ⟨row, hw.row_mem, id, topic, key, hkept, hh⟩
    · exact hfalse.elim
  · exact hw.others l hl hlook

theorem installationRow_kept (controlExpiresAt : Time) (hnow : now ≤ c)
    (hep : request.policyControl.policyEpoch ≤ maxSafeInteger) :
    (S.installationRow request now controlExpiresAt).Kept S c request.installationID where
  lookup := rfl
  identity := rfl
  policy_epoch := hep
  refreshed := hnow
  token := fun t ht => ⟨request.apnsToken, by
    cases ht
    exact Keyring.openValue_sealValue _ _ _⟩
  state := by simp [installationRow]

/-- A loaded lease has the route of its topic. -/
theorem loaded_route {lookup : LookupDigest} (hrdy : db.Ready S c id lookup)
    (hload : Loaded S db lookup existing) {e : ExistingLease} (he : e ∈ existing) :
    e.lease.routeIdentity = S.routeHistoryIdentity id e.topic := by
  obtain ⟨hl, hlook, hopen⟩ := hload.mem e he
  obtain ⟨topic, key, hrt, htop, -⟩ := hrdy.own _ hl hlook
  rw [hopen] at htop
  rw [hrt, Option.some.inj htop]

/-- Every lease of the installation is loaded. -/
theorem exists_loaded {lookup : LookupDigest} (hrdy : db.Ready S c id lookup)
    (hload : Loaded S db lookup existing) {l : LeaseRow} (hl : l ∈ db.leases)
    (hlook : l.installationLookup = lookup) : ∃ e ∈ existing, e.lease = l := by
  obtain ⟨topic, key, hrt, htop, -⟩ := hrdy.own l hl hlook
  obtain ⟨e, he, hopen⟩ := hload.covers l hl hlook
  refine ⟨e, he, hrdy.routes _ (hload.mem e he).1 l hl ?_⟩
  rw [htop] at hopen
  rw [loaded_route hrdy hload he, hrt, Option.some.inj hopen]

theorem ready_writing (hrdy : db.Ready S c id row.installationLookup)
    (hload : Loaded S db row.installationLookup existing) (hrow : row.Kept S c id) :
    (db.upsertInstallation row).Writing S c row id (fun _ => False) (· ∈ existing) where
  bound := hrdy.bound
  rows := by
    intro i hi
    rcases mem_upsert_replace hi with rfl | ⟨hi, hne⟩
    · exact ⟨id, hrow⟩
    · exact hrdy.rows i hi hne
  row_mem := mem_upsert_self
  others := by
    intro l hl hne
    obtain ⟨i, hi, id', topic, key, hkept, hh⟩ := hrdy.others l hl hne
    have hstays : i ∈ (db.upsertInstallation row).installations := by
      unfold Db.upsertInstallation
      rw [mem_upsert]
      exact .inr (.inl ⟨hi, hkept.lookup ▸ hne⟩)
    exact ⟨i, hstays, id', topic, key, hkept, hh⟩
  own := fun l hl hlook => .inr (exists_loaded hrdy hload hl hlook)

/-- The routing tables once a refresh has written the row and every listed lease. -/
theorem writeRefreshTx_writing (hnow : now ≤ c) (hrdy : s.db.Ready S c request.installationID
      (S.installationLookup (lookupEpoch now) request.installationID))
    (hep : request.policyControl.policyEpoch ≤ maxSafeInteger)
    (hnodup : (normalized.map fun sub => sub.topic).Nodup)
    (h : S.writeRefreshTx request normalized random now markedAt s = .ok (u, s')) :
    ∃ row : InstallationRow,
      row.installationLookup = S.installationLookup (lookupEpoch now) request.installationID ∧
      row.Kept S c request.installationID ∧
      s'.db.Writing S c row request.installationID (· ∈ normalized.map fun sub => sub.topic)
        fun _ => False := by
  simp only [writeRefreshTx, bind_ok, expect_ok] at h
  obtain ⟨expires, _, ⟨-, rfl⟩, _, s1, hupsert, existing, _, hload, _, s2, hwr, hera⟩ := h
  obtain ⟨rfl, hload⟩ := loadExistingLeases_ok hload
  obtain ⟨hdb1, -⟩ := exec_ok.mp hupsert
  have hrow := installationRow_kept (S := S) (controlExpiry request.policyControl now expires) hnow
    hep
  have hload0 : Loaded S s.db (S.installationLookup (lookupEpoch now) request.installationID)
      existing := by
    rw [hdb1] at hload
    exact ⟨hload.unique, hload.mem, hload.covers⟩
  have hw1 := hdb1 ▸ ready_writing hrdy hload0 hrow
  -- The topics that are listed.
  have hw2 := forEach_ok (I := fun rest t => (rest.map fun sub => sub.topic).Nodup ∧
      (∀ sub ∈ rest, sub.topic ∈ normalized.map fun sub => sub.topic) ∧
      t.db.Writing S c (S.installationRow request now
        (controlExpiry request.policyControl now expires)) request.installationID
        (fun topic => topic ∈ (normalized.map fun sub => sub.topic) ∧
          topic ∉ rest.map fun sub => sub.topic)
        fun e => e ∈ existing ∧ (e.topic ∈ (rest.map fun sub => sub.topic) ∨
          e.topic ∉ normalized.map fun sub => sub.topic))
    (fun sub rest t t' hI hstep => by
      obtain ⟨hnd, hmem, hw⟩ := hI
      rw [List.map_cons, List.nodup_cons] at hnd
      refine ⟨hnd.2, fun sub' hsub' => hmem sub' (.tail _ hsub'), ?_⟩
      exact upsertLease_writing ⟨rfl, rfl, rfl, rfl⟩ hrow hnow hload.unique
        (hmem sub (.head _)) hnd.1 hw hstep)
    ⟨hnodup, fun sub hsub => List.mem_map_of_mem hsub,
      hw1.imp (fun _ hf => hf.elim) fun e he => ⟨he, Classical.em _⟩⟩ hwr
  -- The topics that are not.
  have hw3 := forEach_ok (I := fun rest t =>
      (∀ e ∈ rest, e ∈ existing ∧ e.topic ∉ normalized.map fun sub => sub.topic) ∧
      t.db.Writing S c (S.installationRow request now
        (controlExpiry request.policyControl now expires)) request.installationID
        (· ∈ normalized.map fun sub => sub.topic) (· ∈ rest))
    (fun e rest t t' hI hstep => by
      obtain ⟨hrest, hw⟩ := hI
      obtain ⟨he, htop⟩ := hrest e (.head _)
      exact ⟨fun e' he' => hrest e' (.tail _ he'), eraseLease_writing hrow hnow
        htop (loaded_route hrdy hload0 he) hw hstep⟩)
    ⟨fun e he => by simpa using he, hw2.2.2.imp (fun _ ht => ht.1) fun e he => by simpa using he⟩
    hera
  exact ⟨_, rfl, hrow, hw3.2.imp (fun _ ht => ht) fun e he => absurd he (by simp)⟩

theorem writeRefreshTx_kept (hnow : now ≤ c) (hrdy : s.db.Ready S c request.installationID
      (S.installationLookup (lookupEpoch now) request.installationID))
    (hep : request.policyControl.policyEpoch ≤ maxSafeInteger)
    (hnd : (normalized.map fun sub => sub.topic).Nodup)
    (h : S.writeRefreshTx request normalized random now markedAt s = .ok (u, s')) :
    s'.db.Kept S c := by
  obtain ⟨row, -, -, hw⟩ := writeRefreshTx_writing hnow hrdy hep hnd h
  exact writing_kept hw

end Store

end NotificationServer
