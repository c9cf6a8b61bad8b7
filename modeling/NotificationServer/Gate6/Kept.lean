import NotificationServer.System

/-!
# What the routing tables keep between transactions

Whether a lease can be deleted depends on rows other statements wrote, possibly
long ago: its installation row is found through a lookup of its period, its
deletion must retire a key history row that has not expired, and the values it
carries must open under the contexts they were sealed for.  `Db.Kept` states
what every transaction leaves behind, relative to the latest clock reading of
the run; `HistoryMoves` states what a transaction may do to the key history of
routes that are not its own.
-/

namespace NotificationServer

open Relational

variable {S : Store} {clock : Time} {history : List RouteKeyHistoryRow} {l : LeaseRow} {key : Bytes}

/-- An installation row as every transaction leaves it; `id` is the installation it stores. -/
structure InstallationRow.Kept (S : Store) (clock : Time) (i : InstallationRow) (id : Bytes32) :
    Prop where
  lookup : i.installationLookup = S.installationLookup i.lookupKeyEpoch id
  identity : i.installationIdentity = S.installationDeletionIdentity id
  policy_epoch : i.policyEpoch ≤ maxSafeInteger
  refreshed : i.refreshedAt ≤ clock
  token : ∀ t ∈ i.encryptedAPNSToken, ∃ v,
    S.encryption.openValue (.installation i.installationLookup .apnsToken) t = some v
  state : i.state ≠ .blockedRekeyNeeded

/-- A lease as every transaction leaves it, on the installation row `i`: they expire together, and
the lease opens to the topic and the route key it was written for. -/
structure LeaseRow.Kept (S : Store) (i : InstallationRow) (l : LeaseRow) (id : Bytes32)
    (topic key : Bytes) : Prop where
  lookup : l.installationLookup = i.installationLookup
  identity : l.installationIdentity = i.installationIdentity
  owner : i.installationIdentity = S.installationDeletionIdentity id
  expires : l.expiresAt = i.expiresAt
  route : l.routeIdentity = S.routeHistoryIdentity id topic
  topic_lookup : l.topicLookup = S.topicLookup i.lookupKeyEpoch topic
  opens_topic : S.encryption.openValue (.lease l.leaseID .topic) l.encryptedTopic = some topic
  opens_key : S.encryption.openValue (.lease l.leaseID .routeKey) l.encryptedRouteKey = some key

/-- The key history of a lease's route: the lease's epoch is the newest, and its row lives as long
as a tombstone of the lease would, or is gone because that time has passed. -/
structure HistoryKept (S : Store) (clock : Time) (history : List RouteKeyHistoryRow)
    (l : LeaseRow) (key : Bytes) : Prop where
  newest : ∀ h ∈ history, h.routeIdentity = l.routeIdentity → h.routeKeyEpoch ≤ l.routeKeyEpoch ∧
    (h.routeKeyEpoch = l.routeKeyEpoch → h.routeKeyCommitment = S.routeKeyCommitment key)
  retained : (∃ h ∈ history, h.key = (l.routeIdentity, l.routeKeyEpoch) ∧
      h.expiresAt = l.expiresAt + deletionHorizon) ∨
    ((∀ h ∈ history, h.key ≠ (l.routeIdentity, l.routeKeyEpoch)) ∧
      l.expiresAt + deletionHorizon ≤ clock)

/-- Of the routes outside `R`, rows only disappear, and only once they have expired. -/
def HistoryMoves (R : LookupDigest → Prop) (now : Time) (history history' :
    List RouteKeyHistoryRow) : Prop :=
  ∀ h, ¬ R h.routeIdentity →
    (h ∈ history' → h ∈ history) ∧ (h ∈ history → now < h.expiresAt → h ∈ history')

namespace HistoryMoves

variable {R R' : LookupDigest → Prop} {now : Time} {h₁ h₂ h₃ : List RouteKeyHistoryRow}
  {p : RouteKeyHistoryRow → Prop}

theorem refl (R : LookupDigest → Prop) (now : Time) (h : List RouteKeyHistoryRow) :
    HistoryMoves R now h h :=
  fun _ _ => ⟨id, fun hm _ => hm⟩

theorem trans (h : HistoryMoves R now h₁ h₂) (h' : HistoryMoves R now h₂ h₃) :
    HistoryMoves R now h₁ h₃ :=
  fun r hr => ⟨fun hm => (h r hr).1 ((h' r hr).1 hm),
    fun hm hlt => (h' r hr).2 ((h r hr).2 hm hlt) hlt⟩

theorem mono (h : HistoryMoves R now h₁ h₂) (hR : ∀ r, R r → R' r) : HistoryMoves R' now h₁ h₂ :=
  fun r hr => h r fun hr' => hr (hR _ hr')

theorem deleteWhere [DecidablePred p] (hp : ∀ r, p r → r.expiresAt ≤ now) :
    HistoryMoves R now h₁ (Relational.deleteWhere p h₁) := by
  intro r _
  rw [mem_deleteWhere]
  refine ⟨fun hm => hm.1, fun hm hlt => ⟨hm, fun h => ?_⟩⟩
  have := hp r h
  lia

/-- Updating rows of routes inside `R`. -/
theorem updateWhere [DecidablePred p] {f : RouteKeyHistoryRow → RouteKeyHistoryRow}
    (hp : ∀ r, p r → R r.routeIdentity) (hf : ∀ r, (f r).routeIdentity = r.routeIdentity) :
    HistoryMoves R now h₁ (Relational.updateWhere p f h₁) := by
  intro r hr
  rw [mem_updateWhere]
  refine ⟨?_, fun hm _ => .inr ⟨hm, fun h => hr (hp r h)⟩⟩
  rintro (⟨a, -, ha, rfl⟩ | ⟨hm, -⟩)
  · rw [hf] at hr
    exact absurd (hp a ha) hr
  · exact hm

/-- Inserting or updating a row of a route inside `R`. -/
theorem upsert {κ : Type} [DecidableEq κ] {key : RouteKeyHistoryRow → κ}
    {merge : RouteKeyHistoryRow → RouteKeyHistoryRow → RouteKeyHistoryRow} {x : RouteKeyHistoryRow}
    (hx : R x.routeIdentity) (hkey : ∀ r, key r = key x → r.routeIdentity = x.routeIdentity)
    (hm : ∀ r, (merge r x).routeIdentity = r.routeIdentity) :
    HistoryMoves R now h₁ (Relational.upsert key merge x h₁) := by
  intro r hr
  rw [mem_upsert]
  refine ⟨?_, fun hmem _ => .inr (.inl ⟨hmem, fun hk => hr ?_⟩)⟩
  · rintro (⟨a, -, ha, rfl⟩ | ⟨hmem, -⟩ | ⟨rfl, -⟩)
    · rw [hm, hkey a ha] at hr
      exact absurd hx hr
    · exact hmem
    · exact absurd hx hr
  · rw [hkey r hk]
    exact hx

end HistoryMoves

/-- What may happen to other routes' key histories keeps that of a lease. -/
theorem HistoryKept.moves {clock' now : Time} {R : LookupDigest → Prop}
    {history' : List RouteKeyHistoryRow} (h : HistoryKept S clock history l key)
    (hm : HistoryMoves R now history history') (hR : ¬ R l.routeIdentity)
    (huniq : Unique RouteKeyHistoryRow.key history) (hnow : now ≤ clock') (hclk : clock ≤ clock') :
    HistoryKept S clock' history' l key := by
  have hback : ∀ r ∈ history', r.routeIdentity = l.routeIdentity → r ∈ history :=
    fun r hr he => (hm r (he ▸ hR)).1 hr
  refine ⟨fun r hr he => h.newest r (hback r hr he) he, ?_⟩
  rcases h.retained with ⟨r, hr, hkey, hexp⟩ | ⟨hnone, hgone⟩
  · have hrt : r.routeIdentity = l.routeIdentity := congrArg Prod.fst hkey
    by_cases hlive : now < r.expiresAt
    · exact .inl ⟨r, (hm r (hrt ▸ hR)).2 hr hlive, hkey, hexp⟩
    by_cases hstill : r ∈ history'
    · exact .inl ⟨r, hstill, hkey, hexp⟩
    · refine .inr ⟨fun r' hr' hk => hstill ?_, by lia⟩
      have : r' = r :=
        huniq.eq_of_key_eq (hback r' hr' (congrArg Prod.fst hk)) hr (hk.trans hkey.symm)
      exact this ▸ hr'
  · exact .inr ⟨fun r hr hk => hnone r (hback r hr (congrArg Prod.fst hk)) hk, by lia⟩

/-- A lease's key history is current exactly until its tombstone would expire. -/
theorem HistoryKept.current_iff {now : Time} {db : Db}
    (h : HistoryKept S clock db.routeKeyHistory l key)
    (huniq : Unique RouteKeyHistoryRow.key db.routeKeyHistory) (hnow : clock ≤ now) :
    db.HistoryCurrent l.routeIdentity l.routeKeyEpoch now ↔
      now < l.expiresAt + deletionHorizon := by
  constructor
  · rintro ⟨r, hr, hkey, hlt⟩
    rcases h.retained with ⟨r', hr', hkey', hexp⟩ | ⟨hnone, -⟩
    · have : r = r' := huniq.eq_of_key_eq hr hr' (hkey.trans hkey'.symm)
      rw [this] at hlt
      lia
    · exact absurd hkey (hnone r hr)
  · intro hlt
    rcases h.retained with ⟨r, hr, hkey, hexp⟩ | ⟨-, hgone⟩
    · exact ⟨r, hr, hkey, by lia⟩
    · lia

/-- A lease with its installation row and its key history. -/
def Db.LeaseKept (S : Store) (clock : Time) (db : Db) (l : LeaseRow) : Prop :=
  ∃ i ∈ db.installations, ∃ id topic key,
    l.Kept S i id topic key ∧ HistoryKept S clock db.routeKeyHistory l key

structure Db.Kept (S : Store) (clock : Time) (db : Db) : Prop where
  bound : ∀ k ∈ db.keyBinding, k = S.rootCommitment
  installations : ∀ i ∈ db.installations, ∃ id, i.Kept S clock id
  leases : ∀ l ∈ db.leases, db.LeaseKept S clock l

structure LeaseRow.SameRoute (l l' : LeaseRow) : Prop where
  leaseID : l'.leaseID = l.leaseID
  lookup : l'.installationLookup = l.installationLookup
  identity : l'.installationIdentity = l.installationIdentity
  route : l'.routeIdentity = l.routeIdentity
  topic_lookup : l'.topicLookup = l.topicLookup
  topic : l'.encryptedTopic = l.encryptedTopic
  key : l'.encryptedRouteKey = l.encryptedRouteKey
  epoch : l'.routeKeyEpoch = l.routeKeyEpoch
  expires : l'.expiresAt = l.expiresAt

/-- The columns of an installation row the invariant on its leases speaks of. -/
structure InstallationRow.SameRow (i i' : InstallationRow) : Prop where
  lookup : i'.installationLookup = i.installationLookup
  identity : i'.installationIdentity = i.installationIdentity
  epoch : i'.lookupKeyEpoch = i.lookupKeyEpoch
  expires : i'.expiresAt = i.expiresAt

theorem LeaseRow.SameRoute.refl (l : LeaseRow) : l.SameRoute l :=
  ⟨rfl, rfl, rfl, rfl, rfl, rfl, rfl, rfl, rfl⟩

theorem InstallationRow.SameRow.refl (i : InstallationRow) : i.SameRow i := ⟨rfl, rfl, rfl, rfl⟩

theorem LeaseRow.Kept.congr {i i' : InstallationRow} {l' : LeaseRow} {id : Bytes32} {topic : Bytes}
    (h : l.Kept S i id topic key) (hl : l.SameRoute l') (hi : i.SameRow i') :
    l'.Kept S i' id topic key where
  lookup := by rw [hl.lookup, hi.lookup, h.lookup]
  identity := by rw [hl.identity, hi.identity, h.identity]
  owner := by rw [hi.identity, h.owner]
  expires := by rw [hl.expires, hi.expires, h.expires]
  route := by rw [hl.route, h.route]
  topic_lookup := by rw [hl.topic_lookup, hi.epoch, h.topic_lookup]
  opens_topic := by rw [hl.leaseID, hl.topic, h.opens_topic]
  opens_key := by rw [hl.leaseID, hl.key, h.opens_key]

theorem HistoryKept.congr {l' : LeaseRow} (h : HistoryKept S clock history l key)
    (hrt : l'.routeIdentity = l.routeIdentity) (hep : l'.routeKeyEpoch = l.routeKeyEpoch)
    (hexp : l'.expiresAt = l.expiresAt) : HistoryKept S clock history l' key where
  newest := by rw [hrt, hep]; exact h.newest
  retained := by rw [hrt, hep, hexp]; exact h.retained

theorem InstallationRow.Kept.mono {clock' : Time} {i : InstallationRow} {id : Bytes32}
    (h : i.Kept S clock id) (hclk : clock ≤ clock') : i.Kept S clock' id :=
  { h with refreshed := by have := h.refreshed; lia }

namespace Db.Kept

variable {S : Store} {clock clock' : Time} {db db' : Db}

theorem empty : Db.Kept S clock Db.empty :=
  ⟨fun _ h => (by simp [Db.empty] at h), fun _ h => (by simp [Db.empty] at h),
    fun _ h => (by simp [Db.empty] at h)⟩

theorem route_unique (hk : db.Kept S clock) (hdb : db.Constraints) {l l' : LeaseRow}
    (hl : l ∈ db.leases) (hl' : l' ∈ db.leases) (hrt : l.routeIdentity = l'.routeIdentity) :
    l = l' := by
  obtain ⟨i, hi, id, topic, _, h, -⟩ := hk.leases l hl
  obtain ⟨i', hi', id', topic', _, h', -⟩ := hk.leases l' hl'
  rw [h.route, h'.route] at hrt
  obtain ⟨rfl, rfl⟩ : id = id' ∧ topic = topic' := by
    simpa [Store.routeHistoryIdentity] using hrt
  obtain rfl : i = i' := hdb.installations.identity_key.eq_of_key_eq hi hi' (by
    rw [h.owner, h'.owner])
  refine hdb.leases.topic_key.eq_of_key_eq hl hl' ?_
  rw [h.lookup, h'.lookup, h.topic_lookup, h'.topic_lookup]

theorem installation_of_lease (hk : db.Kept S clock) {l : LeaseRow} (hl : l ∈ db.leases) :
    ∃ i ∈ db.installations, i.installationLookup = l.installationLookup ∧
      i.installationIdentity = l.installationIdentity ∧ i.expiresAt = l.expiresAt := by
  obtain ⟨i, hi, id, topic, key, h, -⟩ := hk.leases l hl
  exact ⟨i, hi, h.lookup.symm, h.identity.symm, h.expires.symm⟩

/-- Statements that only delete and update rows: of the leases that stay, neither the routing
columns nor those of the installation row change, nor are they in `R`. -/
theorem next {R : LookupDigest → Prop} {now : Time} (hk : db.Kept S clock) (hdb : db.Constraints)
    (hnow : now ≤ clock') (hclk : clock ≤ clock')
    (hbd : ∀ k ∈ db'.keyBinding, k = S.rootCommitment)
    (hrows : ∀ i' ∈ db'.installations, ∃ id, i'.Kept S clock' id)
    (hhist : HistoryMoves R now db.routeKeyHistory db'.routeKeyHistory)
    (hls : ∀ l' ∈ db'.leases, ∃ l ∈ db.leases, l.SameRoute l' ∧ ¬ R l.routeIdentity ∧
      ∀ i ∈ db.installations, i.installationLookup = l.installationLookup →
        ∃ i' ∈ db'.installations, i.SameRow i') : db'.Kept S clock' := by
  refine ⟨hbd, hrows, fun l' hl' => ?_⟩
  obtain ⟨l, hl, hsame, hR, hrow⟩ := hls l' hl'
  obtain ⟨i, hi, id, topic, key, h, hh⟩ := hk.leases l hl
  obtain ⟨i', hi', hsame'⟩ := hrow i hi h.lookup.symm
  exact ⟨i', hi', id, topic, key, h.congr hsame hsame',
    (hh.moves hhist hR hdb.routeKeyHistory.key hnow hclk).congr hsame.route hsame.epoch
      hsame.expires⟩

end Db.Kept

end NotificationServer
