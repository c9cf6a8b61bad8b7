import NotificationServer.Gate6.Reach

/-!
# What the refresh of a replacement leaves

Once the refresh has found a lease for every listed topic, the leases of the
installation are those of the listed topics, one each.  Jobs that were final
before it stay as they are.
-/

namespace NotificationServer

open Relational Tx

variable {at_ expiresAt markedAt : Time} {leaseID : Bytes16} {kind : DeletionTarget}
  {identity commitment lookup : LookupDigest} {epoch expected : Nat} {allowSameEpoch : Bool}
  {terms : LeaseTerms} {draw : LeaseDraw} {sub : NormalizedSubscription} {lease : LeaseRow}
  {request : RefreshRequest} {clock : Clock} {random : Bytes → LeaseDraw}
  {normalized : List NormalizedSubscription}

def Session.KeepsFinal (s s' : Session) : Prop :=
  ∀ j ∈ s.db.jobs, j.state = .final → j ∈ s'.db.jobs

instance : Std.Refl Session.KeepsFinal := ⟨fun _ _ hj _ => hj⟩

instance : IsTrans Session Session.KeepsFinal := ⟨fun _ _ _ h h' j hj hf => h' j (h j hj hf) hf⟩

/-- A final job hangs on no lease and on no installation. -/
theorem Db.Constraints.final_job {db : Db} (hdb : db.Constraints) {j : DeliveryJobRow}
    (hj : j ∈ db.jobs) (hf : j.state = .final) : j.leaseID = none ∧ j.installationLookup = none := by
  rcases hdb.jobs.shape j hj with ⟨hlive, -⟩ | ⟨hera, -⟩ | ⟨-, hls, hinst, -⟩
  · rw [hf] at hlive
    exact absurd hlive (by decide)
  · rw [hf] at hera
    exact absurd hera (by decide)
  · exact ⟨hls, hinst⟩

theorem exec_keepsFinal {f : Db → Db}
    (hf : ∀ db : Db, db.Constraints → ∀ j ∈ db.jobs, j.state = .final → j ∈ (f db).jobs) :
    Moves Session.KeepsFinal (exec f) := by
  intro s u s' h j hj hfin
  obtain ⟨hdb, -⟩ := exec_ok.mp h
  rw [hdb]
  exact hf s.db s.valid j hj hfin

/-- A statement that does not write `delivery_jobs`. -/
theorem exec_keepsFinal_of {f : Db → Db} (hf : ∀ db, (f db).jobs = db.jobs) :
    Moves Session.KeepsFinal (exec f) :=
  exec_keepsFinal fun db _ j hj _ => by rw [hf]; exact hj

theorem Db.final_mem_finalizeJobs {p : DeliveryJobRow → Prop} [DecidablePred p] {now : Time}
    {reason : DeliveryJobRow → DeliveryFinalReason} {db : Db} {j : DeliveryJobRow}
    (hj : j ∈ db.jobs) (hf : j.state = .final) : j ∈ (db.finalizeJobs p now reason).jobs := by
  refine mem_updateWhere.mpr (.inr ⟨hj, fun h => ?_⟩)
  have hlive := h.2
  rw [hf] at hlive
  exact absurd hlive (by decide)

namespace Store

variable {S : Store} {c now : Time}

theorem markDeliveryJobsSafetyForLeaseTx_keepsFinal :
    Moves Session.KeepsFinal (markDeliveryJobsSafetyForLeaseTx at_ leaseID) :=
  exec_keepsFinal fun _ _ _ hj hf => Db.final_mem_finalizeJobs hj hf

theorem recordRouteKeyHistory_keepsFinal :
    Moves Session.KeepsFinal
      (recordRouteKeyHistory identity commitment epoch allowSameEpoch at_ expiresAt) :=
  .require_bind fun _ => .bind (exec_keepsFinal_of fun _ => rfl) fun _ =>
    .bind (.read _) fun _ => .require_bind fun _ => .require_bind fun _ =>
    .bind (.read _) fun _ => .require_bind fun _ =>
    .bind (exec_keepsFinal_of fun _ => rfl) fun _ => exec_keepsFinal_of fun _ => rfl

theorem upsertLease_keepsFinal {existing : Option LeaseRow} :
    Moves Session.KeepsFinal (S.upsertLease terms markedAt draw sub existing) := by
  refine .bind requireTombstoneAdvance_moves fun _ => .require_bind fun _ =>
    .bind ?_ fun _ => .bind recordRouteKeyHistory_keepsFinal fun _ =>
    exec_keepsFinal_of fun _ => rfl
  cases existing with
  | none => exact .pure _
  | some l =>
    exact .require_bind fun _ => .bind expect_moves fun _ => .ite
      (.require_bind fun _ => expect_moves)
      (.require_bind fun _ =>
        .bind markDeliveryJobsSafetyForLeaseTx_keepsFinal fun _ => .pure _)

theorem eraseLease_keepsFinal : Moves Session.KeepsFinal (S.eraseLease at_ markedAt lease) := by
  refine .bind markDeliveryJobsSafetyForLeaseTx_keepsFinal fun _ =>
    .bind expect_moves fun _ => .bind recordRouteKeyHistory_keepsFinal
    fun _ => .bind (.require_bind fun _ => exec_keepsFinal_of fun _ => rfl) fun _ =>
    exec_keepsFinal fun db hdb j hj hf => ?_
  -- The cascade deletes jobs on the lease, and a final job is on none.
  refine mem_deleteWhere.mpr ⟨hj, ?_⟩
  rintro ⟨l, -, -, hls⟩
  rw [(hdb.final_job hj hf).1] at hls
  cases hls

theorem prepareInstallationTx_keepsFinal {existing : InstallationRow} :
    Moves Session.KeepsFinal (S.prepareInstallationTx request at_ markedAt existing) := by
  refine .bind ?_ fun _ =>
    .bind (.when (exec_keepsFinal fun _ _ _ hj hf => Db.final_mem_finalizeJobs hj hf)) fun _ =>
    .when (exec_keepsFinal fun db hdb j hj hf => ?_)
  · unfold apnsTokenChanged
    split
    · exact .pure _
    · exact .bind expect_moves fun _ => .pure _
  · refine mem_updateWhere.mpr (.inr ⟨hj, fun hlook => ?_⟩)
    rw [(hdb.final_job hj hf).2] at hlook
    cases hlook

theorem applyGate6RefreshTx_keepsFinal :
    Moves Session.KeepsFinal
      (S.applyGate6RefreshTx clock random request normalized expected) := by
  refine .bind requireTombstoneAdvance_moves fun _ => .bind ?_ fun existing =>
    .bind ?_ fun _ => .bind ?_ fun _ => loadExistingLeases_moves
  · intro s r s' h
    obtain ⟨rfl, -⟩ := findInstallation_ok h
    exact fun j hj _ => hj
  · cases existing with
    | none => exact .require _ _
    | some i =>
      exact .require_bind fun _ => .require_bind fun _ =>
        prepareInstallationTx_keepsFinal
  · exact .bind expect_moves fun _ => .bind (exec_keepsFinal_of fun _ => rfl) fun _ =>
      .bind loadExistingLeases_moves fun _ =>
      .bind (.forEach fun _ _ => upsertLease_keepsFinal) fun _ =>
      .forEach fun _ _ => eraseLease_keepsFinal

end Store

namespace Store

variable {S : Store} {c : Time}

def LeaseOf (S : Store) (topic : Bytes) (l : LeaseRow) : Prop :=
  S.encryption.openValue (.lease l.leaseID .topic) l.encryptedTopic = some topic

/-- Leases that open to different topics are different. -/
theorem nodup_of_leaseOf {topics : List Bytes} {leases : List LeaseRow}
    (h : List.Forall₂ S.LeaseOf topics leases) (hnd : topics.Nodup) : leases.Nodup := by
  have hmap : topics.map some = leases.map fun l =>
      S.encryption.openValue (.lease l.leaseID .topic) l.encryptedTopic := by
    induction h with
    | nil => rfl
    | cons hl _ ih =>
      rw [List.map_cons, List.map_cons, ih (List.nodup_cons.mp hnd).2]
      exact congrArg (· :: _) hl.symm
  have hopen := hnd.map (Option.some_injective _)
  rw [hmap] at hopen
  exact hopen.of_map

variable {row : InstallationRow} {id : Bytes32} {topics : List Bytes}
  {loaded : List ExistingLease} {db : Db}

/-- Whether a lease is of the written row can be told from either of its foreign keys. -/
theorem writing_lookup_iff (hdb : db.Constraints) (hrow : row.Kept S c id)
    {pending : ExistingLease → Prop} {written : Bytes → Prop}
    (hw : db.Writing S c row id written pending) {l : LeaseRow} (hl : l ∈ db.leases)
    (hown : ∀ e, ¬ pending e) :
    l.installationIdentity = S.installationDeletionIdentity id ↔
      l.installationLookup = row.installationLookup := by
  constructor
  · intro hid
    by_contra hne
    obtain ⟨i, hi, id', topic, key, hkept, -⟩ := hw.others l hl hne
    have hsame : i = row := hdb.installations.identity_key.eq_of_key_eq hi hw.row_mem
      (by rw [hrow.identity, ← hid, hkept.identity])
    exact hne (hsame ▸ hkept.lookup)
  · intro hlook
    rcases hw.own l hl hlook with ⟨topic, -, key, hkept, -⟩ | ⟨e, he, -⟩
    · rw [hkept.identity, hrow.identity]
    · exact absurd he (hown e)

/-- Once every listed topic has a lease, the leases of the installation are one for each. -/
theorem leases_of_writing (hdb : db.Constraints) (hrow : row.Kept S c id)
    (hw : db.Writing S c row id (· ∈ topics) fun _ => False)
    (hload : Loaded S db row.installationLookup loaded) (hnd : topics.Nodup)
    (hall : ∀ topic ∈ topics, ∃ e ∈ loaded, e.topic = topic) :
    ∃ leases, List.Forall₂ S.LeaseOf topics leases ∧ leases.Perm
      (db.leases.filter fun l => l.installationIdentity = S.installationDeletionIdentity id) := by
  have hrdy : db.Ready S c id row.installationLookup := by
    rw [hrow.lookup]
    exact (writing_kept hw).ready hdb _ _
  have hlist : ∀ topic ∈ topics, ∃ l, ∃ e ∈ loaded, e.topic = topic ∧ e.lease = l := by
    intro topic ht
    obtain ⟨e, he, htop⟩ := hall topic ht
    exact ⟨e.lease, e, he, htop, rfl⟩
  obtain ⟨leases, hls⟩ := exists_forall₂ hlist
  have hopens : List.Forall₂ S.LeaseOf topics leases := hls.imp fun topic l h => by
    obtain ⟨e, he, rfl, rfl⟩ := h
    exact (hload.mem e he).2.2
  refine ⟨leases, hopens, (List.perm_ext_iff_of_nodup (nodup_of_leaseOf hopens hnd)
    (hdb.leases.key.of_map.filter _)).mpr fun l => ?_⟩
  rw [List.mem_filter, decide_eq_true_iff]
  constructor
  · intro hl
    obtain ⟨topic, -, e, he, -, rfl⟩ := forall₂_exists_left hls hl
    obtain ⟨hmem, hlook, -⟩ := hload.mem e he
    exact ⟨hmem, (writing_lookup_iff hdb hrow hw hmem fun _ h => h).mpr hlook⟩
  · rintro ⟨hl, hid⟩
    have hlook := (writing_lookup_iff hdb hrow hw hl fun _ h => h).mp hid
    obtain ⟨e, he, rfl⟩ := exists_loaded hrdy hload hl hlook
    rcases hw.own e.lease hl hlook with ⟨topic, ht, key, hkept, -⟩ | ⟨_, hfalse, -⟩
    · have htop : e.topic = topic :=
        Option.some.inj ((hload.mem e he).2.2.symm.trans hkept.opens_topic)
      obtain ⟨l, hl, e', he', htop', rfl⟩ := forall₂_exists_right hls ht
      rwa [hload.unique.eq_of_key_eq he he' (htop.trans htop'.symm)]
    · exact hfalse.elim

end Store

end NotificationServer
