import NotificationServer.A9.Generation
import NotificationServer.Gate6.Result

/-!
# What a replacement publishes

An applied replacement leaves one route and one lease for each subscription of
the request, on bindings that are active at the versions it names, finalizes the
jobs of the routes it removed and moves the installation to the next generation.
Every other answer leaves all of this as it was.
-/

namespace NotificationServer

open Relational Sample

namespace Db

def routesOf (db : Db) (i : Bytes16) : List RouteRow := db.routes.filter fun r => RouteOf i none r

/-- What a replacement that is not applied leaves as it was. -/
structure Unpublished (db db' : Db) : Prop where
  generation : ∀ i, db'.generation i = db.generation i
  routes : db'.routes = db.routes
  bindings : db'.bindings = db.bindings
  gate6Bindings : db'.gate6Bindings = db.gate6Bindings
  installations : db'.installations = db.installations
  leases : db'.leases = db.leases
  jobs : db'.jobs = db.jobs

theorem Undecided.unpublished {db db' : Db} {i E : Bytes16} (h : db.Undecided i E db') :
    db.Unpublished db' where
  generation := fun _ => h.generation
  routes := by rw [h.tables]
  bindings := by rw [h.tables]
  gate6Bindings := by rw [h.tables]
  installations := by rw [h.tables]
  leases := by rw [h.tables]
  jobs := by rw [h.tables]

end Db

namespace Store

variable {db : Db} {request : ReplaceRequest} {keyset : KeysetReceipt} {w : WatermarkColumns}
  {routes : List RouteColumns} {rows : List RouteRow} {clock : Clock}
  {normalized : List NormalizedSubscription} {random : Bytes → LeaseDraw}

/-- The route a subscription is published as: its binding is active at the version and with the
assertion it names, the assertion has not expired and is covered by the watermark, and the lease is
the one of its topic. -/
structure PublishedRoute (S : Store) (request : ReplaceRequest) (now : Time) (w : WatermarkColumns)
    (db : Db) (sub : ReplaceSubscription) (r : RouteRow) : Prop where
  assertion : ∃ a ∈ db.assertions, ∃ b ∈ db.bindings, b.activeKey = some a.key ∧
    a.installationBindingID = request.installationBindingID ∧
    a.sequencerEpoch = request.sequencerEpoch ∧ a.bindingID = sub.bindingID ∧
    a.bindingVersion = sub.bindingVersion ∧ a.hash = sub.assertionHash ∧ now < a.expiresAt ∧
    a.streamSequence ≤ w.committedThrough ∧
    r.columns = Db.routeColumns request w.watermarkSequence sub a
  lease : ∃ l ∈ db.leases, l.leaseID = r.leaseID ∧ S.LeaseOf sub.topicBytes l

/-- What an applied replacement leaves in the place of `db`. -/
structure Published (S : Store) (now : Time) (request : ReplaceRequest) (db db' : Db) : Prop where
  generation : db'.generation request.installationBindingID =
    db.generation request.installationBindingID + 1
  others : ∀ i ≠ request.installationBindingID,
    db'.generation i = db.generation i ∧ db'.routesOf i = db.routesOf i
  /-- The routes are in bijection with the subscriptions. -/
  routes : ∃ a w rows, db'.authority request.installationBindingID = some a ∧
    a.sequencerEpoch = request.sequencerEpoch ∧
    a.subscriptionGeneration = request.subscriptionGeneration ∧
    a.watermark = some w ∧ w.status = .current ∧
    w.committedThrough ≤ a.contiguousStreamSequence ∧
    List.Forall₂ (S.PublishedRoute request now w db') request.subscriptions rows ∧
    rows.Perm (db'.routesOf request.installationBindingID)
  jobs : ∀ j ∈ db.jobs, j.state.Live → Db.JobRouted request.installationBindingID none j →
    ∃ j' ∈ db'.jobs, j'.jobID = j.jobID ∧ j'.state = .final
  topics : (request.subscriptions.map ReplaceSubscription.topicBytes).Nodup
  /-- The leases of the installation are one for each of the topics. -/
  leases : ∃ leases, List.Forall₂ S.LeaseOf
      (request.subscriptions.map ReplaceSubscription.topicBytes) leases ∧
    leases.Perm (db'.leases.filter fun l =>
      l.installationIdentity = S.installationDeletionIdentity request.legacyInstallationID)

variable {S : Store} {s s' : Session}

/-- Rows stored for the zipped topics and columns are stored for the subscriptions. -/
theorem forall₂_of_zip {P : ReplaceSubscription → RouteColumns → Prop}
    {Q : Bytes × RouteColumns → RouteRow → Prop} {subs : List ReplaceSubscription}
    (hP : List.Forall₂ P subs routes)
    (hQ : List.Forall₂ Q ((subs.map ReplaceSubscription.topicBytes).zip routes) rows) :
    List.Forall₂ (fun sub r => ∃ columns, P sub columns ∧ Q (sub.topicBytes, columns) r) subs
      rows := by
  induction hP generalizing rows with
  | nil =>
    cases hQ with
    | nil => exact .nil
  | cons hp _ ih =>
    cases hQ with
    | cons hq hQ => exact .cons ⟨_, hp, hq⟩ (ih hQ)

/-- The routes the installation is left with are the ones that were stored. -/
theorem routesOf_published {now : Time}
    (hrows : ∀ r ∈ rows, r.columns.installationBindingID = request.installationBindingID)
    (hdb : ∀ r ∈ db.routes, ¬ Db.RouteOf request.installationBindingID none r) :
    (published S request now rows db).routesOf request.installationBindingID = rows.reverse := by
  have hkept : ∀ r ∈ rows.reverse, Db.RouteOf request.installationBindingID none r := fun r hr =>
    ⟨hrows r (List.mem_reverse.mp hr), by simp⟩
  have hspl : (published S request now rows db).routes = rows.reverse ++ db.routes := rfl
  unfold Db.routesOf
  rw [hspl, List.filter_append, List.filter_eq_self.mpr fun r hr => decide_eq_true (hkept r hr),
    List.filter_eq_nil_iff.mpr fun r hr => by simpa using hdb r hr, List.append_nil]

/-- The routes of another installation are left alone. -/
theorem routesOf_published_ne {now : Time} {db0 : Db} {i : Bytes16}
    (hi : i ≠ request.installationBindingID)
    (hrows : ∀ r ∈ rows, r.columns.installationBindingID = request.installationBindingID)
    (hdb : db.routes = deleteWhere (Db.RouteOf request.installationBindingID none) db0.routes) :
    (published S request now rows db).routesOf i = db0.routesOf i := by
  have hnew : ∀ r ∈ rows.reverse, ¬ Db.RouteOf i none r := fun r hr hof =>
    hi (hof.1.symm.trans (hrows r (List.mem_reverse.mp hr)))
  have hspl : (published S request now rows db).routes = rows.reverse ++ db.routes := rfl
  unfold Db.routesOf
  rw [hspl, List.filter_append, List.filter_eq_nil_iff.mpr fun r hr => by simpa using hnew r hr,
    List.nil_append, hdb]
  unfold deleteWhere
  rw [List.filter_filter]
  refine List.filter_congr fun r _ => ?_
  by_cases hof : Db.RouteOf i none r
  · have hnot : ¬ Db.RouteOf request.installationBindingID none r := fun h =>
      hi (hof.1.symm.trans h.1)
    simp [hof, hnot]
  · simp [hof]

/-- The watermark a replacement was checked against is the row's, and is covered by its cursor. -/
theorem AdmittedReplace.covered {a : AuthorityRow}
    (h : S.AdmittedReplace clock request keyset a db w normalized routes) (hdb : db.Constraints)
    (ha : db.authority request.installationBindingID = some a) :
    a.watermark = some w ∧ w.status = .current ∧
      w.committedThrough ≤ a.contiguousStreamSequence := by
  obtain ⟨hw, hcond⟩ := Option.filter_eq_some_iff.mp h.watermark
  have hcur : w.status = .current := (of_decide_eq_true hcond).1
  have hmem : a ∈ db.authorities := List.mem_of_find?_eq_some ha
  exact ⟨hw, hcur, hdb.authorities.watermark_covered a hmem w hw hcur⟩

/-- A live job of the installation is final once its routes are cancelled. -/
theorem exists_final_of_cleared (request : ReplaceRequest) (r : A9Result) (now : Time)
    {j : DeliveryJobRow} (hj : j ∈ db.jobs) (hlive : j.state.Live)
    (hrouted : Db.JobRouted request.installationBindingID none j) :
    ∃ j' ∈ (cleared request r now db).jobs, j'.jobID = j.jobID ∧ j'.state = .final :=
  ⟨j.finalized now .safetyInvalidated,
    mem_updateWhere.mpr (.inl ⟨j, hj, ⟨hrouted, hlive⟩, rfl⟩), rfl, rfl⟩

theorem publishA9ReplaceTx_published {a : AuthorityRow} {r : A9Result} {c : Time}
    (hclk : clock.db ≤ c) (hk : s.db.Kept S c)
    (ha : s.db.authority request.installationBindingID = some a)
    (hadm : S.AdmittedReplace clock request keyset a s.db w normalized routes)
    (h : S.publishA9ReplaceTx clock random request normalized routes a s = .ok (r, s')) :
    S.Published clock.db request s.db s'.db := by
  obtain ⟨hwate, hcur, hcov⟩ := hadm.covered s.valid ha
  obtain ⟨hgen, hothers⟩ := publishA9ReplaceTx_generation ha hadm.next h
  have hval := validateRefresh_ok hadm.refresh
  obtain ⟨-, t, t', loaded, rows, hdb, -, href, hrows, hdb', -⟩ := publishA9ReplaceTx_stages h
  have hkt : t.db.Kept S c := by
    rw [hdb]
    exact ⟨hk.bound, hk.installations, hk.leases⟩
  obtain ⟨row, -, hrow, hwr, hloaded⟩ := applyGate6RefreshTx_writing hclk hval hkt href
  -- The refresh leaves the A9 tables as they were cleared.
  have hfr : t'.db.withoutGate6 = (cleared request r clock.db s.db).withoutGate6 :=
    (congrArg Prod.fst (applyGate6RefreshTx_keeps _ _ _ href).frame).trans
      (congrArg Db.withoutGate6 hdb)
  have hbinds : t'.db.bindings = s.db.bindings := (congrArg Db.bindings hfr :)
  have hasse : t'.db.assertions = s.db.assertions := (congrArg Db.assertions hfr :)
  have hauths : t'.db.authorities = s.db.authorities := (congrArg Db.authorities hfr :)
  have hrts : t'.db.routes = deleteWhere (Db.RouteOf request.installationBindingID none)
      s.db.routes := congrArg Db.routes hfr
  have htopics : normalized.map (fun n => n.topic) =
      request.subscriptions.map ReplaceSubscription.topicBytes := by
    rw [hval.map_topic, ReplaceRequest.refresh, List.map_map]
    rfl
  have hsto := forall₂_of_zip (validateA9Subscriptions_valid hadm.subscriptions) hrows
  have hinst : ∀ r ∈ rows, r.columns.installationBindingID = request.installationBindingID := by
    intro r hr
    obtain ⟨sub, -, columns, ⟨b, -, -, rfl⟩, hr⟩ := forall₂_exists_left hsto hr
    rw [hr.columns]
    rfl
  refine ⟨hgen, fun i hi => ⟨hothers i hi, ?_⟩, ?_, fun j hj hlive hrouted => ?_, ?_, ?_⟩
  · rw [hdb']
    exact routesOf_published_ne hi hinst hrts
  · -- The routes.
    refine ⟨{ a with
      subscriptionGeneration := request.subscriptionGeneration, state := .active
      uncertaintyReason := .none, updatedAt := clock.db }, w, rows, ?_, hadm.epoch, rfl,
      hwate, hcur, hcov, hsto.imp fun sub r hr => ?_, ?_⟩
    · rw [hdb']
      have ha' : t'.db.authority request.installationBindingID = some a := by
        unfold Db.authority
        rw [hauths]
        exact ha
      exact Db.authority_updated ha' rfl fun _ => rfl
    · obtain ⟨columns, ⟨b, hb, hnm, rfl⟩, hcolumns, hcols, e, he, htop, hlease⟩ := hr
      obtain ⟨hact, hi, hE, hid, hver, hhash, -, -, hexp, hseq, -⟩ := hnm
      obtain ⟨x, hx, hxkey⟩ := List.mem_map.mp hact
      obtain ⟨hmem, -, hopens⟩ := hloaded.mem e he
      refine ⟨⟨b, ?_, x, ?_, hxkey, hi, hE, hid, hver, hhash, hexp, hseq, hcols⟩,
        e.lease, ?_, hlease, ?_⟩
      · rw [hdb']
        exact hasse ▸ hb
      · rw [hdb']
        exact hbinds ▸ hx
      · rw [hdb']
        exact hmem
      · have htop' : e.topic = sub.topicBytes := htop
        rw [← htop']
        exact hopens
    · rw [hdb', routesOf_published hinst]
      · exact (List.reverse_perm rows).symm
      · intro r hr hof
        rw [hrts] at hr
        exact (mem_deleteWhere.mp hr).2 hof
  · -- The jobs.
    obtain ⟨j', hj', hid, hfin⟩ :=
      exists_final_of_cleared request r clock.db hj hlive hrouted
    rw [← hdb] at hj'
    have hkept := applyGate6RefreshTx_keepsFinal _ _ _ href j' hj' hfin
    refine ⟨j', ?_, hid, hfin⟩
    rw [hdb']
    exact hkept
  · rw [← htopics]
    exact hval.nodup
  · -- The leases.
    rw [← htopics]
    obtain ⟨leases, hls, hperm⟩ := leases_of_writing t'.valid hrow hwr hloaded hval.nodup
      fun topic ht => by
        rw [htopics] at ht
        obtain ⟨sub, hsub, rfl⟩ := List.mem_map.mp ht
        obtain ⟨r, -, columns, -, hr⟩ := forall₂_exists_right hsto hsub
        obtain ⟨e, he, htop, -⟩ := hr.lease
        exact ⟨e, he, htop⟩
    refine ⟨leases, hls, ?_⟩
    rw [hdb']
    exact hperm

/-- How a replacement of a reachable state ends: it is applied and published, or decides nothing. -/
theorem replace_ends {s : Sys} (hs : S.system.Reachable s) {r : A9Result} {t : Session}
    (h : S.replace clock random request keyset s.session = .ok (r, t)) :
    (r.outcome = .applied ∧ S.Published clock.db request s.db t.db) ∨
    (r.outcome ≠ .applied ∧
      s.db.Undecided request.installationBindingID request.sequencerEpoch t.db) := by
  obtain ⟨-, hguard, a, db1, hopens, hans⟩ := replace_answer h
  replace hguard : S.Guarded clock keyset s.db := hguard
  rw [show ({ s.session.db with keyBinding := some S.rootCommitment } : Db) = s.db from
    hguard.bound hs] at hopens
  by_cases hout : r.outcome = .applied
  · refine .inl ⟨hout, ?_⟩
    rcases hans.of_applied hout with href |
      ⟨w, normalized, routes, hadm, t1, t', rfl, ht', hpublish⟩
    · exact absurd hout href.1
    -- A row that was just created has no watermark.
    have hsame : t1.db = s.db := by
      have hwate := (Option.filter_eq_some_iff.mp hadm.watermark).1
      generalize t1.db = db1 at hopens ⊢
      cases hopens with
      | found => rfl
      | created => exact absurd hwate (by simp [AuthorityRow.created])
    have hkept : t1.db.Kept S (max s.clock clock.db) := by
      rw [hsame]
      exact Kept.mono (reachable_kept hs) s.session.valid (le_max_left _ _)
    rw [← ht', ← hsame]
    exact publishA9ReplaceTx_published (le_max_right _ _) hkept hopens.authority hadm hpublish
  · refine .inr ⟨hout, hans.undecided hopens fun _ hfst => ?_⟩
    rcases hfst with href | ⟨w, normalized, routes, -, t1, t', -, -, hpublish⟩
    · exact href.undecided hopens
    · exact absurd (publishA9ReplaceTx_result hpublish).1 hout

theorem Replaces.published {s s' : Sys} {e : Event} (hs : S.system.Reachable s)
    (h : S.Replaces s e s' request) : ∃ now, S.Published now request s.db s'.db := by
  obtain ⟨c, random, keyset, r, t, -, h, hvault, happ⟩ := h
  rcases replace_ends hs h with ⟨-, hpub⟩ | ⟨hout, -⟩
  · rw [show s'.db = t.db from congrArg Vault.db hvault.symm]
    exact ⟨c.db, hpub⟩
  · exact absurd happ hout

theorem step_generation_le {s s' : Sys} {e : Event} (hs : S.system.Reachable s)
    (hst : S.system.step s e s') (i : Bytes16) : s.db.generation i ≤ s'.db.generation i := by
  rcases step_records hst with ⟨hled, -⟩ | ⟨j, E, ws, htx, -, -, -, hrepl⟩
  · rw [Db.generation_congr (congrArg Ledger.authorities hled)]
  by_cases hmem : .replaced ∈ ws
  · obtain ⟨request, h⟩ := hrepl hmem
    obtain ⟨now, hpub⟩ := h.published hs
    by_cases hi : i = request.installationBindingID
    · rw [hi, hpub.generation]
      omega
    · exact (hpub.others i hi).1.ge
  · have hkept := Db.generation_transaction s.session.valid s'.session.valid htx hmem i
    exact hkept.ge

theorem path_generation_le {s s' : Sys} (hs : S.system.Reachable s) (hp : S.system.Path s s')
    (i : Bytes16) : s.db.generation i ≤ s'.db.generation i :=
  hp.invariant (P := fun t => s.db.generation i ≤ t.db.generation i) hs
    (fun _ _ _ ht hle hst => hle.trans (step_generation_le ht hst i)) le_rfl

/-- `Replace` on a reachable state: an applied one publishes what the request lists, every other
answer and every error leaves the generation, the routes, the bindings, the Gate-6 rows and the
jobs as they were; and no run lowers a generation. -/
theorem replacement_is_complete {s : Sys} (hs : S.system.Reachable s) (clock : Clock)
    (random : Bytes → LeaseDraw) (request : ReplaceRequest) (keyset : KeysetReceipt) :
    (∀ r, ((S.replace clock random request keyset).commit s.session).1 = .ok r →
      if r.outcome = .applied
      then S.Published clock.db request s.db
        ((S.replace clock random request keyset).commit s.session).2.db
      else s.db.Unpublished ((S.replace clock random request keyset).commit s.session).2.db) ∧
    (∀ e, ((S.replace clock random request keyset).commit s.session).1 = .error e →
      s.db.Unpublished ((S.replace clock random request keyset).commit s.session).2.db) ∧
    ∀ s', S.system.Path s s' → ∀ i, s.db.generation i ≤ s'.db.generation i := by
  refine ⟨?_, ?_, fun s' hp i => path_generation_le hs hp i⟩
  · intro r hr
    cases h : S.replace clock random request keyset s.session with
    | error e =>
      rw [Tx.commit_of_error h] at hr
      cases hr
    | ok p =>
      obtain ⟨r', t⟩ := p
      rw [Tx.commit_of_ok h] at hr ⊢
      cases hr
      rcases replace_ends hs h with ⟨happ, hpub⟩ | ⟨hout, hunde⟩
      · rw [if_pos happ]
        exact hpub
      · rw [if_neg hout]
        exact hunde.unpublished
  · intro e he
    cases h : S.replace clock random request keyset s.session with
    | error e' =>
      rw [Tx.commit_of_error h]
      exact ⟨fun _ => rfl, rfl, rfl, rfl, rfl, rfl, rfl⟩
    | ok p =>
      obtain ⟨r, t⟩ := p
      rw [Tx.commit_of_ok h] at he
      cases he

/-- The first replacement of an installation with one binding. -/
theorem replacement_is_complete_sample :
    ∃ s, Sample.store.system.Reachable s ∧ s.db.generation 9 = 0 ∧
      Sample.store.Published Sample.start (Sample.replacement 70 1 [Sample.subscription 70 1 1 1])
        s.db ((Sample.store.replace Sample.clock Sample.random
          (Sample.replacement 70 1 [Sample.subscription 70 1 1 1]) Sample.keyset).commit
            s.session).2.db := by
  obtain ⟨s, hs, hgen, r, t, hok, happ⟩ := exists_reachable (S := store)
    (opened ++ [.applyWatermark clock (watermark 70 1 1)])
    (P := fun s => s.db.generation 9 = 0 ∧ ∃ r t, store.replace clock random
      (replacement 70 1 [subscription 70 1 1 1]) keyset s.session = .ok (r, t) ∧
        r.outcome = .applied) (by decide +kernel)
  have hcomp := (replacement_is_complete hs clock random
    (replacement 70 1 [subscription 70 1 1 1]) keyset).1 r
    (by rw [Tx.commit_of_ok hok])
  rw [if_pos happ] at hcomp
  exact ⟨s, hs, hgen, hcomp⟩

end Store

end NotificationServer
