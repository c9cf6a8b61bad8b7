import NotificationServer.Incident.Access
import NotificationServer.Lib.Transition

/-!
# Raw queries are covered by a grant

What each transaction of the gate can do to the tables, and from it what holds
in every run: a raw query that returns a result was covered, from its start to
its completion, by a grant that another authorized actor gave its requester.
Every call takes its clock readings as they come, so the results hold for any
clock, a nondecreasing one in particular.
-/

namespace NotificationServer.Incident

open Relational Tx

variable {V : Type} {g : IncidentAccessGate} {db db' : AccessDb} {row : AccessRequestRow} {u : Unit}
  {id : AccessRequestID} {eventID : Bytes16} {actor : String} {now : Time}
  {r : Except AccessError IncidentAccessStatus} {approval : IncidentApproval}
  {broadcast : IncidentOversightNotice → Bool} {s s' : AccessSystem}
  {call : AccessCall V × Option Fault}

theorem insertRequest_ok (h : insertRequest row db = .ok (u, db')) :
    (∀ stored ∈ db.requests, stored.requestID ≠ row.requestID) ∧ row.Checks ∧ db' = { db with
        requests := row :: db.requests
        history := .created row.requestID row.requesterActor row.coarseCreated :: db.history } := by
  unfold insertRequest at h
  split at h
  · rename_i hc
    simp only [Except.ok.injEq, Prod.mk.injEq] at h
    exact ⟨hc.1, hc.2, h.2.symm⟩
  · cases h

theorem updateRequest_ok {set : AccessRequestRow → AccessRequestRow} {fact : AccessFact}
    (h : updateRequest id set fact db = .ok (u, db')) :
    db' = { db with
      requests := updateWhere (fun row => row.requestID = id) set db.requests
      history := fact :: db.history } := by
  unfold updateRequest at h
  split at h
  · simp only [Except.ok.injEq, Prod.mk.injEq] at h
    exact h.2.symm
  · cases h

theorem loadAccessRequestForUpdate_ok (h : loadAccessRequestForUpdate id db = .ok (row, db')) :
    row ∈ db.requests ∧ row.requestID = id ∧ db' = db := by
  unfold loadAccessRequestForUpdate at h
  split at h
  · rename_i hfind
    simp only [Except.ok.injEq, Prod.mk.injEq] at h
    obtain ⟨rfl, rfl⟩ := h
    exact ⟨(found hfind).1, (found hfind).2, rfl⟩
  · cases h

theorem insertAudit_ok {purpose : AccessPurpose} {dataClass : AccessDataClass}
    {action bucket : Int16}
    (h : insertAudit eventID id actor purpose dataClass action bucket now db = .ok (u, db')) :
    ∃ row : AccessAuditRow,
      row.eventID = eventID ∧ row.requestID = id ∧ row.actor = actor ∧ row.action = action ∧
        db' = { db with audit := row :: db.audit } := by
  unfold insertAudit at h
  simp only at h
  split at h
  · simp only [Except.ok.injEq, Prod.mk.injEq] at h
    exact ⟨_, rfl, rfl, rfl, rfl, h.2.symm⟩
  · cases h

/-- What a committed transaction of the gate does to the tables; it touches no row but `id`'s. -/
inductive Change (g : IncidentAccessGate) (id : AccessRequestID) (db : AccessDb) : AccessDb → Prop
  | audited {audit : List AccessAuditRow} (haudit : db.audit ⊆ audit) :
      Change g id db { db with audit := audit }
  | created {request : CreateIncidentAccessRequest} {checkedAt now : Time}
      {audit : List AccessAuditRow} (haudit : db.audit ⊆ audit)
      (haccepted : request.accepted checkedAt)
      (hfresh : ∀ stored ∈ db.requests, stored.requestID ≠ id) :
      Change g id db
        { requests := request.row id now :: db.requests
          audit := audit
          history := .created id request.requesterActor (coarseHour now) :: db.history }
  | granted {row : AccessRequestRow} {approver : String} {now : Time}
      {audit : List AccessAuditRow} (haudit : db.audit ⊆ audit)
      (hmem : row ∈ db.requests) (hid : row.requestID = id) (hpending : row.state = .pending)
      (hother : approver ≠ row.requesterActor) (hauthorized : approver ∈ g.authorizedApprovers)
      (hstart : row.coarseCreated ≤ now) (hexpiry : now < g.expiry row now) :
      Change g id db
        { requests := updateWhere (fun stored => stored.requestID = id)
            (fun stored => { stored with
              approverActor := some approver
              oversightBroadcast := some (coarseHour now)
              roleExpires := some (g.expiry row now)
              state := .approved }) db.requests
          audit := audit
          history := .approved id approver (g.expiry row now) true :: db.history }
  | expired {audit : List AccessAuditRow} (haudit : db.audit ⊆ audit) :
      Change g id db
        { requests := updateWhere (fun stored => stored.requestID = id)
            (fun stored => { stored with roleExpires := none, state := .expired }) db.requests
          audit := audit
          history := .expired id :: db.history }
  | revoked {audit : List AccessAuditRow} (haudit : db.audit ⊆ audit) :
      Change g id db
        { requests := updateWhere (fun stored => stored.requestID = id)
            (fun stored => { stored with roleExpires := none, state := .revoked }) db.requests
          audit := audit
          history := .revoked id :: db.history }

theorem Change.refl (g : IncidentAccessGate) (id : AccessRequestID) (db : AccessDb) :
    Change g id db db :=
  .audited (List.Subset.refl _)

theorem createRequest_change {request : CreateIncidentAccessRequest} {checkedAt : Time}
    (h : createRequest request checkedAt now id eventID db = .ok (r, db')) :
    Change g id db db' := by
  simp only [createRequest, bind_ok, require_ok, pure_ok] at h
  obtain ⟨_, _, ⟨hacc, rfl⟩, _, _, ⟨-, rfl⟩, _, db1, hinsert, _, db2, haud, -, rfl⟩ := h
  obtain ⟨hfr, -, rfl⟩ := insertRequest_ok hinsert
  obtain ⟨row, -, -, -, -, rfl⟩ := insertAudit_ok haud
  exact .created (List.subset_cons_self _ _) hacc hfr

theorem expire_then_audit_change {c : Prop} [Decidable c] {purpose : AccessPurpose}
    {dataClass : AccessDataClass} {action bucket : Int16} {db1 : AccessDb} {v : Unit}
    (hexpire : Tx.when c (expireRequest id) db = .ok (u, db1))
    (haud : insertAudit eventID id actor purpose dataClass action bucket now db1 = .ok (v, db')) :
    Change g id db db' := by
  obtain ⟨row, -, -, -, -, rfl⟩ := insertAudit_ok haud
  unfold Tx.when at hexpire
  split at hexpire
  · rw [updateRequest_ok hexpire]
    exact .expired (List.subset_cons_self _ _)
  · obtain ⟨-, rfl⟩ := pure_ok.mp hexpire
    exact .audited (List.subset_cons_self _ _)

theorem commitDeniedApproval_change {α : Type} {r : Except AccessError α}
    (h : commitDeniedApproval row approval now eventID db = .ok (r, db')) :
    Change g approval.requestID db db' := by
  simp only [commitDeniedApproval, bind_ok, pure_ok] at h
  obtain ⟨_, db1, hexpire, _, db2, haud, -, rfl⟩ := h
  exact expire_then_audit_change hexpire haud

theorem commitDeniedQuery_change {α : Type} {request : RawVaultAccessRequest}
    {r : Except AccessError α} (h : commitDeniedQuery row request now eventID db = .ok (r, db')) :
    Change g request.requestID db db' ∧ r = .error .denied := by
  simp only [commitDeniedQuery, bind_ok, pure_ok] at h
  obtain ⟨_, db1, hexpire, _, db2, haud, hr, rfl⟩ := h
  exact ⟨expire_then_audit_change hexpire haud, hr.symm⟩

theorem commitFailedQuery_change {α : Type} {request : RawVaultAccessRequest} {e : AccessError}
    {r : Except AccessError α} (h : commitFailedQuery row request now eventID e db = .ok (r, db')) :
    Change g request.requestID db db' ∧ r = .error e := by
  simp only [commitFailedQuery, bind_ok, pure_ok] at h
  obtain ⟨_, db1, haud, hr, rfl⟩ := h
  obtain ⟨row, -, -, -, -, rfl⟩ := insertAudit_ok haud
  exact ⟨.audited (List.subset_cons_self _ _), hr.symm⟩

theorem grantRole_change (hmem : row ∈ db.requests) (hid : row.requestID = approval.requestID)
    (hpend : row.state = .pending) (hoth : approval.actor ≠ row.requesterActor)
    (hauth : approval.actor ∈ g.authorizedApprovers) (hst : row.coarseCreated ≤ now)
    (hexp : now < g.expiry row now)
    (h : grantRole g row approval now broadcast eventID db = .ok (r, db')) :
    Change g approval.requestID db db' := by
  simp only [grantRole, bind_ok, require_ok, pure_ok] at h
  obtain ⟨_, _, ⟨htold, rfl⟩, _, db1, hupdate, _, db2, haud, -, rfl⟩ := h
  rw [htold] at hupdate
  obtain rfl := updateRequest_ok hupdate
  obtain ⟨audited, -, -, -, -, rfl⟩ := insertAudit_ok haud
  exact .granted (List.subset_cons_self _ _) hmem hid hpend hoth hauth hst hexp

theorem decideApproval_change (hmem : row ∈ db.requests) (hid : row.requestID = approval.requestID)
    (h : decideApproval g row approval now broadcast eventID db = .ok (r, db')) :
    Change g approval.requestID db db' := by
  unfold decideApproval at h
  -- the branches in the order of the source; the last grants
  split at h
  · exact commitDeniedApproval_change h
  rename_i hopen
  obtain ⟨hst, -, hexpired, hrev⟩ := by simpa only [not_or] using hopen
  split at h
  · split at h
    · exact commitDeniedApproval_change h
    · obtain ⟨-, rfl⟩ := pure_ok.mp h
      exact .refl _ _ _
  · rename_i happr
    split at h
    · exact commitDeniedApproval_change h
    rename_i hoth
    split at h
    · exact commitDeniedApproval_change h
    rename_i hauth
    split at h
    · cases h
    split at h
    · exact commitDeniedApproval_change h
    rename_i hexp
    have hpend : row.state = .pending := by
      cases hstate : row.state <;> simp_all
    exact grantRole_change hmem hid hpend hoth (not_not.mp hauth)
      (Int.not_lt.mp hst) (Int.not_le.mp hexp) h

theorem approve_change (h : approve g approval now broadcast eventID db = .ok (r, db')) :
    Change g approval.requestID db db' := by
  simp only [approve, bind_ok, require_ok] at h
  obtain ⟨_, _, ⟨-, rfl⟩, row, _, hload, _, _, ⟨-, rfl⟩, hdecide⟩ := h
  obtain ⟨hmem, hid, rfl⟩ := loadAccessRequestForUpdate_ok hload
  exact decideApproval_change hmem hid hdecide

theorem revoke_change {r : Except AccessError Unit}
    (h : revoke id actor now eventID db = .ok (r, db')) : Change g id db db' := by
  simp only [revoke, bind_ok, require_ok, pure_ok] at h
  obtain ⟨_, _, ⟨-, rfl⟩, row, _, hload, _, _, ⟨-, rfl⟩, _, _, ⟨-, rfl⟩, _, db1, hupdate, _, db2,
    haud, -, rfl⟩ := h
  obtain ⟨-, -, rfl⟩ := loadAccessRequestForUpdate_ok hload
  obtain rfl := updateRequest_ok hupdate
  obtain ⟨audited, -, -, -, -, rfl⟩ := insertAudit_ok haud
  exact .revoked (List.subset_cons_self _ _)

/-- The first half of a raw query: it denies, or leaves the tables alone and holds a row that
authorizes the query. -/
theorem authorizeRawVaultQuery_cases {request : RawVaultAccessRequest}
    {r : Except AccessError AccessRequestRow}
    (h : authorizeRawVaultQuery request now eventID db = .ok (r, db')) :
    (Change g request.requestID db db' ∧ r = .error .denied) ∨
      ∃ row ∈ db.requests, row.requestID = request.requestID ∧ row.authorizes request now ∧
        r = .ok row ∧ db' = db := by
  simp only [authorizeRawVaultQuery, bind_ok, require_ok] at h
  obtain ⟨_, _, ⟨-, rfl⟩, row, _, hload, _, _, ⟨-, rfl⟩, hrest⟩ := h
  obtain ⟨hmem, hid, rfl⟩ := loadAccessRequestForUpdate_ok hload
  split at hrest
  · rename_i hauth
    obtain ⟨hr, rfl⟩ := pure_ok.mp hrest
    exact .inr ⟨row, hmem, hid, hauth, hr.symm, rfl⟩
  · exact .inl (commitDeniedQuery_change hrest)

theorem authorizeRawVaultQuery_change {request : RawVaultAccessRequest}
    {r : Except AccessError AccessRequestRow}
    (h : authorizeRawVaultQuery request now eventID db = .ok (r, db')) :
    Change g request.requestID db db' := by
  rcases authorizeRawVaultQuery_cases (g := g) h with ⟨hchg, -⟩ | ⟨row, -, -, -, -, rfl⟩
  · exact hchg
  · exact .refl _ _ _

/-- The second half of a raw query: it ends in an error, or returns a result before the role expired
and with its audit row. -/
theorem completeRawVaultQuery_cases {query : OpenQuery} {read : ReadTransaction V}
    {completedAt : Time} {r : Except AccessError (RawVaultQueryResult V)}
    (h : completeRawVaultQuery query read completedAt eventID db = .ok (r, db')) :
    Change g query.request.requestID db db' ∧ ((∃ e, r = .error e) ∨
        (¬ query.row.roleOver completedAt ∧ db'.requests = db.requests ∧ db'.history = db.history ∧
          ∃ row ∈ db'.audit, row.eventID = eventID ∧ row.requestID = query.request.requestID ∧
            row.actor = query.request.actor ∧
            row.action = querySuccessAction query.request.queryKind)) := by
  have failed {e : AccessError} {at' : Time}
      (hf : commitFailedQuery query.row query.request at' eventID e db = .ok (r, db')) :
      Change g query.request.requestID db db' ∧ ∃ e, r = .error e := by
    obtain ⟨hchg, hr⟩ := commitFailedQuery_change (g := g) hf
    exact ⟨hchg, e, hr⟩
  unfold completeRawVaultQuery at h
  split at h
  · exact ⟨(failed h).1, .inl (failed h).2⟩
  cases hexec : executeRawVaultQuery read query.request.queryKind query.request.target
      query.row.windowStart query.row.windowEnd with
  | error e =>
    rw [hexec] at h
    exact ⟨(failed h).1, .inl (failed h).2⟩
  | ok result =>
    simp only [hexec] at h
    split at h
    · obtain ⟨hchg, hr⟩ := commitDeniedQuery_change (g := g) h
      exact ⟨hchg, .inl ⟨_, hr⟩⟩
    · rename_i hover
      split at h
      · exact ⟨(failed h).1, .inl (failed h).2⟩
      simp only [bind_ok, pure_ok] at h
      obtain ⟨_, db1, haud, -, rfl⟩ := h
      obtain ⟨row, hevent, hid, hactor, haction, rfl⟩ := insertAudit_ok haud
      exact ⟨.audited (List.subset_cons_self _ _),
        .inr ⟨hover, rfl, rfl, row, .head _, hevent, hid, hactor, haction⟩⟩

/-- A call leaves the tables alone or does what its transaction does. -/
theorem settle_cases {α : Type} (tx : AccessTx (Except AccessError α)) (fault : Option Fault)
    (db : AccessDb) :
    (settle tx fault db).2 = db ∨ ∃ r, tx db = .ok (r, (settle tx fault db).2) := by
  unfold settle
  split
  · exact .inl rfl
  · exact .inr ⟨_, ‹_›⟩
  · exact .inr ⟨_, ‹_›⟩
  · exact .inl rfl

/-- A call that returns a value is one whose transaction returned and committed it. -/
theorem settle_ok {α : Type} {tx : AccessTx (Except AccessError α)} {fault : Option Fault} {a : α}
    (h : settle tx fault db = (.ok a, db')) : tx db = .ok (.ok a, db') := by
  unfold settle at h
  split at h <;> simp_all

/-- In this history `requester` holds a grant of the request `id` until `expiry`: the request is its
own, another authorized actor approved it after a successful broadcast, and it was neither expired
nor revoked since. -/
def Granted (g : IncidentAccessGate) (history : List AccessFact) (id : AccessRequestID)
    (requester : String) (expiry : Time) : Prop :=
  ∃ between before approver coarseCreated,
    history = between ++ .approved id approver expiry true :: before ∧
    .expired id ∉ between ∧ .revoked id ∉ between ∧
    approver ∈ g.authorizedApprovers ∧ approver ≠ requester ∧
    .created id requester coarseCreated ∈ before ∧
    expiry ≤ coarseCreated + maxIncidentRoleTTL

/-- A returned answer was covered by a grant from its start to its completion, and is audited. -/
def Covered (g : IncidentAccessGate) (audit : List AccessAuditRow) (earlier : List AccessFact)
    (answer : Answer) : Prop :=
  (∃ expiry, Granted g earlier answer.requestID answer.actor expiry ∧
    answer.started < expiry ∧ answer.completed < expiry) ∧
  ∃ row ∈ audit, row.eventID = answer.eventID ∧ row.requestID = answer.requestID ∧
    row.actor = answer.actor ∧ row.action = querySuccessAction answer.kind

/-- Every answer of the history was covered by what was committed before it. -/
def AllCovered (g : IncidentAccessGate) (audit : List AccessAuditRow)
    (history : List AccessFact) : Prop :=
  ∀ later answer earlier, history = later ++ .answered answer :: earlier →
    Covered g audit earlier answer

structure Sound (g : IncidentAccessGate) (s : AccessSystem) : Prop where
  unique : Unique AccessRequestRow.requestID s.db.requests
  created : ∀ row ∈ s.db.requests,
    .created row.requestID row.requesterActor row.coarseCreated ∈ s.db.history
  granted : ∀ row ∈ s.db.requests, row.state = .approved → ∃ expiry, row.roleExpires = some expiry ∧
      Granted g s.db.history row.requestID row.requesterActor expiry
  inFlight : ∀ query ∈ s.inFlight, query.row ∈ s.db.requests ∧
    query.row.requestID = query.request.requestID ∧
    query.row.authorizes query.request query.now
  covered : AllCovered g s.db.audit s.db.history

section History

variable {history : List AccessFact} {fact : AccessFact} {audit : List AccessAuditRow}

/-- A grant outlasts whatever does not end it. -/
theorem Granted.cons {id : AccessRequestID} {requester : String} {expiry : Time}
    (h : Granted g history id requester expiry) (hexp : fact ≠ .expired id)
    (hrev : fact ≠ .revoked id) : Granted g (fact :: history) id requester expiry := by
  obtain ⟨between, before, approver, coarseCreated, rfl, hnotE, hnotR, hrest⟩ := h
  refine ⟨fact :: between, before, approver, coarseCreated, rfl, ?_, ?_, hrest⟩
  · simp only [List.mem_cons, not_or]
    exact ⟨hexp.symm, hnotE⟩
  · simp only [List.mem_cons, not_or]
    exact ⟨hrev.symm, hnotR⟩

theorem AllCovered.mono {audit' : List AccessAuditRow} (h : AllCovered g audit history)
    (hsub : audit ⊆ audit') : AllCovered g audit' history := by
  intro later answer earlier hspl
  obtain ⟨hgr, row, hrow, hfields⟩ := h later answer earlier hspl
  exact ⟨hgr, row, hsub hrow, hfields⟩

theorem AllCovered.cons (h : AllCovered g audit history)
    (hfact : ∀ answer, fact = .answered answer → Covered g audit history answer) :
    AllCovered g audit (fact :: history) := by
  intro later answer earlier hspl
  cases later with
  | nil =>
    obtain ⟨rfl, rfl⟩ := List.cons.inj hspl
    exact hfact answer rfl
  | cons first later =>
    obtain ⟨-, hspl⟩ := List.cons.inj hspl
    exact h later answer earlier hspl

end History

theorem IncidentAccessGate.expiry_le (g : IncidentAccessGate) (row : AccessRequestRow)
    (now : Time) : g.expiry row now ≤ row.coarseCreated + maxIncidentRoleTTL := by
  unfold IncidentAccessGate.expiry
  split
  · exact Int.le_refl _
  · exact Int.not_lt.mp ‹_›

namespace Change

variable {id : AccessRequestID}

theorem unique (hc : Change g id db db') (h : Unique AccessRequestRow.requestID db.requests) :
    Unique AccessRequestRow.requestID db'.requests := by
  cases hc with
  | audited => exact h
  | created _ _ hfr => exact unique_cons.mpr ⟨hfr, h⟩
  | _ => exact h.updateWhere fun _ _ _ => rfl

theorem audit_subset (hc : Change g id db db') : db.audit ⊆ db'.audit := by
  cases hc <;> assumption

theorem mem_of_ne (hc : Change g id db db') {row : AccessRequestRow} (hrow : row ∈ db.requests)
    (hne : row.requestID ≠ id) : row ∈ db'.requests := by
  cases hc with
  | audited => exact hrow
  | created => exact .tail _ hrow
  | _ => exact mem_updateWhere.mpr (.inr ⟨hrow, hne⟩)

theorem created_mem (hc : Change g id db db')
    (h : ∀ row ∈ db.requests,
      .created row.requestID row.requesterActor row.coarseCreated ∈ db.history) :
    ∀ row ∈ db'.requests,
      .created row.requestID row.requesterActor row.coarseCreated ∈ db'.history := by
  -- an update leaves the three columns alone, and the history only grows
  have updated {set : AccessRequestRow → AccessRequestRow} {fact : AccessFact}
      (hset : ∀ row, (set row).requestID = row.requestID ∧ (set row).requesterActor =
        row.requesterActor ∧ (set row).coarseCreated = row.coarseCreated) :
      ∀ row ∈ updateWhere (fun stored => stored.requestID = id) set db.requests,
        .created row.requestID row.requesterActor row.coarseCreated ∈ fact :: db.history :=
    forall_mem_updateWhere (fun row hrow => .tail _ (h row hrow)) (by
      intro row _ _ hrow
      obtain ⟨hid, hrequ, hcrs⟩ := hset row
      rw [hid, hrequ, hcrs]
      exact hrow)
  cases hc with
  | audited => exact h
  | created =>
    intro row hrow
    rcases List.mem_cons.mp hrow with rfl | hrow
    · exact .head _
    · exact .tail _ (h row hrow)
  | _ => exact updated fun _ => ⟨rfl, rfl, rfl⟩

theorem granted_of_approved (hc : Change g id db db')
    (huniq : Unique AccessRequestRow.requestID db.requests)
    (hcreated : ∀ row ∈ db.requests,
      .created row.requestID row.requesterActor row.coarseCreated ∈ db.history)
    (h : ∀ row ∈ db.requests, row.state = .approved → ∃ expiry, row.roleExpires = some expiry ∧
        Granted g db.history row.requestID row.requesterActor expiry) :
    ∀ row ∈ db'.requests, row.state = .approved → ∃ expiry, row.roleExpires = some expiry ∧
        Granted g db'.history row.requestID row.requesterActor expiry := by
  intro row hrow hst
  cases hc with
  | audited => exact h row hrow hst
  | created =>
    rcases List.mem_cons.mp hrow with rfl | hrow
    · exact absurd hst (by simp [CreateIncidentAccessRequest.row])
    · obtain ⟨expiry, hexp, hgr⟩ := h row hrow hst
      exact ⟨expiry, hexp, hgr.cons (by simp) (by simp)⟩
  | @granted pending approver now _ _ hmem hid _ hoth hauth _ _ =>
    rcases mem_updateWhere.mp hrow with ⟨old, hold, holdID, rfl⟩ | ⟨hrow, -⟩
    · obtain rfl := huniq.eq_of_key_eq hold hmem (holdID.trans hid.symm)
      have hcrea := hcreated old hold
      rw [hid] at hcrea
      refine ⟨g.expiry old now, rfl, [], db.history, approver, old.coarseCreated, ?_, by simp,
        by simp, hauth, hoth, ?_, g.expiry_le old now⟩
      · rw [holdID, List.nil_append]
      · rw [holdID]
        exact hcrea
    · obtain ⟨expiry, hexp, hgr⟩ := h row hrow hst
      exact ⟨expiry, hexp, hgr.cons (by simp) (by simp)⟩
  | expired =>
    rcases mem_updateWhere.mp hrow with ⟨old, -, -, rfl⟩ | ⟨hrow, hne⟩
    · cases hst
    · obtain ⟨expiry, hexp, hgr⟩ := h row hrow hst
      exact ⟨expiry, hexp, hgr.cons (by simpa using Ne.symm hne) (by simp)⟩
  | revoked =>
    rcases mem_updateWhere.mp hrow with ⟨old, -, -, rfl⟩ | ⟨hrow, hne⟩
    · cases hst
    · obtain ⟨expiry, hexp, hgr⟩ := h row hrow hst
      exact ⟨expiry, hexp, hgr.cons (by simp) (by simpa using Ne.symm hne)⟩

theorem covered (hc : Change g id db db') (h : AllCovered g db.audit db.history) :
    AllCovered g db'.audit db'.history := by
  have hgrown := h.mono hc.audit_subset
  cases hc with
  | audited => exact hgrown
  | _ => exact hgrown.cons (by simp)

/-- A transaction on a row that no query holds keeps the invariant. -/
theorem sound {flights : List OpenQuery} (hc : Change g id db db') (h : Sound g ⟨db, flights⟩)
    (hfree : ∀ query ∈ flights, query.request.requestID ≠ id) : Sound g ⟨db', flights⟩ where
  unique := hc.unique h.unique
  created := hc.created_mem h.created
  granted := hc.granted_of_approved h.unique h.created h.granted
  inFlight := by
    intro query hquery
    obtain ⟨hmem, hid, hauth⟩ := h.inFlight query hquery
    have hne : query.row.requestID ≠ id := by
      rw [hid]
      exact hfree query hquery
    exact ⟨hc.mem_of_ne hmem hne, hid, hauth⟩
  covered := hc.covered h.covered

end Change

/-- The gate over its tables: any calls, by any actors, at any clock readings. -/
def accessSystem (V : Type) (g : IncidentAccessGate) :
    Machine AccessSystem (AccessCall V × Option Fault) where
  init s := s = ⟨.empty, []⟩
  step s call s' := s.next g call.2 call.1 = some s'

theorem sound_empty (g : IncidentAccessGate) : Sound g ⟨.empty, []⟩ where
  unique := unique_nil
  created := by simp [AccessDb.empty]
  granted := by simp [AccessDb.empty]
  inFlight := by simp
  covered := by
    intro later answer earlier hspl
    exact absurd hspl (by simp [AccessDb.empty])

/-- A call on a row that no query holds keeps the invariant. -/
theorem Sound.settle {α : Type} (h : Sound g s) (tx : AccessTx (Except AccessError α))
    (fault : Option Fault) (htx : ∀ r db', tx s.db = .ok (r, db') →
      Change g id s.db db' ∧ ∀ query ∈ s.inFlight, query.request.requestID ≠ id) :
    Sound g { s with db := (Incident.settle tx fault s.db).2 } := by
  rcases settle_cases tx fault s.db with heq | ⟨r, hr⟩
  · rw [heq]
    exact h
  · obtain ⟨hchg, hfree⟩ := htx r _ hr
    exact hchg.sound h hfree

theorem AccessSystem.free_of_not_locked (h : ¬ s.locked id) :
    ∀ query ∈ s.inFlight, query.request.requestID ≠ id :=
  fun query hquery heq => h ⟨query, hquery, heq⟩

/-- A new id is no id of a row that a query holds. -/
theorem Sound.free_of_fresh (h : Sound g s)
    (hfr : ∀ stored ∈ s.db.requests, stored.requestID ≠ id) :
    ∀ query ∈ s.inFlight, query.request.requestID ≠ id := by
  intro query hquery
  obtain ⟨hmem, hid, -⟩ := h.inFlight query hquery
  rw [← hid]
  exact hfr query.row hmem

theorem createRequest_fresh {request : CreateIncidentAccessRequest} {checkedAt : Time}
    (h : createRequest request checkedAt now id eventID db = .ok (r, db')) :
    ∀ stored ∈ db.requests, stored.requestID ≠ id := by
  simp only [createRequest, bind_ok, require_ok] at h
  obtain ⟨_, _, ⟨-, rfl⟩, _, _, ⟨-, rfl⟩, _, db1, hinsert, -⟩ := h
  exact (insertRequest_ok hinsert).1

/-- A row that authorizes a query grants its actor the time until an expiry that is not over. -/
theorem Sound.granted_of_query (h : Sound g s) {query : OpenQuery} (hquery : query ∈ s.inFlight) :
    ∃ expiry, query.row.roleExpires = some expiry ∧ query.now < expiry ∧
      Granted g s.db.history query.request.requestID query.request.actor expiry := by
  obtain ⟨hmem, hid, hst, hrole, -, hactor, -, -⟩ := h.inFlight query hquery
  obtain ⟨expiry, hexp, hgr⟩ := h.granted query.row hmem hst
  rw [hid, ← hactor] at hgr
  refine ⟨expiry, hexp, ?_, hgr⟩
  have hopen : ¬ expiry ≤ query.now := by
    intro hover
    apply hrole
    intro expires hmem
    rw [hexp] at hmem
    cases hmem
    exact hover
  exact Int.not_le.mp hopen

/-- The end of a query keeps the invariant, and what it returns is covered. -/
theorem Sound.finish (h : Sound g s) {query : OpenQuery} (hquery : query ∈ s.inFlight)
    (read : ReadTransaction V) (completedAt : Time) (eventID : Bytes16) (fault : Option Fault) :
    Sound g (s.finish query completedAt eventID
      (Incident.settle (completeRawVaultQuery query read completedAt eventID) fault s.db)) := by
  -- the queries that go on hold other rows
  have hothers : Sound g ⟨s.db,
      deleteWhere (fun q => q.request.requestID = query.request.requestID) s.inFlight⟩ :=
    { h with inFlight := fun q hq => h.inFlight q (mem_deleteWhere.mp hq).1 }
  have hend : Sound g ⟨
      (Incident.settle (completeRawVaultQuery query read completedAt eventID) fault s.db).2,
      deleteWhere (fun q => q.request.requestID = query.request.requestID) s.inFlight⟩ :=
    hothers.settle _ fault fun r db' hr =>
      ⟨(completeRawVaultQuery_cases hr).1, fun q hq => (mem_deleteWhere.mp hq).2⟩
  unfold AccessSystem.finish
  rcases hset : Incident.settle (completeRawVaultQuery query read completedAt eventID) fault s.db
    with ⟨e | result, db'⟩
  · rw [hset] at hend
    exact hend
  · rw [hset] at hend
    obtain ⟨-, ⟨e, he⟩ | ⟨hcomp, hreqs, hhist, haud⟩⟩ :=
      completeRawVaultQuery_cases (g := g) (settle_ok hset)
    · cases he
    obtain ⟨expiry, hexp, hstarted, hgr⟩ := h.granted_of_query hquery
    have hbef : completedAt < expiry := by
      refine Int.not_le.mp fun hover => hcomp ?_
      intro expires hmem
      rw [hexp] at hmem
      cases hmem
      exact hover
    exact
      { unique := hend.unique
        created := fun row hrow => .tail _ (hend.created row hrow)
        granted := by
          intro row hrow hst
          obtain ⟨expiry, hexp, hgr⟩ := hend.granted row hrow hst
          exact ⟨expiry, hexp, hgr.cons (by simp) (by simp)⟩
        inFlight := hend.inFlight
        covered := by
          refine hend.covered.cons ?_
          intro answer hans
          obtain rfl := AccessFact.answered.inj hans
          refine ⟨⟨expiry, ?_, hstarted, hbef⟩, haud⟩
          rw [hhist]
          exact hgr }

theorem Sound.step (h : Sound g s) (hstep : (accessSystem V g).step s call s') : Sound g s' := by
  obtain ⟨call, fault⟩ := call
  change s.next g fault call = some s' at hstep
  cases call with
  | createRequest request checkedAt now id eventID =>
    cases hstep
    exact h.settle _ fault fun r db' hr =>
      ⟨createRequest_change hr, h.free_of_fresh (createRequest_fresh hr)⟩
  | approve approval now broadcast eventID =>
    simp only [AccessSystem.next, Option.ite_none_left_eq_some, Option.some.injEq] at hstep
    obtain ⟨hfree, rfl⟩ := hstep
    exact h.settle _ fault fun r db' hr =>
      ⟨approve_change hr, AccessSystem.free_of_not_locked hfree⟩
  | revoke id actor now eventID =>
    simp only [AccessSystem.next, Option.ite_none_left_eq_some, Option.some.injEq] at hstep
    obtain ⟨hfree, rfl⟩ := hstep
    exact h.settle _ fault fun r db' hr =>
      ⟨revoke_change hr, AccessSystem.free_of_not_locked hfree⟩
  | authorizeQuery request now eventID =>
    simp only [AccessSystem.next, Option.ite_none_left_eq_some] at hstep
    obtain ⟨hfree, hstep⟩ := hstep
    have hcalled := h.settle (authorizeRawVaultQuery request now eventID) fault fun r db' hr =>
      ⟨authorizeRawVaultQuery_change hr, AccessSystem.free_of_not_locked hfree⟩
    rcases hset : Incident.settle (authorizeRawVaultQuery request now eventID) fault s.db with
      ⟨e | row, db'⟩
    · rw [hset] at hstep hcalled
      cases hstep
      exact hcalled
    · rw [hset] at hstep hcalled
      cases hstep
      rcases authorizeRawVaultQuery_cases (g := g) (settle_ok hset) with ⟨-, he⟩ |
        ⟨found, hmem, hid, hauth, hrow, rfl⟩
      · cases he
      cases hrow
      refine { h with inFlight := ?_ }
      intro query hquery
      rcases List.mem_cons.mp hquery with rfl | hquery
      · exact ⟨hmem, hid, hauth⟩
      · exact h.inFlight query hquery
  | completeQuery id read completedAt eventID =>
    simp only [AccessSystem.next, Option.map_eq_some_iff] at hstep
    obtain ⟨query, hfind, rfl⟩ := hstep
    exact h.finish (List.mem_of_find?_eq_some hfind) read completedAt eventID fault

theorem sound_of_reachable (h : (accessSystem V g).Reachable s) : Sound g s := by
  induction h with
  | init hinit =>
    obtain rfl : _ = _ := hinit
    exact sound_empty g
  | step _ hstep ih => exact ih.step hstep

/-- The request `id` has a row that is EXPIRED or REVOKED. -/
def AccessDb.closed (db : AccessDb) (id : AccessRequestID) : Prop :=
  ∃ row ∈ db.requests, row.requestID = id ∧ (row.state = .expired ∨ row.state = .revoked)

theorem Change.closed {closedID : AccessRequestID} (hc : Change g id db db')
    (huniq : Unique AccessRequestRow.requestID db.requests) (h : db.closed closedID) :
    db'.closed closedID := by
  obtain ⟨row, hrow, rfl, hst⟩ := h
  by_cases hid : row.requestID = id
  · cases hc with
    | audited => exact ⟨row, hrow, rfl, hst⟩
    | created _ _ hfr => exact absurd hid (hfr row hrow)
    | granted _ hmem hpend hpending =>
      -- only a pending row is granted, and this one is not pending
      obtain rfl := huniq.eq_of_key_eq hrow hmem (hid.trans hpend.symm)
      exact absurd hst (by simp [hpending])
    | expired => exact ⟨_, mem_updateWhere.mpr (.inl ⟨row, hrow, hid, rfl⟩), rfl, .inl rfl⟩
    | revoked => exact ⟨_, mem_updateWhere.mpr (.inl ⟨row, hrow, hid, rfl⟩), rfl, .inr rfl⟩
  · exact ⟨row, hc.mem_of_ne hrow hid, rfl, hst⟩

/-- What a step does to the tables: one transaction, and perhaps an answer in the history. -/
theorem step_change (hstep : (accessSystem V g).step s call s') :
    ∃ id db, Change g id s.db db ∧ s'.db.requests = db.requests := by
  have called {α : Type} (tx : AccessTx (Except AccessError α)) (fault : Option Fault)
      {id : AccessRequestID} (htx : ∀ r db', tx s.db = .ok (r, db') → Change g id s.db db') :
      Change g id s.db (settle tx fault s.db).2 := by
    rcases settle_cases tx fault s.db with heq | ⟨r, hr⟩
    · rw [heq]
      exact .refl _ _ _
    · exact htx r _ hr
  obtain ⟨call, fault⟩ := call
  change s.next g fault call = some s' at hstep
  cases call with
  | createRequest request checkedAt now id eventID =>
    cases hstep
    exact ⟨id, _, called _ _ fun _ _ => createRequest_change, rfl⟩
  | approve approval now broadcast eventID =>
    simp only [AccessSystem.next, Option.ite_none_left_eq_some, Option.some.injEq] at hstep
    obtain ⟨-, rfl⟩ := hstep
    exact ⟨approval.requestID, _, called _ _ fun _ _ => approve_change, rfl⟩
  | revoke id actor now eventID =>
    simp only [AccessSystem.next, Option.ite_none_left_eq_some, Option.some.injEq] at hstep
    obtain ⟨-, rfl⟩ := hstep
    exact ⟨id, _, called _ _ fun _ _ => revoke_change, rfl⟩
  | authorizeQuery request now eventID =>
    simp only [AccessSystem.next, Option.ite_none_left_eq_some] at hstep
    refine ⟨request.requestID, _, called (authorizeRawVaultQuery request now eventID) fault
      fun _ _ => authorizeRawVaultQuery_change, ?_⟩
    obtain ⟨-, hstep⟩ := hstep
    rcases hset : settle (authorizeRawVaultQuery request now eventID) fault s.db with
      ⟨e | row, db'⟩
    all_goals
      rw [hset] at hstep
      cases hstep
      rfl
  | completeQuery id read completedAt eventID =>
    simp only [AccessSystem.next, Option.map_eq_some_iff] at hstep
    obtain ⟨query, -, rfl⟩ := hstep
    refine ⟨query.request.requestID, _,
      called (completeRawVaultQuery query read completedAt eventID) fault
        fun _ _ hr => (completeRawVaultQuery_cases hr).1, ?_⟩
    unfold AccessSystem.finish
    rcases settle (completeRawVaultQuery query read completedAt eventID) fault s.db with
      ⟨e | result, db'⟩
    all_goals rfl

theorem closed_step (hs : Sound g s) (hclosed : s.db.closed id)
    (hstep : (accessSystem V g).step s call s') : s'.db.closed id := by
  obtain ⟨touched, db, hchg, hreqs⟩ := step_change hstep
  have hkept := hchg.closed hs.unique hclosed
  unfold AccessDb.closed at hkept ⊢
  rw [hreqs]
  exact hkept

/-- In every run of the gate, a raw query that returns a result was covered by a grant: the request
was created by the querying actor, approved by another authorized actor after a successful
broadcast, neither expired nor revoked since, with start and completion before the granted expiry,
which is at most two hours after the coarse creation hour; and its audit row is committed.  A
request that is expired or revoked is never approved again. -/
theorem raw_query_results_are_granted (V : Type) (g : IncidentAccessGate) (s : AccessSystem)
    (h : (accessSystem V g).Reachable s) :
    (∀ later answer earlier, s.db.history = later ++ .answered answer :: earlier →
      Covered g s.db.audit earlier answer) ∧
    ∀ t, (accessSystem V g).Path s t → ∀ id, s.db.closed id →
      ∀ row ∈ t.db.requests, row.requestID = id → row.state ≠ .approved := by
  refine ⟨(sound_of_reachable h).covered, ?_⟩
  intro t hpath id hclosed row hrow hid happr
  obtain ⟨closed, hmem, hclos, hst⟩ : t.db.closed id :=
    hpath.invariant (P := fun s => s.db.closed id) h
      (fun _ _ _ hs hP hstep => closed_step (sound_of_reachable hs) hP hstep) hclosed
  have huniq := (sound_of_reachable (h.path hpath)).unique
  obtain rfl := huniq.eq_of_key_eq hrow hmem (hid.trans hclos.symm)
  exact absurd hst (by simp [happr])

namespace GrantSample

/-- 2025-01-31T00:00:00Z. -/
def midnight : Time := 1738281600 * second

def gate : IncidentAccessGate where
  roleTTL := defaultIncidentRoleTTL
  authorizedApprovers := ["approver-1"]
  roleTTL_pos := by decide
  roleTTL_le := by decide
  approvers_valid := by decide +kernel
  approvers_nodup := by decide

def request : CreateIncidentAccessRequest where
  requesterActor := "requester-1"
  ticketReference := "INC-2025-001"
  hypothesis := incidentHypothesisMissingDelivery
  windowStart := midnight - hour
  windowEnd := midnight
  purpose := accessPurposeIncidentResponse
  dataClass := accessDataClassRawVault

def query : RawVaultAccessRequest where
  requestID := 1
  actor := "requester-1"
  purpose := accessPurposeIncidentResponse
  dataClass := accessDataClassRawVault
  queryKind := rawVaultQueryLease
  target := List.replicate 16 7

/-- A request is created, approved and used, all within the hour. -/
def calls : List (AccessCall Unit) :=
  [.createRequest request (midnight + 10 * minute) (midnight + 10 * minute) 1 11,
    .approve ⟨1, "approver-1"⟩ (midnight + 15 * minute) (fun _ => true) 12,
    .authorizeQuery query (midnight + 20 * minute) 13,
    .completeQuery 1 ⟨true, fun _ _ _ _ => some (some ()), true⟩ (midnight + 21 * minute) 13]

def final : Option AccessSystem :=
  Machine.follow
    (fun call s => (s.next gate none call).map fun s' => ((call, (none : Option Fault)), s')) calls
    ⟨.empty, []⟩

def answer : Answer where
  requestID := 1
  actor := "requester-1"
  kind := rawVaultQueryLease
  started := midnight + 20 * minute
  completed := midnight + 21 * minute
  eventID := 13

theorem final_reachable {s : AccessSystem} (h : final = some s) :
    (accessSystem Unit gate).Reachable s := by
  have hpath : (accessSystem Unit gate).Path ⟨.empty, []⟩ s := by
    refine Machine.follow_path ?_ h
    intro call s l s' hnext
    obtain ⟨t, ht, heq⟩ := Option.map_eq_some_iff.mp hnext
    obtain ⟨rfl, rfl⟩ := Prod.mk.inj heq
    exact ht
  exact Machine.Reachable.path (.init rfl) hpath

end GrantSample

/-- The sample's query is answered, and was covered. -/
theorem raw_query_result_granted_sample :
    ∃ s, (accessSystem Unit GrantSample.gate).Reachable s ∧
      ∃ earlier, s.db.history = .answered GrantSample.answer :: earlier ∧
        Covered GrantSample.gate s.db.audit earlier GrantSample.answer := by
  have hlast : GrantSample.final.bind (fun s => s.db.history.head?) =
      some (.answered GrantSample.answer) := by decide +kernel
  obtain ⟨s, hs, hhead⟩ := Option.bind_eq_some_iff.mp hlast
  obtain ⟨earlier, hhist⟩ := List.head?_eq_some_iff.mp hhead
  have hreach := GrantSample.final_reachable hs
  exact ⟨s, hreach, earlier, hhist,
    (raw_query_results_are_granted Unit GrantSample.gate s hreach).1 [] _ earlier hhist⟩

end NotificationServer.Incident
