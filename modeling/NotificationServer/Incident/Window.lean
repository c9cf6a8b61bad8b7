import NotificationServer.Incident.Grants

/-!
# Which accepted requests stay valid

`CreateRequest` checks the incident window against the clock; every later call
checks the stored window against the end of the creation hour instead.  The two
checks differ by up to an hour at the start of the window, and a request between
them is accepted and then never approved, used or revoked.
-/

namespace NotificationServer.Incident

open Relational Tx

variable {V : Type} {g : IncidentAccessGate} {db db' : AccessDb} {row : AccessRequestRow}
  {actor : String} {now : Time} {id : AccessRequestID} {eventID : Bytes16}

theorem hour_pos : 0 < hour := by decide

theorem coarseHour_le (value : Time) : coarseHour value ≤ value :=
  Int.ediv_mul_le value (Int.ne_of_gt hour_pos)

theorem lt_coarseHour_add (value : Time) : value < coarseHour value + hour := by
  have h := Int.lt_ediv_add_one_mul_self value hour_pos
  rwa [Int.add_mul, Int.one_mul] at h

theorem coarseHour_idem (value : Time) : coarseHour (coarseHour value) = coarseHour value := by
  unfold coarseHour
  rw [Int.mul_ediv_cancel _ (Int.ne_of_gt hour_pos)]

/-- What `validStoredAccessRequest` checks, apart from where the window lies in time. -/
structure AccessRequestRow.Sane (row : AccessRequestRow) : Prop where
  purpose : row.purpose = accessPurposeIncidentResponse
  dataClass : row.dataClass = accessDataClassRawVault
  requester : validActorID row.requesterActor = true
  ticket : validTicketReference row.ticketReference = true
  hypothesis : validIncidentHypothesis row.hypothesis = true
  start_ne : row.windowStart ≠ zeroTime
  end_ne : row.windowEnd ≠ zeroTime
  start_lt_end : row.windowStart < row.windowEnd
  length_le : row.windowEnd - row.windowStart ≤ 2 * hour
  approver_valid : row.approver ≠ "" → validActorID row.approver = true
  approver_ne : row.approver ≠ "" → row.approver ≠ row.requesterActor
  state : row.validStoredState

theorem validStoredAccessRequest_iff (h : row.Sane) :
    validStoredAccessRequest row ↔
      row.coarseCreated + hour - 8 * day ≤ row.windowStart ∧
        row.windowEnd ≤ row.coarseCreated + hour + 5 * minute := by
  constructor
  · rintro ⟨-, -, -, -, -, ⟨-, -, -, -, hst, hend⟩, -⟩
    exact ⟨hst, hend⟩
  · rintro ⟨hst, hend⟩
    exact ⟨h.purpose, h.dataClass, h.requester, h.ticket, h.hypothesis, ⟨h.start_ne, h.end_ne,
      h.start_lt_end, h.length_le, hst, hend⟩, h.approver_valid, h.approver_ne, h.state⟩

theorem ne_empty_of_validActorID (h : validActorID actor = true) : actor ≠ "" := by
  rintro rfl
  cases h

/-- The row of an accepted request is sane, and the table takes it. -/
theorem accepted_row {request : CreateIncidentAccessRequest} {checkedAt : Time}
    (h : request.accepted checkedAt) (id : AccessRequestID) (now : Time) :
    (request.row id now).Sane ∧ (request.row id now).Checks := by
  obtain ⟨hactor, hticket, hhyp, ⟨hst, hend, hlt, hlen, -, -⟩, hpurpose, hcls⟩ := h
  constructor
  · exact
      { purpose := hpurpose
        dataClass := hcls
        requester := hactor
        ticket := hticket
        hypothesis := hhyp
        start_ne := hst
        end_ne := hend
        start_lt_end := hlt
        length_le := hlen
        approver_valid := fun hne => absurd rfl hne
        approver_ne := fun hne => absurd rfl hne
        state := ⟨rfl, rfl, rfl⟩ }
  · refine ⟨?_, coarseHour_idem now, hlt, ?_, by simp [CreateIncidentAccessRequest.row],
      by simp [CreateIncidentAccessRequest.row], ⟨rfl, rfl, rfl⟩⟩
    · simp only [validIncidentHypothesis, Bool.and_eq_true, decide_eq_true_eq] at hhyp
      exact hhyp
    · change request.windowEnd ≤ request.windowStart + 2 * hour
      lia

theorem AccessRequestRow.Sane.grant (h : row.Sane) (hc : row.Checks) {approver : String}
    (hoth : approver ≠ row.requesterActor) (hauth : approver ∈ g.authorizedApprovers)
    (hst : row.coarseCreated ≤ now) (hexp : now < g.expiry row now) :
    AccessRequestRow.Sane { row with
        approverActor := some approver
        oversightBroadcast := some (coarseHour now)
        roleExpires := some (g.expiry row now)
        state := .approved } ∧
      AccessRequestRow.Checks { row with
        approverActor := some approver
        oversightBroadcast := some (coarseHour now)
        roleExpires := some (g.expiry row now)
        state := .approved } := by
  have hval := g.approvers_valid approver hauth
  have hle := g.expiry_le row now
  obtain ⟨hhyp, hcrs, hlt, hlen, -, -, -⟩ := hc
  constructor
  · refine { h with approver_valid := fun _ => hval, approver_ne := fun _ => hoth, state := ?_ }
    refine ⟨ne_empty_of_validActorID hval, rfl, ?_, rfl, ?_⟩
    · rintro broadcast ⟨⟩
      exact (coarseHour_idem now).symm
    · rintro expires ⟨⟩
      exact ⟨Int.lt_of_le_of_lt hst hexp, hle⟩
  · refine ⟨hhyp, hcrs, hlt, hlen, ?_, ?_, ⟨rfl, rfl, rfl⟩⟩
    · rintro broadcast ⟨⟩
      exact coarseHour_idem now
    · rintro expires ⟨⟩
      exact hle

/-- A stored row has an approver exactly if it has a broadcast hour. -/
theorem AccessRequestRow.Sane.approver_iff (h : row.Sane) :
    row.approver = "" ↔ row.oversightBroadcast = none := by
  have hst := h.state
  unfold validStoredState at hst
  split at hst
  · simp [hst.2.1, hst.2.2]
  · simp [hst.1, Option.isSome_iff_ne_none.mp hst.2.1]
  · exact hst.2
  · exact hst.2

theorem AccessRequestRow.Checks.approver_iff (h : row.Checks) :
    row.approverActor.isSome ↔ row.oversightBroadcast.isSome := by
  obtain ⟨-, -, -, -, -, -, hshape⟩ := h
  unfold Shape at hshape
  split at hshape
  · simp [hshape.1, hshape.2.1]
  · simp [hshape.1, hshape.2.1]
  · exact hshape.2
  · exact hshape.2

/-- The row an expiry or a revocation leaves. -/
theorem AccessRequestRow.Sane.close (h : row.Sane) (hc : row.Checks) {state : AccessState}
    (hst : state = .expired ∨ state = .revoked) :
    AccessRequestRow.Sane { row with roleExpires := none, state := state } ∧
      AccessRequestRow.Checks { row with roleExpires := none, state := state } := by
  have happr := h.approver_iff
  have hcols := hc.approver_iff
  obtain ⟨hhyp, hcrs, hlt, hlen, hbroa, -, -⟩ := hc
  rcases hst with rfl | rfl
  · exact ⟨{ h with state := ⟨rfl, happr⟩ },
      hhyp, hcrs, hlt, hlen, hbroa, by simp, rfl, hcols⟩
  · exact ⟨{ h with state := ⟨rfl, happr⟩ },
      hhyp, hcrs, hlt, hlen, hbroa, by simp, rfl, hcols⟩

theorem Change.sane (hc : Change g id db db')
    (huniq : Unique AccessRequestRow.requestID db.requests)
    (h : ∀ row ∈ db.requests, row.Sane ∧ row.Checks) :
    ∀ row ∈ db'.requests, row.Sane ∧ row.Checks := by
  cases hc with
  | audited => exact h
  | created _ hacc =>
    intro row hrow
    rcases List.mem_cons.mp hrow with rfl | hrow
    · exact accepted_row hacc id _
    · exact h row hrow
  | granted _ hmem hid _ hoth hauth hst hexp =>
    refine forall_mem_updateWhere h ?_
    intro row hrow hrowID ⟨hsane, hchecks⟩
    obtain rfl := huniq.eq_of_key_eq hrow hmem (hrowID.trans hid.symm)
    exact hsane.grant hchecks hoth hauth hst hexp
  | expired =>
    exact forall_mem_updateWhere h fun _ _ _ hrow => hrow.1.close hrow.2 (.inl rfl)
  | revoked =>
    exact forall_mem_updateWhere h fun _ _ _ hrow => hrow.1.close hrow.2 (.inr rfl)

theorem sane_of_reachable {s : AccessSystem} (h : (accessSystem V g).Reachable s) :
    ∀ row ∈ s.db.requests, row.Sane ∧ row.Checks := by
  induction h with
  | init hinit =>
    obtain rfl : _ = _ := hinit
    simp [AccessDb.empty]
  | step hs hstep ih =>
    obtain ⟨id, db, hchg, hreqs⟩ := step_change hstep
    rw [hreqs]
    exact hchg.sane (sound_of_reachable hs).unique ih

/-- The request `id` has a row with the window, the requester and the hour it was created with. -/
def AccessDb.holds (db : AccessDb) (created : AccessRequestRow) : Prop :=
  ∃ row ∈ db.requests, row.requestID = created.requestID ∧
    row.requesterActor = created.requesterActor ∧ row.windowStart = created.windowStart ∧
    row.windowEnd = created.windowEnd ∧ row.coarseCreated = created.coarseCreated

theorem Change.holds {created : AccessRequestRow} (hc : Change g id db db') (h : db.holds created) :
    db'.holds created := by
  obtain ⟨row, hrow, hfields⟩ := h
  by_cases hid : row.requestID = id
  · cases hc with
    | audited => exact ⟨row, hrow, hfields⟩
    | created _ _ hfr => exact absurd hid (hfr row hrow)
    | _ => exact ⟨_, mem_updateWhere.mpr (.inl ⟨row, hrow, hid, rfl⟩), hfields⟩
  · exact ⟨row, hc.mem_of_ne hrow hid, hfields⟩

theorem holds_of_path {s t : AccessSystem} {created : AccessRequestRow}
    (hpath : (accessSystem V g).Path s t) (h : s.db.holds created) : t.db.holds created := by
  induction hpath with
  | refl => exact h
  | tail _ hstep ih =>
    obtain ⟨id, db, hchg, hreqs⟩ := step_change hstep
    have hkept := hchg.holds ih
    unfold AccessDb.holds at hkept ⊢
    rw [hreqs]
    exact hkept

/-- An id that `randomID` may return and `access_audit` does not have yet. -/
def AccessDb.freshEvent (db : AccessDb) (eventID : Bytes16) : Prop :=
  eventID ≠ 0 ∧ ∀ row ∈ db.audit, row.eventID ≠ eventID

theorem loadAccessRequestForUpdate_of_mem (huniq : Unique AccessRequestRow.requestID db.requests)
    (hrow : row ∈ db.requests) : loadAccessRequestForUpdate row.requestID db = .ok (row, db) := by
  unfold loadAccessRequestForUpdate
  rw [huniq.find?_eq_some hrow]

theorem insertAudit_of_fresh {requests : List AccessRequestRow} {history : List AccessFact}
    {purpose : AccessPurpose} {dataClass : AccessDataClass} {action bucket : Int16}
    (hfr : db.freshEvent eventID) (hparent : ∃ r ∈ requests, r.requestID = id) :
    ∃ db', insertAudit eventID id actor purpose dataClass action bucket now
      { db with requests := requests, history := history } = .ok ((), db') := by
  unfold insertAudit
  exact ⟨_, if_pos ⟨hfr.1, hfr.2, hparent⟩⟩

/-- A checked update of a stored row, and its audit row, go through. -/
theorem update_and_audit_succeed {set : AccessRequestRow → AccessRequestRow} {fact : AccessFact}
    {purpose : AccessPurpose} {dataClass : AccessDataClass} {action bucket : Int16} {α : Type}
    {reply : α} (huniq : Unique AccessRequestRow.requestID db.requests) (hrow : row ∈ db.requests)
    (hset : (set row).Checks) (hid : ∀ r, (set r).requestID = r.requestID)
    (hfr : db.freshEvent eventID) :
    ∃ db', (updateRequest row.requestID set fact >>= fun _ =>
      insertAudit eventID row.requestID actor purpose dataClass action bucket now >>= fun _ =>
        pure reply) db = .ok (reply, db') := by
  have hupdate : updateRequest row.requestID set fact db = .ok ((), { db with
        requests := updateWhere (fun r => r.requestID = row.requestID) set db.requests
        history := fact :: db.history }) := by
    unfold updateRequest
    rw [if_pos]
    intro stored hsto hstor
    rw [huniq.eq_of_key_eq hsto hrow hstor]
    exact hset
  rw [bind_of_ok hupdate]
  have hparent : ∃ r ∈ updateWhere (fun r => r.requestID = row.requestID) set db.requests,
      r.requestID = row.requestID :=
    ⟨set row, mem_updateWhere.mpr (.inl ⟨row, hrow, rfl, rfl⟩), hid row⟩
  obtain ⟨db', haud⟩ := insertAudit_of_fresh hfr hparent
  exact ⟨db', bind_of_ok haud⟩

theorem approve_of_valid {approver : String} {broadcast : IncidentOversightNotice → Bool}
    (huniq : Unique AccessRequestRow.requestID db.requests) (hrow : row ∈ db.requests)
    (hsane : row.Sane) (hchecks : row.Checks) (hval : validStoredAccessRequest row)
    (hid : row.requestID ≠ 0) (hpend : row.state = .pending)
    (hauth : approver ∈ g.authorizedApprovers) (hoth : approver ≠ row.requesterActor)
    (hst : row.coarseCreated ≤ now) (hend : now < row.coarseCreated + maxIncidentRoleTTL)
    (htold : ∀ notice, broadcast notice = true) (hfr : db.freshEvent eventID) :
    ∃ db', approve g ⟨row.requestID, approver⟩ now broadcast eventID db =
      .ok (.ok ⟨row.requestID, .approved, row.coarseCreated, some (g.expiry row now)⟩, db') := by
  have hexp : now < g.expiry row now := by
    have hrole := g.roleTTL_pos
    unfold IncidentAccessGate.expiry
    split
    · exact hend
    · lia
  have hshape := hsane.state
  simp only [AccessRequestRow.validStoredState, hpend] at hshape
  obtain ⟨-, hnobody, hsilent⟩ := hshape
  have hgr : decideApproval g row ⟨row.requestID, approver⟩ now broadcast eventID =
      grantRole g row ⟨row.requestID, approver⟩ now broadcast eventID := by
    unfold decideApproval
    rw [if_neg, if_neg, if_neg hoth, if_neg (not_not.mpr hauth), if_neg, if_neg]
    · exact Int.not_le.mpr hexp
    · simp [hnobody, hsilent]
    · simp [hpend]
    · simp only [hpend, not_or]
      exact ⟨Int.not_lt.mpr hst, Int.not_le.mpr hend, by simp, by simp⟩
  have hactor := g.approvers_valid approver hauth
  unfold approve
  rw [require_bind_of ⟨hid, hactor⟩, bind_of_ok (loadAccessRequestForUpdate_of_mem huniq hrow),
    require_bind_of hval, hgr]
  unfold grantRole
  rw [require_bind_of (htold _)]
  exact update_and_audit_succeed huniq hrow
    (hsane.grant hchecks hoth hauth hst hexp).2 (fun _ => rfl) hfr

theorem revoke_of_valid (huniq : Unique AccessRequestRow.requestID db.requests)
    (hrow : row ∈ db.requests) (hsane : row.Sane) (hchecks : row.Checks)
    (hval : validStoredAccessRequest row) (hid : row.requestID ≠ 0) (hfr : db.freshEvent eventID) :
    ∃ db', revoke row.requestID row.requesterActor now eventID db = .ok (.ok (), db') := by
  unfold revoke
  rw [require_bind_of ⟨hid, hsane.requester⟩, bind_of_ok (loadAccessRequestForUpdate_of_mem huniq
    hrow), require_bind_of hval, require_bind_of (.inl rfl)]
  exact update_and_audit_succeed huniq hrow (hsane.close hchecks (.inr rfl)).2 (fun _ => rfl)
    hfr

/-- A row that is not valid as stored is refused, whoever asks. -/
theorem refused_of_invalid (huniq : Unique AccessRequestRow.requestID db.requests)
    (hrow : row ∈ db.requests) (hid : row.requestID ≠ 0) (hinvalid : ¬ validStoredAccessRequest row)
    (hactor : validActorID actor = true) (now : Time) (broadcast : IncidentOversightNotice → Bool)
    (eventID : Bytes16) :
    approve g ⟨row.requestID, actor⟩ now broadcast eventID db = .error .unavailable ∧
      revoke row.requestID actor now eventID db = .error .unavailable := by
  have hload := loadAccessRequestForUpdate_of_mem huniq hrow
  constructor
  · unfold approve
    rw [require_bind_of ⟨hid, hactor⟩, bind_of_ok hload, Tx.require, if_neg hinvalid]
    rfl
  · unfold revoke
    rw [require_bind_of ⟨hid, hactor⟩, bind_of_ok hload, Tx.require, if_neg hinvalid]
    rfl

/-- What the gate owes a request it accepted at `created`: its row is valid as stored, an authorized
approver other than the requester can approve it while it is pending and within two hours of its
coarse hour, and the requester can revoke it at any time. -/
def Honoured (g : IncidentAccessGate) (db : AccessDb) (id : AccessRequestID) (created : Time) :
    Prop :=
  ∀ row ∈ db.requests, row.requestID = id → validStoredAccessRequest row ∧
    (∀ approver now broadcast eventID, row.state = .pending → created ≤ now →
      now < row.coarseCreated + maxIncidentRoleTTL → approver ∈ g.authorizedApprovers →
      approver ≠ row.requesterActor → (∀ notice, broadcast notice = true) →
      db.freshEvent eventID →
      ∃ status db', approve g ⟨id, approver⟩ now broadcast eventID db = .ok (.ok status, db') ∧
        status.state = .approved) ∧
    (∀ now eventID, db.freshEvent eventID →
      ∃ db', revoke id row.requesterActor now eventID db = .ok (.ok (), db'))

/-- No authorized approver can approve the request and its requester cannot revoke it. -/
def Refused (g : IncidentAccessGate) (db : AccessDb) (id : AccessRequestID) : Prop :=
  ∀ row ∈ db.requests, row.requestID = id → ∀ now broadcast eventID,
    (∀ approver ∈ g.authorizedApprovers,
      approve g ⟨id, approver⟩ now broadcast eventID db = .error .unavailable) ∧
    revoke id row.requesterActor now eventID db = .error .unavailable

section Accepted

variable {s t : AccessSystem} {request : CreateIncidentAccessRequest} {checkedAt now : Time}
  {id : AccessRequestID} {eventID : Bytes16} {status : IncidentAccessStatus}

theorem createRequest_ok
    (h : createRequest request checkedAt now id eventID db = .ok (.ok status, db')) :
    request.accepted checkedAt ∧ id ≠ 0 ∧ db'.holds (request.row id now) := by
  simp only [createRequest, bind_ok, require_ok, pure_ok] at h
  obtain ⟨_, _, ⟨hacc, rfl⟩, _, _, ⟨hid, rfl⟩, _, db1, hinsert, _, db2, haud, -, rfl⟩ := h
  obtain ⟨-, -, rfl⟩ := insertRequest_ok hinsert
  obtain ⟨audited, -, -, -, -, rfl⟩ := insertAudit_ok haud
  exact ⟨hacc, hid, request.row id now, .head _, rfl, rfl, rfl, rfl, rfl⟩

/-- An accepted request is a step of the gate. -/
theorem createRequest_reachable (hs : (accessSystem V g).Reachable s)
    (h : createRequest request checkedAt now id eventID s.db = .ok (.ok status, db')) :
    (accessSystem V g).Reachable ⟨db', s.inFlight⟩ := by
  refine hs.step (l := (.createRequest request checkedAt now id eventID, none)) ?_
  change some _ = some _
  simp only [settle, h]

/-- Whether the row of an accepted request is valid as stored is settled by where its window
starts. -/
theorem accepted_valid_iff (hclk : checkedAt ≤ now) (hacc : request.accepted checkedAt)
    (hsane : row.Sane) (hst : row.windowStart = request.windowStart)
    (hend : row.windowEnd = request.windowEnd) (hcrs : row.coarseCreated = coarseHour now) :
    validStoredAccessRequest row ↔ coarseHour now + hour - 8 * day ≤ request.windowStart := by
  obtain ⟨-, -, -, ⟨-, -, -, -, -, hbef⟩, -, -⟩ := hacc
  have hlat := lt_coarseHour_add now
  rw [validStoredAccessRequest_iff hsane, hst, hend, hcrs]
  constructor
  · exact fun h => h.1
  · intro h
    refine ⟨h, ?_⟩
    lia

/-- A request that `CreateRequest` accepts is honoured in every later state exactly if its window
starts within eight days of the end of its creation hour; a window that starts earlier is accepted
all the same, and then neither approved nor revoked in any later state. -/
theorem accepted_request_honoured_iff (V : Type) (g : IncidentAccessGate) (s : AccessSystem)
    (hs : (accessSystem V g).Reachable s) (request : CreateIncidentAccessRequest)
    (checkedAt now : Time) (hclock : checkedAt ≤ now) (id : AccessRequestID) (eventID : Bytes16)
    (status : IncidentAccessStatus) (db' : AccessDb)
    (hcreate : createRequest request checkedAt now id eventID s.db = .ok (.ok status, db')) :
    ((∀ t, (accessSystem V g).Path ⟨db', s.inFlight⟩ t → Honoured g t.db id now) ↔
      coarseHour now + hour - 8 * day ≤ request.windowStart) ∧
    (request.windowStart < coarseHour now + hour - 8 * day →
      ∀ t, (accessSystem V g).Path ⟨db', s.inFlight⟩ t → Refused g t.db id) := by
  obtain ⟨hacc, hid, hhold⟩ := createRequest_ok hcreate
  have hreach := createRequest_reachable hs hcreate
  -- the row of the request in a later state
  have hsto {t : AccessSystem} (hpath : (accessSystem V g).Path ⟨db', s.inFlight⟩ t)
      {row : AccessRequestRow} (hrow : row ∈ t.db.requests) (hrowID : row.requestID = id) :
      Unique AccessRequestRow.requestID t.db.requests ∧ row.Sane ∧ row.Checks ∧
        row.coarseCreated = coarseHour now ∧
        (validStoredAccessRequest row ↔ coarseHour now + hour - 8 * day ≤ request.windowStart) := by
    have huniq := (sound_of_reachable (hreach.path hpath)).unique
    obtain ⟨hsane, hchecks⟩ := sane_of_reachable (hreach.path hpath) row hrow
    obtain ⟨kept, hkept, hkeptID, -, hst, hend, hcrs⟩ := holds_of_path hpath hhold
    obtain rfl := huniq.eq_of_key_eq hkept hrow (hkeptID.trans hrowID.symm)
    exact ⟨huniq, hsane, hchecks, hcrs, accepted_valid_iff hclock hacc hsane hst hend hcrs⟩
  refine ⟨⟨?_, ?_⟩, ?_⟩
  · intro h
    obtain ⟨row, hrow, hrowID, -⟩ := hhold
    have hpath : (accessSystem V g).Path ⟨db', s.inFlight⟩ ⟨db', s.inFlight⟩ := .refl _
    obtain ⟨-, -, -, -, hiff⟩ := hsto hpath hrow hrowID
    exact hiff.mp (h _ hpath row hrow hrowID).1
  · intro hwindow t hpath row hrow hrowID
    obtain ⟨huniq, hsane, hchecks, hcrs, hiff⟩ := hsto hpath hrow hrowID
    have hval := hiff.mpr hwindow
    subst hrowID
    refine ⟨hval, ?_, ?_⟩
    · intro approver later broadcast eventID hpend hafter hend hauth hoth htold hfr
      have hbef : row.coarseCreated ≤ later := by
        have hle := coarseHour_le now
        rw [hcrs]
        lia
      obtain ⟨db'', happrove⟩ := approve_of_valid huniq hrow hsane hchecks hval hid hpend
        hauth hoth hbef hend htold hfr
      exact ⟨_, db'', happrove, rfl⟩
    · intro later eventID hfr
      exact revoke_of_valid huniq hrow hsane hchecks hval hid hfr
  · intro hwindow t hpath row hrow hrowID later broadcast eventID
    obtain ⟨huniq, hsane, -, -, hiff⟩ := hsto hpath hrow hrowID
    have hinvalid : ¬ validStoredAccessRequest row := by
      rw [hiff]
      exact Int.not_le.mpr hwindow
    subst hrowID
    constructor
    · intro approver hauth
      exact (refused_of_invalid huniq hrow hid hinvalid
        (g.approvers_valid approver hauth) later broadcast eventID).1
    · exact (refused_of_invalid huniq hrow hid hinvalid hsane.requester later broadcast
        eventID (g := g)).2

end Accepted

namespace WindowSample

/-- A window that starts eight days before the hour at which it is submitted. -/
def request : CreateIncidentAccessRequest :=
  { GrantSample.request with
    windowStart := GrantSample.midnight - 8 * day
    windowEnd := GrantSample.midnight - 8 * day + hour }

/-- What `CreateRequest` returns for it on the hour, and the tables after it. -/
def submitted : Except AccessError IncidentAccessStatus × AccessDb :=
  settle (createRequest request GrantSample.midnight GrantSample.midnight 1 11) none .empty

end WindowSample

/-- A window that starts eight days before the full hour at which it is submitted is accepted, and
half an hour later the healthy gate neither approves the request nor lets its requester revoke
it. -/
theorem accepted_window_refused :
    WindowSample.submitted.1 = .ok ⟨1, .pending, GrantSample.midnight, none⟩ ∧
    (settle (approve GrantSample.gate ⟨1, "approver-1"⟩ (GrantSample.midnight + 30 * minute)
      (fun _ => true) 12) none WindowSample.submitted.2).1 = .error .unavailable ∧
    (settle (revoke 1 "requester-1" (GrantSample.midnight + 30 * minute) 12) none
      WindowSample.submitted.2).1 = .error .unavailable := by
  decide +kernel

/-- The request of the first sample is honoured in every later state. -/
theorem accepted_request_honoured_sample :
    ∃ status db', createRequest GrantSample.request (GrantSample.midnight + 10 * minute)
        (GrantSample.midnight + 10 * minute) 1 11 .empty = .ok (.ok status, db') ∧
      ∀ t, (accessSystem Unit GrantSample.gate).Path ⟨db', []⟩ t →
        Honoured GrantSample.gate t.db 1 (GrantSample.midnight + 10 * minute) := by
  have hreply : (settle (createRequest GrantSample.request (GrantSample.midnight + 10 * minute)
      (GrantSample.midnight + 10 * minute) 1 11) none .empty).1 =
      .ok ⟨1, .pending, GrantSample.midnight, none⟩ := by decide +kernel
  have hcreate := settle_ok (Prod.ext hreply rfl)
  refine ⟨_, _, hcreate, ?_⟩
  exact (accepted_request_honoured_iff Unit GrantSample.gate ⟨.empty, []⟩ (.init rfl) _ _ _
    (Int.le_refl _) 1 11 _ _ hcreate).1.mpr (by decide)

end NotificationServer.Incident
