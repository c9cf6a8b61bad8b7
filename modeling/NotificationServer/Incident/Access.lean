import NotificationServer.Vault.Basic
import NotificationServer.Lib.Transaction
import NotificationServer.Lib.Relational

/-!
# The incident access gate

`incident_access.go` over the tables `access_requests` and `access_audit` of one
environment.  A transaction that ends without a commit returns an error and
leaves the tables alone; one that commits may still return an error, as every
denial does after it is audited.  Clock readings, random ids, the oversight
broadcast and the read-only lookup of a raw query are arguments: whoever calls
the gate may meet any of them.
-/

namespace NotificationServer.Incident

open Relational

inductive AccessError
  | invalid
  | denied
  | unavailable
  | queryFailed
  deriving DecidableEq

def defaultIncidentRoleTTL : Int := 30 * minute
def maxIncidentRoleTTL : Int := 2 * hour

inductive AccessState
  | pending
  | approved
  | expired
  | revoked
  deriving DecidableEq

def accessActionRequestCreated : Int16 := 1
def accessActionApproved : Int16 := 2
def accessActionRevoked : Int16 := 3
def accessActionApprovalDenied : Int16 := 4
def accessActionQueryBase : Int16 := 100
def accessActionQueryFailure : Int16 := 120

abbrev AccessPurpose := Int16
def accessPurposeIncidentResponse : AccessPurpose := 1

abbrev AccessDataClass := Int16
def accessDataClassRawVault : AccessDataClass := 1

abbrev IncidentHypothesis := Int16
def incidentHypothesisMissingDelivery : IncidentHypothesis := 1
def incidentHypothesisSpuriousDelivery : IncidentHypothesis := 2
def incidentHypothesisRetentionFailure : IncidentHypothesis := 3

abbrev RawVaultQueryKind := Int16
def rawVaultQueryInstallation : RawVaultQueryKind := 1
def rawVaultQueryLease : RawVaultQueryKind := 2
def rawVaultQueryDeliveryJob : RawVaultQueryKind := 3

abbrev AccessRequestID := Bytes16

def actorCharacter (character : Char) : Bool :=
  ('a' ≤ character && character ≤ 'z') || ('A' ≤ character && character ≤ 'Z') ||
    ('0' ≤ character && character ≤ '9') || character == '-' || character == '_' ||
    character == '.' || character == ':'

def validActorID (actor : String) : Bool :=
  8 ≤ actor.utf8ByteSize && actor.utf8ByteSize ≤ 128 && actor.toList.all actorCharacter

def validTicketReference (reference : String) : Bool := validActorID reference

def validIncidentHypothesis (hypothesis : IncidentHypothesis) : Bool :=
  incidentHypothesisMissingDelivery ≤ hypothesis && hypothesis ≤ incidentHypothesisRetentionFailure

def validIncidentWindow (start «end» now : Time) : Prop :=
  start ≠ zeroTime ∧ «end» ≠ zeroTime ∧ start < «end» ∧ «end» - start ≤ 2 * hour ∧
    now - 8 * day ≤ start ∧ «end» ≤ now + 5 * minute

instance {start «end» now : Time} : Decidable (validIncidentWindow start «end» now) := by
  unfold validIncidentWindow
  infer_instance

def validRawVaultQueryKind (kind : RawVaultQueryKind) : Bool :=
  rawVaultQueryInstallation ≤ kind && kind ≤ rawVaultQueryDeliveryJob

def validRawVaultTarget (kind : RawVaultQueryKind) (target : Bytes) : Bool :=
  if kind = rawVaultQueryInstallation then target.length == 32
  else if kind = rawVaultQueryLease ∨ kind = rawVaultQueryDeliveryJob then target.length == 16
  else false

/-- The start of the hour of `value`. -/
def coarseHour (value : Time) : Time := value / hour * hour

def resultCountBucket (count : Int) : Int16 :=
  if count ≤ 0 then 0 else if count = 1 then 1 else if count ≤ 4 then 2
  else if count ≤ 16 then 3 else if count ≤ 64 then 4 else 5

def querySuccessAction (kind : RawVaultQueryKind) : Int16 := accessActionQueryBase + kind
def queryFailureAction (kind : RawVaultQueryKind) : Int16 := accessActionQueryFailure + kind

structure IncidentAccessOptions where
  roleTTL : Int
  authorizedApprovers : List String

/-- A gate that `NewIncidentAccessGate` returned. -/
structure IncidentAccessGate where
  roleTTL : Int
  authorizedApprovers : List String
  roleTTL_pos : 0 < roleTTL
  roleTTL_le : roleTTL ≤ maxIncidentRoleTTL
  approvers_valid : ∀ actor ∈ authorizedApprovers, validActorID actor = true
  approvers_nodup : authorizedApprovers.Nodup

def newIncidentAccessGate (options : IncidentAccessOptions) :
    Except AccessError IncidentAccessGate :=
  let roleTTL := if options.roleTTL = 0 then defaultIncidentRoleTTL else options.roleTTL
  if happrovers : options.authorizedApprovers ≠ [] ∧
      (∀ actor ∈ options.authorizedApprovers, validActorID actor = true) ∧
      options.authorizedApprovers.Nodup then
    if hrole : 0 < roleTTL ∧ roleTTL ≤ maxIncidentRoleTTL then
      .ok
        { roleTTL := roleTTL
          authorizedApprovers := options.authorizedApprovers
          roleTTL_pos := hrole.1
          roleTTL_le := hrole.2
          approvers_valid := happrovers.2.1
          approvers_nodup := happrovers.2.2 }
    else .error .invalid
  else .error .invalid

structure CreateIncidentAccessRequest where
  requesterActor : String
  ticketReference : String
  hypothesis : IncidentHypothesis
  windowStart : Time
  windowEnd : Time
  purpose : AccessPurpose
  dataClass : AccessDataClass

structure IncidentAccessStatus where
  requestID : AccessRequestID
  state : AccessState
  coarseCreated : Time
  roleExpiresAt : Option Time
  deriving DecidableEq

structure IncidentApproval where
  requestID : AccessRequestID
  actor : String

structure IncidentOversightNotice where
  purpose : AccessPurpose
  dataClass : AccessDataClass
  coarseApprovedHour : Time

structure RawVaultAccessRequest where
  requestID : AccessRequestID
  actor : String
  purpose : AccessPurpose
  dataClass : AccessDataClass
  queryKind : RawVaultQueryKind
  target : Bytes

/-- `RawVaultQueryResult`, over the snapshots `V` of the three lookups. -/
structure RawVaultQueryResult (V : Type) where
  value : Option V
  resultCount : Int

/-- A row of `access_requests`. -/
structure AccessRequestRow where
  requestID : AccessRequestID
  purpose : AccessPurpose
  dataClass : AccessDataClass
  requesterActor : String
  ticketReference : String
  hypothesis : IncidentHypothesis
  windowStart : Time
  windowEnd : Time
  approverActor : Option String
  oversightBroadcast : Option Time
  coarseCreated : Time
  roleExpires : Option Time
  state : AccessState

/-- `approverActor` as the loaded row has it: NULL reads as the empty string. -/
def AccessRequestRow.approver (row : AccessRequestRow) : String := row.approverActor.getD ""

def AccessRequestRow.Shape (row : AccessRequestRow) : Prop :=
  match row.state with
  | .pending => row.approverActor = none ∧ row.oversightBroadcast = none ∧ row.roleExpires = none
  | .approved =>
    row.approverActor.isSome ∧ row.oversightBroadcast.isSome ∧ row.roleExpires.isSome
  | .expired | .revoked =>
    row.roleExpires = none ∧ (row.approverActor.isSome ↔ row.oversightBroadcast.isSome)

instance (row : AccessRequestRow) : Decidable row.Shape := by
  unfold AccessRequestRow.Shape
  split <;> infer_instance

/-- The CHECK constraints of `access_requests`. -/
def AccessRequestRow.Checks (row : AccessRequestRow) : Prop :=
  (1 ≤ row.hypothesis ∧ row.hypothesis ≤ 3) ∧
  coarseHour row.coarseCreated = row.coarseCreated ∧
  row.windowStart < row.windowEnd ∧
  row.windowEnd ≤ row.windowStart + 2 * hour ∧
  (∀ broadcast ∈ row.oversightBroadcast, coarseHour broadcast = broadcast) ∧
  (∀ expires ∈ row.roleExpires, expires ≤ row.coarseCreated + 2 * hour) ∧
  row.Shape

instance (row : AccessRequestRow) : Decidable row.Checks := by
  unfold AccessRequestRow.Checks
  infer_instance

/-- A row of `access_audit`; `expiresOn` is a UTC date, in days since 1970-01-01. -/
structure AccessAuditRow where
  eventID : Bytes16
  requestID : AccessRequestID
  actor : String
  purpose : AccessPurpose
  dataClass : AccessDataClass
  coarseEventHour : Time
  action : Int16
  resultCountBucket : Int16
  expiresOn : Int
  deriving DecidableEq

structure Answer where
  requestID : AccessRequestID
  actor : String
  kind : RawVaultQueryKind
  started : Time
  completed : Time
  eventID : Bytes16
  deriving DecidableEq

/-- What a run has done to a request so far.  `approved` carries the granted expiry and whether the
oversight broadcast returned success. -/
inductive AccessFact
  | created (requestID : AccessRequestID) (requester : String) (coarseCreated : Time)
  | approved (requestID : AccessRequestID) (approver : String) (expiry : Time) (broadcast : Bool)
  | expired (requestID : AccessRequestID)
  | revoked (requestID : AccessRequestID)
  | answered (answer : Answer)
  deriving DecidableEq

/-- The tables.  `history` is no table: it lists what was committed, the latest first. -/
structure AccessDb where
  requests : List AccessRequestRow
  audit : List AccessAuditRow
  history : List AccessFact

def AccessDb.empty : AccessDb := ⟨[], [], []⟩

abbrev AccessTx := Tx AccessDb AccessError

/-- The INSERT of `CreateRequest`. -/
def insertRequest (row : AccessRequestRow) : AccessTx Unit := fun db =>
  if (∀ stored ∈ db.requests, stored.requestID ≠ row.requestID) ∧ row.Checks then
    .ok ((), { db with
        requests := row :: db.requests
        history := .created row.requestID row.requesterActor row.coarseCreated :: db.history })
  else .error .unavailable

/-- An UPDATE of the row `requestID`, recorded as `fact`. -/
def updateRequest (requestID : AccessRequestID) (set : AccessRequestRow → AccessRequestRow)
    (fact : AccessFact) : AccessTx Unit := fun db =>
  if ∀ row ∈ db.requests, row.requestID = requestID → (set row).Checks then
    .ok ((), { db with
        requests := updateWhere (fun row => row.requestID = requestID) set db.requests
        history := fact :: db.history })
  else .error .unavailable

/-- `UPDATE … SET role_expires_at = NULL, state = EXPIRED`. -/
def expireRequest (requestID : AccessRequestID) : AccessTx Unit :=
  updateRequest requestID (fun row => { row with roleExpires := none, state := .expired })
    (.expired requestID)

/-- `UPDATE … SET role_expires_at = NULL, state = REVOKED`. -/
def revokeRequest (requestID : AccessRequestID) : AccessTx Unit :=
  updateRequest requestID (fun row => { row with roleExpires := none, state := .revoked })
    (.revoked requestID)

/-- `loadAccessRequestForUpdate`; every caller denies a request that has no row. -/
def loadAccessRequestForUpdate (requestID : AccessRequestID) : AccessTx AccessRequestRow := fun db =>
  match db.requests.find? (fun row => row.requestID = requestID) with
  | some row => .ok (row, db)
  | none => .error .denied

/-- `insertAudit`, with the id `randomID` drew. -/
def insertAudit (eventID : Bytes16) (requestID : AccessRequestID) (actor : String)
    (purpose : AccessPurpose) (dataClass : AccessDataClass) (action resultBucket : Int16)
    (now : Time) : AccessTx Unit := fun db =>
  let coarseEvent := coarseHour now
  if eventID ≠ 0 ∧ (∀ row ∈ db.audit, row.eventID ≠ eventID) ∧
      (∃ row ∈ db.requests, row.requestID = requestID) then
    .ok ((), { db with
        audit :=
          { eventID := eventID
            requestID := requestID
            actor := actor
            purpose := purpose
            dataClass := dataClass
            coarseEventHour := coarseEvent
            action := action
            resultCountBucket := resultBucket
            expiresOn := (coarseEvent + 180 * day) / day } :: db.audit })
  else .error .unavailable

/-- `!row.roleExpires.Valid || !now.Before(row.roleExpires.Time)`. -/
def AccessRequestRow.roleOver (row : AccessRequestRow) (now : Time) : Prop :=
  ∀ expires ∈ row.roleExpires, expires ≤ now

instance (row : AccessRequestRow) (now : Time) : Decidable (row.roleOver now) := by
  unfold AccessRequestRow.roleOver
  infer_instance

/-- The `switch row.state` of `validStoredAccessRequest`. -/
def AccessRequestRow.validStoredState (row : AccessRequestRow) : Prop :=
  match row.state with
  | .pending => row.roleExpires = none ∧ row.approver = "" ∧ row.oversightBroadcast = none
  | .approved =>
    row.approver ≠ "" ∧
    row.oversightBroadcast.isSome ∧
    (∀ broadcast ∈ row.oversightBroadcast, broadcast = coarseHour broadcast) ∧
    row.roleExpires.isSome ∧
    (∀ expires ∈ row.roleExpires,
      row.coarseCreated < expires ∧ expires ≤ row.coarseCreated + maxIncidentRoleTTL)
  | .expired | .revoked =>
    row.roleExpires = none ∧ (row.approver = "" ↔ row.oversightBroadcast = none)

instance (row : AccessRequestRow) : Decidable row.validStoredState := by
  unfold AccessRequestRow.validStoredState
  split <;> infer_instance

def validStoredAccessRequest (row : AccessRequestRow) : Prop :=
  row.purpose = accessPurposeIncidentResponse ∧
  row.dataClass = accessDataClassRawVault ∧
  validActorID row.requesterActor = true ∧
  validTicketReference row.ticketReference = true ∧
  validIncidentHypothesis row.hypothesis = true ∧
  validIncidentWindow row.windowStart row.windowEnd (row.coarseCreated + hour) ∧
  (row.approver ≠ "" → validActorID row.approver = true) ∧
  (row.approver ≠ "" → row.approver ≠ row.requesterActor) ∧
  row.validStoredState

instance (row : AccessRequestRow) : Decidable (validStoredAccessRequest row) := by
  unfold validStoredAccessRequest
  infer_instance

/-- The condition `CreateRequest` checks on its request, at its first clock reading. -/
def CreateIncidentAccessRequest.accepted (request : CreateIncidentAccessRequest)
    (checkedAt : Time) : Prop :=
  validActorID request.requesterActor = true ∧
  validTicketReference request.ticketReference = true ∧
  validIncidentHypothesis request.hypothesis = true ∧
  validIncidentWindow request.windowStart request.windowEnd checkedAt ∧
  request.purpose = accessPurposeIncidentResponse ∧
  request.dataClass = accessDataClassRawVault

instance (request : CreateIncidentAccessRequest) (checkedAt : Time) :
    Decidable (request.accepted checkedAt) := by
  unfold CreateIncidentAccessRequest.accepted
  infer_instance

/-- The row `CreateRequest` inserts. -/
def CreateIncidentAccessRequest.row (request : CreateIncidentAccessRequest)
    (requestID : AccessRequestID) (now : Time) : AccessRequestRow where
  requestID := requestID
  purpose := request.purpose
  dataClass := request.dataClass
  requesterActor := request.requesterActor
  ticketReference := request.ticketReference
  hypothesis := request.hypothesis
  windowStart := request.windowStart
  windowEnd := request.windowEnd
  approverActor := none
  oversightBroadcast := none
  coarseCreated := coarseHour now
  roleExpires := none
  state := .pending

/-- `CreateRequest`.  The clock is read twice: `checkedAt` for the window, `now` for what is
stored. -/
def createRequest (request : CreateIncidentAccessRequest) (checkedAt now : Time)
    (requestID : AccessRequestID) (eventID : Bytes16) :
    AccessTx (Except AccessError IncidentAccessStatus) := do
  Tx.require (request.accepted checkedAt) .invalid
  Tx.require (requestID ≠ 0) .unavailable
  insertRequest (request.row requestID now)
  insertAudit eventID requestID request.requesterActor request.purpose request.dataClass
    accessActionRequestCreated 0 now
  pure (.ok ⟨requestID, .pending, coarseHour now, none⟩)

def commitDeniedApproval {α : Type} (row : AccessRequestRow) (approval : IncidentApproval)
    (now : Time) (eventID : Bytes16) : AccessTx (Except AccessError α) := do
  Tx.when (row.state ≠ .revoked ∧
      (row.coarseCreated + maxIncidentRoleTTL ≤ now ∨ (row.state = .approved ∧ row.roleOver now)))
    (expireRequest approval.requestID)
  insertAudit eventID approval.requestID approval.actor row.purpose row.dataClass
    accessActionApprovalDenied 0 now
  pure (.error .denied)

/-- The expiry an approval at `now` grants. -/
def IncidentAccessGate.expiry (g : IncidentAccessGate) (row : AccessRequestRow) (now : Time) : Time :=
  if row.coarseCreated + maxIncidentRoleTTL < now + g.roleTTL
  then row.coarseCreated + maxIncidentRoleTTL else now + g.roleTTL

/-- The end of `Approve`: broadcast, UPDATE, audit.  The notice goes out before the row changes. -/
def grantRole (g : IncidentAccessGate) (row : AccessRequestRow) (approval : IncidentApproval)
    (now : Time) (broadcast : IncidentOversightNotice → Bool) (eventID : Bytes16) :
    AccessTx (Except AccessError IncidentAccessStatus) := do
  let told := broadcast ⟨row.purpose, row.dataClass, coarseHour now⟩
  Tx.require (told = true) .unavailable
  updateRequest approval.requestID
    (fun stored => { stored with
      approverActor := some approval.actor
      oversightBroadcast := some (coarseHour now)
      roleExpires := some (g.expiry row now)
      state := .approved })
    (.approved approval.requestID approval.actor (g.expiry row now) told)
  insertAudit eventID approval.requestID approval.actor row.purpose row.dataClass
    accessActionApproved 0 now
  pure (.ok ⟨approval.requestID, .approved, row.coarseCreated, some (g.expiry row now)⟩)

/-- `Approve` on the row it loaded. -/
def decideApproval (g : IncidentAccessGate) (row : AccessRequestRow) (approval : IncidentApproval)
    (now : Time) (broadcast : IncidentOversightNotice → Bool) (eventID : Bytes16) :
    AccessTx (Except AccessError IncidentAccessStatus) :=
  if now < row.coarseCreated ∨ row.coarseCreated + maxIncidentRoleTTL ≤ now ∨
      row.state = .expired ∨ row.state = .revoked then
    commitDeniedApproval row approval now eventID
  else if row.state = .approved then
    if row.roleOver now ∨ row.approver ≠ approval.actor then
      commitDeniedApproval row approval now eventID
    else pure (.ok ⟨approval.requestID, row.state, row.coarseCreated, row.roleExpires⟩)
  else if approval.actor = row.requesterActor then
    commitDeniedApproval row approval now eventID
  else if approval.actor ∉ g.authorizedApprovers then
    commitDeniedApproval row approval now eventID
  else if row.approver ≠ "" ∨ row.oversightBroadcast.isSome then
    Tx.fail .unavailable
  else if g.expiry row now ≤ now then
    commitDeniedApproval row approval now eventID
  else grantRole g row approval now broadcast eventID

def approve (g : IncidentAccessGate) (approval : IncidentApproval) (now : Time)
    (broadcast : IncidentOversightNotice → Bool) (eventID : Bytes16) :
    AccessTx (Except AccessError IncidentAccessStatus) := do
  Tx.require (approval.requestID ≠ 0 ∧ validActorID approval.actor = true) .invalid
  let row ← loadAccessRequestForUpdate approval.requestID
  Tx.require (validStoredAccessRequest row) .unavailable
  decideApproval g row approval now broadcast eventID

def revoke (requestID : AccessRequestID) (actor : String) (now : Time) (eventID : Bytes16) :
    AccessTx (Except AccessError Unit) := do
  Tx.require (requestID ≠ 0 ∧ validActorID actor = true) .invalid
  let row ← loadAccessRequestForUpdate requestID
  Tx.require (validStoredAccessRequest row) .unavailable
  Tx.require (actor = row.requesterActor ∨ actor = row.approver) .denied
  revokeRequest requestID
  insertAudit eventID requestID actor row.purpose row.dataClass accessActionRevoked 0 now
  pure (.ok ())

def commitDeniedQuery {α : Type} (row : AccessRequestRow) (request : RawVaultAccessRequest)
    (now : Time) (eventID : Bytes16) : AccessTx (Except AccessError α) := do
  Tx.when (row.state = .approved ∧ row.roleOver now) (expireRequest request.requestID)
  insertAudit eventID request.requestID request.actor row.purpose row.dataClass
    (queryFailureAction request.queryKind) 0 now
  pure (.error .denied)

def commitFailedQuery {α : Type} (row : AccessRequestRow) (request : RawVaultAccessRequest)
    (now : Time) (eventID : Bytes16) (fixedError : AccessError) :
    AccessTx (Except AccessError α) := do
  insertAudit eventID request.requestID request.actor row.purpose row.dataClass
    (queryFailureAction request.queryKind) 0 now
  pure (.error fixedError)

/-- The condition under which a loaded row authorizes a raw query. -/
def AccessRequestRow.authorizes (row : AccessRequestRow) (request : RawVaultAccessRequest)
    (now : Time) : Prop :=
  row.state = .approved ∧ ¬ row.roleOver now ∧ row.coarseCreated ≤ now ∧
    request.actor = row.requesterActor ∧ request.purpose = row.purpose ∧
    request.dataClass = row.dataClass

instance (row : AccessRequestRow) (request : RawVaultAccessRequest) (now : Time) :
    Decidable (row.authorizes request now) := by
  unfold AccessRequestRow.authorizes
  infer_instance

/-- `WithAuthorizedRawVaultQuery` up to its read transaction: the row that authorizes the query,
which stays locked, or the error of a call that ends here. -/
def authorizeRawVaultQuery (request : RawVaultAccessRequest) (now : Time) (eventID : Bytes16) :
    AccessTx (Except AccessError AccessRequestRow) := do
  Tx.require (request.requestID ≠ 0 ∧ validActorID request.actor = true ∧ request.purpose =
      accessPurposeIncidentResponse ∧ request.dataClass = accessDataClassRawVault ∧
      validRawVaultQueryKind request.queryKind = true ∧ validRawVaultTarget request.queryKind
      request.target = true) .invalid
  let row ← loadAccessRequestForUpdate request.requestID
  Tx.require (validStoredAccessRequest row) .unavailable
  if row.authorizes request now then pure (.ok row)
  else commitDeniedQuery row request now eventID

/-- How the read transaction of a raw query goes: whether it begins, what the lookup of a kind, a
target and a window finds (`none` if it fails, `some none` if no row overlaps the window), and
whether it commits. -/
structure ReadTransaction (V : Type) where
  begins : Bool
  lookup : RawVaultQueryKind → Bytes → Time → Time → Option (Option V)
  commits : Bool

def executeRawVaultQuery {V : Type} (read : ReadTransaction V) (kind : RawVaultQueryKind)
    (target : Bytes) (windowStart windowEnd : Time) :
    Except AccessError (RawVaultQueryResult V) :=
  if validRawVaultTarget kind target = false ∨ windowEnd ≤ windowStart then .error .queryFailed
  else
    match read.lookup kind target windowStart windowEnd with
    | none => .error .queryFailed
    | some none => .ok ⟨none, 0⟩
    | some (some snapshot) => .ok ⟨some snapshot, 1⟩

structure OpenQuery where
  request : RawVaultAccessRequest
  row : AccessRequestRow
  now : Time

/-- The rest of `WithAuthorizedRawVaultQuery`; `completedAt` is the clock once the lookup is done. -/
def completeRawVaultQuery {V : Type} (query : OpenQuery) (read : ReadTransaction V)
    (completedAt : Time) (eventID : Bytes16) :
    AccessTx (Except AccessError (RawVaultQueryResult V)) :=
  if read.begins = false then
    commitFailedQuery query.row query.request query.now eventID .unavailable
  else
    match executeRawVaultQuery read query.request.queryKind query.request.target
        query.row.windowStart query.row.windowEnd with
    | .error _ => commitFailedQuery query.row query.request completedAt eventID .queryFailed
    | .ok result =>
      if query.row.roleOver completedAt then
        commitDeniedQuery query.row query.request completedAt eventID
      else if read.commits = false then
        commitFailedQuery query.row query.request completedAt eventID .queryFailed
      else do
        insertAudit eventID query.request.requestID query.request.actor query.row.purpose
          query.row.dataClass (querySuccessAction query.request.queryKind)
          (resultCountBucket result.resultCount) completedAt
        pure (.ok result)

/-- What can go wrong with a transaction around its statements: it is rolled back, or its commit is
done and the answer to it lost. -/
inductive Fault
  | rolledBack
  | lostReply

/-- Runs a transaction: what the call returns and the tables after it. -/
def settle {α : Type} (tx : AccessTx (Except AccessError α)) (fault : Option Fault)
    (db : AccessDb) : Except AccessError α × AccessDb :=
  match fault, tx db with
  | some .rolledBack, _ => (.error .unavailable, db)
  | some .lostReply, .ok (_, db') => (.error .unavailable, db')
  | none, .ok (reply, db') => (reply, db')
  | _, .error e => (.error e, db)

structure AccessSystem where
  db : AccessDb
  inFlight : List OpenQuery

/-- A raw query between its two halves holds `FOR UPDATE` on its row. -/
def AccessSystem.locked (s : AccessSystem) (requestID : AccessRequestID) : Prop :=
  ∃ query ∈ s.inFlight, query.request.requestID = requestID

instance (s : AccessSystem) (requestID : AccessRequestID) : Decidable (s.locked requestID) := by
  unfold AccessSystem.locked
  infer_instance

/-- One call of the gate, or one half of a raw query, with what it meets. -/
inductive AccessCall (V : Type)
  | createRequest (request : CreateIncidentAccessRequest) (checkedAt now : Time)
      (requestID : AccessRequestID) (eventID : Bytes16)
  | approve (approval : IncidentApproval) (now : Time)
      (broadcast : IncidentOversightNotice → Bool) (eventID : Bytes16)
  | revoke (requestID : AccessRequestID) (actor : String) (now : Time) (eventID : Bytes16)
  | authorizeQuery (request : RawVaultAccessRequest) (now : Time) (eventID : Bytes16)
  | completeQuery (requestID : AccessRequestID) (read : ReadTransaction V) (completedAt : Time)
      (eventID : Bytes16)

/-- The end of a raw query: its lock is released, and a result it returns is recorded. -/
def AccessSystem.finish {V : Type} (s : AccessSystem) (query : OpenQuery) (completedAt : Time)
    (eventID : Bytes16) (r : Except AccessError (RawVaultQueryResult V) × AccessDb) :
    AccessSystem where
  inFlight := deleteWhere (fun q => q.request.requestID = query.request.requestID) s.inFlight
  db :=
    match r.1 with
    | .error _ => r.2
    | .ok _ =>
      { r.2 with
        history := .answered
          { requestID := query.request.requestID
            actor := query.request.actor
            kind := query.request.queryKind
            started := query.now
            completed := completedAt
            eventID := eventID } :: r.2.history }

/-- One step; a call on a locked row waits, so it is no step. -/
def AccessSystem.next {V : Type} (g : IncidentAccessGate) (s : AccessSystem) (fault : Option Fault) :
    AccessCall V → Option AccessSystem
  | .createRequest request checkedAt now requestID eventID =>
    some { s with
      db := (settle (Incident.createRequest request checkedAt now requestID eventID) fault s.db).2 }
  | .approve approval now broadcast eventID =>
    if s.locked approval.requestID then none
    else some { s with
      db := (settle (Incident.approve g approval now broadcast eventID) fault s.db).2 }
  | .revoke requestID actor now eventID =>
    if s.locked requestID then none
    else some { s with
      db := (settle (Incident.revoke requestID actor now eventID) fault s.db).2 }
  | .authorizeQuery request now eventID =>
    if s.locked request.requestID then none
    else
      match settle (authorizeRawVaultQuery request now eventID) fault s.db with
      | (.ok row, db) => some ⟨db, ⟨request, row, now⟩ :: s.inFlight⟩
      | (.error _, db) => some ⟨db, s.inFlight⟩
  | .completeQuery requestID read completedAt eventID =>
    (s.inFlight.find? fun query => query.request.requestID = requestID).map fun query =>
      s.finish query completedAt eventID
        (settle (completeRawVaultQuery query read completedAt eventID) fault s.db)

end NotificationServer.Incident
