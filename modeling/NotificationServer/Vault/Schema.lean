import Mathlib.Tactic.MkIffOfInductiveProp
import NotificationServer.Lib.Relational
import NotificationServer.Vault.Tables

/-!
# The constraints of the schema

The primary keys, UNIQUE constraints, foreign keys and CHECKs of migrations
00006, 00010 and 00012, one structure per table over exactly the tables it
mentions.  None of them is deferrable, so PostgreSQL checks all of them at the
end of every statement and the statement fails if one does not hold.  A key
that contains another key of its table is left out.
-/

namespace NotificationServer

open Relational

/-- `n BETWEEN lo AND hi`. -/
def Between (lo hi n : Nat) : Prop := lo ≤ n ∧ n ≤ hi
  deriving Decidable

def artifactTTL : Int := 30 * second

/-- `CHECK (expires_at > issued_at AND expires_at <= issued_at + '30 seconds')`. -/
def ArtifactWindow (issuedAt expiresAt : Time) : Prop :=
  issuedAt < expiresAt ∧ expiresAt ≤ issuedAt + artifactTTL
  deriving Decidable

namespace AssertionReference

/-- The columns bindings and routes repeat of an accepted assertion. -/
def ofAssertion (a : VerifiedAssertion) : AssertionReference :=
  { assertionHash := a.hash, assertionStreamSequence := a.streamSequence,
    topicKeyEpoch := a.topicKeyEpoch, topicBinding := a.topicBinding, keyset := a.keyset }

end AssertionReference

structure AssertionKey where
  installationBindingID : Bytes16
  sequencerEpoch : Bytes16
  bindingID : Bytes16
  bindingVersion : Nat
  assertion : AssertionReference
  deriving DecidableEq

def VerifiedAssertion.key (a : VerifiedAssertion) : AssertionKey :=
  ⟨a.installationBindingID, a.sequencerEpoch, a.bindingID, a.bindingVersion, .ofAssertion a⟩

/-- The active columns of a binding; a revoked binding has none. -/
def BindingRow.activeKey (b : BindingRow) : Option AssertionKey :=
  match b.state with
  | .active ref =>
    some ⟨b.installationBindingID, b.sequencerEpoch, b.bindingID, b.bindingVersion, ref⟩
  | .revoked => none

def RouteColumns.assertionKey (c : RouteColumns) : AssertionKey :=
  ⟨c.installationBindingID, c.sequencerEpoch, c.bindingID, c.bindingVersion, c.assertion⟩

def AuthorityRow.watermarkKey (a : AuthorityRow) : Option (Bytes16 × Bytes16 × WatermarkColumns) :=
  a.watermark.map fun w => (a.installationBindingID, a.sequencerEpoch, w)

def WatermarkRow.fullKey (w : WatermarkRow) : Bytes16 × Bytes16 × WatermarkColumns :=
  (w.installationBindingID, w.sequencerEpoch, w.columns)

def WatermarkRow.key (w : WatermarkRow) : Bytes16 × Bytes16 × Nat :=
  (w.installationBindingID, w.sequencerEpoch, w.columns.watermarkSequence)

def ControlEventRow.key (e : ControlEventRow) : Bytes16 × Bytes16 × Nat :=
  (e.installationBindingID, e.sequencerEpoch, e.streamSequence)

/-- What assertions and tombstones reference of a control event. -/
structure EventKey where
  installationBindingID : Bytes16
  sequencerEpoch : Bytes16
  streamSequence : Nat
  bindingID : Bytes16
  bindingVersion : Nat
  assertionHash : Bytes32
  action : ControlAction
  reasonCode : ControlReason
  deriving DecidableEq

def ControlEventRow.fullKey (e : ControlEventRow) : EventKey :=
  ⟨e.installationBindingID, e.sequencerEpoch, e.streamSequence, e.bindingID, e.bindingVersion,
    e.assertionHash, e.action, e.reasonCode⟩

def VerifiedAssertion.eventKey (a : VerifiedAssertion) : EventKey :=
  ⟨a.installationBindingID, a.sequencerEpoch, a.streamSequence, a.bindingID, a.bindingVersion,
    a.hash, .upsert, .none⟩

def BindingTombstoneRow.eventKey (t : BindingTombstoneRow) : EventKey :=
  ⟨t.installationBindingID, t.sequencerEpoch, t.controlStreamSequence, t.bindingID,
    t.bindingVersion, t.assertionHash, .revoke, t.reasonCode⟩

def BindingTombstoneRow.key (t : BindingTombstoneRow) : Bytes16 × Bytes16 × Nat :=
  (t.installationBindingID, t.bindingID, t.bindingVersion)

def BindingRow.key (b : BindingRow) : Bytes16 × Bytes16 :=
  (b.installationBindingID, b.bindingID)

/-- What a control event references of its idempotency receipt. -/
structure RequestKey where
  idempotencyKey : Bytes16
  installationBindingID : Bytes16
  sequencerEpoch : Bytes16
  operationKind : Operation
  signedRequestHash : Bytes32
  deriving DecidableEq

def IdempotencyReceiptRow.requestKey (r : IdempotencyReceiptRow) : RequestKey :=
  ⟨r.idempotencyKey, r.installationBindingID, r.sequencerEpoch, r.operationKind,
    r.signedRequestHash⟩

def ControlEventRow.receiptKey (e : ControlEventRow) : RequestKey :=
  ⟨e.idempotencyKey, e.installationBindingID, e.sequencerEpoch, .control, e.signedEventHash⟩

/-- What a route references of the receipt of its replacement. -/
structure ResultKey where
  idempotencyKey : Bytes16
  installationBindingID : Bytes16
  sequencerEpoch : Bytes16
  operationKind : Operation
  resultOutcome : ResultOutcome
  resultState : ResultState
  subscriptionGeneration : Nat
  deriving DecidableEq

def IdempotencyReceiptRow.resultKey (r : IdempotencyReceiptRow) : ResultKey :=
  ⟨r.idempotencyKey, r.installationBindingID, r.sequencerEpoch, r.operationKind, r.resultOutcome,
    r.resultState, r.subscriptionGeneration⟩

def RouteRow.receiptKey (r : RouteRow) : ResultKey :=
  ⟨r.replacementIdempotencyKey, r.columns.installationBindingID, r.columns.sequencerEpoch,
    .replace, .applied, .active, r.columns.subscriptionGeneration⟩

/-- `(keyset_sequence, key_use, key_id)`. -/
def OnlineKeyRow.key (k : OnlineKeyRow) : Nat × OnlineKeyUse × Bytes32 :=
  (k.keysetSequence, k.keyUse, k.keyID)

def CommitmentKeyRow.key (k : CommitmentKeyRow) : Nat × CommitmentPurpose × Bytes32 :=
  (k.keysetSequence, k.purpose, k.keyID)

def DeletionTombstoneRow.key (t : DeletionTombstoneRow) : DeletionTarget × LookupDigest :=
  (t.targetKind, t.targetIdentity)

def RouteKeyHistoryRow.key (h : RouteKeyHistoryRow) : LookupDigest × Nat :=
  (h.routeIdentity, h.routeKeyEpoch)

/-- The lease and route columns a delivery job references, when it has both. -/
def DeliveryJobRow.routeKey (j : DeliveryJobRow) : Option (Bytes16 × RouteColumns) :=
  match j.leaseID, j.a9 with
  | some l, some c => some (l, c)
  | _, _ => none

@[mk_iff]
structure KeysetConstraints (accepted : List AcceptedKeysetRow) (online : List OnlineKeyRow)
    (commitment : List CommitmentKeyRow) (state : Option KeysetStateRow) : Prop where
  sequence_key : Unique (fun k => k.keyset.sequence) accepted
  hash_key : Unique (fun k => k.keyset.hash) accepted
  sequence_range : ∀ k ∈ accepted, Between 1 maxSafeInteger k.keyset.sequence
  accepted_window : ∀ k ∈ accepted, k.issuedAt < k.expiresAt ∧ k.expiresAt ≤ k.issuedAt + day
  online_key : Unique (fun k => (k.keysetSequence, k.keyID)) online
  online_keyset : References (fun k => some k.keysetSequence) online
    (fun k => k.keyset.sequence) accepted
  online_window : ∀ k ∈ online, k.notBefore < k.notAfter
  commitment_key : Unique (fun k => (k.keysetSequence, k.keyID)) commitment
  commitment_keyset : References (fun k => some k.keysetSequence) commitment
    (fun k => k.keyset.sequence) accepted
  commitment_window : ∀ k ∈ commitment, k.notBefore < k.notAfter
  commitment_epoch : ∀ k ∈ commitment, if k.purpose = .topic
    then ∃ e ∈ k.topicKeyEpoch, Between 1 maxUint32 e else k.topicKeyEpoch = none
  state_keyset : ∀ s ∈ state, ∀ a ∈ s.accepted, a.1 ∈ accepted.map (fun k => k.keyset)
  state_shape : ∀ s ∈ state, if s.current
    then s.accepted.isSome ∧ s.uncertaintyReason = 0 else Between 1 16 s.uncertaintyReason

@[mk_iff]
structure ReceiptConstraints (receipts : List IdempotencyReceiptRow) : Prop where
  key : Unique (fun r => r.idempotencyKey) receipts
  generation_range : ∀ r ∈ receipts, r.subscriptionGeneration ≤ maxSafeInteger
  sequence_range : ∀ r ∈ receipts, r.acceptedStreamSequence ≤ maxSafeInteger

/-- The CHECKs on a set of watermark columns, in `a9_watermarks` and in the authority row. -/
structure WatermarkColumns.Valid (w : WatermarkColumns) : Prop where
  sequence_range : Between 1 maxSafeInteger w.watermarkSequence
  committed_range : w.committedThrough ≤ maxSafeInteger
  window : ArtifactWindow w.issuedAt w.expiresAt
  keyset_range : Between 1 maxSafeInteger w.keyset.sequence
  status_reason : w.status = .current ↔ w.uncertaintyReason = .none

instance (w : WatermarkColumns) : Decidable w.Valid :=
  decidable_of_iff (Between 1 maxSafeInteger w.watermarkSequence ∧ w.committedThrough ≤
      maxSafeInteger ∧ ArtifactWindow w.issuedAt w.expiresAt ∧ Between 1 maxSafeInteger
      w.keyset.sequence ∧ (w.status = .current ↔ w.uncertaintyReason = .none))
    ⟨fun ⟨h₁, h₂, h₃, h₄, h₅⟩ => ⟨h₁, h₂, h₃, h₄, h₅⟩,
      fun ⟨h₁, h₂, h₃, h₄, h₅⟩ => ⟨h₁, h₂, h₃, h₄, h₅⟩⟩

@[mk_iff]
structure AuthorityConstraints (authorities : List AuthorityRow) (watermarks : List WatermarkRow)
    (accepted : List AcceptedKeysetRow) (online : List OnlineKeyRow) : Prop where
  key : Unique (fun a => a.installationBindingID) authorities
  contiguous_range : ∀ a ∈ authorities, a.contiguousStreamSequence ≤ maxSafeInteger
  generation_range : ∀ a ∈ authorities, a.subscriptionGeneration ≤ maxSafeInteger
  state_reason : ∀ a ∈ authorities, a.state = .active ↔ a.uncertaintyReason = .none
  watermark_valid : ∀ a ∈ authorities, ∀ w ∈ a.watermark, w.Valid
  watermark_covered : ∀ a ∈ authorities, ∀ w ∈ a.watermark,
    w.status = .current → w.committedThrough ≤ a.contiguousStreamSequence
  updated : ∀ a ∈ authorities, a.createdAt ≤ a.updatedAt
  watermark_keyset : References (fun a => a.watermark.map fun w => w.keyset) authorities
    (fun k => k.keyset) accepted
  watermark_signing_key : References
    (fun a => a.watermark.map fun w => (w.keyset.sequence, OnlineKeyUse.artifact, w.signingKeyID))
    authorities OnlineKeyRow.key online
  current_watermark : References AuthorityRow.watermarkKey authorities
    WatermarkRow.fullKey watermarks

@[mk_iff]
structure WatermarkConstraints (watermarks : List WatermarkRow)
    (accepted : List AcceptedKeysetRow) (online : List OnlineKeyRow) : Prop where
  key : Unique WatermarkRow.key watermarks
  hash_key : Unique (fun w => w.columns.signedHash) watermarks
  valid : ∀ w ∈ watermarks, w.columns.Valid
  keyset : References (fun w => some w.columns.keyset) watermarks (fun k => k.keyset) accepted
  signing_key : References
    (fun w => some (w.columns.keyset.sequence, OnlineKeyUse.artifact, w.columns.signingKeyID))
    watermarks OnlineKeyRow.key online

@[mk_iff]
structure Gate6BindingConstraints (gate6Bindings : List Gate6BindingRow)
    (authorities : List AuthorityRow) : Prop where
  key : Unique (fun b => b.installationBindingID) gate6Bindings
  identity_key : Unique (fun b => b.installationIdentity) gate6Bindings
  authority : References (fun b => some b.installationBindingID) gate6Bindings
    (fun a => a.installationBindingID) authorities

@[mk_iff]
structure ControlEventConstraints (events : List ControlEventRow)
    (authorities : List AuthorityRow) (receipts : List IdempotencyReceiptRow)
    (accepted : List AcceptedKeysetRow) (online : List OnlineKeyRow) : Prop where
  key : Unique ControlEventRow.key events
  hash_key : Unique (fun e => e.signedEventHash) events
  sequence_range : ∀ e ∈ events, Between 1 maxSafeInteger e.streamSequence
  previous : ∀ e ∈ events, e.streamSequence = e.expectedPreviousSequence + 1
  version_range : ∀ e ∈ events, Between 1 maxSafeInteger e.bindingVersion
  previous_version : ∀ e ∈ events, e.bindingVersion = e.expectedBindingVersion + 1
  window : ∀ e ∈ events, ArtifactWindow e.issuedAt e.expiresAt
  action_reason : ∀ e ∈ events, e.action = .upsert ↔ e.reasonCode = .none
  gap_denial : ∀ e ∈ events, e.streamIsContiguous ∨ e.action = .revoke
  authority : References (fun e => some e.installationBindingID) events
    (fun a => a.installationBindingID) authorities
  receipt : References (fun e => some e.receiptKey) events
    IdempotencyReceiptRow.requestKey receipts
  keyset : References (fun e => some e.keyset) events (fun k => k.keyset) accepted
  signing_key : References
    (fun e => some (e.keyset.sequence, OnlineKeyUse.artifact, e.signingKeyID))
    events OnlineKeyRow.key online

@[mk_iff]
structure AssertionConstraints (assertions : List VerifiedAssertion)
    (events : List ControlEventRow) (accepted : List AcceptedKeysetRow)
    (online : List OnlineKeyRow) (commitment : List CommitmentKeyRow) : Prop where
  key : Unique (fun a => a.hash) assertions
  topic_epoch_range : ∀ a ∈ assertions, Between 1 maxUint32 a.topicKeyEpoch
  conversation_range : ∀ a ∈ assertions, Between 1 2147483647 a.conversationGeneration
  roster_range : ∀ a ∈ assertions, Between 1 2147483647 a.rosterVersion
  window : ∀ a ∈ assertions, ArtifactWindow a.issuedAt a.expiresAt
  event : References (fun a => some a.eventKey) assertions ControlEventRow.fullKey events
  keyset : References (fun a => some a.keyset) assertions (fun k => k.keyset) accepted
  signing_key : References
    (fun a => some (a.keyset.sequence, OnlineKeyUse.artifact, a.signingKeyID))
    assertions OnlineKeyRow.key online
  tuple_key : References
    (fun a => some (a.keyset.sequence, CommitmentPurpose.tuple, a.tupleCommitmentKeyID))
    assertions CommitmentKeyRow.key commitment
  roster_key : References
    (fun a => some (a.keyset.sequence, CommitmentPurpose.roster, a.rosterCommitmentKeyID))
    assertions CommitmentKeyRow.key commitment
  topic_key : References
    (fun a => some ((a.keyset.sequence, CommitmentPurpose.topic, a.topicCommitmentKeyID),
      some a.topicKeyEpoch))
    assertions (fun k => (k.key, k.topicKeyEpoch)) commitment

@[mk_iff]
structure BindingConstraints (bindings : List BindingRow) (authorities : List AuthorityRow)
    (assertions : List VerifiedAssertion) : Prop where
  key : Unique BindingRow.key bindings
  version_range : ∀ b ∈ bindings, Between 1 maxSafeInteger b.bindingVersion
  authority : References (fun b => some b.installationBindingID) bindings
    (fun a => a.installationBindingID) authorities
  assertion : References BindingRow.activeKey bindings VerifiedAssertion.key assertions

@[mk_iff]
structure TombstoneConstraints (tombstones : List BindingTombstoneRow)
    (events : List ControlEventRow) : Prop where
  key : Unique BindingTombstoneRow.key tombstones
  event : References (fun t => some t.eventKey) tombstones ControlEventRow.fullKey events

/-- No foreign key of a route has an ON DELETE or ON UPDATE action. -/
@[mk_iff]
structure RouteConstraints (routes : List RouteRow) (leases : List LeaseRow)
    (gate6Bindings : List Gate6BindingRow) (authorities : List AuthorityRow)
    (receipts : List IdempotencyReceiptRow) (assertions : List VerifiedAssertion)
    (bindings : List BindingRow) : Prop where
  key : Unique (fun r => r.leaseID) routes
  topic_key : Unique (fun r => (r.columns.installationBindingID,
    r.columns.assertion.topicKeyEpoch, r.columns.assertion.topicBinding)) routes
  binding_key : Unique
    (fun r => (r.columns.installationBindingID, r.columns.bindingID)) routes
  generation_range : ∀ r ∈ routes, Between 1 maxSafeInteger r.columns.subscriptionGeneration
  route_epoch_range : ∀ r ∈ routes, Between 1 maxUint32 r.columns.routeKeyEpoch
  watermark_range : ∀ r ∈ routes, Between 1 maxSafeInteger r.columns.watermarkSequence
  lease : References (fun r => some (r.leaseID, r.installationIdentity)) routes
    (fun l => (l.leaseID, l.installationIdentity)) leases
  gate6 : References (fun r => some (r.columns.installationBindingID, r.installationIdentity))
    routes (fun b => (b.installationBindingID, b.installationIdentity)) gate6Bindings
  authority : References (fun r => some r.columns.installationBindingID) routes
    (fun a => a.installationBindingID) authorities
  receipt : References (fun r => some r.receiptKey) routes
    IdempotencyReceiptRow.resultKey receipts
  assertion : References (fun r => some r.columns.assertionKey) routes
    VerifiedAssertion.key assertions
  binding : References (fun r => some (some r.columns.assertionKey)) routes
    BindingRow.activeKey bindings

/-- The longest life of an installation row or a lease after its last refresh. -/
def maxLeaseTTL : Int := 7 * day

/-- How long a deletion tombstone or a retired route-key history row is kept. -/
def deletionHorizon : Int := 8 * day

/-- `INTEGER` and `CHECK (… > 0)`. -/
def ValidKeyVersion (v : Int) : Prop := 0 < v ∧ v ≤ 2147483647
  deriving Decidable

@[mk_iff]
structure InstallationConstraints (installations : List InstallationRow) : Prop where
  key : Unique (fun i => i.installationLookup) installations
  identity_key : Unique (fun i => i.installationIdentity) installations
  policy_epoch_pos : ∀ i ∈ installations, 0 < i.policyEpoch
  key_version : ∀ i ∈ installations, ValidKeyVersion i.encryptionKeyVersion
  expiry : ∀ i ∈ installations, i.expiresAt ≤ i.refreshedAt + maxLeaseTTL
  control_expiry : ∀ i ∈ installations, i.controlExpiresAt ≤ i.refreshedAt + minute

@[mk_iff]
structure HistoryConstraints (history : List RouteKeyHistoryRow) : Prop where
  key : Unique RouteKeyHistoryRow.key history
  commitment_key : Unique (fun h => h.routeKeyCommitment) history
  epoch_range : ∀ h ∈ history, Between 1 maxUint32 h.routeKeyEpoch
  expiry : ∀ h ∈ history, h.updatedAt ≤ h.expiresAt ∧ h.expiresAt ≤ h.updatedAt + 15 * day

/-- Both foreign keys cascade on delete; the lookup also cascades on update. -/
@[mk_iff]
structure LeaseConstraints (leases : List LeaseRow) (installations : List InstallationRow) :
    Prop where
  key : Unique (fun l => l.leaseID) leases
  topic_key : Unique (fun l => (l.installationLookup, l.topicLookup)) leases
  generation_pos : ∀ l ∈ leases, 0 < l.generation
  policy_epoch_pos : ∀ l ∈ leases, 0 < l.policyEpoch
  route_epoch_range : ∀ l ∈ leases, Between 1 maxUint32 l.routeKeyEpoch
  key_version : ∀ l ∈ leases, ValidKeyVersion l.encryptionKeyVersion
  expiry : ∀ l ∈ leases, l.expiresAt ≤ l.refreshedAt + maxLeaseTTL
  control_expiry : ∀ l ∈ leases, l.controlExpiresAt ≤ l.refreshedAt + minute
  installation : References (fun l => some l.installationLookup) leases
    (fun i => i.installationLookup) installations
  identity : References (fun l => some l.installationIdentity) leases
    (fun i => i.installationIdentity) installations

/-- The largest fence epoch of a target: policy epochs are JSON-safe, route epochs 32-bit. -/
def DeletionTarget.maxFenceEpoch : DeletionTarget → Nat
  | .installation => maxSafeInteger
  | .route => maxUint32

/-- `validDeletionTombstoneFence`, which is also the CHECK on `fence_epoch`. -/
def validDeletionTombstoneFence (targetKind : DeletionTarget) (fenceEpoch : Nat) : Prop :=
  Between 1 targetKind.maxFenceEpoch fenceEpoch
  deriving Decidable

@[mk_iff]
structure DeletionTombstoneConstraints (tombstones : List DeletionTombstoneRow) : Prop where
  key : Unique DeletionTombstoneRow.key tombstones
  key_version : ∀ t ∈ tombstones, ValidKeyVersion t.keyVersion
  fence_range : ∀ t ∈ tombstones, validDeletionTombstoneFence t.targetKind t.fenceEpoch
  expiry : ∀ t ∈ tombstones, t.expiresAt ≤ t.createdAt + deletionHorizon

def JobState.Live (s : JobState) : Prop := s = .pending ∨ s = .claimed
  deriving Decidable

def JobState.Erasure (s : JobState) : Prop := s = .erasurePending ∨ s = .erasureClaimed
  deriving Decidable

/-- `delivery_jobs_shape_check`. -/
def DeliveryJobRow.Shape (j : DeliveryJobRow) : Prop :=
  (j.state.Live ∧ j.leaseID.isSome ∧ j.installationLookup = none ∧ j.retryExponent = 0 ∧
      j.trafficClass ≠ some .unknown ∧ j.finalReason = none) ∨
    (j.state.Erasure ∧ j.leaseID = none ∧ j.installationLookup.isSome ∧
      j.trafficClass ≠ some .unknown ∧ j.finalReason = none) ∨
    (j.state = .final ∧ j.leaseID = none ∧ j.installationLookup = none ∧ j.encryptedJob = [0] ∧
      j.retryExponent = 0 ∧ j.trafficClass.isSome ∧ j.finalReason.isSome ∧
      (j.trafficClass = some .unknown →
        j.finalReason = some .safetyInvalidated ∨ j.finalReason = some .materialInvalid))

instance (j : DeliveryJobRow) : Decidable j.Shape := by
  unfold DeliveryJobRow.Shape; infer_instance

@[mk_iff]
structure JobConstraints (jobs : List DeliveryJobRow) (leases : List LeaseRow)
    (installations : List InstallationRow) (routes : List RouteRow) : Prop where
  key : Unique (fun j => j.jobID) jobs
  attempts_range : ∀ j ∈ jobs, j.attempts ≤ 3
  retry_range : ∀ j ∈ jobs, j.retryExponent ≤ 16
  expiry : ∀ j ∈ jobs, j.expiresAt ≤ j.createdAt + 15 * minute
  shape : ∀ j ∈ jobs, j.Shape
  snapshot_shape : ∀ j ∈ jobs, j.a9.isSome → j.state.Live ∧ j.leaseID.isSome
  lease : References (fun j => j.leaseID) jobs (fun l => l.leaseID) leases
  installation : References (fun j => j.installationLookup) jobs
    (fun i => i.installationLookup) installations
  route : References DeliveryJobRow.routeKey jobs (fun r => (r.leaseID, r.columns)) routes

/-- Every constraint of the schema. -/
@[mk_iff]
structure Db.Constraints (db : Db) : Prop where
  keysets : KeysetConstraints db.acceptedKeysets db.onlineKeys db.commitmentKeys db.keysetState
  receipts : ReceiptConstraints db.receipts
  authorities : AuthorityConstraints db.authorities db.watermarks db.acceptedKeysets db.onlineKeys
  watermarks : WatermarkConstraints db.watermarks db.acceptedKeysets db.onlineKeys
  gate6Bindings : Gate6BindingConstraints db.gate6Bindings db.authorities
  controlEvents : ControlEventConstraints db.controlEvents db.authorities db.receipts
    db.acceptedKeysets db.onlineKeys
  assertions : AssertionConstraints db.assertions db.controlEvents db.acceptedKeysets
    db.onlineKeys db.commitmentKeys
  bindings : BindingConstraints db.bindings db.authorities db.assertions
  tombstones : TombstoneConstraints db.tombstones db.controlEvents
  routes : RouteConstraints db.routes db.leases db.gate6Bindings db.authorities db.receipts
    db.assertions db.bindings
  installations : InstallationConstraints db.installations
  routeKeyHistory : HistoryConstraints db.routeKeyHistory
  leases : LeaseConstraints db.leases db.installations
  deletionTombstones : DeletionTombstoneConstraints db.deletionTombstones
  jobs : JobConstraints db.jobs db.leases db.installations db.routes

section Decidable

variable (accepted : List AcceptedKeysetRow) (online : List OnlineKeyRow)
  (commitment : List CommitmentKeyRow) (keysetState : Option KeysetStateRow)
  (receipts : List IdempotencyReceiptRow) (authorities : List AuthorityRow)
  (watermarks : List WatermarkRow) (gate6Bindings : List Gate6BindingRow)
  (events : List ControlEventRow) (assertions : List VerifiedAssertion)
  (bindings : List BindingRow) (tombstones : List BindingTombstoneRow) (routes : List RouteRow)
  (installations : List InstallationRow) (history : List RouteKeyHistoryRow)
  (leases : List LeaseRow) (deletions : List DeletionTombstoneRow) (jobs : List DeliveryJobRow)

instance : Decidable (KeysetConstraints accepted online commitment keysetState) :=
  decidable_of_iff' _ (keysetConstraints_iff ..)

instance : Decidable (ReceiptConstraints receipts) :=
  decidable_of_iff' _ (receiptConstraints_iff ..)

instance : Decidable (AuthorityConstraints authorities watermarks accepted online) :=
  decidable_of_iff' _ (authorityConstraints_iff ..)

instance : Decidable (WatermarkConstraints watermarks accepted online) :=
  decidable_of_iff' _ (watermarkConstraints_iff ..)

instance : Decidable (Gate6BindingConstraints gate6Bindings authorities) :=
  decidable_of_iff' _ (gate6BindingConstraints_iff ..)

instance : Decidable (ControlEventConstraints events authorities receipts accepted online) :=
  decidable_of_iff' _ (controlEventConstraints_iff ..)

instance : Decidable (AssertionConstraints assertions events accepted online commitment) :=
  decidable_of_iff' _ (assertionConstraints_iff ..)

instance : Decidable (BindingConstraints bindings authorities assertions) :=
  decidable_of_iff' _ (bindingConstraints_iff ..)

instance : Decidable (TombstoneConstraints tombstones events) :=
  decidable_of_iff' _ (tombstoneConstraints_iff ..)

instance : Decidable (RouteConstraints routes leases gate6Bindings authorities receipts
    assertions bindings) :=
  decidable_of_iff' _ (routeConstraints_iff ..)

instance : Decidable (InstallationConstraints installations) :=
  decidable_of_iff' _ (installationConstraints_iff ..)

instance : Decidable (HistoryConstraints history) :=
  decidable_of_iff' _ (historyConstraints_iff ..)

instance : Decidable (LeaseConstraints leases installations) :=
  decidable_of_iff' _ (leaseConstraints_iff ..)

instance : Decidable (DeletionTombstoneConstraints deletions) :=
  decidable_of_iff' _ (deletionTombstoneConstraints_iff ..)

instance : Decidable (JobConstraints jobs leases installations routes) :=
  decidable_of_iff' _ (jobConstraints_iff ..)

instance : DecidablePred Db.Constraints := fun db => decidable_of_iff' _ (Db.constraints_iff db)

end Decidable

end NotificationServer
