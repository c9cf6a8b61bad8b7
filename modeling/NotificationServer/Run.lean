import NotificationServer.System

/-!
# Executing the system

Every transaction body is computable, so a list of operations can be run from
the empty database.  A run that commits every operation ends in a reachable
state; this is how concrete reachable states are exhibited.
-/

namespace NotificationServer

instance : DecidablePred Op.OfA9 := fun op =>
  match op with
  | .applyControl .. | .applyWatermark .. | .replace .. | .register .. | .keyset .. =>
    .isTrue trivial
  | .refresh .. | .advancePolicy .. | .beginSweep .. | .finishSweep .. | .erase .. | .reapply ..
  | .requireRetentionSafe .. | .worker .. => .isFalse id

theorem Db.empty_constraints : Db.empty.Constraints := by decide +kernel

def Sys.fresh : Sys := ⟨⟨Db.empty, Db.empty_constraints⟩, 0⟩

namespace Store

variable (S : Store) {s : Sys} {test : Sys → Op → Sys → Bool} {P : Sys → Event → Sys → Prop}
  {ops : List Op}

def perform (op : Op) (s : Sys) : Option Sys :=
  if op.OfA9 → S.a9Enabled = true then
    match S.body op s.session with
    | .ok (_, t) => some ⟨t.vault, max s.clock op.latest⟩
    | .error _ => none
  else none

/-- The authority statements of a transaction that commits. -/
def writesOf (op : Op) (s : Sys) : List (Bytes16 × AuthorityWrite) :=
  match S.body op s.session with
  | .ok (_, t) => t.writes
  | .error _ => []

/-- Several transactions, if every one of them commits and passes a test. -/
def performIn (ok : Sys → Op → Sys → Bool) : List Op → Sys → Option Sys
  | [], s => some s
  | op :: ops, s => ((S.perform op s).filter (ok s op)).bind (performIn ok ops)

def performAll : List Op → Sys → Option Sys := S.performIn fun _ _ _ => true

variable {S}

theorem perform_step {op : Op} {s' : Sys} (h : S.perform op s = some s') :
    S.system.step s ⟨op, S.writesOf op s⟩ s' := by
  unfold perform at h
  split at h
  case isFalse => cases h
  case isTrue hop =>
    cases hb : S.body op s.session with
    | error e =>
      rw [hb] at h
      cases h
    | ok r =>
      obtain ⟨u, t⟩ := r
      rw [hb] at h
      cases h
      have hw : S.writesOf op s = t.writes := by
        unfold writesOf
        rw [hb]
      exact ⟨hop, ⟨t, hb, rfl, hw.symm⟩, rfl⟩

/-- A tested run is a path of the system restricted to steps that pass the test. -/
theorem performIn_path (htest : ∀ s op writes s', test s op s' = true → P s ⟨op, writes⟩ s')
    {s' : Sys} (h : S.performIn test ops s = some s') : (S.system.restrict P).Path s s' := by
  induction ops generalizing s with
  | nil =>
    obtain rfl := Option.some.inj h
    exact .refl s
  | cons op ops ih =>
    obtain ⟨t, ht, h⟩ := Option.bind_eq_some_iff.mp h
    obtain ⟨ht, hok⟩ := Option.filter_eq_some_iff.mp ht
    have hfst : (S.system.restrict P).Path s t := .tail (.refl s) ⟨perform_step ht, htest _ _ _ _ hok⟩
    exact hfst.trans (ih h)

theorem fresh_init : S.system.init .fresh := ⟨rfl, by decide⟩

theorem performIn_reachable (htest : ∀ s op writes s', test s op s' = true → P s ⟨op, writes⟩ s')
    (h : S.performIn test ops .fresh = some s) : (S.system.restrict P).Reachable s := by
  have hinit : (S.system.restrict P).Reachable .fresh :=
    .init (fresh_init (S := S))
  exact hinit.path (performIn_path htest h)

/-- The state a list of operations leads to is reachable. -/
theorem performAll_reachable (h : S.performAll ops .fresh = some s) : S.system.Reachable s :=
  (performIn_reachable (P := fun _ _ _ => True) (fun _ _ _ _ _ => trivial) h).of_restrict

theorem performAll_path {s' : Sys} (h : S.performAll ops s = some s') : S.system.Path s s' :=
  (performIn_path (P := fun _ _ _ => True) (fun _ _ _ _ _ => trivial) h).of_restrict

/-- Some reachable state has a property that the end of a run has. -/
theorem exists_reachable (ops : List Op) {P : Sys → Prop} [DecidablePred P]
    (h : (S.performAll ops .fresh).any (fun s => decide (P s)) = true) :
    ∃ s, S.system.Reachable s ∧ P s := by
  obtain ⟨s, hs, hP⟩ := (Option.any_eq_true _ _).mp h
  exact ⟨s, performAll_reachable hs, of_decide_eq_true hP⟩

end Store

/-! ## A sample configuration

One installation of the dev environment with one binding.  The keyset, the keys and the times are
such that every artifact below is current at `Sample.start`. -/

namespace Sample

def store : Store where
  environment := .dev
  leaseTTL := 7 * day
  encryption :=
    { activeVersion := 1, versions := [1], active_mem := by decide, active_pos := by decide
      active_lt := by decide }
  lookupRoot := 7
  teenConversationEnabled := true
  a9Enabled := true
  sweepInterval := 15 * minute
  policySignatureValid := fun _ => true
  capabilitySignatureValid := fun _ => true
  parseTopic := fun t => if t = [] then none else some .groupMessagesV1
  deriveRouteAlias := fun _ _ _ => some 0
  leaseTTL_pos := by decide
  leaseTTL_le := by decide
  sweepInterval_range := by decide
  parseTopic_nil := by decide

def start : Time := 1000 * day

def clock : Clock := ⟨start, start⟩

def keyset : KeysetReceipt := ⟨1, 11⟩

/-- A sweep, so that retention is safe, and a current keyset. -/
def boot : List Op :=
  [.beginSweep start, .finishSweep ⟨start, start, start⟩,
    .keyset (.accept ⟨keyset, start, start + day⟩
      [⟨1, .artifact, 5, 0, start + 100 * day⟩]
      [⟨1, .roster, 21, none, 0, start + 100 * day⟩, ⟨1, .tuple, 22, none, 0, start + 100 * day⟩,
        ⟨1, .topic, 23, some 3, 0, start + 100 * day⟩]
      start)]

/-- The assertion that UPSERT number `sequence` of epoch `E` carries for version `version`. -/
def assertion (E : Bytes16) (sequence version : Nat) : VerifiedAssertion :=
  { hash := .ofNat _ (1000 * E.toNat + 2 * sequence), installationBindingID := 9
    sequencerEpoch := E, streamSequence := sequence, bindingID := 50, bindingVersion := version
    leaseID := 3, tupleCommitment := 0, tupleCommitmentKeyID := 22, rosterCommitment := 0
    rosterCommitmentKeyID := 21, topicBinding := 77, topicKeyEpoch := 3, topicCommitmentKeyID := 23
    conversationGeneration := 1, rosterVersion := 1, issuedAt := start
    expiresAt := start + 30 * second, signingKeyID := 5, keyset := keyset }

def control (E : Bytes16) (sequence version : Nat) (action : ControlAction) : VerifiedControl :=
  { environment := .dev, idempotencyKey := .ofNat _ (1000 * E.toNat + sequence)
    installationBindingID := 9, sequencerEpoch := E, streamSequence := sequence
    expectedPreviousSequence := sequence - 1, bindingID := 50, bindingVersion := version
    expectedBindingVersion := version - 1, action := action
    assertionHash := .ofNat _ (1000 * E.toNat + 2 * sequence)
    reason := if action = .revoke then .authorityRevoked else .none, issuedAt := start
    expiresAt := start + 30 * second, signingKeyID := 5
    signedObjectHash := .ofNat _ (1000 * E.toNat + 2 * sequence + 1), keyset := keyset
    assertion := if action = .revoke then none else some (assertion E sequence version) }

def opened : List Op := boot ++ [.applyControl clock (control 70 1 1 .upsert)]

def watermark (E : Bytes16) (sequence committed : Nat) : VerifiedWatermark :=
  { environment := .dev, installationBindingID := 9, sequencerEpoch := E
    watermarkSequence := sequence, committedThroughStreamSequence := committed, status := .current
    uncertaintyReason := .none, issuedAt := start, expiresAt := start + 30 * second
    signingKeyID := 5, signedObjectHash := .ofNat _ (1000 * E.toNat + 500 + sequence)
    keyset := keyset }

/-- A policy control of the Gate-6 installation behind installation 9. -/
def policy (epoch : Nat) (state : PolicyState) (now : Time) : PolicyControl :=
  { schemaVersion := 1, environment := .dev, installationID := 8, accountIncarnationID := 6
    policyEpoch := epoch, state := state, agePolicy := .adult, issuedAt := some now
    expiresAt := some (now + 30 * second), signingKeyID := [], signature := [] }

/-- The subscription that names the assertion of event `sequence` and version `version`. -/
def subscription (E : Bytes16) (sequence version routeKeyEpoch : Nat) : ReplaceSubscription :=
  { bindingID := 50, bindingVersion := version
    assertionHash := .ofNat _ (1000 * E.toNat + 2 * sequence), topicBinding := 77
    topicKeyEpoch := 3, routeKeyEpoch := routeKeyEpoch, topic := 31
    routeKey := .ofNat _ routeKeyEpoch
    hmacKeys := [⟨0, List.replicate 32 0⟩]
    receiveCapability :=
      { schemaVersion := 1, environment := .dev, installationID := 8, accountIncarnationID := 6
        topicDigest := ⟨bytesOf 33 31⟩, aliasDay := utcDay start, routeAlias := 0
        policyEpoch := routeKeyEpoch, conversationGrantVersion := 1, rosterVersion := 1
        pushMode := .alertAllowed, issuedAt := some start, expiresAt := some (start + 30 * second)
        nonce := List.replicate 16 0, signingKeyID := [], signature := [] } }

/-- A complete replacement, with the generation as policy epoch. -/
def replacement (E : Bytes16) (generation : Nat) (subscriptions : List ReplaceSubscription) :
    ReplaceRequest :=
  { environment := .dev, installationBindingID := 9, sequencerEpoch := E
    subscriptionGeneration := generation, expectedSubscriptionGeneration := generation - 1
    idempotencyKey := .ofNat _ (1000 * E.toNat + 500 + generation), legacyInstallationID := 8
    accountIncarnationID := 6, apnsToken := 4, payloadSchema := .hytchPushWrapperV1
    policyControl := policy generation .active start, subscriptions := subscriptions
    requestHash := .ofNat _ (1000 * E.toNat + 800 + generation) }

def random : Bytes → LeaseDraw := fun _ => ⟨100, 0⟩

def routed : List Op :=
  boot ++ [.applyControl clock (control 70 1 1 .upsert), .applyWatermark clock (watermark 70 1 1),
    .replace clock random (replacement 70 1 [subscription 70 1 1 1]) keyset]

def gate6 : Store := { store with a9Enabled := false }

def refreshed : List Op :=
  [.beginSweep start, .finishSweep ⟨start, start, start⟩,
    .refresh ⟨start, start⟩ random (replacement 70 1 [subscription 70 1 1 1]).refresh]

end Sample

end NotificationServer
