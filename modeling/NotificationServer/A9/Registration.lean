import NotificationServer.A9.Replace
import NotificationServer.Gate6.Policy

/-!
# Token registration and keyset updates

`RegisterVerified` (`a10_registration.go`) replaces the token of an installation
whose A9 authority is current; `a10_registration_bindings`, which can only make
it fail, is left out.  The keyset updates (`db/a9_store.go`) append an accepted
keyset with its descriptors and move the row of `a9_keyset_state`; which
candidate keysets are accepted is not modelled.
-/

namespace NotificationServer

open Relational

inductive KeysetUpdate
  | accept (keyset : AcceptedKeysetRow) (online : List OnlineKeyRow)
      (commitment : List CommitmentKeyRow) (refreshedAt : Time)
  | refresh (refreshedAt : Time)
  | latch (reason : Nat) (refreshedAt : Time)

def KeysetUpdate.refreshedAt : KeysetUpdate → Time
  | .accept _ _ _ t | .refresh t | .latch _ t => t

namespace Db

/-- The authority row and installation row `registerOnce` selects. -/
def RegistrationCurrent (db : Db) (installation : Bytes16) (dbNow : Time) (a : AuthorityRow)
    (i : InstallationRow) : Prop :=
  a.state = .active ∧ a.uncertaintyReason = .none ∧
  (∃ w ∈ a.watermark, w.status = .current ∧ w.committedThrough = a.contiguousStreamSequence ∧
    dbNow < w.expiresAt ∧
    ∃ k ∈ db.keysetState, k.current = true ∧ ∃ r ∈ k.accepted, r.1 = w.keyset ∧ dbNow < r.2) ∧
  i.state = .active ∧ dbNow < i.expiresAt ∧ dbNow < i.controlExpiresAt ∧
  ∃ b ∈ db.gate6Bindings, b.installationBindingID = installation ∧
    b.installationIdentity = i.installationIdentity
  deriving Decidable

def keysetStateAfter (db : Db) : KeysetUpdate → Option KeysetStateRow
  | .accept k _ _ t =>
    some { accepted := some (k.keyset, k.expiresAt), current := true, uncertaintyReason := 0
           refreshedAt := t }
  | .refresh t => db.keysetState.map fun k => { k with refreshedAt := t }
  | .latch reason t =>
    some { accepted := db.keysetState.bind fun k => k.accepted, current := false
           uncertaintyReason := reason, refreshedAt := t }

def updateKeyset (u : KeysetUpdate) (db : Db) : Db :=
  match u with
  | .accept k online commitment _ =>
    { db with
      acceptedKeysets := k :: db.acceptedKeysets, onlineKeys := online ++ db.onlineKeys
      commitmentKeys := commitment ++ db.commitmentKeys, keysetState := db.keysetStateAfter u }
  | .refresh _ | .latch _ _ => { db with keysetState := db.keysetStateAfter u }

end Db

namespace Store

variable (S : Store)

def updateKeysetTx (u : KeysetUpdate) : VaultTx Unit := do
  let state ← query fun db => db.keysetState
  Tx.require (∀ k ∈ state, k.current = true) .database
  exec (Db.updateKeyset u)

/-- The token `registerOnce` writes, if it differs from the stored one. -/
def replaceTokenTx (markedAt : Time) (token : Bytes) (i : InstallationRow) : VaultTx Unit := do
  markDeliveryJobsSafetyForInstallationTx markedAt i.installationLookup
  exec fun db => db.updateInstallation i.installationLookup fun r =>
    { r with
      encryptedAPNSToken := some (S.encryption.sealValue
        (.installation i.installationLookup .apnsToken) token)
      encryptionKeyVersion := S.encryption.activeVersionColumn }

def registerOnce (clock : Clock) (installation : Bytes16) (installationID : Bytes32)
    (token : Bytes) : VaultTx Unit := do
  S.requireRetentionSafeTx clock.host
  let authority ← query fun db => db.authority installation
  let a ← expect authority .storeUnavailable
  let identity := S.installationDeletionIdentity installationID
  let row ← query fun db => db.installations.find? fun i => i.installationIdentity = identity
  let i ← expect row .storeUnavailable
  let current ← query fun db => decide (db.RegistrationCurrent installation clock.db a i)
  Tx.require (current = true) .storeUnavailable
  let changed ← S.apnsTokenChanged token i
  Tx.when (changed = true) (S.replaceTokenTx clock.host token i)

def registerVerified (clock : Clock) (installation : Bytes16) (installationID : Bytes32)
    (token : Bytes) : VaultTx Unit :=
  Tx.mapError (fun _ => .storeUnavailable) do
    Tx.require (Between 1 256 token.length) .storeUnavailable
    S.registerOnce clock installation installationID token

end Store

end NotificationServer
