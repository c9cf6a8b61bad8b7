import NotificationServer.Delivery.Attempt

/-!
# Installations of leases

`GetInstallations` (`routing.go`) turns the lease ids of recipients into the
tokens a message is sent to.
-/

namespace NotificationServer

/-- `interfaces.Installation`, as far as it depends on the vault; the token is hexadecimal there. -/
structure RoutedInstallation where
  id : Bytes16
  token : Bytes
  updatedAt : Time
  deriving DecidableEq

/-- The readings of `s.now()` in `GetInstallations`. -/
structure RoutingClock where
  checkedAt : Time
  now : Time
  checkedAgainAt : Time

/-- The query of `GetInstallations`. -/
def Db.routedInstallation (db : Db) (leaseID : Bytes16) (now : Time) : Option InstallationRow := do
  let lease ← db.leases.find? fun l => l.leaseID = leaseID
  let installation ← db.installations.find? fun i => i.installationLookup = lease.installationLookup
  guard (lease.state = .active ∧ now < lease.expiresAt ∧ now < lease.controlExpiresAt ∧
    installation.state = .active ∧ now < installation.expiresAt ∧
    now < installation.controlExpiresAt ∧ installation.policyEpoch = lease.policyEpoch)
  pure installation

namespace Store

variable (S : Store)

/-- The round of the loop for one lease id; `none` is an id that does not decode to 16 bytes. -/
def getInstallation (now : Time) (opaqueLeaseID : Option Bytes16) :
    VaultTx (Option RoutedInstallation) := do
  let leaseID ← expect opaqueLeaseID .storeUnavailable
  match ← query fun db => db.routedInstallation leaseID now with
  | none => pure none
  | some i => do
    let encryptedToken ← expect i.encryptedAPNSToken .storeUnavailable
    let token ← expect (S.encryption.openValue (.installation i.installationLookup .apnsToken)
      encryptedToken) .storeUnavailable
    pure (some { id := leaseID, token := token, updatedAt := i.refreshedAt })

def getInstallations (clock : RoutingClock) (opaqueLeaseIDs : List (Option Bytes16)) :
    VaultTx (List RoutedInstallation) :=
  if opaqueLeaseIDs = [] then pure []
  else Tx.mapError (fun _ => .storeUnavailable) do
    S.requireRetentionSafeTx clock.checkedAt
    S.requireRetentionSafeTx clock.checkedAgainAt
    let found ← Tx.collect opaqueLeaseIDs (S.getInstallation clock.now)
    pure (found.filterMap id)

end Store

end NotificationServer
