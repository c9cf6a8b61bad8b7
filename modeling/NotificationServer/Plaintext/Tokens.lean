import NotificationServer.Vault.Basic
import NotificationServer.Lib.Relational
import NotificationServer.Lib.Transition
import Mathlib.Data.Option.Basic

/-!
# Device tokens of the plaintext path

`installations.go` with its queries, and the retirement of a token in
`deliveryDispatcher.send`.  A sender acts on a snapshot that `GetInstallations`
returned some time before, so registrations, deletions and the retirements of
other senders may come in between.
-/

namespace NotificationServer.Plaintext

open Relational

/-- A row of `installations`. -/
structure InstallationRecord where
  id : String
  deletedAt : Option Time
  payloadFormat : Int
  deriving DecidableEq

/-- A row of `device_delivery_mechanisms`; `id` is drawn from a sequence. -/
structure MechanismRow where
  id : Nat
  installationID : String
  kind : String
  token : String
  updatedAt : Time
  invalidatedAt : Option Time
  registrationVersion : Int
  deriving DecidableEq

def MechanismRow.key (d : MechanismRow) : String × String × String :=
  (d.installationID, d.kind, d.token)

/-- `ON CONFLICT DO UPDATE` of a registration. -/
def MechanismRow.renew (old new : MechanismRow) : MechanismRow :=
  { old with
    updatedAt := new.updatedAt, invalidatedAt := none
    registrationVersion := old.registrationVersion + 1 }

structure Tables where
  installations : List InstallationRecord
  mechanisms : List MechanismRow
  deriving DecidableEq

structure DeliveryMechanism where
  kind : String
  token : String
  updatedAt : Time
  registrationVersion : Int
  deriving DecidableEq

structure Installation where
  id : String
  deliveryMechanism : DeliveryMechanism
  payloadFormat : Int
  deriving DecidableEq

def Installation.key (i : Installation) : String × String × String :=
  (i.id, i.deliveryMechanism.kind, i.deliveryMechanism.token)

structure RegisterResponse where
  installationID : String
  validUntil : Time

/-- `delivery.ApnsRejection`, as far as `send` reads it. -/
structure ApnsRejection where
  invalidToken : Bool
  unregisteredAt : Time

def maxBigint : Int := 9223372036854775807

namespace Tables

variable (db : Tables)

def upsertInstallation (id : String) (payloadFormat : Int) : Tables :=
  { db with
    installations := upsert InstallationRecord.id
      (fun old new => { old with deletedAt := none, payloadFormat := new.payloadFormat })
      { id, deletedAt := none, payloadFormat } db.installations }

/-- `UpsertDeviceDeliveryMechanism`; PostgreSQL rejects a version past the column's range. -/
def upsertDeviceDeliveryMechanism (row : MechanismRow) : Option Tables :=
  if ∃ d ∈ db.mechanisms, d.key = row.key ∧ d.registrationVersion = maxBigint then none
  else some { db with mechanisms := upsert MechanismRow.key MechanismRow.renew row db.mechanisms }

/-- `Register` at `now`, `nextID` being the sequence's next value. -/
def register (installation : Installation) (now : Time) (nextID : Nat) :
    Option (RegisterResponse × Tables) := do
  let mechanism := installation.deliveryMechanism
  let updatedAt := if mechanism.updatedAt = zeroTime then now else mechanism.updatedAt
  let db := db.upsertInstallation installation.id (installation.payloadFormat.bmod 65536)
  let db ← db.upsertDeviceDeliveryMechanism
    { id := nextID, installationID := installation.id, kind := mechanism.kind
      token := mechanism.token, updatedAt, invalidatedAt := none, registrationVersion := 1 }
  pure ({ installationID := installation.id, validUntil := updatedAt }, db)

/-- `Delete`; it also deactivates subscriptions, which no token depends on. -/
def delete (installationID : String) (now : Time) : Tables :=
  { db with
    installations := updateWhere (fun i => i.id = installationID)
      (fun i => { i with deletedAt := some now }) db.installations }

/-- The lateral join of `GetLatestInstallations`: `ORDER BY updated_at DESC, id DESC LIMIT 1`. -/
def latest (installationID : String) : Option MechanismRow :=
  let rows := db.mechanisms.filter fun d => d.installationID = installationID
  rows.find? fun d => ∀ d' ∈ rows,
    d'.updatedAt < d.updatedAt ∨ d'.updatedAt = d.updatedAt ∧ d'.id ≤ d.id

/-- `GetInstallations`, up to the order of the rows. -/
def getInstallations (installationIDs : List String) : List Installation :=
  db.installations.filterMap fun i => do
    guard (i.id ∈ installationIDs ∧ i.deletedAt = none)
    let d ← db.latest i.id
    guard (d.invalidatedAt = none)
    pure { id := d.installationID, payloadFormat := i.payloadFormat
           deliveryMechanism :=
            { kind := d.kind, token := d.token, updatedAt := d.updatedAt
              registrationVersion := d.registrationVersion } }

/-- The condition of the statement `InvalidateDeliveryToken`; a zero time is passed as NULL. -/
def Invalidates (installation : Installation) (invalidBefore : Time) (d : MechanismRow) : Prop :=
  d.key = installation.key ∧ d.updatedAt = installation.deliveryMechanism.updatedAt ∧
    d.registrationVersion = installation.deliveryMechanism.registrationVersion ∧
    (invalidBefore = zeroTime ∨ d.updatedAt ≤ invalidBefore)
  deriving Decidable

def invalidateDeliveryToken (installation : Installation) (invalidBefore now : Time) : Tables :=
  if installation.id = "" ∨ installation.deliveryMechanism.token = "" ∨
      installation.deliveryMechanism.updatedAt = zeroTime ∨
      installation.deliveryMechanism.registrationVersion ≤ 0 then db
  else { db with
    mechanisms := updateWhere (Invalidates installation invalidBefore)
      (fun d => { d with invalidatedAt := some now }) db.mechanisms }

/-- What `send` does to the tables once its provider has answered; `rejection` is the
`ApnsRejection` in the provider's error, if there is one. -/
def send (installation : Installation) (rejection : Option ApnsRejection) (now : Time) : Tables :=
  match rejection with
  | none => db
  | some r =>
    if r.invalidToken = true ∧ r.unregisteredAt ≠ zeroTime then
      db.invalidateDeliveryToken installation r.unregisteredAt now
    else db

end Tables

/-- A transaction that commits; one that fails changes nothing, as a query does. -/
inductive Op
  | register (installation : Installation) (now : Time) (nextID : Nat)
  | delete (installationID : String) (now : Time)
  | getInstallations (installationIDs : List String)
  | send (installation : Installation) (rejection : Option ApnsRejection) (now : Time)

def Op.run (db db' : Tables) : Op → Prop
  | .register installation now nextID =>
    (∀ d ∈ db.mechanisms, d.id ≠ nextID) ∧ ∃ r, db.register installation now nextID = some (r, db')
  | .delete installationID now => db' = db.delete installationID now
  | .getInstallations _ => db' = db
  | .send installation rejection now => db' = db.send installation rejection now

def Op.Registers (key : String × String × String) : Op → Prop
  | .register installation _ _ => installation.key = key
  | _ => False

def Op.RegistersFor (id : String) : Op → Prop
  | .register installation _ _ => installation.id = id
  | _ => False

def system : Machine Tables Op where
  init db := db = ⟨[], []⟩
  step db op db' := op.run db db'

variable {db db' : Tables} {op : Op} {key : String × String × String} {version : Int}
  {installation : Installation} {rejection : Option ApnsRejection} {now : Time} {nextID : Nat}

theorem Tables.register_ok {r : RegisterResponse}
    (h : db.register installation now nextID = some (r, db')) :
    ∃ row : MechanismRow, row.key = installation.key ∧
      db'.mechanisms = upsert MechanismRow.key MechanismRow.renew row db.mechanisms := by
  obtain ⟨tables, htables, h⟩ := Option.bind_eq_some_iff.mp h
  unfold upsertDeviceDeliveryMechanism at htables
  obtain ⟨-, htables⟩ := Option.ite_none_left_eq_some.mp htables
  cases htables
  cases h
  exact ⟨_, rfl, rfl⟩

/-- A sender's retirement only marks rows that match its snapshot, at a time the provider gives. -/
theorem Tables.send_cases (db : Tables) (installation : Installation)
    (rejection : Option ApnsRejection) (now : Time) :
    db.send installation rejection now = db ∨
      ∃ r, rejection = some r ∧ r.unregisteredAt ≠ zeroTime ∧
        db.send installation rejection now = { db with
          mechanisms := updateWhere (Invalidates installation r.unregisteredAt)
            (fun d => { d with invalidatedAt := some now }) db.mechanisms } := by
  unfold send
  cases rejection with
  | none => exact .inl rfl
  | some r =>
    dsimp only
    split_ifs with htime
    · unfold invalidateDeliveryToken
      split_ifs
      · exact .inl rfl
      · exact .inr ⟨r, rfl, htime.2, rfl⟩
    · exact .inl rfl

/-- A retirement that changes the tables has found the row of its snapshot. -/
theorem exists_invalidates (h : db.send installation rejection now ≠ db) :
    ∃ r, ∃ d ∈ db.mechanisms, rejection = some r ∧ d.key = installation.key ∧
      d.updatedAt = installation.deliveryMechanism.updatedAt ∧
      d.registrationVersion = installation.deliveryMechanism.registrationVersion ∧
      d.updatedAt ≤ r.unregisteredAt := by
  rcases db.send_cases installation rejection now with heq | ⟨r, hr, hzero, heq⟩
  · exact absurd heq h
  by_contra hno
  have hrows : updateWhere (Tables.Invalidates installation r.unregisteredAt)
      (fun d => { d with invalidatedAt := some now }) db.mechanisms = db.mechanisms := by
    refine (List.map_congr_left fun d hd => if_neg fun hfence => hno ?_).trans (List.map_id' _)
    exact ⟨r, d, hd, hr, hfence.1, hfence.2.1, hfence.2.2.1, hfence.2.2.2.resolve_left hzero⟩
  rw [hrows] at heq
  exact h heq

theorem unique_of_reachable (h : system.Reachable db) : Unique MechanismRow.key db.mechanisms := by
  refine h.invariant (P := fun db => Unique MechanismRow.key db.mechanisms) (fun s hs => ?_)
    fun s op s' _ hu hstep => ?_
  · obtain rfl : s = ⟨[], []⟩ := hs
    exact unique_nil
  cases op with
  | register installation now nextID =>
    obtain ⟨-, r, hr⟩ := hstep
    obtain ⟨row, -, hrows⟩ := Tables.register_ok hr
    rw [hrows]
    exact hu.upsert fun _ _ _ => rfl
  | delete | getInstallations => rw [show s' = _ from hstep]; exact hu
  | send installation rejection now =>
    rw [show s' = _ from hstep]
    rcases s.send_cases installation rejection now with heq | ⟨r, -, -, heq⟩
    · rw [heq]
      exact hu
    · rw [heq]
      exact hu.updateWhere fun _ _ _ => rfl

def Tables.AtLeast (key : String × String × String) (version : Int) (db : Tables) : Prop :=
  (∃ d ∈ db.mechanisms, d.key = key) ∧
    ∀ d ∈ db.mechanisms, d.key = key → version ≤ d.registrationVersion

/-- No transaction lowers a version, and a registration of the token raises it. -/
theorem Tables.AtLeast.step (h : db.AtLeast key version) (hstep : op.run db db') :
    db'.AtLeast key version ∧ (op.Registers key → db'.AtLeast key (version + 1)) := by
  obtain ⟨⟨d0, hd0, hkey0⟩, hle⟩ := h
  cases op with
  | register installation now nextID =>
    obtain ⟨-, r, hr⟩ := hstep
    obtain ⟨row, hrow, hrows⟩ := register_ok hr
    have hstored : ∃ d ∈ db'.mechanisms, d.key = key := by
      rw [hrows]
      by_cases hk : d0.key = row.key
      · exact ⟨_, mem_upsert.mpr (.inl ⟨d0, hd0, hk, rfl⟩), hkey0⟩
      · exact ⟨d0, mem_upsert.mpr (.inr (.inl ⟨hd0, hk⟩)), hkey0⟩
    -- A row of the token is an old one or a renewed one: the token was stored before.
    have hcases : ∀ d ∈ db'.mechanisms, d.key = key → version ≤ d.registrationVersion ∧
        (row.key = key → version + 1 ≤ d.registrationVersion) := by
      intro d hd hk
      rw [hrows] at hd
      rcases mem_upsert.mp hd with ⟨a, ha, hak, rfl⟩ | ⟨hd, hne⟩ | ⟨rfl, hnew⟩
      · have hold := hle a ha hk
        have hnext : (a.renew row).registrationVersion = a.registrationVersion + 1 := rfl
        exact ⟨by omega, fun _ => by omega⟩
      · exact ⟨hle d hd hk, fun hrk => absurd (hk.trans hrk.symm) hne⟩
      · exact absurd (hkey0.trans hk.symm) (hnew d0 hd0)
    exact ⟨⟨hstored, fun d hd hk => (hcases d hd hk).1⟩,
      fun hreg => ⟨hstored, fun d hd hk => (hcases d hd hk).2 (hrow.trans hreg)⟩⟩
  | delete | getInstallations =>
    rw [show db' = _ from hstep]
    exact ⟨⟨⟨d0, hd0, hkey0⟩, hle⟩, False.elim⟩
  | send installation rejection now =>
    rw [show db' = _ from hstep]
    refine ⟨?_, False.elim⟩
    rcases db.send_cases installation rejection now with heq | ⟨r, -, -, heq⟩
    · rw [heq]
      exact ⟨⟨d0, hd0, hkey0⟩, hle⟩
    · rw [heq]
      refine ⟨?_, forall_mem_updateWhere hle fun d _ _ h => h⟩
      exact ⟨_, List.mem_map_of_mem hd0, by split <;> exact hkey0⟩

theorem Tables.AtLeast.path {s : Tables} (hpath : system.Path s db) (h : s.AtLeast key version) :
    db.AtLeast key version := by
  induction hpath with
  | refl => exact h
  | tail _ hstep ih => exact (ih.step hstep).1

theorem exists_of_mem_getInstallations {ids : List String}
    (h : installation ∈ db.getInstallations ids) :
    ∃ d ∈ db.mechanisms, d.key = installation.key ∧ d.invalidatedAt = none ∧
      db.latest installation.id = some d ∧
      d.registrationVersion = installation.deliveryMechanism.registrationVersion := by
  simp only [Tables.getInstallations, List.mem_filterMap, Option.bind_eq_bind,
    Option.bind_eq_some_iff, Option.guard_eq_some'] at h
  obtain ⟨i, -, -, -, d, hd, -, hval, h⟩ := h
  cases h
  have hmem := List.mem_of_find?_eq_some hd
  rw [List.mem_filter, decide_eq_true_eq] at hmem
  exact ⟨d, hmem.1, rfl, hval, by rw [show i.id = _ from hmem.2.symm] at hd; exact hd, rfl⟩

/-- The latest token of the installation is a retired one. -/
def Tables.LatestInvalid (id : String) (db : Tables) : Prop :=
  ∃ d, db.latest id = some d ∧ d.invalidatedAt.isSome

/-- Changes of other columns leave the choice of the latest row alone. -/
theorem Tables.latest_map {g : MechanismRow → MechanismRow} (id : String)
    (hg : ∀ d, (g d).installationID = d.installationID ∧ (g d).updatedAt = d.updatedAt ∧
      (g d).id = d.id) (hrows : db'.mechanisms = db.mechanisms.map g) :
    db'.latest id = (db.latest id).map g := by
  unfold latest
  rw [hrows, List.filter_map]
  simp only [Function.comp_def, hg, List.find?_map, List.forall_mem_map]

theorem Tables.LatestInvalid.step {id : String} (h : db.LatestInvalid id) (hstep : op.run db db')
    (hop : ¬ op.RegistersFor id) : db'.LatestInvalid id := by
  obtain ⟨d, hd, hinv⟩ := h
  cases op with
  | register installation now nextID =>
    obtain ⟨-, r, hr⟩ := hstep
    obtain ⟨row, hrow, hrows⟩ := register_ok hr
    have hoth : row.installationID ≠ id := fun h => hop ((congrArg Prod.fst hrow).symm.trans h)
    -- The rows of this installation are not among those the registration writes.
    have hfilter : db'.mechanisms.filter (fun d => d.installationID = id) =
        db.mechanisms.filter fun d => d.installationID = id := by
      rw [hrows]
      unfold upsert
      split_ifs
      · unfold updateWhere
        rw [List.filter_map]
        have hsame : ∀ d ∈ db.mechanisms.filter (fun d => d.installationID = id),
            d.key ≠ row.key := by
          intro d hd hk
          rw [List.mem_filter, decide_eq_true_eq] at hd
          exact hoth ((congrArg Prod.fst hk).symm.trans hd.2)
        rw [List.filter_congr (q := fun d => d.installationID = id) fun d _ => by
          dsimp only [Function.comp_apply]; split <;> rfl]
        rw [List.map_congr_left fun d hd => if_neg (hsame d hd), List.map_id']
      · exact List.filter_cons_of_neg (by simpa using hoth)
    refine ⟨d, ?_, hinv⟩
    unfold latest at hd ⊢
    rw [hfilter]
    exact hd
  | delete | getInstallations => rw [show db' = _ from hstep]; exact ⟨d, hd, hinv⟩
  | send installation rejection now =>
    rw [show db' = _ from hstep]
    rcases db.send_cases installation rejection now with heq | ⟨r, -, -, heq⟩
    · rw [heq]
      exact ⟨d, hd, hinv⟩
    · rw [heq]
      refine ⟨_, (latest_map id (fun d => ?_) rfl).trans (by rw [hd]; rfl), ?_⟩
      · split <;> exact ⟨rfl, rfl, rfl⟩
      · dsimp only
        split
        · rfl
        · exact hinv

theorem Tables.LatestInvalid.path {s : Tables} {id : String} (h : s.LatestInvalid id)
    (hpath : (system.restrict fun _ op _ => ¬ op.RegistersFor id).Path s db) :
    db.LatestInvalid id := by
  induction hpath with
  | refl => exact h
  | tail _ hstep ih => exact ih.step hstep.1 hstep.2

/-- A retirement takes effect only if the token was not registered again after the sender's
snapshot was read and the provider's time is not before the snapshot's registration.  Once the
latest token is retired, the installation has none until the next registration for it. -/
theorem send_fenced {s : Tables} (hs : system.Reachable s) :
    (∀ ids, ∀ snapshot ∈ s.getInstallations ids, ∀ t, system.Path s t → ∀ rejection now,
      t.send snapshot rejection now ≠ t →
        (∀ u op u', system.Path s u → system.step u op u' → system.Path u' t →
          ¬ op.Registers snapshot.key) ∧
        ∃ r, rejection = some r ∧ snapshot.deliveryMechanism.updatedAt ≤ r.unregisteredAt) ∧
    ∀ id, s.LatestInvalid id → ∀ t, (system.restrict fun _ op _ => ¬ op.RegistersFor id).Path s t →
        ∀ ids, ∀ i ∈ t.getInstallations ids, i.id ≠ id := by
  constructor
  · intro ids snapshot hsnap t hpath rejection now heffect
    obtain ⟨d, hd, hkey, -, -, hver⟩ := exists_of_mem_getInstallations hsnap
    have hold : s.AtLeast snapshot.key d.registrationVersion :=
      ⟨⟨d, hd, hkey⟩, fun d' hd' hk' => by
        have heq := (unique_of_reachable hs).eq_of_key_eq hd hd' (hkey.trans hk'.symm)
        exact Int.le_of_eq (congrArg _ heq)⟩
    obtain ⟨r, row, hrow, hr, hrowKey, htime, hversion, hbef⟩ := exists_invalidates heffect
    refine ⟨fun u op u' hu hstep hu' hreg => ?_, r, hr, ?_⟩
    · -- After a registration the stored version is above the snapshot's.
      have hnew := ((hold.path hu).step hstep).2 hreg |>.path hu'
      have hle := hnew.2 row hrow hrowKey
      omega
    · rw [← htime]
      exact hbef
  · intro id hinv t hpath ids i hi heq
    obtain ⟨d, -, -, hval, hlat, -⟩ := exists_of_mem_getInstallations hi
    obtain ⟨d', hd', hnone⟩ := hinv.path hpath
    rw [heq, hd'] at hlat
    cases hlat
    rw [hval] at hnone
    cases hnone

namespace Sample

def snapshot : Installation :=
  { id := "phone", payloadFormat := 1
    deliveryMechanism :=
      { kind := "apns", token := "t", updatedAt := 5, registrationVersion := 1 } }

def registered : Tables :=
  { installations := [{ id := "phone", deletedAt := none, payloadFormat := 1 }]
    mechanisms := [{ id := 1, installationID := "phone", kind := "apns", token := "t", updatedAt := 5
                     invalidatedAt := none, registrationVersion := 1 }] }

theorem registered_reachable : system.Reachable registered := by
  have hemp : system.Reachable ⟨[], []⟩ := .init rfl
  have hstep : system.step ⟨[], []⟩ (.register snapshot 5 1) registered := ⟨by simp, _, rfl⟩
  exact hemp.step hstep

end Sample

/-- The provider reports the token unregistered at time 7: it is retired, and the installation
stays without a token. -/
theorem send_fenced_sample :
    ∃ r : ApnsRejection, Sample.registered.send Sample.snapshot (some r) 9 ≠ Sample.registered ∧
      Sample.snapshot.deliveryMechanism.updatedAt ≤ r.unregisteredAt ∧
      ∀ t, (system.restrict fun _ op _ => ¬ op.RegistersFor "phone").Path
          (Sample.registered.send Sample.snapshot (some r) 9) t →
        ∀ ids, ∀ i ∈ t.getInstallations ids, i.id ≠ "phone" := by
  let r : ApnsRejection := { invalidToken := true, unregisteredAt := 7 }
  have heffect : Sample.registered.send Sample.snapshot (some r) 9 ≠ Sample.registered := by
    decide +kernel
  obtain ⟨-, r', hr', hle⟩ := (send_fenced Sample.registered_reachable).1 ["phone"] Sample.snapshot
    (by decide +kernel) _ (.refl _) (some r) 9 heffect
  cases hr'
  have hstep : system.step Sample.registered (.send Sample.snapshot (some r) 9)
      (Sample.registered.send Sample.snapshot (some r) 9) := rfl
  refine ⟨r, heffect, hle, (send_fenced (Sample.registered_reachable.step hstep)).2 "phone" ?_⟩
  exact ⟨_, rfl, rfl⟩

end NotificationServer.Plaintext
