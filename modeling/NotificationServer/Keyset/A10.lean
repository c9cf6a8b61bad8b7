import NotificationServer.Keyset.History

/-!
# The A10 keyset store

`AcceptA10Keyset` (`db/a10_store.go`): a second keyset stream with its own
tables.  It has no rotation check and no latch but the one a conflicting
candidate sets; a candidate that does not validate never reaches the database.
-/

namespace NotificationServer.Keyset.A10

open Relational Trust Tx

/-- `a10_accepted_keysets`. -/
structure AcceptedRow where
  keysetSequence : Nat
  signedKeysetHash : Bytes32
  signedKeysetJCS : Bytes
  issuedAt : Time
  expiresAt : Time
  deriving DecidableEq

/-- `a10_keyset_state`; `uncertainty_reason` is 1 exactly when the row is uncertain. -/
structure StateRow where
  keysetSequence : Nat
  signedKeysetHash : Bytes32
  state : Status
  uncertaintyReason : Nat
  expiresAt : Time
  refreshedAt : Time
  deriving DecidableEq

/-- The rows of one environment; the table of keysets lists the latest row first. -/
structure Tables where
  accepted : List AcceptedRow
  state : Option StateRow
  deriving DecidableEq

/-- The constraints of migration 00013 on the keyset tables. -/
@[mk_iff]
structure Tables.Constraints (db : Tables) : Prop where
  accepted_key : Unique (fun k => k.keysetSequence) db.accepted
  accepted_hash : Unique (fun k => k.signedKeysetHash) db.accepted
  accepted_shape : ∀ k ∈ db.accepted, (1 ≤ k.keysetSequence ∧ k.keysetSequence ≤ maxSafeInteger) ∧
    k.issuedAt < k.expiresAt
  state_keyset : References (fun r => some (r.keysetSequence, r.signedKeysetHash)) db.state.toList
    (fun k => (k.keysetSequence, k.signedKeysetHash)) db.accepted
  state_shape : ∀ r ∈ db.state.toList, (1 ≤ r.keysetSequence ∧ r.keysetSequence ≤ maxSafeInteger) ∧
    r.uncertaintyReason = if r.state = .current then 0 else 1

instance (db : Tables) : Decidable db.Constraints := decidable_of_iff' _ db.constraints_iff

abbrev KeysetTx := Tx Tables StoreError

def statement (f : Tables → Tables) : KeysetTx Unit := Tx.change Tables.Constraints f .unavailable

structure AcceptedKeyset where
  environment : String
  sequence : Nat
  objectHash : String
  canonicalSignedObject : Bytes
  issuedAt : Time
  expiresAt : Time

/-- `validateA10Candidate`: the hash of the signed bytes, if the candidate states it. -/
def validateA10Candidate (P : Primitives) (c : AcceptedKeyset) : Option Bytes32 := do
  guard ((a9EnvironmentID c.environment).isSome ∧ c.sequence ≠ 0 ∧ c.sequence ≤ maxSafeInteger ∧
    c.canonicalSignedObject ≠ [] ∧ c.issuedAt ≠ zeroTime ∧ c.issuedAt < c.expiresAt)
  let hash ← decodeA9LowerHex c.objectHash ""
  guard (hash = P.sha256 c.canonicalSignedObject)
  some hash

def scanA10KeysetState (environment : String) (row : StateRow) : Option KeysetState :=
  if row.keysetSequence < 1 ∨ maxSafeInteger < row.keysetSequence then none
  else some
    { environment := environment, sequence := row.keysetSequence
      objectHash := hexEncode row.signedKeysetHash, expiresAt := row.expiresAt
      uncertain := row.state = .uncertain }

/-- The SELECT of `acceptA10KeysetOnce`; `none` is `sql.ErrNoRows`. -/
def readA10KeysetState (environment : String) : KeysetTx (Option KeysetState) := fun db =>
  match db.state with
  | none => .ok (none, db)
  | some row =>
    match scanA10KeysetState environment row with
    | none => .error .unavailable
    | some current => .ok (some current, db)

def AcceptedKeyset.row (c : AcceptedKeyset) (hash : Bytes32) : AcceptedRow :=
  { keysetSequence := c.sequence, signedKeysetHash := hash
    signedKeysetJCS := c.canonicalSignedObject, issuedAt := c.issuedAt, expiresAt := c.expiresAt }

def AcceptedRow.stateRow (k : AcceptedRow) (now : Time) : StateRow :=
  { keysetSequence := k.keysetSequence, signedKeysetHash := k.signedKeysetHash, state := .current
    uncertaintyReason := 0, expiresAt := k.expiresAt, refreshedAt := now }

/-- The columns `ON CONFLICT DO UPDATE` sets; `state` and `uncertainty_reason` stay. -/
def StateRow.advanced (k : AcceptedRow) (now : Time) (r : StateRow) : StateRow :=
  { r with
    keysetSequence := k.keysetSequence, signedKeysetHash := k.signedKeysetHash
    expiresAt := k.expiresAt, refreshedAt := now }

/-- `INSERT INTO a10_keyset_state … ON CONFLICT DO UPDATE … WHERE state = 1`; `none` is a row that
the WHERE clause skips. -/
def upsertState (k : AcceptedRow) (now : Time) (row : Option StateRow) : Option StateRow :=
  match row with
  | none => some (k.stateRow now)
  | some r => if r.state = .current then some (r.advanced k now) else none

/-- The two INSERTs of `acceptA10KeysetOnce`. -/
def appendA10KeysetTx (now : Time) (k : AcceptedRow) : KeysetTx Unit := do
  statement fun db => { db with accepted := k :: db.accepted }
  let row ← Tx.read fun db => db.state
  Tx.require (upsertState k now row).isSome .unavailable
  statement fun db => { db with state := upsertState k now db.state }

/-- The UPDATE that latches a conflict; it has to find the current row. -/
def latchA10KeysetStateTx (now : Time) : KeysetTx Unit := do
  let row ← Tx.read fun db => db.state
  Tx.require (∃ r ∈ row.toList, r.state = .current) .unavailable
  statement fun db =>
    { db with
      state := db.state.map fun r =>
        { r with state := .uncertain, uncertaintyReason := 1, refreshedAt := now } }

def refreshA10KeysetStateTx (now : Time) : KeysetTx Unit :=
  statement fun db =>
    { db with
      state := db.state.map fun r => if r.state = .current then { r with refreshedAt := now } else r }

def acceptA10KeysetOnce (now : Time) (c : AcceptedKeyset) (hash : Bytes32) :
    KeysetTx Acceptance := do
  let found ← readA10KeysetState c.environment
  match found with
  | none => do
    appendA10KeysetTx now (c.row hash)
    pure (.accepted
      { environment := c.environment, sequence := c.sequence, objectHash := c.objectHash
        expiresAt := c.expiresAt, uncertain := false })
  | some current =>
    if current.uncertain then pure (.rejected (some current))
    else if c.sequence < current.sequence ∨ (c.sequence = current.sequence ∧
        (c.objectHash ≠ current.objectHash ∨ c.expiresAt ≠ current.expiresAt)) then do
      latchA10KeysetStateTx now
      pure (.rejected (some { current with uncertain := true }))
    else if c.sequence = current.sequence then do
      refreshA10KeysetStateTx now
      pure (.accepted current)
    else do
      appendA10KeysetTx now (c.row hash)
      pure (.accepted
        { environment := c.environment, sequence := c.sequence, objectHash := c.objectHash
          expiresAt := c.expiresAt, uncertain := false })

def acceptA10Keyset (P : Primitives) (now : Time) (c : AcceptedKeyset) : KeysetTx Acceptance :=
  match validateA10Candidate P c with
  | none => pure (.rejected none)
  | some hash => acceptA10KeysetOnce now c hash

structure KeysetEvent where
  candidate : AcceptedKeyset
  now : Time
  outcome : Acceptance

def a10Keysets (P : Primitives) (environment : Environment) : Machine Tables KeysetEvent where
  init s := s = ⟨[], none⟩
  step s e s' := e.candidate.environment = environmentText environment ∧
    acceptA10Keyset P e.now e.candidate s = .ok (e.outcome, s')

def Tables.Consistent (s : Tables) : Prop :=
  match s.state with
  | none => s.accepted = []
  | some row => ∃ k, s.accepted.head? = some k ∧ row.keysetSequence = k.keysetSequence ∧
    row.signedKeysetHash = k.signedKeysetHash

inductive Effect (s s' : Tables) : Prop
  | stay : s' = s → Effect s s'
  | refresh (row : StateRow) (now : Time) : s.state = some row → row.state = .current →
      s' = { s with state := some { row with refreshedAt := now } } → Effect s s'
  | latch (row : StateRow) (now : Time) : s.state = some row → row.state = .current → s' = { s with
        state := some { row with state := .uncertain, uncertaintyReason := 1, refreshedAt := now } } →
      Effect s s'
  | append (k : AcceptedRow) (row : StateRow) : (∀ row ∈ s.state, row.state = .current) →
      (∀ p ∈ s.accepted.head?, p.keysetSequence < k.keysetSequence) →
      row.state = .current → row.keysetSequence = k.keysetSequence →
      row.signedKeysetHash = k.signedKeysetHash →
      s' = ⟨k :: s.accepted, some row⟩ → Effect s s'

/-- A keyset with the sequence and the hash of a candidate is stored. -/
def Tables.Records (s : Tables) (c : AcceptedKeyset) : Prop :=
  ∃ k ∈ s.accepted, k.keysetSequence = c.sequence ∧ hexEncode k.signedKeysetHash = c.objectHash

section Transactions

variable {P : Primitives} {s s' : Tables} {now : Time} {c : AcceptedKeyset}

@[simp] theorem statement_ok {f : Tables → Tables} {u : Unit} :
    statement f s = .ok (u, s') ↔ (f s).Constraints ∧ f s = s' := change_ok

theorem readA10KeysetState_ok {environment : String} {found : Option KeysetState}
    (h : readA10KeysetState environment s = .ok (found, s')) :
    s' = s ∧ ((s.state = none ∧ found = none) ∨ ∃ row current, s.state = some row ∧
      found = some current ∧ current.sequence = row.keysetSequence ∧
      current.objectHash = hexEncode row.signedKeysetHash ∧
      (current.uncertain = true ↔ row.state = .uncertain)) := by
  unfold readA10KeysetState at h
  cases hrow : s.state with
  | none =>
    simp only [hrow, Except.ok.injEq, Prod.mk.injEq] at h
    exact ⟨h.2.symm, .inl ⟨rfl, h.1.symm⟩⟩
  | some row =>
    simp only [hrow] at h
    unfold scanA10KeysetState at h
    split at h
    · cases h
    next current hscan =>
    simp only [Except.ok.injEq, Prod.mk.injEq] at h
    split at hscan
    · cases hscan
    · cases hscan
      exact ⟨h.2.symm, .inr ⟨row, _, rfl, h.1.symm, rfl, rfl, decide_eq_true_iff⟩⟩

theorem appendA10KeysetTx_ok {k : AcceptedRow} {u : Unit}
    (h : appendA10KeysetTx now k s = .ok (u, s')) :
    (∀ row ∈ s.state, row.state = .current) ∧ ∃ row, row.state = .current ∧
      row.keysetSequence = k.keysetSequence ∧ row.signedKeysetHash = k.signedKeysetHash ∧
      s' = ⟨k :: s.accepted, some row⟩ := by
  simp only [appendA10KeysetTx, bind_ok, read_ok, require_ok, statement_ok] at h
  obtain ⟨_, _, ⟨-, rfl⟩, _, _, ⟨rfl, rfl⟩, _, _, ⟨hsome, rfl⟩, -, rfl⟩ := h
  cases hrow : s.state with
  | none => exact ⟨by simp, k.stateRow now, rfl, rfl, rfl, by simp [upsertState]⟩
  | some r =>
    simp only [hrow, upsertState] at hsome ⊢
    split at hsome
    · next hcur =>
      rw [if_pos hcur]
      exact ⟨fun row hmem => Option.some.inj hmem ▸ hcur, r.advanced k now, hcur, rfl, rfl, rfl⟩
    · cases hsome

theorem latchA10KeysetStateTx_ok {u : Unit} (h : latchA10KeysetStateTx now s = .ok (u, s')) :
    Effect s s' := by
  simp only [latchA10KeysetStateTx, bind_ok, read_ok, require_ok, statement_ok] at h
  obtain ⟨_, _, ⟨rfl, rfl⟩, _, _, ⟨⟨row, hrow, hcur⟩, rfl⟩, -, rfl⟩ := h
  have hst : s.state = some row := Option.mem_toList.mp hrow
  exact .latch row now hst hcur (by simp [hst])

/-- What `acceptA10KeysetOnce` does, and that what it accepts is stored. -/
theorem acceptA10KeysetOnce_effect {hash : Bytes32} {outcome : Acceptance} (hs : s.Consistent)
    (hhash : hexEncode hash = c.objectHash)
    (h : acceptA10KeysetOnce now c hash s = .ok (outcome, s')) :
    Effect s s' ∧ ∀ state, outcome = .accepted state → s'.Records c := by
  simp only [acceptA10KeysetOnce, bind_ok] at h
  obtain ⟨found, s1, hread, h⟩ := h
  obtain ⟨rfl, ⟨hnone, rfl⟩ | ⟨row, current, hrow, rfl, hsequence, hobj, hunc⟩⟩ :=
    readA10KeysetState_ok hread
  · -- The first keyset of the environment.
    simp only [bind_ok, pure_ok] at h
    obtain ⟨_, s2, happend, rfl, rfl⟩ := h
    obtain ⟨hcur, row, hst, hseq, hrowhash, rfl⟩ := appendA10KeysetTx_ok happend
    have hemp : s1.accepted = [] := by simpa only [Tables.Consistent, hnone] using hs
    exact ⟨.append (c.row hash) row hcur (by simp [hemp]) hst hseq hrowhash rfl,
      fun _ _ => ⟨c.row hash, .head _, rfl, hhash⟩⟩
  rcases ite_ok.mp h with ⟨-, h⟩ | ⟨hcertain, h⟩
  · obtain ⟨rfl, rfl⟩ := pure_ok.mp h
    exact ⟨.stay rfl, fun _ h => by cases h⟩
  have hcur : row.state = .current := by
    cases hst : row.state with
    | current => rfl
    | uncertain => exact absurd (hunc.mpr hst) hcertain
  simp only [Tables.Consistent, hrow] at hs
  obtain ⟨p, hhead, hseq, hrowhash⟩ := hs
  rcases ite_ok.mp h with ⟨-, h⟩ | ⟨hroll, h⟩
  · simp only [bind_ok, pure_ok] at h
    obtain ⟨_, s2, hlatch, rfl, rfl⟩ := h
    exact ⟨latchA10KeysetStateTx_ok hlatch, fun _ h => by cases h⟩
  push Not at hroll
  rcases ite_ok.mp h with ⟨hequal, h⟩ | ⟨hdiffer, h⟩
  · -- The keyset that is current already.
    simp only [bind_ok, pure_ok, refreshA10KeysetStateTx, statement_ok] at h
    obtain ⟨_, s2, ⟨-, rfl⟩, rfl, rfl⟩ := h
    refine ⟨.refresh row now hrow hcur (by simp [hrow, hcur]), fun _ _ =>
      ⟨p, List.mem_of_head? hhead, ?_, ?_⟩⟩
    · rw [← hseq, ← hsequence, hequal]
    · rw [← hrowhash, ← hobj, (hroll.2 hequal).1]
  · -- The next keyset.
    simp only [bind_ok, pure_ok] at h
    obtain ⟨_, s2, happend, rfl, rfl⟩ := h
    obtain ⟨hall, row', hst', hseq', hrowhash', rfl⟩ := appendA10KeysetTx_ok happend
    have hlat : ∀ q ∈ s1.accepted.head?, q.keysetSequence < (c.row hash).keysetSequence := by
      intro q hq
      obtain rfl : p = q := Option.mem_unique hhead hq
      have hle := hroll.1
      change p.keysetSequence < c.sequence
      omega
    exact ⟨.append (c.row hash) row' hall hlat hst' hseq' hrowhash' rfl,
      fun _ _ => ⟨c.row hash, .head _, rfl, hhash⟩⟩

theorem acceptA10Keyset_effect {outcome : Acceptance} (hs : s.Consistent)
    (h : acceptA10Keyset P now c s = .ok (outcome, s')) :
    Effect s s' ∧ ∀ state, outcome = .accepted state → s'.Records c := by
  unfold acceptA10Keyset at h
  cases hv : validateA10Candidate P c with
  | none =>
    simp only [hv, pure_ok] at h
    obtain ⟨rfl, rfl⟩ := h
    exact ⟨.stay rfl, fun _ h => by cases h⟩
  | some hash =>
    simp only [hv] at h
    have hdec := hv
    simp only [validateA10Candidate, Option.bind_eq_bind, Option.bind_eq_some_iff,
      Option.guard_eq_some', exists_const, Option.some.injEq] at hdec
    obtain ⟨-, hash', hdec, -, rfl⟩ := hdec
    exact acceptA10KeysetOnce_effect hs (decodeA9LowerHex_eq_some hdec) h

end Transactions

/-- The accepted keysets, and the state row once it is uncertain. -/
def Tables.fence (s : Tables) : Fence AcceptedRow StateRow :=
  .behind s.accepted s.state fun row => row.state = .uncertain

section Refinement

variable {P : Primitives} {E : Environment} {s s' : Tables}

theorem Effect.consistent (h : Effect s s') (hs : s.Consistent) : s'.Consistent := by
  cases h with
  | stay heq => exact heq ▸ hs
  | refresh row now hrow _ heq | latch row now hrow _ heq =>
    subst heq
    simp only [Tables.Consistent, hrow] at hs ⊢
    exact hs
  | append k row _ _ _ hseq hhash heq =>
    subst heq
    exact ⟨k, rfl, hseq, hhash⟩

theorem Effect.fence_step (h : Effect s s') :
    Fence.Step (fun k => k.keysetSequence) (fun _ _ => True) s.fence s'.fence := by
  have hopen : ∀ {row : StateRow}, s.state = some row → row.state = .current →
      ∀ r ∈ s.state, ¬ r.state = .uncertain := by
    rintro row hrow hcur r hr
    obtain rfl : row = r := Option.mem_unique hrow hr
    simp [hcur]
  cases h with
  | stay heq =>
    rw [heq]
    exact .stay _
  | refresh row now hrow hcur heq =>
    subst heq
    exact .of_open (hopen hrow hcur) (by simp [hcur])
  | latch row now hrow hcur heq =>
    subst heq
    exact .of_closing (hopen hrow hcur) rfl
  | append k row hcur hlat hrow _ _ heq =>
    subst heq
    refine .of_append (fun r hr => ?_) (by simp [hrow]) fun p hp => ⟨hlat p hp, trivial⟩
    simp [hcur r hr]

theorem reachable_consistent (hs : (a10Keysets P E).Reachable s) : s.Consistent := by
  induction hs with
  | init hinit =>
    obtain rfl : _ = (⟨[], none⟩ : Tables) := hinit
    rfl
  | step _ hst ih => exact (acceptA10Keyset_effect ih hst.2).1.consistent ih

theorem a10Keysets_refines (P : Primitives) (E : Environment) :
    (a10Keysets P E).Refines (fun k => k.keysetSequence) (fun _ _ => True) Tables.fence where
  init s hinit := by
    obtain rfl : s = (⟨[], none⟩ : Tables) := hinit
    rfl
  step s e s' hs hst := (acceptA10Keyset_effect (reachable_consistent hs) hst.2).1.fence_step

/-- `keyset_sequence` of the state row; no row counts as 0. -/
def Tables.sequence (s : Tables) : Nat := (s.state.map fun row => row.keysetSequence).getD 0

theorem Tables.Consistent.sequence (hs : s.Consistent) :
    s.sequence = Fence.level (fun k => k.keysetSequence) s.fence.log := by
  unfold Tables.Consistent at hs
  refine Fence.level_of_row (fun hnone => ?_) fun row hrow => ?_
  · simp only [hnone] at hs
    exact hs
  · simp only [Option.mem_def.mp hrow] at hs
    obtain ⟨k, hhead, hseq, -⟩ := hs
    simp [Tables.fence, Fence.behind, Fence.level, hhead, hseq]

end Refinement

end NotificationServer.Keyset.A10
