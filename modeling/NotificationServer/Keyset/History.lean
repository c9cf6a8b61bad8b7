import NotificationServer.Keyset.Store
import NotificationServer.Lib.Fence

/-!
# The history of an A9 keyset store

Every committed transaction appends one keyset, sets the latch or leaves both
alone, whichever replica ran it and in whatever order: the store refines an
append-only log behind a latch.  The state row always describes the latest entry.
-/

namespace NotificationServer.Keyset

open Relational Trust Tx

section Statements

variable {s s' : Tables} {environment : String} {now : Time} {current : KeysetState} {u : Unit}

@[simp] theorem statement_ok {f : Tables → Tables} :
    statement f s = .ok (u, s') ↔ (f s).Constraints ∧ f s = s' := change_ok

theorem statement_keeps {γ : Type} {g : Tables → γ} {f : Tables → Tables}
    (hf : ∀ s, g (f s) = g s) : Keeps g (statement f) := Moves.change hf

/-- What a scanned row says about the state row it was read from. -/
structure Scanned (row : StateRow) (canonical : Option Bytes) (current : KeysetState)
    (jcs : Bytes) : Prop where
  sequence : current.sequence = row.keysetSequence
  uncertain : current.uncertain = true ↔ row.state = .uncertain
  keyset : row.state = .current → ∃ hash, row.signedKeysetHash = some hash ∧
    current.objectHash = hexEncode hash ∧ row.expiresAt = some current.expiresAt ∧
    canonical = some jcs

theorem scanA9KeysetState_eq_some {row : StateRow} {canonical : Option Bytes} {jcs : Bytes}
    (h : scanA9KeysetState environment row canonical = some (current, jcs)) :
    Scanned row canonical current jcs := by
  unfold scanA9KeysetState at h
  split at h
  · cases h
  split at h
  · next hzero =>
    split at h
    · next hrow =>
      simp only [Option.some.injEq, Prod.mk.injEq] at h
      obtain ⟨rfl, rfl⟩ := h
      refine ⟨hzero.symm, by simp [hrow.1], fun hcur => ?_⟩
      rw [hrow.1] at hcur
      cases hcur
    · cases h
  · split at h
    · next _ _ _ hash expiresAt jcs' hhash hexp =>
      split at h
      · cases h
      · simp only [Option.some.injEq, Prod.mk.injEq] at h
        obtain ⟨rfl, rfl⟩ := h
        exact ⟨rfl, decide_eq_true_iff, fun _ => ⟨hash, hhash, rfl, hexp, rfl⟩⟩
    · cases h

theorem readA9KeysetStateForUpdate_ok {found : Option (KeysetState × Bytes)}
    (h : readA9KeysetStateForUpdate environment s = .ok (found, s')) :
    s' = s ∧ ((s.state = none ∧ found = none) ∨ ∃ row current jcs, s.state = some row ∧
      found = some (current, jcs) ∧ Scanned row (s.canonicalOf row) current jcs) := by
  unfold readA9KeysetStateForUpdate at h
  cases hrow : s.state with
  | none =>
    simp only [hrow, Except.ok.injEq, Prod.mk.injEq] at h
    exact ⟨h.2.symm, .inl ⟨rfl, h.1.symm⟩⟩
  | some row =>
    simp only [hrow] at h
    cases hscan : scanA9KeysetState environment row (s.canonicalOf row) with
    | none => simp [hscan] at h
    | some found' =>
      obtain ⟨current, jcs⟩ := found'
      simp only [hscan, Except.ok.injEq, Prod.mk.injEq] at h
      exact ⟨h.2.symm, .inr ⟨row, current, jcs, rfl, h.1.symm, scanA9KeysetState_eq_some hscan⟩⟩

theorem latchA9KeysetStateTx_ok {reason : Reason}
    (h : latchA9KeysetStateTx now reason s = .ok (u, s')) :
    ∃ row, s.state = some row ∧ row.state = .current ∧
      s' = { s with state := some (row.latched reason now) } := by
  simp only [latchA9KeysetStateTx, bind_ok, read_ok, require_ok, statement_ok] at h
  obtain ⟨_, _, ⟨rfl, rfl⟩, _, _, ⟨⟨row, hrow, hcur⟩, rfl⟩, -, rfl⟩ := h
  have hst : s.state = some row := Option.mem_toList.mp hrow
  exact ⟨row, hst, hcur, by simp [hst]⟩

theorem refreshA9KeysetStateTx_ok (h : refreshA9KeysetStateTx now current s = .ok (u, s')) :
    ∃ row, s.state = some row ∧ row.state = .current ∧
      s' = { s with state := some { row with refreshedAt := now } } := by
  simp only [refreshA9KeysetStateTx, bind_ok, read_ok, require_ok, statement_ok] at h
  obtain ⟨_, _, ⟨rfl, rfl⟩, _, _, ⟨⟨row, hrow, hsele⟩, rfl⟩, -, rfl⟩ := h
  have hst : s.state = some row := Option.mem_toList.mp hrow
  exact ⟨row, hst, hsele.2.2.2, by simp [hst]⟩

theorem setA9KeysetStateTx_ok {k : AcceptedRow} {state : Option KeysetState}
    (h : setA9KeysetStateTx now k state s = .ok (u, s')) :
    s'.accepted = s.accepted ∧ s'.state = some (k.stateRow now) := by
  cases state with
  | _ =>
    simp only [setA9KeysetStateTx, bind_ok, read_ok, require_ok, statement_ok] at h
    obtain ⟨_, _, ⟨-, rfl⟩, _, _, ⟨-, rfl⟩, -, rfl⟩ := h
    exact ⟨rfl, rfl⟩

theorem appendA9KeysetTx_ok {c : AcceptedKeyset} {v : ValidatedCandidate}
    {state : Option KeysetState} (h : appendA9KeysetTx now c v state s = .ok (u, s')) :
    s'.accepted = c.row v :: s.accepted ∧ s'.state = some ((c.row v).stateRow now) := by
  simp only [appendA9KeysetTx, bind_ok] at h
  obtain ⟨_, s1, h1, _, s2, h2, _, s3, h3, h4⟩ := h
  have hinsert : s1.accepted = c.row v :: s.accepted := by rw [← (statement_ok.mp h1).2]
  -- The descriptors go to their own tables.
  have honl : Keeps (fun s : Tables => s.accepted) (Tx.forEach v.online fun key =>
      statement fun db => { db with online := key :: db.online }) :=
    .forEach fun _ _ => statement_keeps fun _ => rfl
  have hcomm : Keeps (fun s : Tables => s.accepted) (Tx.forEach v.commitments fun key =>
      statement fun db => { db with commitments := key :: db.commitments }) :=
    .forEach fun _ _ => statement_keeps fun _ => rfl
  obtain ⟨hacc, hst⟩ := setA9KeysetStateTx_ok h4
  refine ⟨?_, hst⟩
  calc s'.accepted = s3.accepted := hacc
    _ = s2.accepted := hcomm _ _ _ h3
    _ = s1.accepted := honl _ _ _ h2
    _ = c.row v :: s.accepted := hinsert

end Statements

def Tables.Consistent (s : Tables) : Prop :=
  match s.state with
  | none => s.accepted = []
  | some row =>
    row.keysetSequence = Fence.level (fun k : AcceptedRow => k.keysetSequence) s.accepted ∧
    row.signedKeysetHash = s.accepted.head?.map (fun k => k.signedKeysetHash) ∧
    row.expiresAt = s.accepted.head?.map fun k => k.expiresAt

/-- One accepted keyset may come after another: the stored bytes of both pass the rotation check. -/
def Follows (P : Primitives) (older newer : AcceptedRow) : Prop :=
  ∃ previous object, P.parseA9CanonicalObject older.signedKeysetJCS = some previous ∧
    P.parseA9CanonicalObject newer.signedKeysetJCS = some object ∧
    validateOnlineRotation previous object = .eligible

/-- What one committed transaction does to the accepted keysets and the state row. -/
inductive Effect (P : Primitives) (s s' : Tables) : Prop
  | stay : s' = s → Effect P s s'
  | refresh (row : StateRow) (now : Time) : s.state = some row → row.state = .current →
      s' = { s with state := some { row with refreshedAt := now } } → Effect P s s'
  | latch (row : StateRow) (reason : Reason) (now : Time) : s.state = some row →
      row.state = .current → s' = { s with state := some (row.latched reason now) } → Effect P s s'
  | latchFirst (row : StateRow) : s.state = none → row.state = .uncertain →
      row.keysetSequence = 0 → row.signedKeysetHash = none → row.expiresAt = none →
      s' = { s with state := some row } → Effect P s s'
  | append (k : AcceptedRow) (now : Time) : (∀ row ∈ s.state, row.state = .current) →
      (∀ p ∈ s.accepted.head?, p.keysetSequence < k.keysetSequence ∧ Follows P p k) →
      s'.accepted = k :: s.accepted → s'.state = some (k.stateRow now) → Effect P s s'

/-- A keyset with the sequence and the hash of a candidate is stored. -/
def Tables.Records (s : Tables) (c : AcceptedKeyset) : Prop :=
  ∃ k ∈ s.accepted, k.keysetSequence = c.sequence ∧ hexEncode k.signedKeysetHash = c.objectHash

/-- How an accepted candidate is stored: it is the latest keyset already, or it becomes it. -/
inductive Stored (P : Primitives) (c : AcceptedKeyset) (s s' : Tables) : Prop
  | again (v : ValidatedCandidate) (p : AcceptedRow) : validateA9AcceptedKeyset P c = some v →
      s.accepted.head? = some p → p.keysetSequence = c.sequence →
      hexEncode p.signedKeysetHash = c.objectHash → p.expiresAt = c.expiresAt →
      s'.accepted = s.accepted → Stored P c s s'
  | appended (v : ValidatedCandidate) : validateA9AcceptedKeyset P c = some v →
      (∀ p ∈ s.accepted.head?, p.keysetSequence < c.sequence ∧ Follows P p (c.row v)) →
      s'.accepted = c.row v :: s.accepted → Stored P c s s'

section Transactions

variable {P : Primitives} {s s' : Tables} {now : Time} {c : AcceptedKeyset}

theorem decodeA9LowerHex_eq_some {value : String} {b : Bytes32}
    (h : decodeA9LowerHex value "" = some b) : hexEncode b = value := by
  simp only [decodeA9LowerHex, Option.bind_eq_bind, Option.bind_eq_some_iff,
    Option.guard_eq_some', exists_const, Option.some.injEq] at h
  obtain ⟨-, -, _, -, hencode, rfl⟩ := h
  simpa using hencode

/-- A validated candidate has the object and the hash its signed bytes have. -/
theorem validateA9AcceptedKeyset_eq_some {v : ValidatedCandidate}
    (h : validateA9AcceptedKeyset P c = some v) :
    P.parseA9CanonicalObject c.canonicalSignedObject = some v.object ∧
      hexEncode v.objectHash = c.objectHash := by
  simp only [validateA9AcceptedKeyset, Option.bind_eq_bind, Option.bind_eq_some_iff,
    Option.guard_eq_some', exists_const, Option.some.injEq] at h
  obtain ⟨-, object, hobj, -, -, -, hash, hhash, root, -, online, -, commitments, -, rfl⟩ := h
  exact ⟨hobj, decodeA9LowerHex_eq_some hhash⟩

theorem latchKeysetUncertaintyOnce_effect {environment : String} {reason : Reason} {u : Unit}
    (h : latchKeysetUncertaintyOnce environment now reason s = .ok (u, s')) : Effect P s s' := by
  simp only [latchKeysetUncertaintyOnce, bind_ok] at h
  obtain ⟨found, s1, hread, h⟩ := h
  obtain ⟨rfl, ⟨hnone, rfl⟩ | ⟨row, current, jcs, hrow, rfl, hscan⟩⟩ :=
    readA9KeysetStateForUpdate_ok hread
  · obtain ⟨-, rfl⟩ := statement_ok.mp h
    exact .latchFirst _ hnone rfl rfl rfl rfl rfl
  · rcases ite_ok.mp h with ⟨-, h⟩ | ⟨-, h⟩
    · obtain ⟨-, rfl⟩ := pure_ok.mp h
      exact .stay rfl
    · obtain ⟨row', hrow', hcur, hs'⟩ := latchA9KeysetStateTx_ok h
      exact .latch row' reason now hrow' hcur hs'

/-- In a consistent store the joined bytes of a current row are those of the latest keyset. -/
theorem Tables.Consistent.head {row : StateRow} {current : KeysetState} {jcs : Bytes}
    (hs : s.Consistent) (hrow : s.state = some row)
    (hscan : Scanned row (s.canonicalOf row) current jcs) (hcur : row.state = .current) :
    ∃ p, s.accepted.head? = some p ∧ current.sequence = p.keysetSequence ∧
      current.objectHash = hexEncode p.signedKeysetHash ∧ current.expiresAt = p.expiresAt ∧
      p.signedKeysetJCS = jcs := by
  simp only [Tables.Consistent, hrow] at hs
  obtain ⟨hseq, hhash, hexp⟩ := hs
  obtain ⟨hash, hash', hobj, hexp', hcan⟩ := hscan.keyset hcur
  rw [hash'] at hhash
  rw [hexp'] at hexp
  cases hacc : s.accepted with
  | nil => simp [hacc] at hhash
  | cons p rest =>
    simp only [hacc, List.head?_cons, Option.map_some, Option.some.injEq] at hhash hexp
    rw [hacc, Fence.level, List.head?_cons, Option.map_some, Option.getD_some] at hseq
    have hks : row.keyset = some (p.keysetSequence, p.signedKeysetHash) := by
      rw [StateRow.keyset, hash', Option.map_some, hseq, hhash]
    have hjcs : s.canonicalOf row = some p.signedKeysetJCS := by
      rw [Tables.canonicalOf, hacc, List.find?_cons_of_pos (by simpa using hks), Option.map_some]
    exact ⟨p, rfl, hscan.sequence.trans hseq, hhash ▸ hobj, hexp, Option.mem_unique hjcs hcan⟩

theorem Stored.records (h : Stored P c s s') : s'.Records c := by
  cases h with
  | again v p _ hhead hseq hhash _ hsame =>
    rw [Tables.Records, hsame]
    exact ⟨p, List.mem_of_head? hhead, hseq, hhash⟩
  | appended v hv _ hacc =>
    rw [Tables.Records, hacc]
    exact ⟨c.row v, .head _, rfl, (validateA9AcceptedKeyset_eq_some hv).2⟩

/-- What `acceptKeysetOnce` does, and how what it accepts is stored. -/
theorem acceptKeysetOnce_effect {v : ValidatedCandidate} {outcome : Acceptance} (hs : s.Consistent)
    (hv : validateA9AcceptedKeyset P c = some v)
    (h : acceptKeysetOnce P now c v s = .ok (outcome, s')) :
    Effect P s s' ∧ ∀ state, outcome = .accepted state → Stored P c s s' := by
  obtain ⟨hobj, -⟩ := validateA9AcceptedKeyset_eq_some hv
  simp only [acceptKeysetOnce, bind_ok] at h
  obtain ⟨found, s1, hread, h⟩ := h
  obtain ⟨rfl, ⟨hnone, rfl⟩ | ⟨row, current, jcs, hrow, rfl, hscan⟩⟩ :=
    readA9KeysetStateForUpdate_ok hread
  · -- The first keyset of the environment.
    simp only [bind_ok, pure_ok] at h
    obtain ⟨_, s2, happend, rfl, rfl⟩ := h
    obtain ⟨hacc, hst⟩ := appendA9KeysetTx_ok happend
    have hemp : s1.accepted = [] := by
      simpa only [Tables.Consistent, hnone] using hs
    exact ⟨.append (c.row v) now (by simp [hnone]) (by simp [hemp]) hacc hst,
      fun _ _ => .appended v hv (by simp [hemp]) hacc⟩
  have hreject : ∀ {reason : Reason}, rejectTx now current reason s1 = .ok (outcome, s') →
      Effect P s1 s' ∧ ∀ state, outcome = .accepted state → Stored P c s1 s' := by
    intro reason h
    simp only [rejectTx, bind_ok, pure_ok] at h
    obtain ⟨_, s2, hlatch, rfl, rfl⟩ := h
    obtain ⟨row', hrow', hcur, hs'⟩ := latchA9KeysetStateTx_ok hlatch
    exact ⟨.latch row' reason now hrow' hcur hs', fun _ h => by cases h⟩
  rcases ite_ok.mp h with ⟨-, h⟩ | ⟨hunc, h⟩
  · obtain ⟨rfl, rfl⟩ := pure_ok.mp h
    exact ⟨.stay rfl, fun _ h => by cases h⟩
  have hcur : row.state = .current := by
    cases hst : row.state with
    | current => rfl
    | uncertain => exact absurd (hscan.uncertain.mpr hst) hunc
  obtain ⟨p, hhead, hseq, hobje, hexp, hjcs⟩ := hs.head hrow hscan hcur
  rcases ite_ok.mp h with ⟨-, h⟩ | ⟨hroll, h⟩
  · exact hreject h
  push Not at hroll
  rcases ite_ok.mp h with ⟨hequal, h⟩ | ⟨hdiffer, h⟩
  · -- The keyset that is current already.
    rcases ite_ok.mp h with ⟨-, h⟩ | ⟨hsame, h⟩
    · exact hreject h
    simp only [bind_ok, pure_ok] at h
    obtain ⟨_, s2, href, rfl, rfl⟩ := h
    obtain ⟨row', hrow', hcur', rfl⟩ := refreshA9KeysetStateTx_ok href
    exact ⟨.refresh row' now hrow' hcur' rfl, fun _ _ => .again v p hv hhead
      (hequal.trans hseq).symm (hobje.symm.trans (hroll.2 hequal).symm)
      (hexp.symm.trans (not_not.mp hsame).symm) rfl⟩
  rcases ite_ok.mp h with ⟨-, h⟩ | ⟨hrota, h⟩
  · exact hreject h
  -- The next keyset.
  simp only [bind_ok, pure_ok] at h
  obtain ⟨_, s2, happend, rfl, rfl⟩ := h
  obtain ⟨hacc, hst⟩ := appendA9KeysetTx_ok happend
  have hlat : ∀ q ∈ s1.accepted.head?, q.keysetSequence < (c.row v).keysetSequence ∧
      Follows P q (c.row v) := by
    intro q hq
    obtain rfl : p = q := Option.mem_unique hhead hq
    have hlt : p.keysetSequence < c.sequence := by
      have := hroll.1
      omega
    refine ⟨hlt, ?_⟩
    rw [not_not, rotationEligible, ← hjcs] at hrota
    cases hprev : P.parseA9CanonicalObject p.signedKeysetJCS with
    | none => simp [hprev] at hrota
    | some previous =>
      simp only [hprev] at hrota
      exact ⟨previous, v.object, hprev, hobj, hrota⟩
  exact ⟨.append (c.row v) now (by simp [hrow, hcur]) hlat hacc hst,
    fun _ _ => .appended v hv hlat hacc⟩

theorem acceptKeyset_effect {outcome : Acceptance} (hs : s.Consistent)
    (h : acceptKeyset P now c s = .ok (outcome, s')) :
    Effect P s s' ∧ ∀ state, outcome = .accepted state → Stored P c s s' := by
  unfold acceptKeyset at h
  cases hv : validateA9AcceptedKeyset P c with
  | none =>
    simp only [hv, bind_ok, pure_ok] at h
    obtain ⟨_, s1, hlatch, rfl, rfl⟩ := h
    refine ⟨?_, fun _ h => by cases h⟩
    rcases ite_ok.mp hlatch with ⟨-, hlatch⟩ | ⟨-, hlatch⟩
    · exact latchKeysetUncertaintyOnce_effect hlatch
    · exact .stay (pure_ok.mp hlatch).2.symm
  | some v =>
    simp only [hv] at h
    exact acceptKeysetOnce_effect hs hv h

end Transactions

/-- The accepted keysets, and the state row once it is uncertain. -/
def Tables.fence (s : Tables) : Fence AcceptedRow StateRow :=
  .behind s.accepted s.state fun row => row.state = .uncertain

section Refinement

variable {P : Primitives} {E : Environment} {s s' : Tables} {e : KeysetEvent}

theorem Effect.consistent (h : Effect P s s') (hs : s.Consistent) : s'.Consistent := by
  cases h with
  | stay heq => exact heq ▸ hs
  | refresh row now hrow _ heq | latch row reason now hrow _ heq =>
    subst heq
    simp only [Tables.Consistent, hrow] at hs ⊢
    exact hs
  | latchFirst row hnone _ hseq hhash hexp heq =>
    subst heq
    simp only [Tables.Consistent, hnone] at hs
    simp [Tables.Consistent, hs, hseq, hhash, hexp, Fence.level]
  | append k now _ _ hacc hst =>
    simp [Tables.Consistent, hacc, hst, AcceptedRow.stateRow, Fence.level]

theorem Effect.fence_step (h : Effect P s s') :
    Fence.Step (fun k => k.keysetSequence) (Follows P) s.fence s'.fence := by
  have hopen : ∀ {row : StateRow}, s.state = some row → row.state = .current →
      ∀ r ∈ s.state, ¬ r.state = .uncertain := by
    rintro row hrow hcur r hr
    obtain rfl : row = r := Option.mem_unique hrow hr
    simp [hcur]
  cases h with
  | stay heq =>
    rw [heq]
    exact .stay _
  | refresh row now hrow hcur heq =>
    subst heq
    exact .of_open (hopen hrow hcur) (by simp [hcur])
  | latch row reason now hrow hcur heq =>
    subst heq
    exact .of_closing (hopen hrow hcur) rfl
  | latchFirst row hnone hunc _ _ _ heq =>
    subst heq
    exact .of_closing (by simp [hnone]) hunc
  | append k now hcur hlat hacc hst =>
    unfold Tables.fence
    rw [hacc, hst]
    refine .of_append (fun r hr => ?_) (by simp [AcceptedRow.stateRow]) hlat
    simp [hcur r hr]

theorem step_effect (hs : s.Consistent) (h : (a9Keysets P E).step s e s') : Effect P s s' := by
  cases e with
  | accept c now outcome => exact (acceptKeyset_effect hs h.2).1
  | latch reason now => exact latchKeysetUncertaintyOnce_effect h

theorem reachable_consistent (hs : (a9Keysets P E).Reachable s) : s.Consistent := by
  induction hs with
  | init hinit =>
    obtain rfl : _ = Tables.empty := hinit
    rfl
  | step _ hst ih => exact (step_effect ih hst).consistent ih

theorem a9Keysets_refines (P : Primitives) (E : Environment) :
    (a9Keysets P E).Refines (fun k => k.keysetSequence) (Follows P) Tables.fence where
  init s hinit := by
    obtain rfl : s = Tables.empty := hinit
    rfl
  step s e s' hs hst := (step_effect (reachable_consistent hs) hst).fence_step

/-- `keyset_sequence` of the state row; no row counts as 0. -/
def Tables.sequence (s : Tables) : Nat := (s.state.map fun row => row.keysetSequence).getD 0

theorem Tables.Consistent.sequence (hs : s.Consistent) :
    s.sequence = Fence.level (fun k => k.keysetSequence) s.fence.log := by
  unfold Tables.Consistent at hs
  refine Fence.level_of_row (fun hnone => ?_) fun row hrow => ?_
  · simp only [hnone] at hs
    exact hs
  · simp only [Option.mem_def.mp hrow] at hs
    exact hs.1

end Refinement

end NotificationServer.Keyset
