import NotificationServer.A9.Answer
import NotificationServer.Run

/-!
# What a control event that is not applied leaves

An event that is answered but not applied should at most latch its row and store
a receipt.  The first event of an epoch nothing is stored under is the exception:
the row is reset before the event is checked for expiry, against the tombstones
and for its version, and the reset stays when one of these checks refuses it.
-/

namespace NotificationServer

open Relational Sample

namespace Db

variable {db db' : Db} {i j E : Bytes16} {a : AuthorityRow} {f : AuthorityRow → AuthorityRow}

theorem authority_updateAuthority
    (hf : ∀ a, (f a).installationBindingID = a.installationBindingID) :
    (db.updateAuthority i f).authority i = (db.authority i).map f :=
  find?_updateWhere (fun r hr => (hf r).trans hr) db.authorities

/-- The row after an update of it and of other tables. -/
theorem authority_updated (ha : db.authority i = some a)
    (h : db'.authorities = (db.updateAuthority i f).authorities)
    (hf : ∀ a, (f a).installationBindingID = a.installationBindingID) :
    db'.authority i = some (f a) := by
  have hrow : db'.authority i = (db.updateAuthority i f).authority i := by
    unfold Db.authority
    rw [h]
  rw [hrow, authority_updateAuthority hf, ha, Option.map_some]

theorem authority_updateAuthority_ne (hne : j ≠ i)
    (hf : ∀ a, (f a).installationBindingID = a.installationBindingID) :
    (db.updateAuthority i f).authority j = db.authority j := by
  refine find?_updateWhere_of_not (fun r hr => ⟨?_, ?_⟩) db.authorities
  · rw [hr]
    exact hne.symm
  · rw [hf r, hr]
    exact hne.symm

theorem Opens.authority (h : Opens i E db a db') : db'.authority i = some a := by
  cases h with
  | found h => exact h
  | created => simp [Db.authority, AuthorityRow.created]

theorem Opens.eq_of_some (h : Opens i E db a db') {b : AuthorityRow}
    (hb : db.authority i = some b) : a = b ∧ db' = db := by
  cases h with
  | found ha => exact ⟨Option.mem_unique ha hb, rfl⟩
  | created _ _ _ hnone => cases hnone.symm.trans hb

theorem Opens.authority_ne (h : Opens i E db a db') (hne : j ≠ i) :
    db'.authority j = db.authority j := by
  cases h with
  | found => rfl
  | created => simp [Db.authority, AuthorityRow.created, hne.symm]

/-- At most the row of the installation is created or latched, and one receipt is added. -/
structure Undecided (i E : Bytes16) (db db' : Db) : Prop where
  tables : db' = { db with authorities := db'.authorities, receipts := db'.receipts }
  receipts : ∃ added, added.length ≤ 1 ∧ db'.receipts = added ++ db.receipts
  row : ∀ a, db.authority i = some a →
    db'.authority i = some a ∨ ∃ reason now, db'.authority i = some (a.latched reason now)
  created : db.authority i = none → ∀ a', db'.authority i = some a' → ∃ state reason now,
    a' = .created i E state reason now ∨
      ∃ reason' now', a' = (AuthorityRow.created i E state reason now).latched reason' now'
  others : ∀ j ≠ i, db'.authority j = db.authority j

end Db

namespace Store

variable {S : Store} {db db' : Db} {a : AuthorityRow} {k : RequestKey} {now : Time} {r : A9Result}
  {First : A9Result → Db → Prop}

theorem authority_latchIf {i : Bytes16} (h : db.authority i = some a)
    (latch : Option UncertaintyReason) (now : Time) :
    (latchIf i latch now db).authority i = some a ∨
      ∃ reason, (latchIf i latch now db).authority i = some (a.latched reason now) := by
  cases latch with
  | none => exact .inl h
  | some reason =>
    refine .inr ⟨reason, ?_⟩
    simp only [latchIf, Db.authority_updateAuthority (f := .latched reason now) fun _ => rfl, h,
      Option.map_some]

/-- Opening the row, a latch if there is a reason for one, and at most one receipt. -/
theorem undecided_of_latchIf {db1 : Db} {i E : Bytes16} (hopens : Db.Opens i E db a db1)
    (latch : Option UncertaintyReason) (now : Time) (added : List IdempotencyReceiptRow)
    (hadded : added.length ≤ 1)
    (hdb' : db' = { latchIf i latch now db1 with receipts := added ++ db.receipts }) :
    db.Undecided i E db' := by
  have hrow : db'.authority i = (latchIf i latch now db1).authority i := by rw [hdb']; rfl
  have hlatch := authority_latchIf hopens.authority latch now
  rw [← hrow] at hlatch
  have hlatched : ∃ authorities, latchIf i latch now db1 = { db1 with authorities } := by
    cases latch with
    | _ => exact ⟨_, rfl⟩
  refine ⟨?_, ⟨added, hadded, by rw [hdb']⟩, fun b hb => ?_, fun hnone a' ha' => ?_, fun j hj => ?_⟩
  · obtain ⟨authorities, heq⟩ := hlatched
    rw [hdb', heq, hopens.others]
  · cases hopens with
    | created state reason now1 hnone => cases hnone.symm.trans hb
    | found ha =>
      obtain rfl := Option.mem_unique ha hb
      exact hlatch.imp_right fun ⟨reason, h⟩ => ⟨reason, now, h⟩
  · cases hopens with
    | found ha => cases hnone.symm.trans ha
    | created state reason now1 =>
      refine ⟨state, reason, now1, ?_⟩
      rcases hlatch with h | ⟨reason', h⟩
      · exact .inl (Option.mem_unique ha' h)
      · exact .inr ⟨reason', now, Option.mem_unique ha' h⟩
  · have hj' : (latchIf i latch now db1).authority j = db1.authority j := by
      cases latch with
      | none => rfl
      | some reason => exact Db.authority_updateAuthority_ne hj fun _ => rfl
    rw [show db'.authority j = (latchIf i latch now db1).authority j by rw [hdb']; rfl, hj',
      hopens.authority_ne hj]

theorem Refused.undecided {db1 : Db} (h : Refused k now db1 r db')
    (hopens : Db.Opens k.installationBindingID k.sequencerEpoch db a db1) :
    db.Undecided k.installationBindingID k.sequencerEpoch db' := by
  obtain ⟨-, latch, hdb⟩ := h
  have hrecs : db1.receipts = db.receipts := by rw [hopens.others]
  refine undecided_of_latchIf hopens latch now [k.receipt r] (by simp) ?_
  rw [hdb, ← hrecs]
  cases latch with
  | _ => rfl

/-- An answer decides nothing unless the key is first seen. -/
theorem Answer.undecided {db1 : Db} (h : S.Answer k now a db1 First r db')
    (hopens : Db.Opens k.installationBindingID k.sequencerEpoch db a db1)
    (hfst : (∀ x ∈ db.receipts, x.idempotencyKey ≠ k.idempotencyKey) → First r db' →
      db.Undecided k.installationBindingID k.sequencerEpoch db') :
    db.Undecided k.installationBindingID k.sequencerEpoch db' := by
  have hrecs : db1.receipts = db.receipts := by rw [hopens.others]
  cases h with
  | replayed =>
    refine undecided_of_latchIf hopens none now [] (by simp) ?_
    simp only [latchIf, List.nil_append, ← hrecs]
  | misused =>
    refine undecided_of_latchIf hopens (some .idempotency) now [] (by simp) ?_
    simp only [latchIf, List.nil_append, ← hrecs]
    rfl
  | first huns h =>
    rw [hrecs] at huns
    exact hfst huns h

theorem Answer.of_unseen (h : S.Answer k now a db First r db')
    (huns : ∀ x ∈ db.receipts, x.idempotencyKey ≠ k.idempotencyKey) : First r db' := by
  cases h with
  | replayed hx hk => exact absurd (congrArg RequestKey.idempotencyKey hk) (huns _ hx)
  | misused hx hk _ => exact absurd hk (huns _ hx)
  | first _ h => exact h

/-- Only a first-seen key is answered APPLIED. -/
theorem Answer.of_applied (h : S.Answer k now a db First r db') (hout : r.outcome = .applied) :
    First r db' := by
  cases h with
  | replayed | misused => exact absurd hout (by simp [a9Result])
  | first _ h => exact h

end Store

/-- The event resets its row before anything but its key has been checked. -/
def VerifiedControl.Resets (event : VerifiedControl) (db : Db) : Prop :=
  event.StartsEpoch db ∧ ∀ x ∈ db.receipts, x.idempotencyKey ≠ event.idempotencyKey
  deriving Decidable

namespace Store

variable {S : Store} {event : VerifiedControl}

/-- An event starts an epoch after its row was opened exactly if it did before. -/
theorem startsEpoch_opens {db db1 : Db} {a : AuthorityRow}
    (h : Db.Opens event.installationBindingID event.sequencerEpoch db a db1) :
    event.StartsEpoch db1 ↔ event.StartsEpoch db := by
  cases h with
  | found => exact Iff.rfl
  | created state reason now hnone =>
    constructor
    · rintro ⟨⟨b, hb, hne⟩, -⟩
      have hrow := (Db.Opens.created (E := event.sequencerEpoch) state reason now hnone).authority
      obtain rfl := Option.mem_unique hrow hb
      exact absurd rfl hne
    · rintro ⟨⟨b, hb, -⟩, -⟩
      cases hnone.symm.trans hb

/-- A reset leaves the row in the event's epoch, whatever follows it. -/
theorem epoch_of_reset {now : Time} {db db' : Db} {a : AuthorityRow} {r : A9Result}
    (ha : db.authority event.installationBindingID = some a) (h : Refused event.requestKey now
      (db.resetA9Epoch event.installationBindingID event.sequencerEpoch now) r db') :
    ∃ a', db'.authority event.installationBindingID = some a' ∧
      a'.sequencerEpoch = event.sequencerEpoch := by
  obtain ⟨-, latch, rfl⟩ := h
  have hreset : (db.resetA9Epoch event.installationBindingID event.sequencerEpoch now).authority
      event.installationBindingID = some (a.reset event.sequencerEpoch now) :=
    Db.authority_updated (f := .reset event.sequencerEpoch now) ha rfl fun _ => rfl
  rcases authority_latchIf hreset latch now with h | ⟨reason, h⟩
  · exact ⟨_, h, rfl⟩
  · exact ⟨_, h, rfl⟩

/-- An event that was answered but not applied changed at most its row's latch and the receipts,
unless it resets its row. -/
theorem applyControl_undecided_iff {s : Sys} (hs : S.system.Reachable s) {clock : Clock}
    {r : A9Result} {t : Session} (h : S.applyControl clock event s.session = .ok (r, t))
    (hout : r.outcome ≠ .applied) :
    s.db.Undecided event.installationBindingID event.sequencerEpoch t.db ↔ ¬ event.Resets s.db := by
  obtain ⟨-, hguard, a, db1, hopens, hans⟩ := applyControl_answer h
  replace hguard : S.Guarded clock event.keyset s.db := hguard
  rw [show ({ s.session.db with keyBinding := some S.rootCommitment } : Db) = s.db from
    hguard.bound hs] at hopens
  have hrecs : db1.receipts = s.db.receipts := by rw [hopens.others]
  constructor
  · -- A reset moves the row from another epoch to the event's.
    rintro hunde ⟨⟨⟨b, hb, hne⟩, hseq⟩, huns⟩
    have hstarts : event.StartsEpoch db1 := (startsEpoch_opens hopens).mpr ⟨⟨b, hb, hne⟩, hseq⟩
    rw [← hrecs] at huns
    obtain ⟨db2, hreb, href | happ⟩ := hans.of_unseen huns
    · cases hreb with
      | stays hstays => exact hstays hstarts
      | starts _ =>
        obtain ⟨c, hc, -⟩ := hstarts.1
        obtain ⟨a', ha', hE⟩ := epoch_of_reset hc href
        rcases hunde.row b hb with hsame | ⟨reason, now, hlatched⟩
        · obtain rfl := Option.mem_unique hsame ha'
          exact hne hE
        · obtain rfl := Option.mem_unique hlatched ha'
          exact hne hE
    · exact hout happ.outcome
  · intro hnot
    refine hans.undecided hopens fun huns hfst => ?_
    obtain ⟨db2, hreb, href | happ⟩ := hfst
    · cases hreb with
      | stays => exact href.undecided hopens
      | starts hstarts => exact absurd ⟨(startsEpoch_opens hopens).mp hstarts, huns⟩ hnot
    · exact absurd happ.outcome hout

/-- `ApplyControl` on a reachable state: an error commits nothing; an answer other than APPLIED
leaves everything but a latch and a receipt as it was exactly if the event does not reset its row. -/
theorem refused_control_settles_iff {s : Sys} (hs : S.system.Reachable s) (clock : Clock)
    (event : VerifiedControl) :
    (∀ e, ((S.applyControl clock event).commit s.session).1 = .error e →
      ((S.applyControl clock event).commit s.session).2.db = s.db) ∧
    ∀ r, ((S.applyControl clock event).commit s.session).1 = .ok r → r.outcome ≠ .applied →
      (s.db.Undecided event.installationBindingID event.sequencerEpoch
          ((S.applyControl clock event).commit s.session).2.db ↔ ¬ event.Resets s.db) := by
  cases h : S.applyControl clock event s.session with
  | error e =>
    rw [Tx.commit_of_error h]
    exact ⟨fun _ _ => rfl, fun r hr => absurd hr (by simp)⟩
  | ok p =>
    obtain ⟨r, t⟩ := p
    rw [Tx.commit_of_ok h]
    refine ⟨fun e he => absurd he (by simp), fun r' hr' hout => ?_⟩
    cases hr'
    exact applyControl_undecided_iff hs h hout

/-- An event past a gap is refused and settled. -/
theorem refused_control_settles_sample :
    ∃ s, Sample.store.system.Reachable s ∧ ∃ r,
      ((Sample.store.applyControl Sample.clock (Sample.control 70 3 2 .upsert)).commit
        s.session).1 = .ok r ∧ r.outcome = .gap ∧
      s.db.Undecided 9 70 ((Sample.store.applyControl Sample.clock
        (Sample.control 70 3 2 .upsert)).commit s.session).2.db := by
  obtain ⟨s, hs, hnot, r, t, hok, hgap⟩ := exists_reachable (S := store) opened
    (P := fun s => ¬ (control 70 3 2 .upsert).Resets s.db ∧ ∃ r t,
      store.applyControl clock (control 70 3 2 .upsert) s.session = .ok (r, t) ∧ r.outcome = .gap)
    (by decide +kernel)
  have hcommit := Tx.commit_of_ok hok
  have hans : ((store.applyControl clock
      (control 70 3 2 .upsert)).commit s.session).1 = .ok r := by rw [hcommit]
  refine ⟨s, hs, r, hans, hgap, ?_⟩
  exact ((refused_control_settles_iff hs clock (control 70 3 2 .upsert)).2 r hans
    (by rw [hgap]; decide)).mpr hnot

/-- The first event of an unused epoch, presented when it has expired: it is answered INCONCLUSIVE,
and the installation has left its epoch and lost its route and its binding. -/
theorem expired_first_event_resets :
    ∃ s, Sample.store.system.Reachable s ∧
      (∃ a ∈ s.db.authority 9, a.sequencerEpoch = 70) ∧ s.db.routes ≠ [] ∧ s.db.bindings ≠ [] ∧
      ∃ r t, Sample.store.applyControl ⟨Sample.start + 30 * second, Sample.start + 30 * second⟩
          (Sample.control 71 1 1 .upsert) s.session = .ok (r, t) ∧
        r.outcome = .inconclusive ∧ (∃ a ∈ t.db.authority 9, a.sequencerEpoch = 71) ∧
        t.db.routes = [] ∧ t.db.bindings = [] := by
  exact exists_reachable routed (by decide +kernel)

end Store

end NotificationServer
