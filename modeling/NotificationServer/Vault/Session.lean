import NotificationServer.Lib.Transaction
import NotificationServer.Vault.Schema

/-!
# Statements and transactions

`exec` is one data-modifying statement: it applies the change and fails if a
constraint of the schema does not hold afterwards.  A transaction is a `VaultTx`
body; its session carries the database and, in order, which statements were run
on `a9_installation_authority`, the one table whose column values do not say
how they came about.
-/

namespace NotificationServer

variable {s s' : Session}

/-- A database in which every constraint of the schema holds. -/
structure Vault where
  db : Db
  valid : db.Constraints

inductive AuthorityWrite
  | created (state : AuthorityState) (reason : UncertaintyReason)
  | latched (reason : UncertaintyReason)
  | reset (epoch : Bytes16)
  | watermarkStored (status : WatermarkStatus)
  | cursorAdvanced
  | replaced
  deriving DecidableEq

/-- A transaction in progress; `writes` lists authority statements, the latest first. -/
structure Session where
  vault : Vault
  writes : List (Bytes16 × AuthorityWrite)

def Session.db (s : Session) : Db := s.vault.db

theorem Session.valid (s : Session) : s.db.Constraints := s.vault.valid

theorem Session.ext {t : Session} (hdb : s.db = t.db) (hw : s.writes = t.writes) : s = t := by
  obtain ⟨⟨db, _⟩, writes⟩ := s
  obtain ⟨⟨db', _⟩, writes'⟩ := t
  change db = db' at hdb
  change writes = writes' at hw
  subst hdb
  subst hw
  rfl

abbrev VaultTx := Tx Session VaultError

def exec (f : Db → Db) : VaultTx Unit := fun s =>
  if h : (f s.db).Constraints then .ok ((), { s with vault := ⟨f s.db, h⟩ }) else .error .database

def query {α : Type} (f : Db → α) : VaultTx α := Tx.read fun s => f s.db

/-- Records a statement on the authority row of `installation`. -/
def noteWrite (installation : Bytes16) (w : AuthorityWrite) : VaultTx Unit := fun s =>
  .ok ((), { s with writes := (installation, w) :: s.writes })

/-- Unwraps a value a query or a decoder may not have produced. -/
def expect {α : Type} (x : Option α) (e : VaultError) : VaultTx α :=
  match x with
  | some a => pure a
  | none => Tx.fail e

@[simp] theorem exec_ok {f : Db → Db} {u : Unit} :
    exec f s = .ok (u, s') ↔ s'.db = f s.db ∧ s'.writes = s.writes := by
  unfold exec
  split
  case isTrue h =>
    constructor
    · intro he
      obtain rfl : _ = s' := congrArg Prod.snd (Except.ok.inj he)
      exact ⟨rfl, rfl⟩
    · rintro ⟨hdb, hw⟩
      have : s' = { s with vault := ⟨f s.db, h⟩ } := Session.ext hdb hw
      rw [this]
  case isFalse h =>
    simp only [reduceCtorEq, false_iff, not_and]
    intro hdb
    exact absurd (hdb ▸ s'.valid) h

/-- A statement whose result meets the constraints succeeds. -/
theorem exec_succeeds {f : Db → Db} (h : (f s.db).Constraints) : Tx.Succeeds (exec f) s :=
  ⟨(), { s with vault := ⟨f s.db, h⟩ }, by simp [exec, h]⟩

@[simp] theorem query_ok {α : Type} {f : Db → α} {a : α} :
    query f s = .ok (a, s') ↔ f s.db = a ∧ s = s' := by
  simp [query]

@[simp] theorem noteWrite_ok {i : Bytes16} {w : AuthorityWrite} {u : Unit} :
    noteWrite i w s = .ok (u, s') ↔ s'.db = s.db ∧ s'.writes = (i, w) :: s.writes := by
  unfold noteWrite
  constructor
  · intro he
    obtain rfl : _ = s' := congrArg Prod.snd (Except.ok.inj he)
    exact ⟨rfl, rfl⟩
  · rintro ⟨hdb, hw⟩
    have : s' = { s with writes := (i, w) :: s.writes } := Session.ext hdb hw
    rw [this]

@[simp] theorem expect_ok {α : Type} {x : Option α} {e : VaultError} {a : α} :
    expect x e s = .ok (a, s') ↔ x = some a ∧ s = s' := by
  cases x <;> simp [expect]

section Keeps

variable {γ : Type} {g : Db → γ}

theorem exec_keeps_of {f : Db → Db} (hf : ∀ db, g (f db) = g db) :
    Tx.Keeps (fun s => g s.db) (exec f) := by
  intro s u s' h
  obtain ⟨hdb, -⟩ := exec_ok.mp h
  simp only [hdb, hf]

variable {α : Type} {r : Session → Session → Prop} [Std.Refl r]

theorem query_moves {f : Db → α} : Tx.Moves r (query f) := .read _

theorem expect_moves {x : Option α} {e : VaultError} : Tx.Moves r (expect x e) := by
  unfold expect
  split
  · exact .pure _
  · exact .fail _

end Keeps

end NotificationServer
