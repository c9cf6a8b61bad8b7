import Mathlib.Data.List.Chain
import NotificationServer.A3.Witness
import NotificationServer.Trust.RoundTrip
import NotificationServer.Lib.Framing

/-!
# The chain of witnessed heads

A call that inserts holds the lock since it read the latest head, so the head it
inserts extends the head that is still the latest one.  `Chain` follows for
every run; what calls return is signed by rows of that chain.
-/

namespace NotificationServer.A3

open Trust Witness

variable {W : Witness} {s s' : WitnessState} {p : WitnessProposal} {r : HeadRow}
  {heads : List HeadRow} {id : Nat} {phase : CallPhase}

theorem lowerHex32_ascii {value : String} (h : LowerHex32 value) : isASCII value := by
  intro c hc
  have hdigit := h.2 c hc
  unfold hexValue at hdigit
  split at hdigit
  · next hrange => exact UInt8.lt_of_le_of_lt hrange.2 (by decide)
  · split at hdigit
    · next hrange => exact UInt8.lt_of_le_of_lt hrange.2 (by decide)
    · cases hdigit

theorem body_inProfile {head : TreeHead} (h : validTreeHead head) : head.body.InProfile := by
  obtain ⟨hdomain, hprot, henv, -, hsize, hprior, htime, hroot, hprio⟩ := h
  have hascii : isASCII head.environment := by
    rcases henv with h | h <;> rw [h] <;> decide +kernel
  refine .object ?_ ?_ ?_
  · show List.Nodup ["domain", "environment", "prior_root_hash", "prior_tree_size",
      "protocol_version", "root_hash", "timestamp_ms", "tree_size"]
    decide
  · simp only [List.forall_mem_cons]
    decide +kernel
  simp only [List.forall_mem_cons]
  exact ⟨.string (by rw [hdomain]; decide +kernel), .string hascii, .string (lowerHex32_ascii hprio),
    .number (hprior.le.trans hsize), .number (by rw [hprot]; decide),
    .string (lowerHex32_ascii hroot), .number htime, .number hsize, nofun⟩

theorem body_sorted (head : TreeHead) : head.body.sorted = head.body := rfl

theorem canonicalTreeHead_eq_some {head : TreeHead} {bytes : Bytes}
    (h : canonicalTreeHead head = some bytes) :
    validTreeHead head ∧ ∃ canonical, canonicalize head.body = some canonical ∧
      bytes = textBytes "hytch-directory-tree-head-v1\x00" ++ uint32Bytes canonical.length ++
        canonical := by
  simp only [canonicalTreeHead, Option.bind_eq_bind, Option.bind_eq_some_iff,
    Option.guard_eq_some', exists_const, Option.some.injEq] at h
  obtain ⟨hval, canonical, hcan, -, rfl⟩ := h
  exact ⟨hval, canonical, hcan, rfl⟩

theorem toString_injective {m n : Nat} (h : toString m = toString n) : m = n := by
  have hm := decimal_toString m
  rw [h, decimal_toString n] at hm
  exact (Option.some.inj hm).symm

theorem body_injective {head head' : TreeHead} (h : head.body = head'.body) : head = head' := by
  unfold TreeHead.body at h
  simp only [Json.object.injEq, List.cons.injEq, Prod.mk.injEq, Json.string.injEq,
    Json.number.injEq, true_and, and_true] at h
  obtain ⟨hdomain, henv, hprior, hprio, hprot, hroot, htime, hsize⟩ := h
  cases head
  cases head'
  simp only at *
  rw [hdomain, henv, hprior, toString_injective hprio, toString_injective hprot,
    hroot, toString_injective htime, toString_injective hsize]

/-- Two heads with one canonical form are the same. -/
theorem canonicalTreeHead_injective {head head' : TreeHead} {bytes : Bytes}
    (h : canonicalTreeHead head = some bytes) (h' : canonicalTreeHead head' = some bytes) :
    head = head' := by
  obtain ⟨hval, canonical, hcan, hbytes⟩ := canonicalTreeHead_eq_some h
  obtain ⟨hval', canonical', hcan', hbytes'⟩ := canonicalTreeHead_eq_some h'
  have hsame : canonical = canonical' := by
    have heq := hbytes.symm.trans hbytes'
    have hlen : (textBytes "hytch-directory-tree-head-v1\x00" ++
        uint32Bytes canonical.length).length = (textBytes "hytch-directory-tree-head-v1\x00" ++
        uint32Bytes canonical'.length).length := by simp [uint32Bytes]
    exact (List.append_inj heq hlen).2
  subst hsame
  have hread := (parsers_of_canonical (body_inProfile hval).distinct hcan).1
  have hread' := (parsers_of_canonical (body_inProfile hval').distinct hcan').1
  rw [body_sorted] at hread hread'
  exact body_injective (Except.ok.inj (hread.symm.trans hread'))

theorem hexEncode_decodeHash {value : String} {b : Bytes32} (h : decodeHash value = some b) :
    hexEncode b = value := by
  simp only [decodeHash, decodeA9LowerHex, Option.bind_eq_bind, Option.bind_eq_some_iff,
    Option.guard_eq_some', exists_const, Option.some.injEq] at h
  obtain ⟨-, -, digits, -, htext, rfl⟩ := h
  rw [← htext, String.empty_append]

theorem hexEncode_injective {a b : Bytes32} (h : hexEncode a = hexEncode b) : a = b := by
  have hdigit : ∀ m < 16, ∀ n < 16, hexDigit m = hexDigit n → m = n := by decide
  have hlists := String.ofList_injective h
  have hdig : ∀ k < 64, a.toNat / 16 ^ k % 16 = b.toNat / 16 ^ k % 16 := by
    intro k hk
    have hchars := List.map_inj_left.mp hlists (63 - k) (List.mem_range.mpr (by omega))
    rw [show 63 - (63 - k) = k by omega] at hchars
    exact hdigit _ (Nat.mod_lt _ (by omega)) _ (Nat.mod_lt _ (by omega)) hchars
  have hmod := Framing.mod_pow_eq_of_digits hdig
  have hsize : (16 : Nat) ^ 64 = 2 ^ 256 := by decide
  rw [hsize, Nat.mod_eq_of_lt a.isLt, Nat.mod_eq_of_lt b.isLt] at hmod
  exact BitVec.eq_of_toNat_eq hmod

/-- A stored head: canonical, with an accepted consistency proof and a signature. -/
structure RowOk (W : Witness) (r : HeadRow) : Prop where
  canonical : canonicalTreeHead (W.storedHead r) = some r.canonicalHead
  extension : W.verifyWitnessExtension (W.storedHead r) r.consistencyProof = some true
  signed : W.verify r.canonicalHead r.signature = true
  key : r.keyID = W.keyID

structure Extends (newer older : HeadRow) : Prop where
  size : newer.priorTreeSize = older.treeSize
  root : newer.priorRootHash = older.rootHash
  time : older.timestampMS ≤ newer.timestampMS

/-- The heads, the latest first, are one chain from the empty tree. -/
structure Chain (W : Witness) (heads : List HeadRow) : Prop where
  rows : ∀ r ∈ heads, RowOk W r
  linked : heads.IsChain Extends
  first : ∀ r ∈ heads.getLast?, r.priorTreeSize = 0 ∧ r.priorRootHash = W.hash .empty

theorem RowOk.prior_lt (h : RowOk W r) : r.priorTreeSize < r.treeSize := by
  obtain ⟨⟨-, -, -, -, -, hprior, -⟩, -⟩ := canonicalTreeHead_eq_some h.canonical
  exact hprior

theorem Chain.tail (h : Chain W (r :: heads)) : Chain W heads where
  rows q hq := h.rows q (.tail _ hq)
  linked := h.linked.tail
  first q hq := h.first q (by
    rw [List.getLast?_cons_of_ne_nil (List.ne_nil_of_mem (List.mem_of_getLast? hq))]
    exact hq)

/-- Tree sizes decrease along the chain, so there is one head per size. -/
theorem Chain.decreasing (h : Chain W heads) :
    heads.Pairwise fun newer older => older.treeSize < newer.treeSize := by
  induction heads with
  | nil => exact .nil
  | cons r heads ih =>
    have hrest := ih h.tail
    refine List.pairwise_cons.mpr ⟨?_, hrest⟩
    intro older holder
    cases heads with
    | nil => cases holder
    | cons q heads =>
      have hext : Extends r q := (List.isChain_cons_cons.mp h.linked).1
      have hlt : q.treeSize < r.treeSize := by
        rw [← hext.size]
        exact (h.rows r (.head _)).prior_lt
      rcases List.mem_cons.mp holder with rfl | holder
      · exact hlt
      · exact (List.rel_of_pairwise_cons hrest holder).trans hlt

theorem Chain.eq_of_size {q : HeadRow} (h : Chain W heads) (hr : r ∈ heads) (hq : q ∈ heads)
    (hsize : r.treeSize = q.treeSize) : r = q := by
  have hnd : (heads.map fun r => r.treeSize).Nodup :=
    List.pairwise_map.mpr (h.decreasing.imp fun hlt => hlt.ne')
  exact List.inj_on_of_nodup_map hnd hr hq hsize

theorem Chain.latest_eq (h : Chain W heads) : latest heads = heads.head? := by
  cases heads with
  | nil => rfl
  | cons r heads =>
    rw [List.head?_cons, latest, List.argmax_eq_some_iff]
    refine ⟨.head _, ?_, ?_⟩
    · intro q hq
      rcases List.mem_cons.mp hq with rfl | hq
      · exact le_rfl
      · exact (List.rel_of_pairwise_cons h.decreasing hq).le
    · intro q _ _
      rw [List.idxOf_cons_self]
      exact Nat.zero_le _

/-- The proposal continues the latest head, or starts the chain. -/
def Continues (W : Witness) (p : WitnessProposal) (heads : List HeadRow) : Prop :=
  match heads.head? with
  | none => p.head.priorTreeSize = 0 ∧ decodeHash p.head.priorRootHash = some (W.hash .empty)
  | some current => p.head.priorTreeSize = current.treeSize ∧
    p.head.priorRootHash = hexEncode current.rootHash ∧ current.timestampMS ≤ p.head.timestampMS

theorem branch_extend {now : Time} {current : Option HeadRow} (h : W.branch p now current = .extend)
    (hcur : current = heads.head?) : Continues W p heads := by
  unfold Continues
  rw [← hcur]
  cases current with
  | none =>
    simp only [branch] at h
    split at h
    · cases h
    split at h
    · cases h
    · next hfst =>
      simp only [not_or, not_not] at hfst
      exact ⟨hfst.1, hfst.2.2⟩
  | some current =>
    simp only [branch] at h
    split at h
    · cases h
    split at h
    · cases h
    split at h
    · cases h
    split at h
    · cases h
    split at h
    · cases h
    · next hext =>
      simp only [not_or, not_not, not_lt] at hext
      exact hext

theorem signedRow_eq_some (h : W.signedRow p = some r) :
    decodeHash p.head.rootHash = some r.rootHash ∧
      decodeHash p.head.priorRootHash = some r.priorRootHash ∧ r.treeSize = p.head.treeSize ∧
      r.priorTreeSize = p.head.priorTreeSize ∧ r.timestampMS = p.head.timestampMS ∧
      r.canonicalHead = p.canonicalHead ∧ r.consistencyProof = p.consistencyProof ∧
      r.keyID = W.keyID ∧ r.signature = W.sign p.canonicalHead := by
  simp only [signedRow, Option.bind_eq_bind, Option.bind_eq_some_iff, Option.guard_eq_some',
    exists_const, Option.some.injEq] at h
  obtain ⟨root, hroot, prior, hprior, -, rfl⟩ := h
  exact ⟨hroot, hprior, rfl, rfl, rfl, rfl, rfl, rfl, rfl⟩

/-- The columns of a new row spell the head of the proposal. -/
theorem storedHead_signedRow (hp : W.Admissible p) (h : W.signedRow p = some r) :
    W.storedHead r = p.head := by
  obtain ⟨henv, -, hcan, -⟩ := hp
  obtain ⟨⟨hdomain, hprot, -⟩, -⟩ := canonicalTreeHead_eq_some hcan
  obtain ⟨hroot, hprior, hsize, hprio, htime, -⟩ := signedRow_eq_some h
  unfold storedHead
  rw [hexEncode_decodeHash hroot, hexEncode_decodeHash hprior, hsize, hprio, htime,
    ← henv, ← hdomain, ← hprot]

theorem rowOk_signedRow (hp : W.Admissible p) (h : W.signedRow p = some r) : RowOk W r := by
  have hhead := storedHead_signedRow hp h
  obtain ⟨-, -, hcan, hexte⟩ := hp
  obtain ⟨-, -, -, -, -, hbytes, hproof, hkey, hsign⟩ := signedRow_eq_some h
  refine ⟨?_, ?_, ?_, hkey⟩
  · rw [hhead, hbytes]
    exact hcan
  · rw [hhead, hproof]
    exact hexte
  · rw [hbytes, hsign]
    exact W.verify_sign _

theorem Chain.cons (h : Chain W heads) (hp : W.Admissible p) (hcont : Continues W p heads)
    (hrow : W.signedRow p = some r) : Chain W (r :: heads) := by
  obtain ⟨-, hprior, -, hprio, htime, -⟩ := signedRow_eq_some hrow
  have hok := rowOk_signedRow hp hrow
  unfold Continues at hcont
  refine ⟨?_, ?_, ?_⟩
  · exact List.forall_mem_cons.mpr ⟨hok, h.rows⟩
  · cases heads with
    | nil => exact .singleton _
    | cons current heads =>
      obtain ⟨hsize, hroot, hlat⟩ := hcont
      have hprev : r.priorRootHash = current.rootHash :=
        hexEncode_injective ((hexEncode_decodeHash hprior).trans hroot)
      exact .cons_cons ⟨hprio.trans hsize, hprev, by rw [htime]; exact hlat⟩ h.linked
  · cases heads with
    | nil =>
      intro q hq
      cases hq
      obtain ⟨hzero, hemp⟩ := hcont
      exact ⟨hprio.trans hzero, Option.mem_unique hprior hemp⟩
    | cons current heads =>
      intro q hq
      rw [List.getLast?_cons_cons] at hq
      exact h.first q hq

def CallPhase.proposal : CallPhase → Option WitnessProposal
  | .idle => none
  | .waiting p | .locked p | .replaying p | .replayed p _ | .extending p | .inserted p _ => some p

def CallPhase.Holds : CallPhase → Prop
  | .idle | .waiting _ => False
  | _ => True

/-- The acceptance is the signature of a stored head, which is that of the proposal. -/
structure Answers (W : Witness) (heads : List HeadRow) (p : WitnessProposal)
    (accepted : WitnessAcceptance) (r : HeadRow) : Prop where
  stored : r ∈ heads
  head : W.storedHead r = p.head
  canonical : r.canonicalHead = p.canonicalHead
  signature : accepted.signature = r.signature
  key : accepted.keyID = W.keyID

structure CallOk (W : Witness) (s : WitnessState) (id : Nat) : Prop where
  admissible : ∀ p ∈ (s.calls id).proposal, W.Admissible p
  lock : s.lock = some id ↔ (s.calls id).Holds
  replayed : ∀ p a, s.calls id = .replayed p a → ∃ r, Answers W s.heads p a r
  extending : ∀ p, s.calls id = .extending p → Continues W p s.heads
  inserted : ∀ p row, s.calls id = .inserted p row →
    Continues W p s.heads ∧ W.signedRow p = some row

structure Witnessed (W : Witness) (s : WitnessState) : Prop where
  chain : Chain W s.heads
  calls : ∀ id, CallOk W s id
  results : ∀ p a, (p, Except.ok a) ∈ s.results → ∃ r, Answers W s.heads p a r

theorem Answers.mono {heads' : List HeadRow} {a : WitnessAcceptance} (h : Answers W heads p a r)
    (hsub : heads ⊆ heads') : Answers W heads' p a r :=
  { h with stored := hsub h.stored }

theorem CallOk.of_phase (h : CallOk W s id) (hph : s.calls id = phase) :
    (∀ p ∈ phase.proposal, W.Admissible p) ∧ (s.lock = some id ↔ phase.Holds) := by
  subst hph
  exact ⟨h.admissible, h.lock⟩

/-- A step of another call leaves a call as it was. -/
theorem CallOk.frame (h : CallOk W s id) (hcl : s'.calls id = s.calls id)
    (hlock : s'.lock = some id ↔ s.lock = some id)
    (hheads : s'.heads = s.heads ∨ s.heads ⊆ s'.heads ∧ s.lock ≠ some id) : CallOk W s' id := by
  refine ⟨?_, ?_, ?_, ?_, ?_⟩
  · rw [hcl]
    exact h.admissible
  · rw [hcl, hlock]
    exact h.lock
  · intro p a hph
    obtain ⟨r, hr⟩ := h.replayed p a (hcl ▸ hph)
    rcases hheads with hheads | ⟨hsub, -⟩
    · exact ⟨r, hheads ▸ hr⟩
    · exact ⟨r, hr.mono hsub⟩
  · intro p hph
    rw [hcl] at hph
    rcases hheads with hheads | ⟨-, hfree⟩
    · rw [hheads]
      exact h.extending p hph
    · exact absurd (h.lock.mpr (by rw [hph]; trivial)) hfree
  · intro p row hph
    rw [hcl] at hph
    rcases hheads with hheads | ⟨-, hfree⟩
    · rw [hheads]
      exact h.inserted p row hph
    · exact absurd (h.lock.mpr (by rw [hph]; trivial)) hfree

theorem set_calls_of_ne {j : Nat} (h : j ≠ id) :
    (s.set id phase).calls j = s.calls j := if_neg h

theorem set_calls_self : (s.set id phase).calls id = phase :=
  if_pos rfl

theorem Witnessed.set (h : Witnessed W s) (hadmi : ∀ p ∈ phase.proposal, W.Admissible p)
    (hlock : s.lock = some id ↔ phase.Holds)
    (hrepl : ∀ p a, phase = .replayed p a → ∃ r, Answers W s.heads p a r)
    (hexte : ∀ p, phase = .extending p → Continues W p s.heads)
    (hinse : ∀ p row, phase = .inserted p row →
      Continues W p s.heads ∧ W.signedRow p = some row) : Witnessed W (s.set id phase) := by
  refine ⟨h.chain, ?_, h.results⟩
  intro j
  by_cases hj : j = id
  · subst hj
    refine ⟨?_, ?_, ?_, ?_, ?_⟩
    all_goals rw [set_calls_self]
    · exact hadmi
    · exact hlock
    · exact hrepl
    · exact hexte
    · exact hinse
  · exact (h.calls j).frame (set_calls_of_ne hj) Iff.rfl (.inl rfl)

theorem Witnessed.finish {result : Except WitnessError WitnessAcceptance} (h : Witnessed W s)
    (hres : ∀ a, result = .ok a → ∃ r, Answers W s.heads p a r) :
    Witnessed W (s.finish id p result) := by
  refine ⟨h.chain, ?_, ?_⟩
  · intro j
    by_cases hj : j = id
    · subst hj
      have hph : (s.finish j p result).calls j = .idle := if_pos rfl
      have hlock : (s.finish j p result).lock ≠ some j := by
        show (if s.lock = some j then none else s.lock) ≠ some j
        split
        · nofun
        · assumption
      refine ⟨?_, ?_, ?_, ?_, ?_⟩
      all_goals rw [hph]
      · nofun
      · exact ⟨fun h => hlock h, fun h => h.elim⟩
      · nofun
      · nofun
      · nofun
    · refine (h.calls j).frame (set_calls_of_ne hj) ?_ (.inl rfl)
      show (if s.lock = some id then none else s.lock) = some j ↔ s.lock = some j
      split
      · next hlock =>
        rw [hlock]
        simp [Ne.symm hj]
      · exact Iff.rfl
  · intro q a hmem
    rcases List.mem_cons.mp hmem with heq | hmem
    · obtain ⟨rfl, hok⟩ := Prod.mk.inj heq
      exact hres a hok.symm
    · exact h.results q a hmem

/-- A replay returns the signature of the stored head of the proposal. -/
theorem replayed_answers {a : WitnessAcceptance} (hchain : Chain W heads) (hp : W.Admissible p)
    (h : W.replayed p (heads.find? fun r => r.treeSize = p.head.treeSize) = .ok a) :
    ∃ r, Answers W heads p a r := by
  cases hfind : heads.find? fun r => r.treeSize = p.head.treeSize with
  | none =>
    rw [hfind] at h
    cases h
  | some stored =>
    have hmem : stored ∈ heads := List.mem_of_find?_eq_some hfind
    rw [hfind] at h
    simp only [Witness.replayed] at h
    split at h
    · cases h
    split at h
    · cases h
    split at h
    · cases h
    next hsame hkey =>
    cases h
    have hcan : stored.canonicalHead = p.canonicalHead := by
      by_contra hne
      exact hsame (.inl hne)
    refine ⟨stored, hmem, ?_, hcan, rfl, ?_⟩
    · have hsto := (hchain.rows stored hmem).canonical
      rw [hcan] at hsto
      exact canonicalTreeHead_injective hsto hp.2.2.1
    · by_contra hne
      exact hkey (.inl hne)

theorem Witnessed.commitInsert {answered : Bool} {row : HeadRow} (h : Witnessed W s)
    (hph : s.calls id = .inserted p row) :
    Witnessed W ({ s with heads := row :: s.heads }.finish id p
      (if answered = true then .ok ⟨row.keyID, row.signature, false⟩ else .error .unavailable)) := by
  have hcall := h.calls id
  have hp : W.Admissible p := hcall.admissible p (by rw [hph]; rfl)
  have hlock : s.lock = some id := hcall.lock.mpr (by rw [hph]; trivial)
  obtain ⟨hcont, hrow⟩ := hcall.inserted p row hph
  have hsub : s.heads ⊆ row :: s.heads := List.subset_cons_self _ _
  have hanswers : Answers W (row :: s.heads) p ⟨row.keyID, row.signature, false⟩ row := by
    obtain ⟨-, -, -, -, -, hcan, -, hkey, -⟩ := signedRow_eq_some hrow
    exact ⟨.head _, storedHead_signedRow hp hrow, hcan, rfl, hkey⟩
  refine ⟨h.chain.cons hp hcont hrow, ?_, ?_⟩
  · intro j
    by_cases hj : j = id
    · subst hj
      refine ⟨?_, ?_, ?_, ?_, ?_⟩
      all_goals rw [show (WitnessState.finish _ j p _).calls j = .idle from if_pos rfl]
      · nofun
      · refine ⟨fun hheld => ?_, fun h => h.elim⟩
        have hfree : (if s.lock = some j then none else s.lock) = some j := hheld
        rw [if_pos hlock] at hfree
        cases hfree
      · nofun
      · nofun
      · nofun
    · refine (h.calls j).frame (set_calls_of_ne hj) ?_ (.inr ⟨hsub, ?_⟩)
      · show (if s.lock = some id then none else s.lock) = some j ↔ s.lock = some j
        rw [if_pos hlock, hlock]
        simp [Ne.symm hj]
      · rw [hlock]
        exact fun heq => hj (Option.some.inj heq).symm
  · intro q a hmem
    rcases List.mem_cons.mp hmem with heq | hmem
    · obtain ⟨rfl, hok⟩ := Prod.mk.inj heq
      split at hok
      · cases hok
        exact ⟨row, hanswers⟩
      · cases hok
    · obtain ⟨r, hr⟩ := h.results q a hmem
      exact ⟨r, hr.mono hsub⟩

theorem Witnessed.fails {e : WitnessError} (h : Witnessed W s) :
    Witnessed W (s.finish id p (.error e)) :=
  h.finish fun _ heq => nomatch heq

theorem Witnessed.step {e : WitnessEvent} (h : Witnessed W s) (hstep : W.perform s e = some s') :
    Witnessed W s' := by
  cases e with
  | call id q =>
    simp only [perform] at hstep
    split at hstep
    · next hph =>
      obtain ⟨-, hlock⟩ := (h.calls id).of_phase hph
      split at hstep
      · next hp =>
        cases hstep
        refine h.set ?_ hlock nofun nofun nofun
        intro p hmem
        cases hmem
        exact hp
      · cases hstep
        exact h.fails
    · cases hstep
  | acquire id =>
    simp only [perform] at hstep
    split at hstep
    · next q hph hfree =>
      cases hstep
      obtain ⟨hp, -⟩ := (h.calls id).of_phase hph
      refine ⟨h.chain, ?_, h.results⟩
      intro j
      by_cases hj : j = id
      · subst hj
        refine ⟨?_, ?_, ?_, ?_, ?_⟩
        all_goals rw [show (WitnessState.calls { s.set j (.locked q) with lock := some j }) j =
          .locked q from if_pos rfl]
        · exact hp
        · exact ⟨fun _ => trivial, fun _ => rfl⟩
        · nofun
        · nofun
        · nofun
      · refine (h.calls j).frame (set_calls_of_ne hj) ?_ (.inl rfl)
        show some id = some j ↔ s.lock = some j
        rw [hfree]
        simp [Ne.symm hj]
    · cases hstep
  | readLatest id now =>
    simp only [perform] at hstep
    split at hstep
    · next q hph =>
      obtain ⟨hp, hlock⟩ := (h.calls id).of_phase hph
      split at hstep
      · cases hstep
        exact h.fails
      · cases hstep
        exact h.set hp hlock nofun nofun nofun
      · next hbranch =>
        cases hstep
        refine h.set hp hlock nofun ?_ nofun
        intro p heq
        obtain rfl := CallPhase.extending.inj heq
        exact branch_extend hbranch h.chain.latest_eq
    · cases hstep
  | readPosition id =>
    simp only [perform] at hstep
    split at hstep
    · next q hph =>
      obtain ⟨hp, hlock⟩ := (h.calls id).of_phase hph
      split at hstep
      · cases hstep
        exact h.fails
      · next accepted hrepl =>
        cases hstep
        refine h.set hp hlock ?_ nofun nofun
        intro p a heq
        obtain ⟨rfl, rfl⟩ := CallPhase.replayed.inj heq
        exact replayed_answers h.chain (hp _ rfl) hrepl
    · cases hstep
  | insert id now =>
    simp only [perform] at hstep
    split at hstep
    · next q hph =>
      obtain ⟨hp, hlock⟩ := (h.calls id).of_phase hph
      split at hstep
      · cases hstep
        exact h.fails
      split at hstep
      · cases hstep
        exact h.fails
      next row hrow =>
      split at hstep
      · cases hstep
        refine h.set hp hlock nofun nofun ?_
        intro p row' heq
        obtain ⟨rfl, rfl⟩ := CallPhase.inserted.inj heq
        exact ⟨(h.calls id).extending _ hph, hrow⟩
      · cases hstep
        exact h.fails
    · cases hstep
  | commitReplay id =>
    simp only [perform] at hstep
    split at hstep
    · next q accepted hph =>
      cases hstep
      refine h.finish fun a heq => ?_
      cases heq
      exact (h.calls id).replayed q accepted hph
    · cases hstep
  | commitInsert id answered =>
    simp only [perform] at hstep
    split at hstep
    · next q row hph =>
      cases hstep
      exact h.commitInsert hph
    · cases hstep
  | abort id =>
    simp only [perform] at hstep
    split at hstep
    · cases hstep
    all_goals
      cases hstep
      exact h.fails

theorem reachable_witnessed (h : W.system.Reachable s) : Witnessed W s := by
  refine h.invariant (P := Witnessed W) ?_ fun _ _ _ _ hs hstep => hs.step hstep
  rintro s ⟨hheads, hlock, hcl, hresults⟩
  refine ⟨?_, ?_, ?_⟩
  · rw [hheads]
    exact ⟨nofun, .nil, nofun⟩
  · intro id
    refine ⟨?_, ?_, ?_, ?_, ?_⟩
    all_goals rw [hcl id]
    · nofun
    · rw [hlock]
      exact ⟨nofun, fun h => h.elim⟩
    · nofun
    · nofun
    · nofun
  · rw [hresults]
    nofun

theorem perform_heads {e : WitnessEvent} (h : W.perform s e = some s') : s.heads <:+ s'.heads := by
  cases e with
  | commitInsert id answered =>
    simp only [perform] at h
    split at h
    · cases h
      exact List.suffix_cons _ _
    · cases h
  | call | acquire | readLatest | readPosition | insert | commitReplay | abort =>
    simp only [perform] at h
    repeat' split at h
    all_goals cases h
    all_goals exact List.suffix_refl _

theorem path_heads (h : W.system.Path s s') : s.heads <:+ s'.heads := by
  induction h with
  | refl => exact List.suffix_refl _
  | tail _ hstep ih => exact ih.trans (perform_heads hstep)

/-- In every run the stored heads are one chain from the empty tree with one head per size, stored
heads stay, and what calls return are signatures of stored heads: those of one size are on one
head. -/
theorem witnessed_heads_chain (h : W.system.Reachable s) :
    Chain W s.heads ∧
    (∀ r ∈ s.heads, ∀ q ∈ s.heads, r.treeSize = q.treeSize → r = q) ∧
    (∀ t, W.system.Path s t → s.heads <:+ t.heads) ∧
    (∀ p a, (p, Except.ok a) ∈ s.results → ∃ r ∈ s.heads, r.treeSize = p.head.treeSize ∧
      W.storedHead r = p.head ∧ r.canonicalHead = p.canonicalHead ∧ a.signature = r.signature ∧
      W.verify r.canonicalHead a.signature = true) ∧
    ∀ p a q b, (p, Except.ok a) ∈ s.results → (q, Except.ok b) ∈ s.results →
      p.head.treeSize = q.head.treeSize → p.head = q.head ∧ a.signature = b.signature := by
  have hs := reachable_witnessed h
  have hsize : ∀ {p : WitnessProposal} {r : HeadRow}, W.storedHead r = p.head →
      r.treeSize = p.head.treeSize := fun heq => congrArg TreeHead.treeSize heq
  refine ⟨hs.chain, fun r hr q hq => hs.chain.eq_of_size hr hq, fun t => path_heads, ?_, ?_⟩
  · intro p a hres
    obtain ⟨r, hr⟩ := hs.results p a hres
    refine ⟨r, hr.stored, hsize hr.head, hr.head, hr.canonical, hr.signature, ?_⟩
    rw [hr.signature]
    exact (hs.chain.rows r hr.stored).signed
  · intro p a q b hp hq hsame
    obtain ⟨r, hr⟩ := hs.results p a hp
    obtain ⟨r', hr'⟩ := hs.results q b hq
    obtain rfl : r = r' := hs.chain.eq_of_size hr.stored hr'.stored
      ((hsize hr.head).trans (hsame.trans (hsize hr'.head).symm))
    exact ⟨hr.head.symm.trans hr'.head, hr.signature.trans hr'.signature.symm⟩

namespace WitnessSample

def witness : Witness where
  environment := "dev"
  keyID := "ed25519-sha256:0000000000000000000000000000000000000000000000000000000000000000"
  sign _ := List.replicate 64 0
  verify _ _ := true
  hash
    | .empty => 0
    | .leaf _ => 1
    | .node left right => left + right
  verify_sign _ := rfl

def head : TreeHead :=
  { domain := "hytch.directory.tree-head/v1", environment := "dev"
    priorRootHash := "0000000000000000000000000000000000000000000000000000000000000000"
    priorTreeSize := 0, protocol := 1
    rootHash := "1111111111111111111111111111111111111111111111111111111111111111"
    timestampMS := 7, treeSize := 1 }

def proposal : WitnessProposal :=
  ⟨head, (canonicalTreeHead head).getD [], [], some 0, some 9⟩

def nextHead : TreeHead :=
  { head with
    priorRootHash := head.rootHash, priorTreeSize := 1
    rootHash := "2222222222222222222222222222222222222222222222222222222222222222"
    timestampMS := 8, treeSize := 2 }

def nextProposal : WitnessProposal :=
  ⟨nextHead, (canonicalTreeHead nextHead).getD [], (decodeHash head.rootHash).toList, some 0, some 9⟩

/-- The head is accepted, accepted again in a second call, and extended in a third. -/
def events : List WitnessEvent :=
  [.call 0 proposal, .call 1 proposal, .acquire 0, .readLatest 0 5, .insert 0 5,
    .commitInsert 0 true, .acquire 1, .readLatest 1 5, .readPosition 1, .commitReplay 1,
    .call 2 nextProposal, .acquire 2, .readLatest 2 5, .insert 2 5, .commitInsert 2 true]

def start : WitnessState := ⟨[], none, fun _ => .idle, []⟩

def run : Option WitnessState :=
  Machine.follow (fun e s => (witness.perform s e).map fun s' => (e, s')) events start

theorem run_reachable (h : run = some s) : witness.system.Reachable s := by
  have hinit : witness.system.init start := ⟨rfl, rfl, fun _ => rfl, rfl⟩
  refine (Machine.Reachable.init hinit).path (Machine.follow_path ?_ h)
  intro e s l s' hnext
  obtain ⟨t, ht, heq⟩ := Option.map_eq_some_iff.mp hnext
  obtain ⟨rfl, rfl⟩ := Prod.mk.inj heq
  exact ht

end WitnessSample

open WitnessSample in
/-- A fresh signature, its replay and an extension. -/
theorem witnessed_heads_chain_sample :
    ∃ s, witness.system.Reachable s ∧ s.results.map (fun r => r.2.toBool) = [true, true, true] ∧
      s.heads.map HeadRow.treeSize = [2, 1] ∧ Chain witness s.heads := by
  obtain ⟨s, hs, hresults, hheads⟩ : ∃ s ∈ run,
      s.results.map (fun r => r.2.toBool) = [true, true, true] ∧
        s.heads.map HeadRow.treeSize = [2, 1] := by
    decide +kernel
  exact ⟨s, run_reachable hs, hresults, hheads, (witnessed_heads_chain (run_reachable hs)).1⟩

end NotificationServer.A3
