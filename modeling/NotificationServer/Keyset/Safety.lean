import NotificationServer.Keyset.A10
import NotificationServer.Trust.Rotation

/-!
# Keyset stores under concurrent replicas

Both stores refine an append-only log behind a latch, so what holds of the log
holds under every interleaving of their transactions.
-/

namespace NotificationServer.Keyset

open Trust

/-- The sequence and the hash of an accepted candidate. -/
def KeysetEvent.accepted : KeysetEvent → Option (Nat × String)
  | .accept c _ (.accepted _) => some (c.sequence, c.objectHash)
  | _ => none

def A10.KeysetEvent.accepted (e : A10.KeysetEvent) : Option (Nat × String) :=
  match e.outcome with
  | .accepted _ => some (e.candidate.sequence, e.candidate.objectHash)
  | .rejected _ => none

section Recorded

variable {P : Primitives} {E : Environment} {n : Nat} {hash : String}

theorem a9Keysets_records {s s' : Tables} {e : KeysetEvent} (hs : (a9Keysets P E).Reachable s)
    (hstep : (a9Keysets P E).step s e s') (he : e.accepted = some (n, hash)) :
    ∃ k ∈ s'.fence.log, k.keysetSequence = n ∧ hexEncode k.signedKeysetHash = hash := by
  unfold KeysetEvent.accepted at he
  split at he
  · cases he
    exact ((acceptKeyset_effect (reachable_consistent hs) hstep.2).2 _ rfl).records
  · cases he

theorem a10Keysets_records {s s' : A10.Tables} {e : A10.KeysetEvent}
    (hs : (A10.a10Keysets P E).Reachable s) (hstep : (A10.a10Keysets P E).step s e s')
    (he : e.accepted = some (n, hash)) :
    ∃ k ∈ s'.fence.log, k.keysetSequence = n ∧ hexEncode k.signedKeysetHash = hash := by
  unfold A10.KeysetEvent.accepted at he
  split at he
  · next hout =>
    cases he
    exact (A10.acceptA10Keyset_effect (A10.reachable_consistent hs) hstep.2).2 _ hout
  · cases he

end Recorded

/-- Under every interleaving of their transactions the keyset stores never move backwards.  The A9
store: the sequence never decreases, no two accepted candidates share a sequence but not a hash,
consecutive keysets of the append-only history pass `ValidateOnlineRotation`, and an uncertain
state row never changes again.  The A10 store: the same without the rotation check. -/
theorem keyset_stores_never_roll_back (P : Primitives) (E : Environment) :
    ((∀ s s', (a9Keysets P E).Reachable s → (a9Keysets P E).Path s s' →
        s.sequence ≤ s'.sequence ∧ s.accepted <:+ s'.accepted ∧
        ∀ row, s.state = some row → row.state = .uncertain → s'.state = some row) ∧
      (∀ trace s, (a9Keysets P E).Run trace s →
        ∀ u c now state u' w c' now' state' w', (u, .accept c now (.accepted state), u') ∈ trace →
          (w, .accept c' now' (.accepted state'), w') ∈ trace → c.sequence = c'.sequence →
          c.objectHash = c'.objectHash) ∧
      (∀ s, (a9Keysets P E).Reachable s →
        s.accepted.IsChain fun newer older => Follows P older newer)) ∧
    ((∀ s s', (A10.a10Keysets P E).Reachable s → (A10.a10Keysets P E).Path s s' →
        s.sequence ≤ s'.sequence ∧ s.accepted <:+ s'.accepted ∧
        ∀ row, s.state = some row → row.state = .uncertain → s'.state = some row) ∧
      (∀ trace s, (A10.a10Keysets P E).Run trace s →
        ∀ u c now state u' w c' now' state' w', (u, ⟨c, now, .accepted state⟩, u') ∈ trace →
          (w, ⟨c', now', .accepted state'⟩, w') ∈ trace → c.sequence = c'.sequence →
          c.objectHash = c'.objectHash)) := by
  have ha9 := a9Keysets_refines P E
  have ha10 := A10.a10Keysets_refines P E
  refine ⟨⟨fun s s' hs hp => ⟨?_, ha9.suffix hs hp, fun row hrow hunc => ?_⟩,
    fun trace s hrun u c now state u' w c' now' state' w' h h' hseq =>
      ha9.recorded_unique a9Keysets_records hrun h h' rfl (hseq ▸ rfl),
    fun s hs => (ha9.ordered hs).follows⟩,
    fun s s' hs hp => ⟨?_, ha10.suffix hs hp, fun row hrow hunc => ?_⟩,
    fun trace s hrun u c now state u' w c' now' state' w' h h' hseq =>
      ha10.recorded_unique a10Keysets_records hrun h h' rfl (hseq ▸ rfl)⟩
  · rw [(reachable_consistent hs).sequence, (reachable_consistent (hs.path hp)).sequence]
    exact ha9.level_le hs hp
  · have hlatched : s.fence.latch = some row := Fence.behind_latch.mpr ⟨hrow, hunc⟩
    rw [← ha9.latched hs hp hlatched] at hlatched
    exact (Fence.behind_latch.mp hlatched).1
  · rw [(A10.reachable_consistent hs).sequence, (A10.reachable_consistent (hs.path hp)).sequence]
    exact ha10.level_le hs hp
  · have hlatched : s.fence.latch = some row := Fence.behind_latch.mpr ⟨hrow, hunc⟩
    rw [← ha10.latched hs hp hlatched] at hlatched
    exact (Fence.behind_latch.mp hlatched).1

namespace Sample

open Trust.Sample

/-- The stand-ins of the rotation above, with a parser that knows some objects. -/
def primitives (known : List JsonObject) : Primitives :=
  { Trust.Sample.primitives with
    parseStrictJSON := fun raw =>
      (known.map Json.object).find? fun value => canonicalize value = some raw }

/-- A replica that fetched some keysets accepts them in turn. -/
def accepts (known : List JsonObject) : List KeysetCall :=
  known.filterMap fun object =>
    (candidateOf (primitives known) "dev" (keyID 'R') object).map fun c => .accept c c.issuedAt

def a10Candidate (sequence : Nat) (raw : Bytes) : A10.AcceptedKeyset :=
  { environment := "dev", sequence := sequence, canonicalSignedObject := raw
    objectHash := hexEncode (Trust.Sample.primitives.sha256 raw)
    issuedAt := start, expiresAt := start + day }

def acceptA10 (c : A10.AcceptedKeyset) (s : A10.Tables) : Option (A10.KeysetEvent × A10.Tables) :=
  match A10.acceptA10Keyset Trust.Sample.primitives start c s with
  | .ok (outcome, s') => some (⟨c, start, outcome⟩, s')
  | .error _ => none

theorem acceptA10_step {c : A10.AcceptedKeyset} {s s' : A10.Tables} {e : A10.KeysetEvent}
    (hc : c.environment = "dev") (h : acceptA10 c s = some (e, s')) :
    (A10.a10Keysets Trust.Sample.primitives .dev).step s e s' := by
  unfold acceptA10 at h
  split at h
  · next hok =>
    cases h
    exact ⟨hc, hok⟩
  · cases h

theorem acceptA10_path {candidates : List (Nat × Bytes)} {s s' : A10.Tables}
    (h : Machine.follow (fun c => acceptA10 (a10Candidate c.1 c.2)) candidates s = some s') :
    (A10.a10Keysets Trust.Sample.primitives .dev).Path s s' :=
  Machine.follow_path (fun _ _ _ _ => acceptA10_step rfl) h

end Sample

open Sample Trust.Sample in
/-- Two keysets are accepted and uncertainty is latched, in the A10 store by a conflicting
candidate; a later latch, or a later keyset, changes nothing. -/
theorem keyset_stores_never_roll_back_sample :
    (∃ s s' row, (a9Keysets (primitives [staging, cutover]) .dev).Reachable s ∧
      (a9Keysets (primitives [staging, cutover]) .dev).Path s s' ∧
      (s.accepted.map fun k => k.keysetSequence) = [2, 1] ∧ s.state = some row ∧
      row.state = .uncertain ∧ row.uncertaintyReason = .rotation ∧ s'.state = some row) ∧
    ∃ s s' row, (A10.a10Keysets Trust.Sample.primitives .dev).Reachable s ∧
      (A10.a10Keysets Trust.Sample.primitives .dev).Path s s' ∧
      (s.accepted.map fun k => k.keysetSequence) = [2, 1] ∧ s.state = some row ∧
      row.state = .uncertain ∧ s'.state = some row := by
  obtain ⟨s, hs, hsequ, ⟨row, hrow, hunc, hwhy⟩, s', hs', -⟩ :
      ∃ s ∈ Machine.follow (KeysetCall.perform (primitives [staging, cutover]) .dev)
          (accepts [staging, cutover] ++ [.latch "ONLINE_ROTATION" start]) .empty,
        (s.accepted.map fun k => k.keysetSequence) = [2, 1] ∧
        (∃ row ∈ s.state, row.state = .uncertain ∧ row.uncertaintyReason = .rotation) ∧
        ∃ s' ∈ Machine.follow (KeysetCall.perform (primitives [staging, cutover]) .dev)
          [.latch "KEYSET_ROLLBACK" start] s, True := by
    decide +kernel
  have hreach : (a9Keysets (primitives [staging, cutover]) .dev).Reachable s :=
    Machine.Reachable.path (.init rfl) (Machine.follow_path (fun _ _ _ _ => KeysetCall.perform_step) hs)
  have hpath := Machine.follow_path (fun _ _ _ _ => KeysetCall.perform_step) hs'
  refine ⟨⟨s, s', row, hreach, hpath, hsequ, hrow, hunc, hwhy,
    ((keyset_stores_never_roll_back _ _).1.1 s s' hreach hpath).2.2 row hrow hunc⟩, ?_⟩
  obtain ⟨s, hs, hsequ, ⟨row, hrow, hunc⟩, s', hs', -⟩ :
      ∃ s ∈ Machine.follow (fun c => acceptA10 (a10Candidate c.1 c.2))
          [(1, [1]), (2, [2]), (2, [3])] ⟨[], none⟩,
        (s.accepted.map fun k => k.keysetSequence) = [2, 1] ∧
        (∃ row ∈ s.state, row.state = .uncertain) ∧
        ∃ s' ∈ Machine.follow (fun c => acceptA10 (a10Candidate c.1 c.2)) [(3, [4])] s, True := by
    decide +kernel
  have hreach : (A10.a10Keysets Trust.Sample.primitives .dev).Reachable s :=
    Machine.Reachable.path (.init rfl) (acceptA10_path hs)
  have hpath := acceptA10_path hs'
  exact ⟨s, s', row, hreach, hpath, hsequ, hrow, hunc,
    ((keyset_stores_never_roll_back _ _).2.1 s s' hreach hpath).2.2 row hrow hunc⟩

end NotificationServer.Keyset
