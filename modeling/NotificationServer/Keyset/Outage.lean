import NotificationServer.Keyset.Safety

/-!
# A rotation without an outage

The adapter contract asks for a new key to be published a day before its window
opens and for keysets to follow each other without a gap.  The rotation check
compares a cutover only with the keyset just before it, and asks for the day
there.  A keyset lives for at most a day, so by the time the check would pass,
the keyset before the cutover has expired: no such rotation is ever accepted.
-/

namespace NotificationServer.Keyset

open Relational Trust

def expiresAt (keyset : JsonObject) : Option Time :=
  parseWireTime (objectString keyset "expires_at")

def Overlaps (a b : JsonObject) : Prop :=
  ∃ expires issued, expiresAt a = some expires ∧ issuedAt b = some issued ∧ issued < expires

/-- A rotation without a gap: keysets that do not list the key, keysets that list it as VERIFY_ONLY
and a final one in which it signs. -/
structure RotationPlan (P : Primitives) (root : Bytes) (rootID : String) (E : Environment)
    (use : OnlineKeyUse) (key : OnlineKey) (before staged : List JsonObject) (final : JsonObject) :
    Prop where
  valid : ∀ keyset ∈ before ++ staged ++ [final],
    ∃ now, P.validateKeyset keyset root rootID (environmentText E) now = .eligible
  new : ∀ keyset ∈ before, ∀ state k, Publishes keyset state use k → k.keyID ≠ key.keyID
  first : ∃ keyset issued, staged.head? = some keyset ∧ issuedAt keyset = some issued ∧
    issued + 24 * hour ≤ key.notBefore
  republished : ∀ keyset ∈ staged, Publishes keyset .verifyOnly use key
  overlap : (before ++ staged ++ [final]).IsChain Overlaps
  due : ∃ issued, issuedAt final = some issued ∧ key.notBefore ≤ issued
  signs : ∃ k, Publishes final .sign use k ∧ sameOnlineKeyMaterial key k
  retires : ∃ previous old kept issued, staged.getLast? = some previous ∧
    Publishes previous .sign use old ∧ Publishes final .verifyOnly use kept ∧
    sameOnlineKeyMaterial old kept ∧ issuedAt final = some issued ∧
    issued + presentable use ≤ kept.notAfter

/-- `AcceptKeyset` accepts the candidates one after the other. -/
inductive AcceptsAll (P : Primitives) : List AcceptedKeyset → Tables → Tables → Prop
  | nil (s : Tables) : AcceptsAll P [] s s
  | snoc {cs : List AcceptedKeyset} {c : AcceptedKeyset} {now : Time} {state : KeysetState}
      {s s₁ s₂ : Tables} : AcceptsAll P cs s s₁ →
      acceptKeyset P now c s₁ = .ok (.accepted state, s₂) → AcceptsAll P (cs ++ [c]) s s₂

section Candidates

variable {P : Primitives} {c : AcceptedKeyset} {v : ValidatedCandidate}

/-- A candidate carries what the object decodes to. -/
theorem candidateOf_eq_some {environment rootKeyID : String} {object : JsonObject}
    (h : candidateOf P environment rootKeyID object = some c) :
    issuedAt object = some c.issuedAt ∧ expiresAt object = some c.expiresAt ∧
      parseOnlineKeys (object.lookup "keys") = some c.onlineKeys := by
  simp only [candidateOf, Option.bind_eq_bind, Option.bind_eq_some_iff, Option.some.injEq] at h
  obtain ⟨_, -, _, -, issued, hiss, expires, hexp, online, honl, _, -, rfl⟩ := h
  exact ⟨hiss, hexp, honl⟩

def describe : Json → Option OnlineKey
  | .object object => do
    let publicKey ← decodeBase64URL (objectString object "public_key_base64url") 32
    let notBefore ← parseWireTime (objectString object "not_before")
    let notAfter ← parseWireTime (objectString object "not_after")
    some
      { keyID := objectString object "key_id", use := objectString object "use"
        publicKey := publicKey, notBefore := notBefore, notAfter := notAfter
        state := objectString object "state" }
  | _ => none

def describedKeys (object : JsonObject) : Option (List OnlineKey) :=
  match object.lookup "keys" with
  | some (.array items) => items.mapM describe
  | _ => none

theorem parseOnlineKey_describe {item : Json} {key : OnlineKey}
    (h : parseOnlineKey item = some key) : describe item = some key := by
  cases item with
  | object object =>
    simp only [parseOnlineKey, Option.bind_eq_bind, Option.bind_eq_some_iff,
      Option.guard_eq_some', exists_const] at h
    simp only [describe, Option.bind_eq_bind, Option.bind_eq_some_iff]
    exact h.2
  | _ => cases h

theorem validateA9OnlineKey_describe {sequence : Nat} {item : Json} {expected : OnlineKey}
    {d : OnlineKeyDescriptor} (h : validateA9OnlineKey P sequence (item, expected) = some d) :
    describe item = some expected := by
  cases item with
  | object object =>
    simp only [validateA9OnlineKey, Option.bind_eq_bind, Option.bind_eq_some_iff,
      Option.guard_eq_some', exists_const] at h
    obtain ⟨publicKey, hpublic, notBefore, hbef, notAfter, hafter, -, -, -, -, -, -, -, -, rfl,
      -⟩ := h
    simp only [describe, hpublic, hbef, hafter, Option.bind_eq_bind, Option.bind_some]
  | _ => cases h

theorem mapM_describe_of_parse {items : List Json} {keys : List OnlineKey}
    (h : items.mapM parseOnlineKey = some keys) : items.mapM describe = some keys := by
  induction items generalizing keys with
  | nil => exact h
  | cons item items ih =>
    simp only [List.mapM_cons, Option.bind_eq_bind, Option.bind_eq_some_iff, Option.pure_def,
      Option.some.injEq] at h ⊢
    obtain ⟨key, hkey, rest, hrest, rfl⟩ := h
    exact ⟨key, parseOnlineKey_describe hkey, rest, ih hrest, rfl⟩

theorem mapM_describe_of_validate {sequence : Nat} {items : List Json} {expected : List OnlineKey}
    {ds : List OnlineKeyDescriptor} (hlen : items.length = expected.length)
    (h : (items.zip expected).mapM (validateA9OnlineKey P sequence) = some ds) :
    items.mapM describe = some expected := by
  induction items generalizing expected ds with
  | nil =>
    obtain rfl : expected = [] := List.length_eq_zero_iff.mp hlen.symm
    rfl
  | cons item items ih =>
    cases expected with
    | nil => cases hlen
    | cons key expected =>
      simp only [List.zip_cons_cons, List.mapM_cons, Option.bind_eq_bind, Option.bind_eq_some_iff,
        Option.pure_def, Option.some.injEq] at h ⊢
      obtain ⟨d, hd, rest, hrest, -⟩ := h
      exact ⟨key, validateA9OnlineKey_describe hd, expected, ih (Nat.succ.inj hlen) hrest, rfl⟩

theorem parseOnlineKeys_described {object : JsonObject} {keys : List OnlineKey}
    (h : parseOnlineKeys (object.lookup "keys") = some keys) :
    describedKeys object = some keys := by
  rw [describedKeys]
  cases hraw : object.lookup "keys" with
  | none =>
    rw [hraw] at h
    cases h
  | some value =>
    rw [hraw] at h
    cases value with
    | array items => exact mapM_describe_of_parse h
    | _ => cases h

/-- The object of a validated candidate has the times and the keys the candidate has. -/
theorem validateA9AcceptedKeyset_agrees (h : validateA9AcceptedKeyset P c = some v) :
    issuedAt v.object = some c.issuedAt ∧ expiresAt v.object = some c.expiresAt ∧
      describedKeys v.object = some c.onlineKeys ∧
      P.sha256LowerHex c.canonicalSignedObject = c.objectHash := by
  simp only [validateA9AcceptedKeyset, Option.bind_eq_bind, Option.bind_eq_some_iff,
    Option.guard_eq_some', exists_const, Option.some.injEq] at h
  obtain ⟨-, object, -, ⟨hhash, -⟩, hiss, hexp, _, -, _, -, online, honl, _, -, rfl⟩ := h
  refine ⟨hiss, hexp, ?_, hhash⟩
  unfold validateA9OnlineKeys at honl
  unfold describedKeys
  split at honl
  · next items hitems =>
    simp only [Option.bind_eq_bind, Option.bind_eq_some_iff, Option.guard_eq_some',
      exists_const] at honl
    obtain ⟨hlen, ds, hds, -⟩ := honl
    rw [hitems]
    exact mapM_describe_of_validate hlen hds
  · cases honl

end Candidates

section Chain

variable {P : Primitives} {cs : List AcceptedKeyset} {s s' : Tables}

theorem AcceptsAll.of_snoc {c : AcceptedKeyset} (h : AcceptsAll P (cs ++ [c]) s s') :
    ∃ now state s₁, AcceptsAll P cs s s₁ ∧ acceptKeyset P now c s₁ = .ok (.accepted state, s') := by
  generalize hl : cs ++ [c] = l at h
  cases h with
  | nil => simp at hl
  | @snoc cs' c' now state _ s₁ _ hinit haccept =>
    obtain ⟨rfl, hc⟩ := List.append_inj' hl rfl
    obtain rfl : c = c' := by simpa using hc
    exact ⟨now, state, s₁, hinit, haccept⟩

/-- The latest stored keyset is one of the accepted candidates and expires when the last of them
does. -/
def Latest (P : Primitives) (cs : List AcceptedKeyset) (s : Tables) : Prop :=
  ∃ c v last, s.accepted.head? = some (c.row v) ∧ c ∈ cs ∧ validateA9AcceptedKeyset P c = some v ∧
    cs.getLast? = some last ∧ c.expiresAt = last.expiresAt

/-- What an accepted chain leaves; a candidate accepted again keeps the row that is stored. -/
theorem AcceptsAll.latest (h : AcceptsAll P cs s s') (hs : s = .empty) :
    s'.Consistent ∧ (cs = [] ∧ s' = .empty ∨ Latest P cs s') := by
  induction h with
  | nil s =>
    subst hs
    exact ⟨rfl, .inl ⟨rfl, rfl⟩⟩
  | @snoc cs c now state s s₁ s₂ _ haccept ih =>
    obtain ⟨hcons, hlat⟩ := ih hs
    obtain ⟨heffect, hsto⟩ := acceptKeyset_effect hcons haccept
    refine ⟨heffect.consistent hcons, .inr ?_⟩
    cases hsto state rfl with
    | again _ p _ hhead _ _ hexp hsame =>
      rcases hlat with ⟨-, rfl⟩ | ⟨c', v, last, hhead', hmem, hv, -, -⟩
      · cases hhead
      · obtain rfl : c'.row v = p := Option.mem_unique hhead' hhead
        exact ⟨c', v, c, by rw [hsame, hhead'], List.mem_append_left _ hmem, hv,
          List.getLast?_concat, hexp⟩
    | appended v hv _ hacc =>
      exact ⟨c, v, c, by rw [hacc, List.head?_cons],
        List.mem_append_right _ (List.mem_singleton_self c), hv, List.getLast?_concat, rfl⟩

end Chain

section Plan

variable {P : Primitives} {root : Bytes} {rootID : String} {E : Environment} {use : OnlineKeyUse}
  {key : OnlineKey} {before staged : List JsonObject} {final : JsonObject}

/-- The new key signs in no keyset before the final one. -/
theorem RotationPlan.not_signing (h : RotationPlan P root rootID E use key before staged final)
    {keyset : JsonObject} {issued expires : Time} {online : List OnlineKey} {k : OnlineKey}
    (hmem : keyset ∈ before ++ staged) (hd : Decodes P keyset issued expires online)
    (hk : k ∈ online) (huse : k.use = use.text) (hsign : k.state = KeyState.sign.text) :
    k.keyID ≠ key.keyID := by
  rcases List.mem_append.mp hmem with hmem | hmem
  · exact h.new keyset hmem .sign k (hd.publishes.mpr ⟨hk, huse, hsign⟩)
  intro hid
  obtain ⟨hkey, -, hver⟩ := hd.publishes.mp (h.republished keyset hmem)
  obtain ⟨-, -, hnd, -⟩ := hd.valid
  obtain rfl : k = key := List.inj_on_of_nodup_map hnd hk hkey hid
  rw [hsign] at hver
  exact absurd hver (by decide +kernel)

/-- The contract's rotation is never accepted: whenever a new key is staged a day ahead, stays
published in keysets that follow each other without a gap, and finally becomes the signing key, some
keyset of the chain is not accepted.  The hash only has to tell the keysets of the chain apart. -/
theorem rotation_without_gap_not_accepted (P : Primitives) (root : Bytes) (rootID : String)
    (E : Environment) (use : OnlineKeyUse) (key : OnlineKey) (before staged : List JsonObject)
    (final : JsonObject) (hplan : RotationPlan P root rootID E use key before staged final)
    (cs : List AcceptedKeyset) (c : AcceptedKeyset)
    (hcs : List.Forall₂ (fun object c => candidateOf P (environmentText E) rootID object = some c)
      (before ++ staged) cs)
    (hc : candidateOf P (environmentText E) rootID final = some c)
    (hhash : ∀ c' ∈ cs, c'.objectHash = c.objectHash →
      c'.canonicalSignedObject = c.canonicalSignedObject) :
    ¬ ∃ s, AcceptsAll P (cs ++ [c]) .empty s := by
  rintro ⟨s, hall⟩
  obtain ⟨now, state, s₁, hinit, haccept⟩ := hall.of_snoc
  obtain ⟨hcons, hlat⟩ := hinit.latest rfl
  obtain ⟨first, -, hfst, -⟩ := hplan.first
  have hnone : cs ≠ [] := by
    rintro rfl
    cases List.append_eq_nil_iff.mp (List.forall₂_nil_right_iff.mp hcs) |>.2 ▸ hfst
  obtain ⟨q, v, last, hhead, hq, hv, hlast, hexp⟩ :=
    hlat.resolve_left fun h => hnone h.1
  -- The stored keyset `q` and the final one, as they decode.
  obtain ⟨object, hobj, hqobject⟩ := forall₂_exists_left hcs hq
  obtain ⟨_, hval⟩ := hplan.valid object (List.mem_append_left _ hobj)
  obtain ⟨issued, expires, online, hd⟩ := validateKeyset_decodes hval
  obtain ⟨hqissued, hqexp, hqonline⟩ := candidateOf_eq_some hqobject
  obtain rfl : issued = q.issuedAt := Option.mem_unique hd.issuedAt hqissued
  obtain rfl : expires = q.expiresAt := Option.mem_unique hd.expiresAt hqexp
  obtain rfl : online = q.onlineKeys := Option.mem_unique hd.keys hqonline
  obtain ⟨hcissued, -, hconline⟩ := candidateOf_eq_some hc
  obtain ⟨signer, ⟨online', honl', hsigner, hsigneruse, hsign⟩, hmat⟩ := hplan.signs
  obtain rfl : c.onlineKeys = online' := Option.mem_unique hconline honl'
  -- The final keyset is issued before `q` expires.
  obtain ⟨previous, hprev, hplast⟩ := forall₂_getLast? hcs hlast
  obtain ⟨e, i, he, hi, hlt⟩ :=
    (List.isChain_append.mp hplan.overlap).2.2 previous hprev final rfl
  obtain rfl : e = last.expiresAt :=
    Option.some.inj (he.symm.trans (candidateOf_eq_some hplast).2.1)
  obtain rfl : i = c.issuedAt := Option.mem_unique hi hcissued
  obtain ⟨i, hi, hdue⟩ := hplan.due
  obtain rfl : c.issuedAt = i := Option.mem_unique hcissued hi
  obtain ⟨hqobject', hqhash⟩ := validateA9AcceptedKeyset_eq_some hv
  obtain ⟨hvissued, -, hvkeys, -⟩ := validateA9AcceptedKeyset_agrees hv
  cases (acceptKeyset_effect hcons haccept).2 state rfl with
  | again w p hw hhead' _ hphash _ _ =>
    -- The final keyset would be the stored one, in which the new key does not sign.
    obtain rfl : q.row v = p := Option.mem_unique hhead hhead'
    have hbytes := hhash q hq (hqhash.symm.trans hphash)
    obtain ⟨hwobject, -⟩ := validateA9AcceptedKeyset_eq_some hw
    rw [← hbytes, hqobject'] at hwobject
    have hsame : v.object = w.object := Option.some.inj hwobject
    obtain ⟨-, -, hwkeys, -⟩ := validateA9AcceptedKeyset_agrees hw
    rw [← hsame, hvkeys] at hwkeys
    have honlines : q.onlineKeys = c.onlineKeys := Option.some.inj hwkeys
    exact hplan.not_signing hobj hd (honlines ▸ hsigner) hsigneruse hsign
      hmat.1.symm
  | appended w hw hlater _ =>
    obtain ⟨-, previous', object', hparse, hparse', hrota⟩ := hlater _ hhead
    obtain rfl : v.object = previous' := Option.mem_unique hqobject' hparse
    obtain rfl : w.object = object' :=
      Option.some.inj ((validateA9AcceptedKeyset_eq_some hw).1.symm.trans hparse')
    obtain ⟨hwissued, -, hwkeys, -⟩ := validateA9AcceptedKeyset_agrees hw
    obtain ⟨i, i', online, online', hi, hi', honl, honl', -, hrotates⟩ :=
      validateOnlineRotation_eligible hrota
    obtain rfl : q.issuedAt = i := Option.mem_unique hvissued hi
    obtain rfl : c.issuedAt = i' := Option.mem_unique hwissued hi'
    obtain rfl : q.onlineKeys = online :=
      Option.mem_unique hvkeys (parseOnlineKeys_described honl)
    obtain rfl : c.onlineKeys = online' :=
      Option.mem_unique hwkeys (parseOnlineKeys_described honl')
    obtain ⟨oldSign, newSign, hrot⟩ := hrotates use
    obtain rfl : signer = newSign := eq_of_sole hrot.new hsigner ⟨hsigneruse, hsign⟩
    rcases hrot.newSign_origin with hsame | ⟨k, -, -, -, hk, hday, -⟩
    · obtain ⟨hold, holduse, holdstate⟩ := sole_eq_some hrot.old
      exact hplan.not_signing hobj hd hold holduse holdstate
        (hsame.1.trans hmat.1.symm)
    · -- A day after `q` was issued it has expired.
      have hst : k.notBefore = key.notBefore := hk.2.2.1.trans hmat.2.2.1.symm
      have hlife := hd.lifetime.2
      lia

end Plan

/-! ## A rotation that fails

Key `B` is published a day ahead and published again after twelve hours.  The keyset that lets it
sign comes in time for both keysets before it. -/

namespace Sample

open Trust.Sample

def stagedKeys : List Json :=
  [onlineKey 'A' .artifact .sign (start - 30 * day) (start + 30 * day),
    onlineKey 'B' .artifact .verifyOnly (start + day) (start + 60 * day), serviceKey]

def republished : JsonObject := keyset 2 (start + 12 * hour) (start + 36 * hour) stagedKeys

def promoted : JsonObject :=
  keyset 3 (start + day) (start + 2 * day)
    [onlineKey 'B' .artifact .sign (start + day) (start + 60 * day),
      onlineKey 'A' .artifact .verifyOnly (start - 30 * day) (start + 30 * day), serviceKey]

def nextKey (state : KeyState) : OnlineKey :=
  { keyID := keyID 'B', use := OnlineKeyUse.artifact.text
    publicKey := (decodeBase64URL (keyText 'B') 32).getD []
    notBefore := start + day, notAfter := start + 60 * day, state := state.text }

def rotationPrimitives : Primitives := primitives [staging, republished, promoted]

theorem rotationPlan :
    RotationPlan rotationPrimitives ((decodeBase64URL (keyText 'R') 32).getD []) (keyID 'R') .dev
      .artifact (nextKey .verifyOnly) [] [staging, republished] promoted where
  valid := by
    have hval : ∀ k ∈ [staging, republished, promoted],
        rotationPrimitives.validateKeyset k ((decodeBase64URL (keyText 'R') 32).getD []) (keyID 'R')
          (environmentText .dev) zeroTime = .eligible := by decide +kernel
    exact fun k hk => ⟨zeroTime, hval k hk⟩
  new := by simp
  first := ⟨staging, start, rfl, by decide +kernel, by decide⟩
  republished := by decide +kernel
  overlap := by
    have h : Overlaps staging republished :=
      ⟨start + day, start + 12 * hour, by decide +kernel, by decide +kernel, by decide⟩
    have h' : Overlaps republished promoted :=
      ⟨start + 36 * hour, start + day, by decide +kernel, by decide +kernel, by decide⟩
    exact .cons_cons h (.cons_cons h' (.singleton _))
  due := ⟨start + day, by decide +kernel, by decide⟩
  signs := ⟨nextKey .sign, by decide +kernel, by decide +kernel⟩
  retires := ⟨republished, signer, { signer with state := KeyState.verifyOnly.text }, start + day,
    rfl, by decide +kernel, by decide +kernel, by decide +kernel, by decide +kernel, by decide⟩

end Sample

open Sample Trust.Sample in
/-- The last keyset of the rotation is rejected and the store latches uncertainty for good. -/
theorem rotation_without_gap_latches :
    RotationPlan rotationPrimitives ((decodeBase64URL (keyText 'R') 32).getD []) (keyID 'R') .dev
      .artifact (nextKey .verifyOnly) [] [staging, republished] promoted ∧
    (Machine.follow (KeysetCall.perform rotationPrimitives .dev)
      (accepts [staging, republished, promoted]) .empty).any (fun s =>
        (s.accepted.map fun k => k.keysetSequence) = [2, 1] ∧
        (s.state.any fun row => row.state = .uncertain ∧ row.uncertaintyReason = .rotation) =
          true) = true :=
  ⟨rotationPlan, by decide +kernel⟩

open Sample Trust.Sample in
theorem rotation_without_gap_not_accepted_sample :
    ∃ cs c, List.Forall₂ (fun object c => candidateOf rotationPrimitives (environmentText .dev)
        (keyID 'R') object = some c) [staging, republished] cs ∧
      candidateOf rotationPrimitives (environmentText .dev) (keyID 'R') promoted = some c ∧
      ¬ ∃ s, AcceptsAll rotationPrimitives (cs ++ [c]) .empty s := by
  have hdist : ∀ object ∈ [staging, republished],
      (candidateOf rotationPrimitives (environmentText .dev) (keyID 'R') object).any (fun c' =>
        (candidateOf rotationPrimitives (environmentText .dev) (keyID 'R') promoted).any fun c =>
          c'.objectHash ≠ c.objectHash) = true := by decide +kernel
  have hcand : ∀ object ∈ [staging, republished],
      ∃ c', candidateOf rotationPrimitives (environmentText .dev) (keyID 'R') object = some c' :=
    fun object hmem => ((Option.any_eq_true _ _).mp (hdist object hmem)).imp fun _ h => h.1
  obtain ⟨cs, hcs⟩ := exists_forall₂ hcand
  obtain ⟨_, -, hfin⟩ := (Option.any_eq_true _ _).mp (hdist staging (by simp))
  obtain ⟨c, hc, -⟩ := (Option.any_eq_true _ _).mp hfin
  refine ⟨cs, c, hcs, hc, rotation_without_gap_not_accepted _ _ _ _ _ _ _ _ _ rotationPlan cs c hcs
    hc fun c' hc' heq => ?_⟩
  obtain ⟨object, hobj, hsome⟩ := forall₂_exists_left hcs hc'
  have hne := hdist object hobj
  simp only [hsome, hc, Option.any_some, decide_eq_true_eq] at hne
  exact absurd heq hne

end NotificationServer.Keyset
