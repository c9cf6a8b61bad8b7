import NotificationServer.Trust.Keyset

/-!
# What a chain of rotations guarantees

A rotation check looks at two neighbouring keysets.  Here its effect is carried
along a chain: a key that signs stays published for as long as anything it
signed may be presented, and a key that starts to sign was staged a day ahead.
-/

namespace NotificationServer.Trust

variable {key : OnlineKey} {P : Primitives} {issued expires : Time} {online : List OnlineKey}

def issuedAt (keyset : JsonObject) : Option Time := parseWireTime (objectString keyset "issued_at")

def Publishes (keyset : JsonObject) (state : KeyState) (use : OnlineKeyUse) (key : OnlineKey) :
    Prop :=
  ∃ online, parseOnlineKeys (keyset.lookup "keys") = some online ∧ key ∈ online ∧
    key.use = use.text ∧ key.state = state.text

instance (keyset : JsonObject) (state : KeyState) (use : OnlineKeyUse) (key : OnlineKey) :
    Decidable (Publishes keyset state use key) :=
  decidable_of_iff (((parseOnlineKeys (keyset.lookup "keys")).any fun online =>
      key ∈ online ∧ key.use = use.text ∧ key.state = state.text) = true) <| by
    simp [Publishes, Option.any_eq_true_iff_get, Option.eq_some_iff_get_eq]

/-- How long after its signature an artifact or a token may be presented. -/
def presentable : OnlineKeyUse → Int
  | .artifact => 90 * second
  | .service => 125 * second

theorem retention_text (use : OnlineKeyUse) : retention use.text = presentable use := by
  cases use
  · have h : OnlineKeyUse.artifact.text ≠ OnlineKeyUse.service.text := by decide +kernel
    exact if_neg h
  · exact if_pos rfl

theorem sole_eq_some {p : OnlineKey → Prop} [DecidablePred p] {keys : List OnlineKey}
    (h : sole p keys = some key) : key ∈ keys ∧ p key := by
  unfold sole at h
  split at h
  · next k hk =>
    obtain rfl : k = key := Option.some.inj h
    have hmem : k ∈ keys.filter p := by simp [hk]
    simpa using hmem
  · cases h

/-- A selected key is the only one that matches. -/
theorem eq_of_sole {p : OnlineKey → Prop} [DecidablePred p] {keys : List OnlineKey}
    {other : OnlineKey} (h : sole p keys = some key) (hmem : other ∈ keys) (hp : p other) :
    other = key := by
  unfold sole at h
  split at h
  · next k hk =>
    obtain rfl : k = key := Option.some.inj h
    have hoth : other ∈ keys.filter p := List.mem_filter.mpr ⟨hmem, decide_eq_true hp⟩
    rw [hk] at hoth
    exact List.mem_singleton.mp hoth
  · cases h

theorem sameOnlineKeyMaterial.trans {a b c : OnlineKey} (hab : sameOnlineKeyMaterial a b)
    (hbc : sameOnlineKeyMaterial b c) : sameOnlineKeyMaterial a c := by
  obtain ⟨hid, hpublic, hbef, hafter⟩ := hab
  obtain ⟨hid', hpublic', hbef', hafter'⟩ := hbc
  exact ⟨hid.trans hid', hpublic.trans hpublic', hbef.trans hbef', hafter.trans hafter'⟩

theorem sameOnlineKeyMaterial.refl (key : OnlineKey) : sameOnlineKeyMaterial key key :=
  ⟨rfl, rfl, rfl, rfl⟩

theorem Verdict.ofChecks_eligible {checks : Option Unit} :
    Verdict.ofChecks checks = .eligible ↔ checks = some () := by
  cases checks <;> simp [Verdict.ofChecks]

structure Decodes (P : Primitives) (keyset : JsonObject) (issued expires : Time)
    (online : List OnlineKey) : Prop where
  issuedAt : issuedAt keyset = some issued
  expiresAt : parseWireTime (objectString keyset "expires_at") = some expires
  lifetime : issued < expires ∧ expires - issued ≤ 24 * hour
  keys : parseOnlineKeys (keyset.lookup "keys") = some online
  valid : P.OnlineKeysValid online

theorem validateKeyset_decodes {keyset : JsonObject} {root : Bytes} {rootID environment : String}
    {now : Time} (h : P.validateKeyset keyset root rootID environment now = .eligible) :
    ∃ issued expires online, Decodes P keyset issued expires online := by
  simp only [Primitives.validateKeyset, Verdict.ofChecks_eligible, Option.bind_eq_bind,
    Option.bind_eq_some_iff, Option.guard_eq_some', exists_const] at h
  obtain ⟨-, issued, hiss, expires, hexp, ⟨hlt, hday, -⟩, -, -, online, hkeys, hval, -⟩ :=
    h
  exact ⟨issued, expires, online, hiss, hexp, ⟨hlt, hday⟩, hkeys, hval⟩

theorem Decodes.publishes {keyset : JsonObject} {state : KeyState} {use : OnlineKeyUse}
    (hd : Decodes P keyset issued expires online) :
    Publishes keyset state use key ↔
      key ∈ online ∧ key.use = use.text ∧ key.state = state.text := by
  constructor
  · rintro ⟨online', hkeys, h⟩
    obtain rfl : online = online' := Option.mem_unique hd.keys hkeys
    exact h
  · intro h
    exact ⟨online, hd.keys, h⟩

theorem Decodes.keyID_ne {keyset : JsonObject} (hd : Decodes P keyset issued expires online)
    (hkey : key ∈ online) : key.keyID ≠ "" := by
  obtain ⟨-, -, -, hkeys, -⟩ := hd.valid
  obtain ⟨-, -, -, hid⟩ := hkeys key hkey
  unfold Primitives.ed25519KeyID at hid
  split at hid
  · intro hemp
    rw [hemp] at hid
    have hlen := congrArg String.length (Option.some.inj hid)
    simp at hlen
  · cases hid

/-- A key listed for a use is either signing or not. -/
theorem Decodes.state {keyset : JsonObject} (hd : Decodes P keyset issued expires online)
    (hkey : key ∈ online) :
    key.state = KeyState.sign.text ∨ key.state = KeyState.verifyOnly.text := by
  obtain ⟨-, -, -, hkeys, -⟩ := hd.valid
  exact (hkeys key hkey).2.1

/-- In a valid keyset the key with an ID is the one `OnlineKeyAt` reads. -/
theorem Decodes.onlineKeyAt {keyset : JsonObject} {t : Time}
    (hd : Decodes P keyset issued expires online) (hkey : key ∈ online) (hbef : key.notBefore ≤ t)
    (hafter : t < key.notAfter) : onlineKeyAt keyset key.keyID key.use t = .ok key.publicKey := by
  obtain ⟨-, -, hnd, -⟩ := hd.valid
  have hfd : (online.find? fun k => k.keyID = key.keyID ∧ k.use = key.use) = some key := by
    cases hfind : online.find? fun k => k.keyID = key.keyID ∧ k.use = key.use with
    | none =>
      have hnone := List.find?_eq_none.mp hfind key hkey
      simp at hnone
    | some k =>
      have hk := List.find?_some hfind
      simp only [decide_eq_true_eq] at hk
      have hmem := List.mem_of_find?_eq_some hfind
      rw [List.inj_on_of_nodup_map hnd hmem hkey hk.1]
  have hwindow : ¬ (t < key.notBefore ∨ key.notAfter ≤ t) := by lia
  simp only [Trust.onlineKeyAt, hd.keys, hfd, if_neg hwindow]

/-- What `ValidateOnlineRotation` establishes for one use. -/
structure Rotates (before after : List OnlineKey) (use : String) (issued issued' : Time)
    (oldSign newSign : OnlineKey) : Prop where
  old : soleSigningKeyForUse before use = some oldSign
  new : soleSigningKeyForUse after use = some newSign
  change : (sameOnlineKeyMaterial oldSign newSign ∧
      validateVerifyOnlyContinuity before after use issued issued' "" "") ∨
    ∃ staged oldVerify, oldSign.keyID ≠ newSign.keyID ∧
      findOnlineKey before use oldSign.keyID newSign.keyID = some staged ∧
      staged.state = KeyState.verifyOnly.text ∧ issued + 24 * hour ≤ staged.notBefore ∧
      staged.notBefore ≤ issued' ∧ sameOnlineKeyMaterial staged newSign ∧
      findOnlineKey after use newSign.keyID oldSign.keyID = some oldVerify ∧
      oldVerify.state = KeyState.verifyOnly.text ∧ sameOnlineKeyMaterial oldSign oldVerify ∧
      issued' + retention use ≤ oldVerify.notAfter ∧
      validateVerifyOnlyContinuity before after use issued issued' staged.keyID oldVerify.keyID

theorem validateOnlineRotationForUse_rotates {before after : List OnlineKey} {use : String}
    {issued' : Time} (h : validateOnlineRotationForUse before after use issued issued' = some ()) :
    ∃ oldSign newSign, Rotates before after use issued issued' oldSign newSign := by
  simp only [validateOnlineRotationForUse, Option.bind_eq_bind, Option.bind_eq_some_iff] at h
  obtain ⟨oldSign, hold, newSign, hnew, h⟩ := h
  refine ⟨oldSign, newSign, hold, hnew, ?_⟩
  split at h
  · simp only [Option.bind_eq_some_iff, Option.guard_eq_some', exists_const] at h
    exact .inl h
  · next hne =>
    simp only [Option.bind_eq_some_iff, Option.guard_eq_some', exists_const] at h
    obtain ⟨staged, hstaged, ⟨hver, hday, hiss, hsame⟩, oldVerify, hfind,
      ⟨hst, hmat⟩, hreta, hcont⟩ := h
    refine .inr ⟨staged, oldVerify, hne, hstaged, hver, ?_, hiss, hsame, hfind, hst,
      hmat, hreta, hcont⟩
    lia

theorem validateOnlineRotation_eligible {a b : JsonObject}
    (h : validateOnlineRotation a b = .eligible) :
    ∃ issued issued' before after, issuedAt a = some issued ∧ issuedAt b = some issued' ∧
      parseOnlineKeys (a.lookup "keys") = some before ∧
      parseOnlineKeys (b.lookup "keys") = some after ∧ issued ≤ issued' ∧
      ∀ use : OnlineKeyUse,
        ∃ oldSign newSign, Rotates before after use.text issued issued' oldSign newSign := by
  simp only [validateOnlineRotation, Verdict.ofChecks_eligible, Option.bind_eq_bind,
    Option.bind_eq_some_iff, Option.guard_eq_some', exists_const] at h
  obtain ⟨-, -, -, -, -, issued, hiss, issued', hiss', before, hbef, after, hafter, hle, _,
    harti, hservice⟩ := h
  refine ⟨issued, issued', before, after, hiss, hiss', hbef, hafter, hle, fun use => ?_⟩
  cases use
  · exact validateOnlineRotationForUse_rotates harti
  · exact validateOnlineRotationForUse_rotates hservice

theorem validateOnlineRotation_rotates {a b : JsonObject} {issued' expires' : Time}
    {before after : List OnlineKey} (h : validateOnlineRotation a b = .eligible)
    (ha : Decodes P a issued expires before) (hb : Decodes P b issued' expires' after)
    (use : OnlineKeyUse) :
    issued ≤ issued' ∧
      ∃ oldSign newSign, Rotates before after use.text issued issued' oldSign newSign := by
  obtain ⟨i, i', online, online', hi, hi', honl, honl', hle, hrotates⟩ :=
    validateOnlineRotation_eligible h
  obtain rfl : issued = i := Option.mem_unique ha.issuedAt hi
  obtain rfl : issued' = i' := Option.mem_unique hb.issuedAt hi'
  obtain rfl : before = online := Option.mem_unique ha.keys honl
  obtain rfl : after = online' := Option.mem_unique hb.keys honl'
  exact ⟨hle, hrotates use⟩

section Rotation

variable {P : Primitives} {keyset : JsonObject} {before after : List OnlineKey}
  {issued issued' expires : Time} {use : OnlineKeyUse} {oldSign newSign key : OnlineKey}

/-- The signing key of a use after a rotation: the old one, or one staged a day ahead. -/
theorem Rotates.newSign_origin (h : Rotates before after use.text issued issued' oldSign newSign) :
    sameOnlineKeyMaterial oldSign newSign ∨
      ∃ staged ∈ before, staged.use = use.text ∧ staged.state = KeyState.verifyOnly.text ∧
        sameOnlineKeyMaterial staged newSign ∧ issued + 24 * hour ≤ staged.notBefore ∧
        staged.notBefore ≤ issued' := by
  rcases h.change with ⟨hsame, -⟩ | ⟨staged, -, -, hstaged, hver, hday, hiss, hsame, -⟩
  · exact .inl hsame
  · obtain ⟨hmem, huse, -⟩ := sole_eq_some hstaged
    exact .inr ⟨staged, hmem, huse, hver, hsame, hday, hiss⟩

/-- The old signing key stays published; if it no longer signs, its window covers the retention. -/
theorem Rotates.keeps_sign (h : Rotates before after use.text issued issued' oldSign newSign) :
    ∃ k ∈ after, k.use = use.text ∧ sameOnlineKeyMaterial oldSign k ∧
      (k.state = KeyState.sign.text ∨ issued' + presentable use ≤ oldSign.notAfter) := by
  rcases h.change with ⟨hsame, -⟩ |
    ⟨_, oldVerify, -, -, -, -, -, -, hfind, -, hsame, hreta, -⟩
  · obtain ⟨hmem, huse, hsign⟩ := sole_eq_some h.new
    exact ⟨newSign, hmem, huse, hsame, .inl hsign⟩
  · obtain ⟨hmem, huse, -⟩ := sole_eq_some hfind
    rw [retention_text, ← hsame.2.2.2] at hreta
    exact ⟨oldVerify, hmem, huse, hsame, .inr hreta⟩

theorem KeptVerifyOnly.exists_next (h : KeptVerifyOnly after use.text issued issued' key)
    (hlive : issued' < key.notAfter) :
    ∃ k ∈ after, k.use = use.text ∧ sameOnlineKeyMaterial key k := by
  obtain ⟨-, h⟩ := h
  cases hnext : onlineKeyByID after use.text key.keyID with
  | none =>
    simp only [hnext] at h
    lia
  | some next =>
    simp only [hnext] at h
    obtain ⟨hmem, huse, -⟩ := sole_eq_some hnext
    exact ⟨next, hmem, huse, h.1⟩

/-- A key that only verifies stays published, or starts to sign, while its window lasts. -/
theorem Rotates.keeps_verifyOnly (h : Rotates before after use.text issued issued' oldSign newSign)
    (hd : Decodes P keyset issued expires before) (hkey : key ∈ before) (huse : key.use = use.text)
    (hst : key.state = KeyState.verifyOnly.text) (hlive : issued' < key.notAfter) :
    ∃ k ∈ after, k.use = use.text ∧ sameOnlineKeyMaterial key k := by
  rcases h.change with ⟨-, hcont⟩ |
    ⟨staged, _, hne, hstaged, -, -, -, hsame, -, -, -, -, hcont⟩
  · exact (hcont.1 key hkey huse hst (hd.keyID_ne hkey)).exists_next hlive
  by_cases hprom : key.keyID = staged.keyID
  · -- The promoted key is exempt from the loop, because it signs from now on.
    have hid : key.keyID = newSign.keyID := hprom.trans hsame.1
    have hoth : key.keyID ≠ oldSign.keyID := fun heq => hne (heq.symm.trans hid)
    obtain rfl : key = staged := eq_of_sole hstaged hkey ⟨huse, hoth, hid⟩
    obtain ⟨hmem, huse', -⟩ := sole_eq_some h.new
    exact ⟨newSign, hmem, huse', hsame⟩
  · exact (hcont.1 key hkey huse hst hprom).exists_next hlive

end Rotation

/-- Keysets that are each valid and of which each follows from the one before by a rotation. -/
structure RotationChain (P : Primitives) (chain : List JsonObject) : Prop where
  valid : ∀ keyset ∈ chain, ∃ root rootID environment now,
    P.validateKeyset keyset root rootID environment now = .eligible
  rotation : chain.IsChain fun a b => validateOnlineRotation a b = .eligible

/-- A key is still published, and either signs or outlives the deadline. -/
def Carries (online : List OnlineKey) (use : OnlineKeyUse) (signer : OnlineKey) (deadline : Time) :
    Prop :=
  ∃ key ∈ online, key.use = use.text ∧ sameOnlineKeyMaterial signer key ∧
    (key.state = KeyState.sign.text ∨ deadline < signer.notAfter)

section Chain

variable {P : Primitives} {chain : List JsonObject} {issued issued' : Time} {use : OnlineKeyUse}

theorem RotationChain.decodes (h : RotationChain P chain) {i : Nat} {keyset : JsonObject}
    (hi : chain[i]? = some keyset) :
    ∃ issued expires online, Decodes P keyset issued expires online := by
  obtain ⟨root, rootID, environment, now, hval⟩ := h.valid keyset (List.mem_of_getElem? hi)
  exact validateKeyset_decodes hval

theorem RotationChain.rotates (h : RotationChain P chain) {i : Nat} {a b : JsonObject}
    (ha : chain[i]? = some a) (hb : chain[i + 1]? = some b) :
    validateOnlineRotation a b = .eligible := by
  obtain ⟨hlt, rfl⟩ := List.getElem?_eq_some_iff.mp hb
  obtain ⟨-, rfl⟩ := List.getElem?_eq_some_iff.mp ha
  exact List.isChain_iff_getElem.mp h.rotation i hlt

theorem RotationChain.issued_le (h : RotationChain P chain) {i j : Nat} {a b : JsonObject}
    (hij : i ≤ j) (ha : chain[i]? = some a) (hb : chain[j]? = some b)
    (hiss : issuedAt a = some issued) (hiss' : issuedAt b = some issued') : issued ≤ issued' := by
  induction j, hij using Nat.le_induction generalizing b issued' with
  | base =>
    obtain rfl : a = b := Option.mem_unique ha hb
    obtain rfl : issued = issued' := Option.mem_unique hiss hiss'
    exact le_refl _
  | succ j hij ih =>
    obtain ⟨hlt, -⟩ := List.getElem?_eq_some_iff.mp hb
    have hc : chain[j]? = some chain[j] := List.getElem?_eq_getElem (by omega)
    obtain ⟨mid, expires, before, hmid⟩ := h.decodes hc
    obtain ⟨issued'', expires', after, hd⟩ := h.decodes hb
    obtain rfl : issued' = issued'' := Option.mem_unique hiss' hd.issuedAt
    have hstep := (validateOnlineRotation_rotates (h.rotates hc hb) hmid hd .artifact).1
    exact (ih hc hmid.issuedAt).trans hstep

/-- One rotation of the chain carries a key that is needed until the deadline. -/
theorem Carries.rotate {signer oldSign newSign : OnlineKey} {keyset : JsonObject}
    {before after : List OnlineKey} {expires t : Time}
    (hc : Carries before use signer (t + presentable use))
    (hd : Decodes P keyset issued expires before)
    (h : Rotates before after use.text issued issued' oldSign newSign) (hlat : t < issued')
    (hneeded : issued' ≤ t + presentable use) : Carries after use signer (t + presentable use) := by
  obtain ⟨key, hkey, huse, hsame, hst⟩ := hc
  by_cases hsign : key.state = KeyState.sign.text
  · obtain rfl : key = oldSign := eq_of_sole h.old hkey ⟨huse, hsign⟩
    obtain ⟨k, hk, huse', hsame', hk'⟩ := h.keeps_sign
    refine ⟨k, hk, huse', hsame.trans hsame', hk'.imp id fun hreta => ?_⟩
    have hend : signer.notAfter = key.notAfter := hsame.2.2.2
    lia
  · have hver := (hd.state hkey).resolve_left hsign
    have hlasts := hst.resolve_left hsign
    have hend : signer.notAfter = key.notAfter := hsame.2.2.2
    have hlive : issued' < key.notAfter := by lia
    obtain ⟨k, hk, huse', hsame'⟩ := h.keeps_verifyOnly hd hkey huse hver hlive
    exact ⟨k, hk, huse', hsame.trans hsame', .inr hlasts⟩

/-- A signing key is carried to every keyset issued before the deadline. -/
theorem RotationChain.carries (h : RotationChain P chain) {i j : Nat} {first next last : JsonObject}
    {signer : OnlineKey} {t expires : Time} {online : List OnlineKey} (hij : i ≤ j)
    (hfst : chain[i]? = some first) (hnext : chain[i + 1]? = some next)
    (hlast : chain[j]? = some last) (hsigner : Publishes first .sign use signer)
    (hiss : issuedAt next = some issued) (hlat : t < issued)
    (hd : Decodes P last issued' expires online) (hneeded : issued' ≤ t + presentable use) :
    Carries online use signer (t + presentable use) := by
  induction j, hij using Nat.le_induction generalizing last issued' expires online with
  | base =>
    obtain rfl : first = last := Option.mem_unique hfst hlast
    obtain ⟨hmem, huse, hst⟩ := hd.publishes.mp hsigner
    exact ⟨signer, hmem, huse, .refl signer, .inl hst⟩
  | succ j hij ih =>
    obtain ⟨hlt, -⟩ := List.getElem?_eq_some_iff.mp hlast
    have hc : chain[j]? = some chain[j] := List.getElem?_eq_getElem (by omega)
    obtain ⟨mid, expires', before, hmid⟩ := h.decodes hc
    obtain ⟨hstep, oldSign, newSign, hrot⟩ :=
      validateOnlineRotation_rotates (h.rotates hc hlast) hmid hd use
    have hafter : issued ≤ issued' :=
      h.issued_le (Nat.succ_le_succ hij) hnext hlast hiss hd.issuedAt
    exact (ih hc hmid (by lia)).rotate hmid hrot (by lia) hneeded

/-- A signing key of the chain signed in its first keyset or was staged a day ahead. -/
theorem RotationChain.staged (h : RotationChain P chain) {j : Nat} {keyset : JsonObject}
    {signer : OnlineKey} (hj : chain[j]? = some keyset)
    (hsigner : Publishes keyset .sign use signer) :
    (∃ first key, chain[0]? = some first ∧ Publishes first .sign use key ∧
      sameOnlineKeyMaterial key signer) ∨
    ∃ i < j, ∃ earlier key, chain[i]? = some earlier ∧ Publishes earlier .verifyOnly use key ∧
      sameOnlineKeyMaterial key signer ∧
      ∃ issued ∈ issuedAt earlier, issued + 24 * hour ≤ signer.notBefore := by
  induction j generalizing keyset signer with
  | zero => exact .inl ⟨keyset, signer, hj, hsigner, .refl signer⟩
  | succ j ih =>
    obtain ⟨hlt, -⟩ := List.getElem?_eq_some_iff.mp hj
    have hc : chain[j]? = some chain[j] := List.getElem?_eq_getElem (by omega)
    obtain ⟨issued, expires, before, hd⟩ := h.decodes hc
    obtain ⟨issued', expires', after, hd'⟩ := h.decodes hj
    obtain ⟨-, oldSign, newSign, hrot⟩ :=
      validateOnlineRotation_rotates (h.rotates hc hj) hd hd' use
    obtain ⟨hmem, huse, hst⟩ := hd'.publishes.mp hsigner
    obtain rfl : signer = newSign := eq_of_sole hrot.new hmem ⟨huse, hst⟩
    rcases hrot.newSign_origin with hsame | ⟨key, hkey, huse', hver, hsame, hday, -⟩
    · -- The key signed before as well.
      obtain ⟨holdmem, holduse, holdstate⟩ := sole_eq_some hrot.old
      rcases ih hc (hd.publishes.mpr ⟨holdmem, holduse, holdstate⟩) with
        ⟨first, key, hfst, hkey, hmat⟩ |
        ⟨i, hi, earlier, key, hearlier, hkey, hmat, issued0, hiss0, hday⟩
      · exact .inl ⟨first, key, hfst, hkey, hmat.trans hsame⟩
      · have hbef : oldSign.notBefore = signer.notBefore := hsame.2.2.1
        exact .inr ⟨i, Nat.lt_succ_of_lt hi, earlier, key, hearlier, hkey, hmat.trans hsame,
          issued0, hiss0, hbef ▸ hday⟩
    · have hbef : key.notBefore = signer.notBefore := hsame.2.2.1
      exact .inr ⟨j, Nat.lt_succ_self j, chain[j], key, hc,
        hd.publishes.mpr ⟨hkey, huse', hver⟩, hsame, issued, hd.issuedAt, hbef ▸ hday⟩

end Chain

/-- What a chain of rotations guarantees: whatever the signing key of a use signed while its keyset
was the latest verifies under every later keyset for as long as it may be presented, and every key
that starts to sign was published as VERIFY_ONLY, with the same material, in an earlier keyset
issued a day before its window opens. -/
theorem rotation_keeps_signatures_verifiable (P : Primitives) (chain : List JsonObject)
    (h : RotationChain P chain) :
    (∀ (use : OnlineKeyUse) (i j : Nat) (first next later : JsonObject) (signer : OnlineKey)
        (t issued issuedNext issuedLater : Time),
      i < j → chain[i]? = some first → chain[i + 1]? = some next → chain[j]? = some later →
      Publishes first .sign use signer → issuedAt first = some issued → issued ≤ t →
      issuedAt next = some issuedNext → t < issuedNext →
      signer.notBefore ≤ t → t < signer.notAfter →
      issuedAt later = some issuedLater → issuedLater ≤ t + presentable use →
      onlineKeyAt later signer.keyID use.text t = .ok signer.publicKey) ∧
    (∀ (use : OnlineKeyUse) (j : Nat) (keyset : JsonObject) (signer : OnlineKey),
      chain[j]? = some keyset → Publishes keyset .sign use signer →
      (¬ ∃ first key, chain[0]? = some first ∧ Publishes first .sign use key ∧
        sameOnlineKeyMaterial key signer) →
      ∃ i < j, ∃ earlier key, chain[i]? = some earlier ∧ Publishes earlier .verifyOnly use key ∧
        sameOnlineKeyMaterial key signer ∧
        ∃ issued ∈ issuedAt earlier, issued + 24 * hour ≤ signer.notBefore) := by
  constructor
  · intro use i j first next later signer t issued issuedNext issuedLater hij hfst hnext hlat
      hsigner _ _ hissuedNext ht hbef hafter hissu hneeded
    obtain ⟨issued', expires, online, hd⟩ := h.decodes hlat
    obtain rfl : issuedLater = issued' := Option.mem_unique hissu hd.issuedAt
    obtain ⟨key, hkey, huse, ⟨hid, hpublic, hnb, hna⟩, -⟩ :=
      h.carries hij.le hfst hnext hlat hsigner hissuedNext ht hd hneeded
    rw [hid, hpublic, ← huse]
    exact hd.onlineKeyAt hkey (hnb ▸ hbef) (hna ▸ hafter)
  · intro use j keyset signer hj hsigner hnew
    exact (h.staged hj hsigner).resolve_left hnew

/-! ## A rotation

Two keysets of the dev environment: one that stages a second control key and one that makes it
sign.  Hashes and signatures are stand-ins. -/

namespace Sample

/-- A polynomial in place of SHA-256, and a verifier that accepts every signature. -/
def primitives : Primitives where
  parseStrictJSON _ := none
  sha256 b := b.foldl (fun h x => h * 257 + BitVec.ofNat 256 x.toNat + 1) 0
  ed25519Verify _ _ _ := true

/-- 2026-01-01T00:00:00Z. -/
def start : Time := 1767225600 * second

def keyText (c : Char) : String := String.ofList (c :: List.replicate 42 'A')

def keyID (c : Char) : String :=
  ((decodeBase64URL (keyText c) 32).bind primitives.ed25519KeyID).getD ""

def onlineKey (c : Char) (use : OnlineKeyUse) (state : KeyState) (notBefore notAfter : Time) :
    Json :=
  .object [("key_id", .string (keyID c)), ("not_after", .string (formatWireTime notAfter)),
    ("not_before", .string (formatWireTime notBefore)),
    ("public_key_base64url", .string (keyText c)), ("state", .string state.text),
    ("use", .string use.text)]

def commitmentKey (purpose : CommitmentPurpose) (hash : Bytes32) (epoch : Json) : Json :=
  .object [("key_id", .string ("hmac-sha256:" ++ hexEncode hash)),
    ("not_after", .string (formatWireTime (start + 30 * day))),
    ("not_before", .string (formatWireTime (start - 30 * day))),
    ("purpose", .string purpose.text), ("topic_key_epoch", epoch)]

def keyset (sequence : Nat) (issued expires : Time) (keys : List Json) : JsonObject :=
  [("protocol", .string "hytch.a9-bridge-keyset"), ("schema_version", .number "1"),
    ("environment", .string "dev"), ("root_signature_algorithm", .string "Ed25519"),
    ("root_signing_key_id", .string (keyID 'R')), ("issued_at", .string (formatWireTime issued)),
    ("expires_at", .string (formatWireTime expires)),
    ("keyset_sequence", .number (toString sequence)), ("keys", .array keys),
    ("commitment_keys", .array [commitmentKey .roster 1 .null,
      commitmentKey .topic 2 (.number "682"), commitmentKey .tuple 3 .null]),
    ("root_signature_base64url", .string (String.ofList (List.replicate 86 'A')))]

def serviceKey : Json := onlineKey 'S' .service .sign (start - 30 * day) (start + 30 * day)

/-- Key `B` is staged for a day later. -/
def staging : JsonObject :=
  keyset 1 start (start + day)
    [onlineKey 'A' .artifact .sign (start - 30 * day) (start + 30 * day),
      onlineKey 'B' .artifact .verifyOnly (start + day) (start + 60 * day), serviceKey]

/-- Key `B` signs. -/
def cutover : JsonObject :=
  keyset 2 (start + day) (start + 2 * day)
    [onlineKey 'B' .artifact .sign (start + day) (start + 60 * day),
      onlineKey 'A' .artifact .verifyOnly (start - 30 * day) (start + 30 * day), serviceKey]

def signer : OnlineKey :=
  { keyID := keyID 'A', use := OnlineKeyUse.artifact.text
    publicKey := (decodeBase64URL (keyText 'A') 32).getD []
    notBefore := start - 30 * day, notAfter := start + 30 * day, state := KeyState.sign.text }

theorem keysets_eligible :
    ∀ keyset ∈ [staging, cutover],
    primitives.validateKeyset keyset ((decodeBase64URL (keyText 'R') 32).getD []) (keyID 'R')
      "dev" zeroTime = .eligible := by decide +kernel

theorem rotation : RotationChain primitives [staging, cutover] :=
  ⟨fun keyset hmem => ⟨_, _, _, _, keysets_eligible keyset hmem⟩, by decide +kernel⟩

theorem staging_publishes : Publishes staging .sign .artifact signer := by decide +kernel

theorem staging_issued : issuedAt staging = some start := by decide +kernel

theorem cutover_issued : issuedAt cutover = some (start + day) := by decide +kernel

end Sample

open Sample in
/-- What key `A` signs in the second before the cutover verifies under the keyset that follows. -/
theorem rotation_keeps_signatures_verifiable_sample :
    RotationChain primitives [staging, cutover] ∧
    onlineKeyAt cutover signer.keyID OnlineKeyUse.artifact.text (start + day - second) =
      .ok signer.publicKey := by
  refine ⟨rotation, ?_⟩
  exact (rotation_keeps_signatures_verifiable _ _ rotation).1 .artifact 0 1 staging cutover
    cutover signer _ _ _ _ (by decide) rfl rfl rfl staging_publishes staging_issued (by decide)
    cutover_issued (by decide) (by decide) (by decide) cutover_issued (by decide)

end NotificationServer.Trust
