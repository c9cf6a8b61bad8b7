import NotificationServer.A9.Current
import NotificationServer.A9.Denial
import NotificationServer.A9.Publication

/-!
# What a current route rests on

The current-route check compares a snapshot with rows.  Every row it looks at
was put there by a step of the run: the event behind the assertion and those
before it by applied controls, the watermark by its acceptance, the routes of
the generation by an applied replacement.  A latch would have made the row
uncertain, and only a replacement, which moves the generation on, makes it
active again.
-/

namespace NotificationServer

open Relational Tx

def AuthorityWrite.Latches : AuthorityWrite → Prop
  | .created state _ => state = .uncertain
  | .latched _ | .reset _ => True
  | .watermarkStored status => status = .uncertain
  | .cursorAdvanced | .replaced => False

namespace Store

variable {S : Store} {r : A9Result} {db' : Db} {trace : List (Sys × Event × Sys)}

def Applies (S : Store) (s : Sys) (e : Event) (s' : Sys) (event : VerifiedControl) : Prop :=
  ∃ c r t, e.op = .applyControl c event ∧ S.applyControl c event s.session = .ok (r, t) ∧
    t.vault = s'.vault ∧ r.outcome = .applied

def Accepts (s : Sys) (e : Event) (s' : Sys) (w : VerifiedWatermark) : Prop :=
  (∃ c, e.op = .applyWatermark c w) ∧ w.row ∉ s.db.watermarks ∧ w.row ∈ s'.db.watermarks

/-- An answer to a key that was seen before touches the authority row at most. -/
theorem Answer.eq_or_first {γ : Type} {g : Db → γ}
    (hg : ∀ (db : Db) (i : Bytes16) (f : AuthorityRow → AuthorityRow),
      g (db.updateAuthority i f) = g db) {k : RequestKey} {now : Time} {a : AuthorityRow} {db : Db}
    {First : A9Result → Db → Prop} (h : S.Answer k now a db First r db') :
    g db' = g db ∨ First r db' := by
  cases h with
  | replayed => exact .inl rfl
  | misused => exact .inl (hg _ _ _)
  | first _ h => exact .inr h

theorem Refused.streams {k : RequestKey} {now : Time} {db : Db} (h : Refused k now db r db') :
    db'.controlEvents = db.controlEvents ∧ db'.watermarks = db.watermarks := by
  obtain ⟨-, latch, rfl⟩ := h
  cases latch with
  | _ => exact ⟨rfl, rfl⟩

/-- A first-seen event is stored if it is applied, and no watermark is. -/
theorem FirstControl.streams {event : VerifiedControl} {now : Time} {db : Db}
    (h : FirstControl event now db r db') :
    (db'.controlEvents = db.controlEvents ∨ r.outcome = .applied ∧
      ∃ contiguous, db'.controlEvents = event.row contiguous :: db.controlEvents) ∧
    db'.watermarks = db.watermarks := by
  obtain ⟨db1, hreb, h⟩ := h
  have hdb1 : db1.controlEvents = db.controlEvents ∧ db1.watermarks = db.watermarks := by
    cases hreb with
    | _ => exact ⟨rfl, rfl⟩
  rw [← hdb1.1, ← hdb1.2]
  rcases h with h | h
  · exact ⟨.inl h.streams.1, h.streams.2⟩
  · exact ⟨.inr ⟨h.outcome, h.controlEvents⟩, h.watermarks⟩

theorem FirstReplace.streams {clock : Clock} {random : Bytes → LeaseDraw} {request : ReplaceRequest}
    {keyset : KeysetReceipt} {a : AuthorityRow} {db : Db}
    (h : S.FirstReplace clock random request keyset a db r db') :
    db'.controlEvents = db.controlEvents ∧ db'.watermarks = db.watermarks := by
  rcases h with h | ⟨w, normalized, routes, -, t, t', rfl, rfl, h⟩
  · exact h.streams
  · obtain ⟨⟨rows, -, hled⟩, -⟩ := publishA9ReplaceTx_ok h
    exact ⟨(congrArg Ledger.controlEvents hled :), (congrArg Ledger.watermarks hled :)⟩

/-- What a transaction does to the stored events and the watermark history. -/
theorem body_streams {op : Op} {s s' : Session} (h : S.body op s = .ok ((), s')) :
    (s'.db.controlEvents = s.db.controlEvents ∨ ∃ c event r contiguous,
      op = .applyControl c event ∧ S.applyControl c event s = .ok (r, s') ∧
      r.outcome = .applied ∧ s'.db.controlEvents = event.row contiguous :: s.db.controlEvents) ∧
    (s'.db.watermarks = s.db.watermarks ∨ ∃ c w,
      op = .applyWatermark c w ∧ s'.db.watermarks = w.row :: s.db.watermarks) := by
  by_cases hop : (∀ c e, op ≠ .applyControl c e) ∧ (∀ c w, op ≠ .applyWatermark c w) ∧
      ∀ c random r k, op ≠ .replace c random r k
  · obtain ⟨hled, -⟩ := body_keeps_ledger h hop.1 hop.2.1 hop.2.2
    exact ⟨.inl (congrArg Ledger.controlEvents hled), .inl (congrArg Ledger.watermarks hled)⟩
  cases op with
  | applyControl c event =>
    obtain ⟨r, h⟩ := dropped_ok h
    obtain ⟨-, -, a, db1, hopens, hans⟩ := applyControl_answer h
    have hdb1 : db1.controlEvents = s.db.controlEvents ∧ db1.watermarks = s.db.watermarks := by
      rw [hopens.others]
      exact ⟨rfl, rfl⟩
    rw [← hdb1.1, ← hdb1.2]
    rcases hans.eq_or_first (g := fun db => (db.controlEvents, db.watermarks))
      (fun _ _ _ => rfl) with heq | hfst
    · exact ⟨.inl (congrArg Prod.fst heq), .inl (congrArg Prod.snd heq)⟩
    · obtain ⟨hev | ⟨happ, contiguous, hev⟩, hmarks⟩ := hfst.streams
      · exact ⟨.inl hev, .inl hmarks⟩
      · exact ⟨.inr ⟨c, event, r, contiguous, rfl, h, happ, hev⟩, .inl hmarks⟩
  | applyWatermark c w =>
    obtain ⟨r, h⟩ := dropped_ok h
    obtain ⟨-, a, db1, hopens, hans⟩ := applyWatermark_answer h
    have hdb1 : db1.controlEvents = s.db.controlEvents ∧ db1.watermarks = s.db.watermarks := by
      rw [hopens.others]
      exact ⟨rfl, rfl⟩
    rw [← hdb1.1, ← hdb1.2]
    generalize s'.db = db' at hans ⊢
    cases hans with
    | repeated | ignored | latched => exact ⟨.inl rfl, .inl rfl⟩
    | stored => exact ⟨.inl rfl, .inr ⟨c, w, rfl, rfl⟩⟩
  | replace c random request keyset =>
    obtain ⟨r, h⟩ := dropped_ok h
    obtain ⟨-, -, a, db1, hopens, hans⟩ := replace_answer h
    have hdb1 : db1.controlEvents = s.db.controlEvents ∧ db1.watermarks = s.db.watermarks := by
      rw [hopens.others]
      exact ⟨rfl, rfl⟩
    rw [← hdb1.1, ← hdb1.2]
    rcases hans.eq_or_first (g := fun db => (db.controlEvents, db.watermarks))
      (fun _ _ _ => rfl) with heq | hfst
    · exact ⟨.inl (congrArg Prod.fst heq), .inl (congrArg Prod.snd heq)⟩
    · exact ⟨.inl hfst.streams.1, .inl hfst.streams.2⟩
  | _ => exact absurd (by simp) hop

/-- Every stored event was applied in the run. -/
theorem exists_applies {s : Sys} (h : S.system.Run trace s) {ev : ControlEventRow}
    (hev : ev ∈ s.db.controlEvents) :
    ∃ u e u', (u, e, u') ∈ trace ∧ ∃ event contiguous, S.Applies u e u' event ∧
      ev = event.row contiguous := by
  obtain ⟨u, e, u', hmem, ⟨-, ⟨t, hbody, hvault, -⟩, -⟩, hold, hnew⟩ :=
    h.exists_step (P := fun s => ev ∈ s.db.controlEvents)
      (fun s hs => by rw [hs.1]; simp [Db.empty]) hev
  have hdb : u'.db = t.db := congrArg Vault.db hvault.symm
  rw [hdb] at hnew
  rcases (body_streams hbody).1 with heq | ⟨c, event, r, contiguous, hop, happly, happ, heq⟩
  · exact absurd (heq ▸ hnew) hold
  · rw [heq] at hnew
    rcases List.mem_cons.mp hnew with hrow | hmem'
    · exact ⟨u, e, u', hmem, event, contiguous, ⟨c, r, t, hop, happly, hvault, happ⟩, hrow⟩
    · exact absurd hmem' hold

/-- Every watermark of the history was accepted in the run. -/
theorem exists_accepts {s : Sys} (h : S.system.Run trace s) {x : WatermarkRow}
    (hx : x ∈ s.db.watermarks) :
    ∃ u e u', (u, e, u') ∈ trace ∧ ∃ w, Accepts u e u' w ∧ x = w.row := by
  obtain ⟨u, e, u', hmem, ⟨-, ⟨t, hbody, hvault, -⟩, -⟩, hold, hnew⟩ :=
    h.exists_step (P := fun s => x ∈ s.db.watermarks)
      (fun s hs => by rw [hs.1]; simp [Db.empty]) hx
  have hdb : u'.db = t.db := congrArg Vault.db hvault.symm
  have hnew' : x ∈ t.db.watermarks := hdb ▸ hnew
  rcases (body_streams hbody).2 with heq | ⟨c, w, hop, heq⟩
  · exact absurd (heq ▸ hnew') hold
  · rw [heq] at hnew'
    rcases List.mem_cons.mp hnew' with rfl | hmem'
    · exact ⟨u, e, u', hmem, w, ⟨⟨c, hop⟩, hold, hnew⟩, rfl⟩
    · exact absurd hmem' hold

end Store

namespace Ledger

variable {L L' : Ledger} {i E : Bytes16} {ws : List AuthorityWrite} {a a' : AuthorityRow}

/-- Without a replacement a row that ends active was active, and nothing latched it. -/
theorem RowDecided.active (h : RowDecided E a ws a') (hno : .replaced ∉ ws)
    (hact : a'.state = .active) : a.state = .active ∧ ∀ w ∈ ws, ¬ w.Latches := by
  cases h with
  | unchanged => exact ⟨hact, by simp⟩
  | latched => exact absurd hact (by simp [AuthorityRow.latched])
  | advanced => exact ⟨hact, by simp [AuthorityWrite.Latches]⟩
  | watermarked w now =>
    unfold AuthorityRow.withWatermark at hact
    cases hstat : w.status with
    | uncertain =>
      simp only [hstat] at hact
      cases hact
    | current =>
      simp only [hstat] at hact
      exact ⟨hact, by simp [AuthorityWrite.Latches]⟩
  | replaced => exact absurd List.mem_cons_self hno

theorem Transaction.active (h : Transaction i E L ws L') (hno : .replaced ∉ ws) (hrow : L.Row i a)
    (hrow' : L'.Row i a') (hact : a'.state = .active) :
    a.state = .active ∧ ∀ w ∈ ws, ¬ w.Latches := by
  obtain ⟨a0, b, opened, decided, hb, hopen, hdecided⟩ := h.row_self
  obtain rfl := hb.eq hrow'
  rcases hopen with ⟨hrow0, rfl⟩ | ⟨_, _, _, hnone, -⟩
  · obtain rfl := hrow.eq hrow0
    rcases hdecided with ⟨rfl, hdec⟩ | ⟨-, rfl, now, hdec⟩
    · rw [List.append_nil] at hno ⊢
      exact hdec.active hno hact
    · have hreset := (hdec.active (fun hmem => hno (List.mem_append_left _ hmem)) hact).1
      exact absurd hreset (by simp [AuthorityRow.reset])
  · exact absurd hrow.2.1 (hnone a hrow.1)

/-- Without a replacement routes are only deleted. -/
theorem Transaction.routes (h : Transaction i E L ws L') (hno : .replaced ∉ ws) :
    ∀ r ∈ L'.routes, r ∈ L.routes := by
  cases h with
  | @mk L1 L2 _ opened rebased decided ho hr hd =>
    have h1 : L1.routes = L.routes := by
      cases ho with
      | _ => rfl
    have h2 : ∀ r ∈ L2.routes, r ∈ L1.routes := by
      intro r hr'
      cases hr with
      | stayed => exact hr'
      | moved => exact (mem_deleteWhere.mp hr').1
    have h3 : ∀ r ∈ L'.routes, r ∈ L2.routes := by
      intro r hr'
      cases hd with
      | unchanged | latched => exact hr'
      | deniedAcrossGap => exact (mem_deleteWhere.mp hr').1
      | upsertApplied => exact hr'
      | revokeApplied => exact (mem_deleteWhere.mp hr').1
      | watermarkStored => exact hr'
      | replaced => exact absurd (by simp) hno
    intro r hr'
    rw [← h1]
    exact h2 r (h3 r hr')

end Ledger

def ReplaceSubscription.Names (sub : ReplaceSubscription) (columns : RouteColumns) : Prop :=
  columns.bindingID = sub.bindingID ∧ columns.bindingVersion = sub.bindingVersion ∧
  columns.assertion.assertionHash = sub.assertionHash ∧
  columns.assertion.topicKeyEpoch = sub.topicKeyEpoch ∧
  columns.assertion.topicBinding = sub.topicBinding ∧ columns.routeKeyEpoch = sub.routeKeyEpoch

namespace Store

variable {S : Store}

/-- What a step that does not replace the routes of an installation leaves of them. -/
structure StandsBy (i : Bytes16) (s : Sys) (e : Event) (s' : Sys) : Prop where
  generation : s'.db.generation i = s.db.generation i
  routes : ∀ r ∈ s'.db.routesOf i, r ∈ s.db.routesOf i
  active : ∀ a a', s.db.authority i = some a → s'.db.authority i = some a' → a'.state = .active →
    a.state = .active ∧ ∀ w, (i, w) ∈ e.writes → ¬ w.Latches

/-- A step replaces the routes of the installation or stands by them. -/
theorem step_replaces_or_stands {s s' : Sys} {e : Event} (hs : S.system.Reachable s)
    (hst : S.system.step s e s') (i : Bytes16) :
    (∃ request, S.Replaces s e s' request ∧ request.installationBindingID = i) ∨
      StandsBy i s e s' := by
  rcases step_records hst with ⟨hled, hwr⟩ | ⟨j, E, ws, htx, hwr, hinst, -, hrepl⟩
  · -- The ledger is left alone.
    have hauths : s'.db.authorities = s.db.authorities :=
      congrArg Ledger.authorities hled
    refine .inr ⟨congrFun (Db.generation_congr hauths) i, fun r hr => ?_, ?_⟩
    · have hrts : s'.db.routes = s.db.routes := congrArg Ledger.routes hled
      unfold Db.routesOf at hr ⊢
      rwa [hrts] at hr
    · intro a a' ha ha' hact
      unfold Db.authority at ha'
      rw [hauths] at ha'
      obtain rfl := Option.mem_unique ha ha'
      exact ⟨hact, by simp [hwr]⟩
  -- The statements of the step are on the row of `j`.
  have hoth : i ≠ j → ∀ w, (i, w) ∉ e.writes := by
    intro hij w hmem
    rw [hwr] at hmem
    obtain ⟨w', -, heq⟩ := List.mem_map.mp hmem
    exact hij (congrArg Prod.fst heq).symm
  have hsame : i ≠ j → ∀ a a', s.db.authority i = some a → s'.db.authority i = some a' →
      a'.state = .active → a.state = .active ∧ ∀ w, (i, w) ∈ e.writes → ¬ w.Latches := by
    intro hij a a' ha ha' hact
    have hrow := (htx.row_ne hij).mp (s'.vault.valid.row ha')
    obtain rfl := (s.vault.valid.row ha).eq hrow
    exact ⟨hact, fun w hw => absurd hw (hoth hij w)⟩
  by_cases hmem : .replaced ∈ ws
  · obtain ⟨request, hrep⟩ := hrepl hmem
    have hj : request.installationBindingID = j := by
      obtain ⟨c, random, keyset, r, t, hop, -⟩ := hrep
      rw [hop] at hinst
      exact Option.some.inj hinst
    by_cases hij : i = j
    · exact .inl ⟨request, hrep, hj.trans hij.symm⟩
    · obtain ⟨now, hpub⟩ := hrep.published hs
      obtain ⟨hgen, hrts⟩ := hpub.others i (hj ▸ hij)
      exact .inr ⟨hgen, fun r hr => hrts ▸ hr, hsame hij⟩
  · refine .inr ⟨Db.generation_transaction s.vault.valid s'.vault.valid htx hmem i, ?_, ?_⟩
    · intro r hr
      obtain ⟨hr, hof⟩ := List.mem_filter.mp hr
      exact List.mem_filter.mpr ⟨htx.routes hmem r hr, hof⟩
    · by_cases hij : i = j
      · subst hij
        intro a a' ha ha' hact
        obtain ⟨hstate, hws⟩ := htx.active hmem (s.vault.valid.row ha) (s'.vault.valid.row ha')
          hact
        refine ⟨hstate, fun w hw => ?_⟩
        rw [hwr] at hw
        obtain ⟨w', hw', heq⟩ := List.mem_map.mp hw
        obtain rfl := congrArg Prod.snd heq
        exact hws w' hw'
      · exact hsame hij

/-- The replacement the routes of an installation stand on: it is a step of the run, its generation
is the current one, it names every route, and if the row is active nothing latched it since. -/
def StandsOn (S : Store) (i : Bytes16) (trace : List (Sys × Event × Sys)) (s : Sys) : Prop :=
  ∃ later u e u' earlier request, trace = later ++ (u, e, u') :: earlier ∧
    S.Replaces u e u' request ∧ request.installationBindingID = i ∧
    request.subscriptionGeneration = s.db.generation i ∧
    (∀ r ∈ s.db.routesOf i, ∃ sub ∈ request.subscriptions, sub.Names r.columns) ∧
    ∀ a, s.db.authority i = some a → a.state = .active →
      ∀ v e' v', (v, e', v') ∈ later → ∀ w, (i, w) ∈ e'.writes → ¬ w.Latches

/-- An applied replacement names the routes it leaves. -/
theorem Replaces.standsOn {s s' : Sys} {e : Event} {request : ReplaceRequest}
    (hs : S.system.Reachable s) (h : S.Replaces s e s' request) (trace : List (Sys × Event × Sys)) :
    S.StandsOn request.installationBindingID ((s, e, s') :: trace) s' := by
  obtain ⟨now, hpublished⟩ := h.published hs
  obtain ⟨a, w, rows, ha, -, hgen, -, -, -, hrows, hperm⟩ := hpublished.routes
  refine ⟨[], s, e, s', trace, request, rfl, h, rfl, ?_, fun r hr => ?_, by simp⟩
  · rw [Db.generation_of_authority ha, hgen]
  obtain ⟨sub, hsub, hpub⟩ := forall₂_exists_left hrows (hperm.mem_iff.mpr hr)
  obtain ⟨b, -, x, -, -, -, -, -, -, -, -, -, hcols⟩ := hpub.assertion
  refine ⟨sub, hsub, ?_⟩
  rw [hcols]
  exact ⟨rfl, rfl, rfl, rfl, rfl, rfl⟩

/-- In every run an installation past generation 0 stands on a replacement. -/
theorem run_standsOn {trace : List (Sys × Event × Sys)} {s : Sys} (h : S.system.Run trace s)
    (i : Bytes16) : s.db.generation i = 0 ∨ S.StandsOn i trace s := by
  induction h with
  | init hinit =>
    refine .inl (Db.generation_of_none ?_)
    rw [hinit.1]
    simp [Db.empty]
  | @step trace s e s' hrun hst ih =>
    rcases step_replaces_or_stands hrun.reachable hst i with ⟨request, hrep, rfl⟩ | hstands
    · exact .inr (hrep.standsOn hrun.reachable trace)
    rw [hstands.generation]
    rcases ih with hzero | ⟨later, u, e0, u', earlier, request, rfl, hrep, hi, hgen, hnm, hquiet⟩
    · exact .inl hzero
    by_cases hzero : s.db.generation i = 0
    · exact .inl hzero
    refine .inr ⟨(s, e, s') :: later, u, e0, u', earlier, request, rfl, hrep, hi, ?_, ?_, ?_⟩
    · rw [hstands.generation, hgen]
    · exact fun r hr => hnm r (hstands.routes r hr)
    intro a' ha' hact v e' v' hmem
    -- A generation above 0 has a row.
    obtain ⟨a, ha⟩ : ∃ a, s.db.authority i = some a := by
      refine Option.ne_none_iff_exists'.mp fun hnone => hzero ?_
      exact Db.generation_of_none (Db.authority_eq_none hnone)
    obtain ⟨hstate, hwr⟩ := hstands.active a a' ha ha' hact
    rcases List.mem_cons.mp hmem with heq | hmem
    · simp only [Prod.mk.injEq] at heq
      rw [heq.2.1]
      exact hwr
    · exact hquiet a ha hstate v e' v' hmem

/-- What the current-route check has found of a snapshot it accepts. -/
structure RouteFound (db : Db) (now : Time) (snap : A9RouteSnapshot) (a : AuthorityRow)
    (w : WatermarkColumns) : Prop where
  authority : db.authority snap.installationBindingID = some a
  watermark : a.watermark = some w
  matching : snap.AuthorityMatches now a w
  unfenced : ¬ db.WinningTombstone snap
  route : ∃ r ∈ db.routes, r.columns = snap.columns
  assertion : ∃ x ∈ db.assertions, x.key = snap.assertionKey

theorem a9CurrentRoute_found {db : Db} {leaseID : Bytes16} {snap : A9RouteSnapshot}
    {now expiresAt refreshedAt : Time} {state : A9CurrentRouteState}
    (h : a9CurrentRoute db leaseID snap now expiresAt refreshedAt = some state) :
    ∃ a w, RouteFound db now snap a w := by
  unfold a9CurrentRoute at h
  obtain ⟨a, ha, h⟩ := Option.bind_eq_some_iff.mp h
  obtain ⟨w, hw, h⟩ := Option.bind_eq_some_iff.mp h
  simp only [guard_bind_eq_some] at h
  obtain ⟨hmat, -, hunfe, h⟩ := h
  obtain ⟨r, hr, h⟩ := Option.bind_eq_some_iff.mp h
  obtain ⟨x, hx, -⟩ := Option.bind_eq_some_iff.mp h
  exact ⟨a, w, ha, hw, hmat, hunfe, ⟨r, (found hr).1, (found hr).2.2⟩, ⟨x, found hx⟩⟩

theorem requireA9CurrentRouteTx_found {clock : Clock} {leaseID : Bytes16} {snap : A9RouteSnapshot}
    {state : A9CurrentRouteState} {s t : Session}
    (h : S.requireA9CurrentRouteTx clock leaseID snap s = .ok (some state, t)) :
    ∃ a w, RouteFound s.db clock.db snap a w := by
  simp only [requireA9CurrentRouteTx, ite_ok, bind_ok, query_ok, pure_ok] at h
  rcases h with ⟨-, h, -⟩ | ⟨-, row, _, ⟨-, rfl⟩, h⟩
  · cases h
  cases row with
  | none => exact absurd (pure_ok.mp h).1 (by simp)
  | some row =>
    dsimp only at h
    cases hacc : row.accepted with
    | none =>
      simp only [hacc, pure_ok] at h
      exact absurd h.1 (by simp)
    | some accepted =>
      simp only [hacc, ite_ok, bind_ok, query_ok, pure_ok] at h
      rcases h with ⟨-, _, s1, hsafe, hfd, rfl⟩ | ⟨-, h, -⟩
      · -- The retention guard writes no row the check reads.
        obtain ⟨-, hdb, -⟩ := requireRetentionSafeTx_ok.mp hsafe
        obtain ⟨a, w, hrows⟩ := a9CurrentRoute_found hfd
        rw [hdb] at hrows
        exact ⟨a, w, hrows.authority, hrows.watermark, hrows.matching, hrows.unfenced, hrows.route,
          hrows.assertion⟩
      · cases h

/-- What an accepted snapshot rests on in the run that led to the state it was accepted in. -/
structure RestsOn (S : Store) (now : Time) (snap : A9RouteSnapshot)
    (trace : List (Sys × Event × Sys)) (s : Sys) : Prop where
  /-- The snapshot's epoch and generation are the current ones. -/
  current : ∃ a, s.db.authority snap.installationBindingID = some a ∧
    a.sequencerEpoch = snap.sequencerEpoch ∧
    a.subscriptionGeneration = snap.subscriptionGeneration
  /-- The UPSERT that carried the assertion was applied. -/
  upsert : ∃ u e u' event, (u, e, u') ∈ trace ∧ S.Applies u e u' event ∧ event.action = .upsert ∧
    event.installationBindingID = snap.installationBindingID ∧
    event.sequencerEpoch = snap.sequencerEpoch ∧ event.bindingID = snap.bindingID ∧
    event.bindingVersion = snap.bindingVersion ∧ event.assertionHash = snap.assertionHash ∧
    event.streamSequence = snap.assertionStreamSequence
  /-- So was every control event before it. -/
  controls : ∀ n, 1 ≤ n → n ≤ snap.assertionStreamSequence → ∃ u e u' event, (u, e, u') ∈ trace ∧
    S.Applies u e u' event ∧ event.installationBindingID = snap.installationBindingID ∧
    event.sequencerEpoch = snap.sequencerEpoch ∧ event.streamSequence = n
  /-- A watermark that has not expired covers it. -/
  watermark : ∃ u e u' w, (u, e, u') ∈ trace ∧ Accepts u e u' w ∧
    w.installationBindingID = snap.installationBindingID ∧
    w.sequencerEpoch = snap.sequencerEpoch ∧ w.status = .current ∧ now < w.expiresAt ∧
    snap.assertionStreamSequence ≤ w.committedThroughStreamSequence
  /-- No state of the run has a tombstone at the version or above. -/
  tombstones : ∀ u e u', (u, e, u') ∈ trace → ¬ u'.db.WinningTombstone snap
  /-- A replacement of the generation named it, and nothing latched the row since. -/
  replaced : ∃ later u e u' earlier request, trace = later ++ (u, e, u') :: earlier ∧
    S.Replaces u e u' request ∧ request.installationBindingID = snap.installationBindingID ∧
    request.subscriptionGeneration = snap.subscriptionGeneration ∧
    (∃ sub ∈ request.subscriptions, sub.Names snap.columns) ∧
    ∀ v e' v', (v, e', v') ∈ later → ∀ w, (snap.installationBindingID, w) ∈ e'.writes → ¬ w.Latches

/-- Every snapshot the current-route check accepts rests on the run that led to the state. -/
theorem current_route_rests_on_run {trace : List (Sys × Event × Sys)} {s : Sys}
    (h : S.system.Run trace s) {clock : Clock} {leaseID : Bytes16} {snap : A9RouteSnapshot}
    {state : A9CurrentRouteState} {t : Session}
    (hok : S.requireA9CurrentRouteTx clock leaseID snap s.session = .ok (some state, t)) :
    S.RestsOn clock.db snap trace s := by
  obtain ⟨a, w, hfd⟩ := requireA9CurrentRouteTx_found hok
  have ha : s.db.authority snap.installationBindingID = some a := hfd.authority
  have hval : s.db.Constraints := s.vault.valid
  obtain ⟨hE, -, hpos, hgen, hcursor, hact, -, -, -, -, -, hcov, hcur, -, -, -, -,
    hunexp, -⟩ := hfd.matching
  refine ⟨⟨a, ha, hE, hgen⟩, ?_, fun n hn hle => ?_, ?_, fun u e u' hmem => ?_, ?_⟩
  · -- The assertion references the event that carried it.
    obtain ⟨x, hx, hkey⟩ := hfd.assertion
    obtain ⟨ev, hev, hevkey⟩ := List.mem_map.mp (hval.assertions.event x hx _ rfl)
    obtain ⟨u, e, u', hmem, event, contiguous, happlies, rfl⟩ := exists_applies h hev
    simp only [ControlEventRow.fullKey, VerifiedAssertion.eventKey, EventKey.mk.injEq] at hevkey
    obtain ⟨hi, hE, hseq, hid, hver, hhash, haction, -⟩ := hevkey
    refine ⟨u, e, u', event, hmem, happlies, haction, hi.trans (congrArg (fun k => k.1) hkey),
      hE.trans (congrArg (fun k => k.2) hkey), hid.trans (congrArg (fun k => k.3) hkey),
      hver.trans (congrArg (fun k => k.4) hkey), ?_, ?_⟩
    · exact hhash.trans (congrArg (fun k => k.assertion.assertionHash) hkey)
    · exact hseq.trans (congrArg (fun k => k.assertion.assertionStreamSequence) hkey)
  · -- The cursor counts the events of the epoch.
    have hcnt := (reachable_streams h.reachable).counted (hval.row ha)
    obtain ⟨ev, hev, hseq⟩ := hcnt.mem_iff.mpr ⟨hn, hle.trans hcursor⟩
    obtain ⟨hev, hof⟩ := List.mem_filter.mp hev
    obtain ⟨hi, hE', -⟩ := of_decide_eq_true hof
    obtain ⟨u, e, u', hmem, event, contiguous, happlies, rfl⟩ := exists_applies h hev
    exact ⟨u, e, u', event, hmem, happlies, hi, hE'.trans hE, hseq⟩
  · -- The row's watermark references the history.
    have hmem : a ∈ s.db.authorities := List.mem_of_find?_eq_some ha
    have hkey : a.watermarkKey = some (a.installationBindingID, a.sequencerEpoch, w) := by
      simp only [AuthorityRow.watermarkKey, hfd.watermark, Option.map_some]
    obtain ⟨x, hx, hxkey⟩ := List.mem_map.mp
      (hval.authorities.current_watermark a hmem _ hkey)
    obtain ⟨u, e, u', hmem, v, haccepts, rfl⟩ := exists_accepts h hx
    simp only [WatermarkRow.fullKey, Prod.mk.injEq] at hxkey
    obtain ⟨hi, hE', hcols⟩ := hxkey
    have hai : a.installationBindingID = snap.installationBindingID := (hval.row ha).2.1
    refine ⟨u, e, u', v, hmem, haccepts, hi.trans hai, hE'.trans hE, ?_, ?_, ?_⟩
    · exact (congrArg (fun c => c.status) hcols).trans hcur
    · have hexp : v.expiresAt = w.expiresAt := congrArg (fun c => c.expiresAt) hcols
      rw [hexp]
      exact hunexp
    · have hcomm : v.committedThroughStreamSequence = w.committedThrough :=
        congrArg (fun c => c.committedThrough) hcols
      rw [hcomm]
      exact hcov
  · -- Tombstones are kept along the run.
    obtain ⟨hu, hstep, hpath⟩ := h.of_mem hmem
    rintro ⟨x, hx, hrest⟩
    exact hfd.unfenced ⟨x, tombstones_path (hu.step hstep) hpath hx, hrest⟩
  · -- The generation is above 0, so the routes stand on a replacement.
    rcases run_standsOn h snap.installationBindingID with hzero |
      ⟨later, u, e, u', earlier, request, htrace, hrep, hi, hgeneration, hnm, hquiet⟩
    · rw [Db.generation_of_authority ha] at hzero
      omega
    · obtain ⟨r, hr, hcols⟩ := hfd.route
      have hof : r ∈ s.db.routesOf snap.installationBindingID := by
        refine List.mem_filter.mpr ⟨hr, decide_eq_true ⟨?_, by simp⟩⟩
        rw [hcols]
        rfl
      refine ⟨later, u, e, u', earlier, request, htrace, hrep, hi, ?_, ?_, hquiet a ha hact⟩
      · rw [hgeneration, Db.generation_of_authority ha, hgen]
      · rw [← hcols]
        exact hnm r hof

/-- The route of a first replacement is accepted. -/
theorem current_route_rests_on_run_sample :
    ∃ snap : A9RouteSnapshot, ∃ trace s, Sample.store.system.Run trace s ∧
      (∃ state t, Sample.store.requireA9CurrentRouteTx Sample.clock 100 snap s.session =
        .ok (some state, t)) ∧ Sample.store.RestsOn Sample.start snap trace s := by
  let snap : A9RouteSnapshot :=
    { installationBindingID := 9, sequencerEpoch := 70, subscriptionGeneration := 1
      bindingID := 50, bindingVersion := 1, assertionHash := 70002, assertionStreamSequence := 1
      assertionExpiresAt := Sample.start + 30 * second, topicKeyEpoch := 3, topicBinding := 77
      routeKeyEpoch := 1, keyset := Sample.keyset, watermarkSequence := 1 }
  obtain ⟨s, hs, r, t, hok, hsome⟩ := exists_reachable (S := Sample.store) Sample.routed
    (P := fun s => ∃ r t, Sample.store.requireA9CurrentRouteTx Sample.clock 100 snap s.session =
      .ok (r, t) ∧ r.isSome) (by decide +kernel)
  obtain ⟨state, rfl⟩ := Option.isSome_iff_exists.mp hsome
  obtain ⟨trace, hrun⟩ := hs.run
  exact ⟨snap, trace, s, hrun, ⟨state, t, hok⟩, current_route_rests_on_run hrun hok⟩

end Store

end NotificationServer
