import AtlasClient.Proof.Effects

/-!
# Who owns which alarm

Alarm ids are descriptor numbers, and these are used again. An id that a module stores is
good only as long as its own alarm is live; cancelling a stale one would hit whoever has
the number now.

* `BaseInv`: the push and threshold ids of the features are `-1` or their own live alarms.
* `KaOk`: so is the keep-alive id, once the client has been registered.
* `BaseInv.alarmSet`, `BaseInv.cancel`, `BaseInv.resetAlarm`, …: what each kind of step keeps.
-/

namespace AtlasClient

open FirstMatch

variable {w w' : Client} {S : AppCb → Prop}

abbrev keepaliveCb : AlarmCb AppAlarm := .app .keepaliveAlarmCallback

abbrev retryCb : AlarmCb AppAlarm := .app .regAlarmCallback

abbrev pushCb : AlarmCb AppAlarm := .app .pushAlertAlarmCb

abbrev thresholdCb : AlarmCb AppAlarm := .app .thresholdAlertAlarmCb

/-- Whether the alarms of a callback run once. -/
def runsOnce : AlarmCb AppAlarm → Bool
  | .requestAlarmCb => true
  | .app .keepaliveAlarmCallback => false
  | .app .regAlarmCallback => true
  | .app .policyAlarmCallback => true
  | .app .pushAlertAlarmCb => false
  | .app .thresholdAlertAlarmCb => false

/-- Stored ids: each is `-1` or a live alarm of the callback, and none is stored twice. -/
structure Owned (n : Net AppAlarm AppCb) (cb : AlarmCb AppAlarm) (ids : List ℤ) : Prop where
  live : ∀ id ∈ ids, id = -1 ∨ id ∈ n.idsOf cb
  alone : ids.Pairwise fun a b => a = b → a = -1

structure BaseInv (w : Client) : Prop where
  net : NetOk w.net
  kinds : ∀ a ∈ w.net.alarmEntry, a.runOnce = runsOnce a.callback
  push : Owned w.net pushCb (w.app.features.map Telemetry.pushId)
  threshold : Owned w.net thresholdCb (w.app.features.map Telemetry.thresholdId)

/-- Nothing of the keep-alive loop exists yet. -/
structure NeverRegistered (w : Client) : Prop where
  registered : w.app.reg.registered = false
  alarms : w.net.idsOf keepaliveCb = []
  reqs : ∀ r ∈ w.net.reqEntry, r.callback ≠ .keepaliveCallback

/-- The keep-alive id is `-1` or its own live alarm. -/
def KaOwned (w : Client) : Prop :=
  w.app.reg.kaAlarmId = -1 ∨ w.app.reg.kaAlarmId ∈ w.net.idsOf keepaliveCb

def KaOk (w : Client) : Prop := KaOwned w ∨ NeverRegistered w

theorem baseInv_init (os : Os) : BaseInv (Client.init os) :=
  ⟨netOk_init os, by simp [Client.init, Net.init], ⟨by simp [Client.init, App.init], List.Pairwise.nil⟩,
    ⟨by simp [Client.init, App.init], List.Pairwise.nil⟩⟩

theorem kaOk_init (os : Os) : KaOk (Client.init os) :=
  Or.inr ⟨rfl, rfl, by simp [Client.init, Net.init]⟩

/-! ## Stored ids -/

theorem Owned.mono {n n' : Net AppAlarm AppCb} {cb : AlarmCb AppAlarm} {ids : List ℤ} (h : Owned n cb ids)
    (hids : ∀ id ∈ n.idsOf cb, id ∈ n'.idsOf cb) : Owned n' cb ids :=
  ⟨fun id hid => (h.live id hid).imp_right (hids id), h.alone⟩

theorem Owned.sublist {n : Net AppAlarm AppCb} {cb : AlarmCb AppAlarm} {ids ids' : List ℤ} (h : Owned n cb ids)
    (hs : ids'.Sublist ids) : Owned n cb ids' :=
  ⟨fun id hid => h.live id (hs.subset hid), h.alone.sublist hs⟩

theorem Owned.append_none {n : Net AppAlarm AppCb} {cb : AlarmCb AppAlarm} {ids : List ℤ} (h : Owned n cb ids) :
    Owned n cb (ids ++ [-1]) := by
  refine ⟨List.forall_mem_append.2 ⟨h.live, by simp⟩, ?_⟩
  · rw [List.pairwise_append]
    refine ⟨h.alone, List.pairwise_singleton _ _, ?_⟩
    intro a _ b hb heq
    rw [List.mem_singleton] at hb
    exact heq.trans hb

/-- **One stored id is replaced** by `-1` or by a new live alarm; the others keep theirs. -/
theorem Owned.replace {n n' : Net AppAlarm AppCb} {cb : AlarmCb AppAlarm} {pre post : List ℤ} {old new : ℤ}
    (h : Owned n cb (pre ++ old :: post)) (hkeep : ∀ id ∈ n.idsOf cb, id ≠ old → id ∈ n'.idsOf cb)
    (hnew : new = -1 ∨ new ∈ n'.idsOf cb ∧ (new ∈ n.idsOf cb → new = old)) :
    Owned n' cb (pre ++ new :: post) := by
  obtain ⟨hlive, halone⟩ := h
  rw [List.pairwise_append, List.pairwise_cons] at halone
  obtain ⟨hpre, ⟨hold, hpost⟩, hcross⟩ := halone
  -- the other ids are not the replaced one, unless they are -1
  have hother : ∀ x ∈ pre ++ post, x = -1 ∨ x ∈ n.idsOf cb ∧ x ≠ old := by
    intro x hx
    rcases hlive x (sublist_split.subset hx) with h | h
    · exact Or.inl h
    by_cases heq : x = old
    · left
      rcases List.mem_append.1 hx with hx | hx
      · exact hcross x hx old (by simp) heq
      · rw [heq]; exact hold x hx heq.symm
    · exact Or.inr ⟨h, heq⟩
  have hne : ∀ x ∈ pre ++ post, x = new → x = -1 := by
    intro x hx heq
    rcases hother x hx with h | ⟨h, hno⟩
    · exact h
    · rcases hnew with hn | ⟨-, hn⟩
      · exact heq.trans hn
      · exact absurd (heq.trans (hn (heq ▸ h))) hno
  refine ⟨?_, ?_⟩
  · intro x hx
    by_cases hxn : x = new
    · rw [hxn]; exact hnew.imp_right And.left
    · have hx' : x ∈ pre ++ post := by simpa [hxn] using hx
      exact (hother x hx').imp_right fun h => hkeep x h.1 h.2
  · rw [List.pairwise_append, List.pairwise_cons]
    refine ⟨hpre, ⟨?_, hpost⟩, ?_⟩
    · intro x hx heq
      rw [heq]; exact hne x (List.mem_append_right _ hx) heq.symm
    · intro x hx y hy heq
      rcases List.mem_cons.1 hy with rfl | hy
      · exact hne x (List.mem_append_left _ hx) heq
      · exact hcross x hx y (by simp [hy]) heq

/-! ## Growing lists -/

theorem Grows.idsOf (g : Grows S w w') {cb : AlarmCb AppAlarm} (hcb : cb ≠ .requestAlarmCb) :
    w'.net.idsOf cb = w.net.idsOf cb := by
  obtain ⟨new, ha, hnew⟩ := g.alarms
  rw [idsOf_append ha]
  have hnil : (new.filter fun a => a.callback = cb) = [] := by
    rw [List.filter_eq_nil_iff]
    intro a hm
    rw [(hnew a hm).1]
    simpa using hcb.symm
  simp [hnil]

theorem Grows.idsOf_subset (g : Grows S w w') (cb : AlarmCb AppAlarm) :
    ∀ id ∈ w.net.idsOf cb, id ∈ w'.net.idsOf cb := by
  obtain ⟨new, ha, -⟩ := g.alarms
  intro id hid
  rw [idsOf_append ha]
  exact List.mem_append_left _ hid

theorem BaseInv.grows (h : BaseInv w) (g : Grows S w w') : BaseInv w' := by
  refine ⟨g.ok h.net, ?_, ?_, ?_⟩
  · obtain ⟨new, ha, hnew⟩ := g.alarms
    rw [ha]
    refine List.forall_mem_append.2 ⟨h.kinds, fun a hm => ?_⟩
    rw [(hnew a hm).1, (hnew a hm).2]; rfl
  · rw [g.features]; exact h.push.mono (g.idsOf_subset _)
  · rw [g.features]; exact h.threshold.mono (g.idsOf_subset _)

theorem Grows.kaOwned (g : Grows S w w') (hka : w'.app.reg.kaAlarmId = w.app.reg.kaAlarmId) :
    KaOwned w' ↔ KaOwned w := by
  unfold KaOwned
  rw [hka, g.idsOf (by decide)]

/-- Requests other than keep-alives do not end the time before the first registration. -/
theorem KaOk.grows (h : KaOk w) (g : Grows S w w') (hS : ∀ cb, S cb → cb ≠ .keepaliveCallback)
    (hka : w'.app.reg.kaAlarmId = w.app.reg.kaAlarmId)
    (hreg : w'.app.reg.registered = w.app.reg.registered) : KaOk w' := by
  rcases h with h | h
  · exact Or.inl ((g.kaOwned hka).2 h)
  · refine Or.inr ⟨hreg.trans h.registered, (g.idsOf (by decide)).trans h.alarms, ?_⟩
    obtain ⟨new, hr, hnew⟩ := g.reqs
    rw [hr]
    exact List.forall_mem_append.2 ⟨h.reqs, fun r hm => hS _ (hnew r hm)⟩

theorem BaseInv.congr (h : BaseInv w) (hn : w'.net = w.net) (hf : w'.app.features = w.app.features) :
    BaseInv w' := by
  refine ⟨hn ▸ h.net, hn ▸ h.kinds, ?_, ?_⟩
  · rw [hn, hf]; exact h.push
  · rw [hn, hf]; exact h.threshold

/-! ## Setting an alarm -/

/-- The ids after `atlas_alarm_set`: one more under its own callback, or none. -/
theorem alarmSet_ids (n : Net AppAlarm AppCb) (ms : ℕ) (cb : AlarmCb AppAlarm) (once : Bool) :
    ∃ ids : List ℤ, (∀ cb', (atlasAlarmSet ms cb once n).2.idsOf cb' =
        n.idsOf cb' ++ if cb' = cb then ids else []) ∧
      (ids = [] ∧ (atlasAlarmSet ms cb once n).1 = -1 ∧ n.os.timers.head = none ∨
        ∃ fd, ids = [fd] ∧ (atlasAlarmSet ms cb once n).1 = fd ∧ 0 ≤ fd ∧ fd ∉ n.held) := by
  rcases alarmSet_cases ms cb once n with ⟨hnone, heq⟩ | ⟨fd, s, -, h0, hnew, heq⟩
  · refine ⟨[], ?_, Or.inl ⟨rfl, by rw [heq], hnone⟩⟩
    intro cb'
    rw [heq]; simp [Net.idsOf]
  · refine ⟨[fd], ?_, Or.inr ⟨fd, rfl, by rw [heq], h0, hnew⟩⟩
    intro cb'
    rw [heq, idsOf_append (n := n) rfl]
    by_cases hcb : cb' = cb
    · simp [hcb]
    · simp [hcb, Ne.symm hcb]

theorem alarmSet_reqs (n : Net AppAlarm AppCb) (ms : ℕ) (cb : AlarmCb AppAlarm) (once : Bool) :
    (atlasAlarmSet ms cb once n).2.reqEntry = n.reqEntry ∧ n.os.Follows (atlasAlarmSet ms cb once n).2.os := by
  have hf := n.os.follows_timers
  rcases alarmSet_cases ms cb once n with ⟨-, heq⟩ | ⟨fd, s, -, -, -, heq⟩ <;> rw [heq] <;> exact ⟨rfl, hf⟩

theorem alarmSet_kinds {n : Net AppAlarm AppCb} (h : ∀ a ∈ n.alarmEntry, a.runOnce = runsOnce a.callback)
    (ms : ℕ) {cb : AlarmCb AppAlarm} {once : Bool} (hk : once = runsOnce cb) :
    ∀ a ∈ (atlasAlarmSet ms cb once n).2.alarmEntry, a.runOnce = runsOnce a.callback := by
  rcases alarmSet_cases ms cb once n with ⟨-, heq⟩ | ⟨fd, s, -, -, -, heq⟩
  · rw [heq]; exact h
  · rw [heq]
    exact List.forall_mem_append.2 ⟨h, fun a ha => by rw [List.mem_singleton.1 ha]; exact hk⟩

theorem BaseInv.alarmSet (h : BaseInv w) (ms : ℕ) {cb : AlarmCb AppAlarm} {once : Bool} (hk : once = runsOnce cb) :
    BaseInv (w.mapNet fun n => (atlasAlarmSet ms cb once n).2) := by
  obtain ⟨ids, hids, -⟩ := alarmSet_ids w.net ms cb once
  have hsub : ∀ cb', ∀ id ∈ w.net.idsOf cb', id ∈ (atlasAlarmSet ms cb once w.net).2.idsOf cb' := by
    intro cb' id hid
    rw [hids cb']; exact List.mem_append_left _ hid
  exact ⟨h.net.alarmSet ms cb once, alarmSet_kinds h.kinds ms hk, h.push.mono (hsub _), h.threshold.mono (hsub _)⟩

/-! ## Cancelling an alarm -/

theorem idsOf_cancel_notMem {n : Net AppAlarm AppCb} (h : NetOk n) {id : ℤ} {cb : AlarmCb AppAlarm}
    (hid : id ∉ n.idsOf cb) : (atlasAlarmCancel id n).idsOf cb = n.idsOf cb := by
  rw [idsOf_cancel h, List.filter_eq_self]
  intro x hx
  have hne : x ≠ id := fun heq => hid (heq ▸ hx)
  simpa using hne

theorem cancel_kinds {n : Net AppAlarm AppCb} (hn : NetOk n) (h : ∀ a ∈ n.alarmEntry, a.runOnce = runsOnce a.callback)
    (id : ℤ) : ∀ a ∈ (atlasAlarmCancel id n).alarmEntry, a.runOnce = runsOnce a.callback := by
  intro a ha
  rw [cancel_alarms hn] at ha
  exact h a (List.mem_of_mem_filter ha)

/-- An alarm of no feature and no request can be cancelled. -/
theorem BaseInv.cancel (h : BaseInv w) {id : ℤ} (hreq : ∀ r ∈ w.net.reqEntry, r.alarmId ≠ id)
    (hpush : id ∉ w.net.idsOf pushCb) (hthr : id ∉ w.net.idsOf thresholdCb) :
    BaseInv (w.mapNet (atlasAlarmCancel id)) := by
  refine ⟨h.net.cancel hreq, cancel_kinds h.net h.kinds id, h.push.mono ?_, h.threshold.mono ?_⟩
  · intro x hx
    show x ∈ (atlasAlarmCancel id w.net).idsOf pushCb
    rw [idsOf_cancel_notMem h.net hpush]; exact hx
  · intro x hx
    show x ∈ (atlasAlarmCancel id w.net).idsOf thresholdCb
    rw [idsOf_cancel_notMem h.net hthr]; exact hx

/-- No request owns the alarm of another module. -/
theorem NetOk.not_own {n : Net AppAlarm AppCb} (h : NetOk n) {id : ℤ} {cb : AppAlarm}
    (hid : id ∈ n.idsOf (.app cb)) : ∀ r ∈ n.reqEntry, r.alarmId ≠ id := by
  intro r hr heq
  have := h.callback_unique (h.own r hr) (heq ▸ hid)
  cases this

/-- `-1` is no alarm. -/
theorem NetOk.neg_notMem {n : Net AppAlarm AppCb} (h : NetOk n) (cb : AlarmCb AppAlarm) : -1 ∉ n.idsOf cb := by
  intro hm
  have := h.id_nonneg hm
  omega

/-! ## Replacing an alarm of a feature -/

/-- What cancelling the old alarm leaves, whether there is one or not. -/
theorem cancelOld {n : Net AppAlarm AppCb} (hn : NetOk n)
    (hk : ∀ a ∈ n.alarmEntry, a.runOnce = runsOnce a.callback) {cb : AppAlarm} {old : ℤ}
    (hold : old = -1 ∨ old ∈ n.idsOf (.app cb)) :
    let n₁ := if 0 ≤ old then atlasAlarmCancel old n else n
    NetOk n₁ ∧ (∀ a ∈ n₁.alarmEntry, a.runOnce = runsOnce a.callback) ∧ n₁.reqEntry = n.reqEntry ∧
      n₁.os = n.os ∧ (∀ id ∈ n.idsOf (.app cb), id ≠ old → id ∈ n₁.idsOf (.app cb)) ∧
      ∀ cb', cb' ≠ .app cb → n₁.idsOf cb' = n.idsOf cb' := by
  simp only
  by_cases h0 : 0 ≤ old
  · have hlive : old ∈ n.idsOf (.app cb) := hold.resolve_left (by omega)
    rw [if_pos h0]
    refine ⟨hn.cancel (hn.not_own hlive), cancel_kinds hn hk old, cancel_reqEntry _ _, cancel_os _ _, ?_, ?_⟩
    · intro id hid hne
      rw [idsOf_cancel hn, List.mem_filter]
      exact ⟨hid, by simpa using hne⟩
    · intro cb' hcb
      exact idsOf_cancel_other hn hlive hcb
  · rw [if_neg h0]
    exact ⟨hn, hk, rfl, rfl, fun id hid _ => hid, fun _ _ => rfl⟩

/-- **`swapAlarm`** replaces one stored id; the alarms of other callbacks are untouched. -/
theorem swapAlarm_spec {n : Net AppAlarm AppCb} (hn : NetOk n)
    (hk : ∀ a ∈ n.alarmEntry, a.runOnce = runsOnce a.callback) {cb : AppAlarm} (hcb : runsOnce (.app cb) = false)
    {pre post : List ℤ} {old : ℤ} (ho : Owned n (.app cb) (pre ++ old :: post)) (ms : ℕ) :
    let res := swapAlarm old ms cb n
    NetOk res.2 ∧ (∀ a ∈ res.2.alarmEntry, a.runOnce = runsOnce a.callback) ∧ res.2.reqEntry = n.reqEntry ∧
      n.os.Follows res.2.os ∧ Owned res.2 (.app cb) (pre ++ res.1 :: post) ∧
      ∀ cb', cb' ≠ .app cb → res.2.idsOf cb' = n.idsOf cb' := by
  unfold swapAlarm
  obtain ⟨hn₁, hk₁, hr₁, ho₁, hkeep, hother⟩ := cancelOld hn hk (ho.live old (by simp))
  simp only at hn₁ hk₁ hr₁ ho₁ hkeep hother ⊢
  set n₁ := if 0 ≤ old then atlasAlarmCancel old n else n
  obtain ⟨ids, hids, hid⟩ := alarmSet_ids n₁ ms (.app cb) false
  obtain ⟨hr, hf⟩ := alarmSet_reqs n₁ ms (.app cb) false
  rw [ho₁] at hf
  refine ⟨hn₁.alarmSet _ _ _, alarmSet_kinds hk₁ ms hcb.symm, hr.trans hr₁, hf, ho.replace ?_ ?_, ?_⟩
  · intro id hm hne
    rw [hids, if_pos rfl]
    exact List.mem_append_left _ (hkeep id hm hne)
  · rcases hid with ⟨-, h1, -⟩ | ⟨fd, rfl, h1, -, hnew⟩
    · exact Or.inl h1
    · right
      rw [hids, if_pos rfl, h1]
      refine ⟨by simp, fun hm => ?_⟩
      -- a live id other than the old one is still held, so it is not the new one
      by_contra hne
      exact hnew (mem_held_of_idsOf (hkeep fd hm hne))
  · intro cb' hcb'
    rw [hids, if_neg hcb', List.append_nil, hother cb' hcb']

/-- A step on the features that is quiet otherwise. -/
structure Aside (w w' : Client) : Prop where
  reqs : w'.net.reqEntry = w.net.reqEntry
  reg : w'.app.reg = w.app.reg
  calls : w'.calls = w.calls
  os : w.net.os.Follows w'.net.os
  keepalives : w'.net.idsOf keepaliveCb = w.net.idsOf keepaliveCb
  retries : w'.net.idsOf retryCb = w.net.idsOf retryCb

/-- **`resetAlarm`** replaces the alarm of one feature, whose id is in the field `get` that `store`
writes; the other fields and the alarms of other callbacks are untouched. -/
theorem resetAlarm_spec {cb : AppAlarm} (hcb : runsOnce (.app cb) = false) (get : Telemetry → ℤ)
    (store : ℤ → Telemetry → Telemetry) (hget : ∀ id p, get (store id p) = id) (h : BaseInv w)
    (ho : Owned w.net (.app cb) (w.app.features.map get)) {uriPath : String} {p : Telemetry}
    (hf : w.app.features.find? (fun p => p.uriPath = uriPath) = some p) (ms : ℕ) :
    let w' := resetAlarm uriPath (get p) ms cb store w
    NetOk w'.net ∧ (∀ a ∈ w'.net.alarmEntry, a.runOnce = runsOnce a.callback) ∧
      w'.net.reqEntry = w.net.reqEntry ∧ w.net.os.Follows w'.net.os ∧
      Owned w'.net (.app cb) (w'.app.features.map get) ∧
      (∀ cb', cb' ≠ .app cb → w'.net.idsOf cb' = w.net.idsOf cb') ∧
      ∀ get' : Telemetry → ℤ, (∀ id p, get' (store id p) = get' p) →
        w'.app.features.map get' = w.app.features.map get' := by
  obtain ⟨pre, post, hl, hpre, hp⟩ := find?_split hf
  rw [hl, List.map_append, List.map_cons] at ho
  obtain ⟨h1, h2, h3, h4, h5, h6⟩ := swapAlarm_spec h.net h.kinds hcb ho ms
  simp only [resetAlarm, mapFeatures, World.mapApp, hl, updFirst_split hpre hp, List.map_append, List.map_cons, hget]
  refine ⟨h1, h2, h3, h4, h5, h6, ?_⟩
  intro get' hget'
  rw [hget']

theorem resetPush {uriPath : String} {p : Telemetry} (h : BaseInv w)
    (hf : w.app.features.find? (fun p => p.uriPath = uriPath) = some p) (ms : ℕ) :
    let w' := resetAlarm uriPath p.pushId ms .pushAlertAlarmCb (fun id p => { p with pushId := id }) w
    BaseInv w' ∧ Aside w w' := by
  obtain ⟨h1, h2, h3, h4, h5, h6, h7⟩ :=
    resetAlarm_spec (by rfl) Telemetry.pushId (fun id p => { p with pushId := id }) (fun _ _ => rfl) h h.push hf ms
  refine ⟨⟨h1, h2, h5, ?_⟩, ⟨h3, rfl, rfl, h4, h6 _ (by decide), h6 _ (by decide)⟩⟩
  rw [h7 Telemetry.thresholdId fun _ _ => rfl]
  exact h.threshold.mono fun id hid => by rw [h6 _ (by decide)]; exact hid

theorem resetThreshold {uriPath : String} {p : Telemetry} (h : BaseInv w)
    (hf : w.app.features.find? (fun p => p.uriPath = uriPath) = some p) (ms : ℕ) :
    let w' := resetAlarm uriPath p.thresholdId ms .thresholdAlertAlarmCb (fun id p => { p with thresholdId := id }) w
    BaseInv w' ∧ Aside w w' := by
  obtain ⟨h1, h2, h3, h4, h5, h6, h7⟩ :=
    resetAlarm_spec (by rfl) Telemetry.thresholdId (fun id p => { p with thresholdId := id }) (fun _ _ => rfl) h
      h.threshold hf ms
  refine ⟨⟨h1, h2, ?_, h5⟩, ⟨h3, rfl, rfl, h4, h6 _ (by decide), h6 _ (by decide)⟩⟩
  rw [h7 Telemetry.pushId fun _ _ => rfl]
  exact h.push.mono fun id hid => by rw [h6 _ (by decide)]; exact hid

end AtlasClient
