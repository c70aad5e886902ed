import AtlasClient.Lib.Run
import AtlasClient.Proof.Chains
import AtlasClient.Proof.Keepalive
import Mathlib.Logic.Function.Basic

/-!
# Features and their alarms

A feature has at most two alarms, whose ids it stores. `Timed` is the client with the last rate
that each feature has been given.

* `Held`: every alarm of a callback is that of a feature, with the period of its last rate.
* `matched_iff`: **alarms and features stay in step** exactly as long as no feature is deleted that
  has an alarm.
-/

namespace AtlasClient

open FirstMatch Machine

variable {cfg : Cfg} {w w₁ w' : Client} {k : Kind} {cb : AppAlarm} {id : Telemetry → ℤ} {rate : String → ℕ}

/-! ## The machine -/

/-- The client, with the last rates that were not zero. -/
structure Timed where
  client : Client
  pushRate : String → ℕ
  scanRate : String → ℕ

def Timed.init (os : Os) : Timed := ⟨Client.init os, fun _ => 0, fun _ => 0⟩

/-- The rate is recorded under the path of the feature. -/
def setRate (uriPath : Option String) (new : UInt16) (rate : String → ℕ) : String → ℕ :=
  match uriPath with
  | none => rate
  | some uriPath => if new = 0 then rate else Function.update rate uriPath new.toNat

def Timed.step (cfg : Cfg) (s : Timed) (e : Event) : Timed where
  client := s.client.step cfg e
  pushRate :=
    match e with
    | .pushSet uriPath pushRate => setRate uriPath pushRate s.pushRate
    | _ => s.pushRate
  scanRate :=
    match e with
    | .thresholdSet uriPath scanRate => setRate uriPath scanRate s.scanRate
    | _ => s.scanRate

/-- Paths are distinct: no feature is added under the path of another. -/
def Client.AddsNew (w : Client) : Event → Prop
  | .telemetryAdd (some uriPath) (some _) => ∀ p ∈ w.app.features, p.uriPath ≠ uriPath
  | _ => True

/-- The feature that is deleted has no alarm. -/
def Client.DelsIdle (w : Client) : Event → Prop
  | .telemetryDel (some uriPath) =>
    ∀ p ∈ w.app.features.find? fun p => p.uriPath = uriPath, p.pushId = -1 ∧ p.thresholdId = -1
  | _ => True

instance (w : Client) (e : Event) : Decidable (w.AddsNew e) := by
  unfold Client.AddsNew; split <;> infer_instance

instance (w : Client) (e : Event) : Decidable (w.DelsIdle e) := by
  unfold Client.DelsIdle; split <;> infer_instance

/-! ## The property -/

/-- The alarms of `cb` and the features, whose ids of such alarms are `id`: each alarm is that of exactly
one feature, which has been given a rate, and has the period of its last rate, and when it fires that feature
is pushed; no feature has two. -/
structure Serves (cfg : Cfg) (w : Client) (cb : AppAlarm) (id : Telemetry → ℤ) (rate : String → ℕ)
    (useThreshold : Bool) : Prop where
  one : ∀ a ∈ w.net.alarmsOf (.app cb), ∃ pre p post, w.app.features = pre ++ p :: post ∧ id p = a.alarmId ∧
    (∀ q ∈ pre ++ post, id q ≠ a.alarmId) ∧ a.runOnce = false ∧ 0 < rate p.uriPath ∧ a.ms = 1000 * rate p.uriPath ∧
    w.step cfg (.alarm a.alarmId) = atlasTelemetryPush cfg p useThreshold w
  single : ∀ p ∈ w.app.features, (w.net.alarmsOf (.app cb)).countP (fun a => a.alarmId = id p) ≤ 1

structure Timed.Matched (cfg : Cfg) (s : Timed) : Prop where
  push : Serves cfg s.client .pushAlertAlarmCb Telemetry.pushId s.pushRate false
  threshold : Serves cfg s.client .thresholdAlertAlarmCb Telemetry.thresholdId s.scanRate true

/-! ## The invariant -/

/-- Every alarm of `cb` is that of a feature that has been given a rate, with the period of its last rate. -/
def Held (w : Client) (cb : AppAlarm) (id : Telemetry → ℤ) (rate : String → ℕ) : Prop :=
  ∀ a ∈ w.net.alarmsOf (.app cb), ∃ p ∈ w.app.features, id p = a.alarmId ∧ 0 < rate p.uriPath ∧
    a.ms = 1000 * rate p.uriPath

structure TimedInv (s : Timed) : Prop where
  base : BaseInv s.client
  ka : KaOk s.client
  paths : (s.client.app.features.map Telemetry.uriPath).Nodup
  push : Held s.client .pushAlertAlarmCb Telemetry.pushId s.pushRate
  threshold : Held s.client .thresholdAlertAlarmCb Telemetry.thresholdId s.scanRate

theorem timedInv_init (os : Os) : TimedInv (Timed.init os) :=
  ⟨baseInv_init os, kaOk_init os, List.nodup_nil, fun _ ha => absurd ha List.not_mem_nil,
    fun _ ha => absurd ha List.not_mem_nil⟩

theorem mem_alarmsOf {n : Net AppAlarm AppCb} {cb : AlarmCb AppAlarm} {a : AlarmEntry AppAlarm} :
    a ∈ n.alarmsOf cb ↔ a ∈ n.alarmEntry ∧ a.callback = cb := by
  simp [Net.alarmsOf]

/-- An alarm that fires runs its callback. -/
theorem fire_eq (hb : BaseInv w) {a : AlarmEntry AppAlarm} (ha : a ∈ w.net.alarmEntry) (honce : a.runOnce = false) :
    w.step cfg (.alarm a.alarmId) = (client cfg).runAlarm a.callback a.alarmId w := by
  rw [alarm_eq cfg (find?_key hb.net.ids_nodup ha), honce, if_neg Bool.false_ne_true]

/-- The first feature with an id, when no other has it. -/
theorem find?_id {l pre post : List Telemetry} {p : Telemetry} {i : ℤ} (hl : l = pre ++ p :: post) (hp : id p = i)
    (hpre : ∀ q ∈ pre ++ post, id q ≠ i) : l.find? (fun p => id p = i) = some p := by
  rw [hl, List.find?_append, List.find?_eq_none.2 fun q hq => by simpa using hpre q (List.mem_append_left _ hq)]
  simp [hp]

/-- **What the invariant says of the alarms of one callback.** -/
theorem Held.serves (h : Held w cb id rate) (hb : BaseInv w) (hcb : runsOnce (.app cb) = false)
    (ho : Owned w.net (.app cb) (w.app.features.map id)) {useThreshold : Bool}
    (hfire : ∀ i p, w.app.features.find? (fun p => id p = i) = some p →
      alarmCallback cfg cb i w = atlasTelemetryPush cfg p useThreshold w) : Serves cfg w cb id rate useThreshold := by
  refine ⟨fun a ha => ?_, fun p _ => ?_⟩
  · obtain ⟨p, hp, hid, hpos, hms⟩ := h a ha
    obtain ⟨ham, hacb⟩ := mem_alarmsOf.1 ha
    obtain ⟨pre, post, hl⟩ := List.append_of_mem hp
    have hne : a.alarmId ≠ -1 := by
      have := hb.net.nonneg _ (List.mem_append_left _ (List.mem_map_of_mem ham))
      omega
    -- no two features have the same id, but for -1
    have hother : ∀ q ∈ pre ++ post, id q ≠ a.alarmId := by
      have halone := ho.alone
      rw [hl, List.map_append, List.map_cons, List.pairwise_append, List.pairwise_cons] at halone
      obtain ⟨-, ⟨hpost, -⟩, hcross⟩ := halone
      intro q hq heq
      rcases List.mem_append.1 hq with hq | hq
      · exact hne (heq ▸ hcross _ (List.mem_map_of_mem hq) (id p) (by simp) (heq.trans hid.symm))
      · exact hne (hid ▸ hpost _ (List.mem_map_of_mem hq) (hid.trans heq.symm))
    have honce : a.runOnce = false := by rw [hb.kinds a ham, hacb, hcb]
    refine ⟨pre, p, post, hl, hid, hother, honce, hpos, hms, ?_⟩
    rw [fire_eq hb ham honce, hacb]
    exact hfire a.alarmId p (find?_id hl hid hother)
  · have hnodup : ((w.net.alarmsOf (.app cb)).map AlarmEntry.alarmId).Nodup :=
      hb.net.ids_nodup.sublist (List.filter_sublist.map _)
    have hcount : (w.net.alarmsOf (.app cb)).countP (fun a => a.alarmId = id p) =
        ((w.net.alarmsOf (.app cb)).map AlarmEntry.alarmId).count (id p) := by
      rw [List.count, List.countP_map]
      refine List.countP_congr fun a _ => ?_
      simp
    rw [hcount]
    exact List.nodup_iff_count_le_one.1 hnodup _

theorem TimedInv.matched {s : Timed} (h : TimedInv s) : s.Matched cfg := by
  refine ⟨h.push.serves h.base rfl h.base.push fun i p hf => ?_,
    h.threshold.serves h.base rfl h.base.threshold fun i p hf => ?_⟩
  · simp only [alarmCallback, pushAlertAlarmCb, hf]
  · simp only [alarmCallback, thresholdAlertAlarmCb, hf]

/-! ## Steps of other modules -/

/-- The features and their alarms are as before. -/
structure TelemetryKept (w w' : Client) : Prop where
  features : w'.app.features = w.app.features
  push : w'.net.alarmsOf pushCb = w.net.alarmsOf pushCb
  threshold : w'.net.alarmsOf thresholdCb = w.net.alarmsOf thresholdCb

theorem TelemetryKept.refl (w : Client) : TelemetryKept w w := ⟨rfl, rfl, rfl⟩

theorem TelemetryKept.trans (h : TelemetryKept w w₁) (h' : TelemetryKept w₁ w') : TelemetryKept w w' :=
  ⟨h'.features.trans h.features, h'.push.trans h.push, h'.threshold.trans h.threshold⟩

def Kind.ofTelemetry : Kind → Bool
  | .features => true
  | .reset _ _ _ => true
  | _ => false

def Event.ofTelemetry : Event → Bool
  | .telemetryAdd _ _ => true
  | .telemetryDel _ => true
  | .pushSet _ _ => true
  | .thresholdSet _ _ => true
  | _ => false

theorem Act.telemetryKept (h : Act k w w') (hb : BaseInv w) (hka : KaSafe w) (hk : k.ofTelemetry = false) :
    TelemetryKept w w' := by
  -- the alarms that repeat are those of the keep-alive and of the features
  have hcb : ∀ cb, cb = pushCb ∨ cb = thresholdCb → k.alarmCb ≠ some cb := by
    intro cb hcb heq
    cases h with
    | fired hid honce hreq =>
      rw [Option.some.inj heq] at honce
      rcases hcb with rfl | rfl <;> cases honce
    | retry _ ms h =>
      rcases h with rfl | rfl <;> rcases hcb with rfl | rfl <;> cases heq
    | resetPush hf ms => cases hk
    | resetThreshold hf ms => cases hk
    | _ => rcases hcb with rfl | rfl <;> cases heq
  refine ⟨?_, h.alarmsOf hb hka (hcb _ (Or.inl rfl)), h.alarmsOf hb hka (hcb _ (Or.inr rfl))⟩
  cases h with
  | accepted _ acc => exact (acceptCb_quiet acc w).grows.features
  | added => cases hk
  | deleted => cases hk
  | resetPush hf ms => cases hk
  | resetThreshold hf ms => cases hk
  | _ => rfl

theorem Origin.ofTelemetry {e : Event} (ho : Origin w e k) (he : e.ofTelemetry = false) : k.ofTelemetry = false := by
  cases ho with
  | start hk => exact (by decide : ∀ k ∈ [.answers, .request .regCallback], Kind.ofTelemetry k = false) k hk
  | @callback _ cb _ _ hk =>
    cases cb <;> simp only [AppCb.kinds, telemetryKinds, List.mem_cons, List.not_mem_nil, or_false] at hk
    all_goals rcases hk with rfl | rfl | rfl | rfl | rfl | rfl <;> rfl
  | @alarm _ _ cb _ _ _ hk =>
    cases cb <;> simp only [AppAlarm.kinds, telemetryKinds, List.mem_cons, List.not_mem_nil, or_false] at hk
    all_goals rcases hk with rfl | rfl | rfl <;> rfl
  | message _ _ hk => exact (by decide : ∀ k ∈ policyKinds ++ otherKinds, k.ofTelemetry = false) k hk
  | _ => first | rfl | cases he

/-- **An event of another module** leaves the features and their alarms alone. -/
theorem step_telemetryKept (cfg : Cfg) {e : Event} (he : e.ofTelemetry = false) (hb : BaseInv w) (hka : KaOk w) :
    TelemetryKept w (w.step cfg e) :=
  client_rel cfg TelemetryKept.refl (fun _ _ _ => TelemetryKept.trans)
    (fun _ _ _ hk hb hka hact => hact.telemetryKept hb hka ((may_origin hk).ofTelemetry he)) hb hka

theorem push_telemetryKept (p : Telemetry) (useThreshold : Bool) (w : Client) :
    TelemetryKept w (atlasTelemetryPush cfg p useThreshold w) := by
  have hq : Quiet w (atlasTelemetryPush cfg p useThreshold w) := push_quiet p useThreshold w
  obtain ⟨new, ha, hnew⟩ := hq.grows.alarms
  have hother : ∀ cb, cb ≠ .requestAlarmCb →
      (atlasTelemetryPush cfg p useThreshold w).net.alarmsOf cb = w.net.alarmsOf cb := fun cb hcb =>
    alarmsOf_append ha fun a hm heq => hcb (heq.symm.trans (hnew a hm).1)
  exact ⟨hq.grows.features, hother _ (by decide), hother _ (by decide)⟩

/-! ## Steps of the module -/

/-- The features that alarms refer to stay, and so do the alarms. -/
theorem Held.mono {rate' : String → ℕ} (h : Held w cb id rate)
    (hal : w'.net.alarmsOf (.app cb) = w.net.alarmsOf (.app cb))
    (hf : ∀ p ∈ w.app.features, ∀ a ∈ w.net.alarmsOf (.app cb), id p = a.alarmId →
      ∃ q ∈ w'.app.features, id q = id p ∧ rate' q.uriPath = rate p.uriPath) : Held w' cb id rate' := by
  intro a ha
  rw [hal] at ha
  obtain ⟨p, hp, hid, hpos, hms⟩ := h a ha
  obtain ⟨q, hq, hqid, hrate⟩ := hf p hp a ha hid
  exact ⟨q, hq, hqid.trans hid, by rw [hrate]; exact hpos, by rw [hrate]; exact hms⟩

/-- A path that no feature has is given a rate. -/
theorem Held.setRate (h : Held w cb id rate) {uriPath : String} (hnone : ∀ p ∈ w.app.features, p.uriPath ≠ uriPath)
    (new : UInt16) : Held w cb id (setRate (some uriPath) new rate) := by
  refine h.mono rfl fun p hp a _ _ => ⟨p, hp, rfl, ?_⟩
  unfold AtlasClient.setRate
  simp only
  split
  · rfl
  · exact Function.update_of_ne (hnone p hp) _ _

theorem TelemetryKept.inv {s s' : Timed} (h : TimedInv s) (hk : TelemetryKept s.client s'.client)
    (hb : BaseInv s'.client) (hka : KaOk s'.client)
    (hpush : Held s.client .pushAlertAlarmCb Telemetry.pushId s'.pushRate)
    (hthr : Held s.client .thresholdAlertAlarmCb Telemetry.thresholdId s'.scanRate) : TimedInv s' :=
  ⟨hb, hka, by rw [hk.features]; exact h.paths,
    hpush.mono hk.push fun p hp _ _ _ => ⟨p, by rw [hk.features]; exact hp, rfl, rfl⟩,
    hthr.mono hk.threshold fun p hp _ _ _ => ⟨p, by rw [hk.features]; exact hp, rfl, rfl⟩⟩

/-- **The alarm of a feature is replaced.** -/
theorem Held.reset (store : ℤ → Telemetry → Telemetry) (hget : ∀ i p, id (store i p) = i)
    (huri : ∀ i p, (store i p).uriPath = p.uriPath) (hb : BaseInv w)
    (hpaths : (w.app.features.map Telemetry.uriPath).Nodup)
    (h : Held w cb id rate) {uriPath : String} {p : Telemetry}
    (hf : w.app.features.find? (fun p => p.uriPath = uriPath) = some p) {new : UInt16} (hnew : new ≠ 0) :
    Held (resetAlarm uriPath (id p) (new.toNat * 1000) cb store w) cb id
      (AtlasClient.setRate (some uriPath) new rate) := by
  obtain ⟨pre, post, hl, hl', hu⟩ := resetAlarm_split (id p) (new.toNat * 1000) cb store hf
  obtain ⟨added, hal, hadded⟩ := swapAlarm_alarms hb.net (id p) (new.toNat * 1000) cb
  rw [hl, List.map_append, List.map_cons, List.nodup_append, List.nodup_cons] at hpaths
  obtain ⟨-, ⟨hpost, -⟩, hcross⟩ := hpaths
  have hrate : AtlasClient.setRate (some uriPath) new rate = Function.update rate uriPath new.toNat := if_neg hnew
  have hother : ∀ q ∈ pre ++ post, q.uriPath ≠ uriPath := by
    intro q hq heq
    rcases List.mem_append.1 hq with hq | hq
    · exact hcross _ (List.mem_map_of_mem hq) p.uriPath (by simp) (heq.trans hu.symm)
    · exact hpost (by rw [hu, ← heq]; exact List.mem_map_of_mem hq)
  intro a ha
  obtain ⟨ham, hacb⟩ := mem_alarmsOf.1 ha
  have ham : a ∈ (w.net.alarmEntry.filter fun a => a.alarmId ≠ id p) ++ added := hal ▸ ham
  rw [hl', hrate]
  rcases List.mem_append.1 ham with ham | ham
  · -- the alarm of another feature
    obtain ⟨ham, hne⟩ := List.mem_filter.1 ham
    obtain ⟨q, hq, hid, hpos, hms⟩ := h a (mem_alarmsOf.2 ⟨ham, hacb⟩)
    have hqp : q ≠ p := by
      rintro rfl
      simp [hid] at hne
    have hq : q ∈ pre ++ post := by
      rw [hl] at hq
      simpa [hqp] using hq
    have hmem : q ∈ pre ++ store (swapAlarm (id p) (new.toNat * 1000) cb w.net).1 p :: post := sublist_split.subset hq
    refine ⟨q, hmem, hid, ?_⟩
    rw [Function.update_of_ne (hother q hq)]
    exact ⟨hpos, hms⟩
  · -- the new one
    rcases hadded with ⟨rfl, -⟩ | rfl
    · cases ham
    · rw [List.mem_singleton.1 ham]
      refine ⟨store (swapAlarm (id p) (new.toNat * 1000) cb w.net).1 p, by simp, hget _ _, ?_⟩
      have hpos : 0 < new.toNat := Nat.pos_of_ne_zero fun h0 => hnew (UInt16.toNat_inj.1 h0)
      rw [huri, hu, Function.update_self, Nat.mul_comm]
      exact ⟨hpos, rfl⟩

/-- The alarms of the other callback stay. -/
theorem Held.reset_other {cb' : AppAlarm} (store : ℤ → Telemetry → Telemetry) (hget : ∀ i p, id (store i p) = id p)
    (huri : ∀ i p, (store i p).uriPath = p.uriPath) (h : Held w cb id rate) {uriPath : String} {p : Telemetry} {old : ℤ}
    {ms : ℕ} (hf : w.app.features.find? (fun p => p.uriPath = uriPath) = some p)
    (hal : (resetAlarm uriPath old ms cb' store w).net.alarmsOf (.app cb) = w.net.alarmsOf (.app cb)) :
    Held (resetAlarm uriPath old ms cb' store w) cb id rate := by
  obtain ⟨pre, post, hl, hl', -⟩ := resetAlarm_split old ms cb' store hf
  refine h.mono hal fun q hq _ _ _ => ?_
  rw [hl']
  rw [hl] at hq
  rcases List.mem_append.1 hq with hq | hq
  · exact ⟨q, List.mem_append_left _ hq, rfl, rfl⟩
  rcases List.mem_cons.1 hq with rfl | hq
  · exact ⟨store (swapAlarm old ms cb' w.net).1 q, by simp, hget _ _, by rw [huri]⟩
  · exact ⟨q, by simp [hq], rfl, rfl⟩

theorem resetAlarm_paths (store : ℤ → Telemetry → Telemetry) (huri : ∀ i p, (store i p).uriPath = p.uriPath)
    {uriPath : String} {p : Telemetry} (old : ℤ) (ms : ℕ)
    (hf : w.app.features.find? (fun p => p.uriPath = uriPath) = some p) :
    (resetAlarm uriPath old ms cb store w).app.features.map Telemetry.uriPath =
      w.app.features.map Telemetry.uriPath := by
  obtain ⟨pre, post, hl, hl', -⟩ := resetAlarm_split old ms cb store hf
  simp [hl, hl', huri]

theorem resetPush_inv {s : Timed} (h : TimedInv s) {uriPath : String} {p : Telemetry}
    (hf : s.client.app.features.find? (fun p => p.uriPath = uriPath) = some p) {new : UInt16} (hnew : new ≠ 0) :
    TimedInv ⟨resetAlarm uriPath p.pushId (new.toNat * 1000) .pushAlertAlarmCb (fun id p => { p with pushId := id })
      s.client,
      setRate (some uriPath) new s.pushRate, s.scanRate⟩ := by
  obtain ⟨hb, ha⟩ := resetPush h.base hf (new.toNat * 1000)
  refine ⟨hb, ha.kaOk h.ka, ?_, ?_, ?_⟩
  · exact (resetAlarm_paths (fun id p => { p with pushId := id }) (fun _ _ => rfl) _ _ hf).symm ▸ h.paths
  · exact h.push.reset (fun id p => { p with pushId := id }) (fun _ _ => rfl) (fun _ _ => rfl) h.base h.paths hf hnew
  · refine h.threshold.reset_other (fun id p => { p with pushId := id }) (fun _ _ => rfl) (fun _ _ => rfl) hf ?_
    exact (Act.resetPush hf _).alarmsOf h.base h.ka.safe (by simp [Kind.alarmCb])

theorem resetThreshold_inv {s : Timed} (h : TimedInv s) {uriPath : String} {p : Telemetry}
    (hf : s.client.app.features.find? (fun p => p.uriPath = uriPath) = some p) {new : UInt16} (hnew : new ≠ 0) :
    TimedInv ⟨resetAlarm uriPath p.thresholdId (new.toNat * 1000) .thresholdAlertAlarmCb
      (fun id p => { p with thresholdId := id }) s.client, s.pushRate, setRate (some uriPath) new s.scanRate⟩ := by
  obtain ⟨hb, ha⟩ := resetThreshold h.base hf (new.toNat * 1000)
  refine ⟨hb, ha.kaOk h.ka, ?_, ?_, ?_⟩
  · exact (resetAlarm_paths (fun id p => { p with thresholdId := id }) (fun _ _ => rfl) _ _ hf).symm ▸ h.paths
  · refine h.push.reset_other (fun id p => { p with thresholdId := id }) (fun _ _ => rfl) (fun _ _ => rfl) hf ?_
    exact (Act.resetThreshold hf _).alarmsOf h.base h.ka.safe (by simp [Kind.alarmCb])
  · exact h.threshold.reset (fun id p => { p with thresholdId := id }) (fun _ _ => rfl) (fun _ _ => rfl) h.base h.paths
      hf hnew

theorem telemetryAdd_inv {s : Timed} (h : TimedInv s) {uriPath : Option String} {payloadCb : Option ℕ}
    (hnew : s.client.AddsNew (.telemetryAdd uriPath payloadCb)) :
    TimedInv (s.step cfg (.telemetryAdd uriPath payloadCb)) := by
  have hs := client_step cfg h.base h.ka (.telemetryAdd uriPath payloadCb)
  match uriPath, payloadCb with
  | none, _ => exact h
  | some _, none => exact h
  | some uriPath, some payloadCb =>
    refine ⟨hs.base, hs.ka, ?_, ?_, ?_⟩
    · show ((s.client.app.features ++ [(⟨uriPath, payloadCb, -1, -1⟩ : Telemetry)]).map Telemetry.uriPath).Nodup
      rw [List.map_append, List.map_singleton, ← List.concat_eq_append, List.nodup_concat]
      refine ⟨fun hm => ?_, h.paths⟩
      obtain ⟨q, hq, heq⟩ := List.mem_map.1 hm
      exact hnew q hq heq
    · exact h.push.mono rfl fun q hq _ _ _ => ⟨q, List.mem_append_left _ hq, rfl, rfl⟩
    · exact h.threshold.mono rfl fun q hq _ _ _ => ⟨q, List.mem_append_left _ hq, rfl, rfl⟩

/-- A feature that has an alarm stays, when the one that goes has none. -/
theorem mem_del (hb : BaseInv w) {uriPath : String} (hidle : w.DelsIdle (.telemetryDel (some uriPath)))
    {id : Telemetry → ℤ} (hid : ∀ p, p.pushId = -1 ∧ p.thresholdId = -1 → id p = -1) {q : Telemetry}
    (hq : q ∈ w.app.features) {a : AlarmEntry AppAlarm} (ha : a ∈ w.net.alarmEntry) (heq : id q = a.alarmId) :
    q ∈ w.app.features.eraseP fun p => p.uriPath = uriPath := by
  cases hf : w.app.features.find? fun p => p.uriPath = uriPath with
  | none =>
    rw [List.find?_eq_none] at hf
    rw [List.eraseP_of_forall_not hf]
    exact hq
  | some p =>
    obtain ⟨pre, post, hl, hpre, hp⟩ := find?_split hf
    have hne : q ≠ p := by
      rintro rfl
      have hneg : id q = -1 := hid q (hidle q hf)
      have := hb.net.nonneg _ (List.mem_append_left _ (List.mem_map_of_mem ha))
      omega
    rw [hl] at hq ⊢
    rw [eraseP_split hpre hp]
    simpa [hne] using hq

theorem telemetryDel_inv {s : Timed} (h : TimedInv s) {uriPath : Option String}
    (hidle : s.client.DelsIdle (.telemetryDel uriPath)) : TimedInv (s.step cfg (.telemetryDel uriPath)) := by
  have hs := client_step cfg h.base h.ka (.telemetryDel uriPath)
  cases uriPath with
  | none => exact h
  | some uriPath =>
    refine ⟨hs.base, hs.ka, h.paths.sublist (List.eraseP_sublist.map _), ?_, ?_⟩
    · exact h.push.mono rfl fun q hq a ha hid =>
        ⟨q, mem_del h.base hidle (fun _ hp => hp.1) hq (mem_alarmsOf.1 ha).1 hid, rfl, rfl⟩
    · exact h.threshold.mono rfl fun q hq a ha hid =>
        ⟨q, mem_del h.base hidle (fun _ hp => hp.2) hq (mem_alarmsOf.1 ha).1 hid, rfl, rfl⟩

theorem pushSet_inv {s : Timed} (h : TimedInv s) (uriPath : Option String) (pushRate : UInt16) :
    TimedInv (s.step cfg (.pushSet uriPath pushRate)) := by
  have hs := client_step cfg h.base h.ka (.pushSet uriPath pushRate)
  cases uriPath with
  | none => exact h
  | some uriPath =>
    cases hf : s.client.app.features.find? fun p => p.uriPath = uriPath with
    | none =>
      have hw : s.client.step cfg (.pushSet (some uriPath) pushRate) = s.client := by
        simp [Client.step, atlasTelemetryPushSet, hf]
      refine ⟨hs.base, hs.ka, ?_, ?_, ?_⟩ <;> simp only [Timed.step, hw]
      · exact h.paths
      · exact h.push.setRate (by simpa using hf) pushRate
      · exact h.threshold
    | some p =>
      by_cases h0 : pushRate = 0
      · have hw : s.client.step cfg (.pushSet (some uriPath) pushRate) = atlasTelemetryPush cfg p false s.client := by
          simp [Client.step, atlasTelemetryPushSet, hf, h0]
        have hk : TelemetryKept s.client (s.client.step cfg (.pushSet (some uriPath) pushRate)) := by
          rw [hw]; exact push_telemetryKept p false s.client
        refine hk.inv h hs.base hs.ka ?_ h.threshold
        simp only [Timed.step, setRate, h0, if_true]
        exact h.push
      · have hw : s.client.step cfg (.pushSet (some uriPath) pushRate) =
            resetAlarm uriPath p.pushId (pushRate.toNat * 1000) .pushAlertAlarmCb
              (fun id p => { p with pushId := id }) s.client := by
          simp [Client.step, atlasTelemetryPushSet, hf, h0]
        unfold Timed.step
        rw [hw]
        exact resetPush_inv h hf h0

theorem thresholdSet_inv {s : Timed} (h : TimedInv s) (uriPath : Option String) (scanRate : UInt16) :
    TimedInv (s.step cfg (.thresholdSet uriPath scanRate)) := by
  have hs := client_step cfg h.base h.ka (.thresholdSet uriPath scanRate)
  cases uriPath with
  | none => exact h
  | some uriPath =>
    by_cases h0 : scanRate = 0
    · have hw : s.step cfg (.thresholdSet (some uriPath) scanRate) = s := by
        simp [Timed.step, Client.step, atlasTelemetryThresholdSet, setRate, h0]
      rw [hw]
      exact h
    cases hf : s.client.app.features.find? fun p => p.uriPath = uriPath with
    | none =>
      have hw : s.client.step cfg (.thresholdSet (some uriPath) scanRate) = s.client := by
        simp [Client.step, atlasTelemetryThresholdSet, hf]
      refine ⟨hs.base, hs.ka, ?_, ?_, ?_⟩ <;> simp only [Timed.step, hw]
      · exact h.paths
      · exact h.push
      · exact h.threshold.setRate (by simpa using hf) scanRate
    | some p =>
      have hw : s.client.step cfg (.thresholdSet (some uriPath) scanRate) =
          resetAlarm uriPath p.thresholdId (scanRate.toNat * 1000) .thresholdAlertAlarmCb
            (fun id p => { p with thresholdId := id }) s.client := by
        simp [Client.step, atlasTelemetryThresholdSet, hf, h0]
      unfold Timed.step
      rw [hw]
      exact resetThreshold_inv h hf h0

/-- **What each step keeps**, as long as no feature is deleted that has an alarm. -/
theorem timedInv_step {s : Timed} (h : TimedInv s) {e : Event} (hnew : s.client.AddsNew e)
    (hidle : s.client.DelsIdle e) :
    TimedInv (s.step cfg e) := by
  by_cases he : e.ofTelemetry = false
  · have hs := client_step cfg h.base h.ka e
    have hk := step_telemetryKept cfg he h.base h.ka
    refine hk.inv h hs.base hs.ka ?_ ?_
    · cases e with
      | pushSet => cases he
      | _ => exact h.push
    · cases e with
      | thresholdSet => cases he
      | _ => exact h.threshold
  cases e with
  | telemetryAdd uriPath payloadCb => exact telemetryAdd_inv h hnew
  | telemetryDel uriPath => exact telemetryDel_inv h hidle
  | pushSet uriPath pushRate => exact pushSet_inv h uriPath pushRate
  | thresholdSet uriPath scanRate => exact thresholdSet_inv h uriPath scanRate
  | _ => exact absurd rfl he

/-- A feature that has an alarm leaves it behind. -/
theorem not_serves_del {id : Telemetry → ℤ} {useThreshold : Bool} {uriPath : String} {p : Telemetry}
    (ho : Owned w.net (.app cb) (w.app.features.map id))
    (hf : w.app.features.find? (fun p => p.uriPath = uriPath) = some p)
    (hs : Serves cfg (atlasTelemetryDel (some uriPath) w) cb id rate useThreshold) : id p = -1 := by
  obtain ⟨pre, post, hl, hpre, hp⟩ := find?_split hf
  have hfeat : (atlasTelemetryDel (some uriPath) w).app.features = pre ++ post := by
    simp only [atlasTelemetryDel, mapFeatures, World.mapApp]
    rw [hl, eraseP_split hpre hp]
  by_contra hne
  obtain ⟨a, ha, hcb, hid⟩ := mem_idsOf.1 ((ho.live (id p) (List.mem_map_of_mem (by rw [hl]; simp))).resolve_left hne)
  obtain ⟨pre', q, post', hl', hq, -⟩ := hs.one a (mem_alarmsOf.2 ⟨ha, hcb⟩)
  -- another feature would have the same id
  have hqm : q ∈ pre ++ post := by rw [← hfeat, hl']; simp
  have halone := ho.alone
  rw [hl, List.map_append, List.map_cons, List.pairwise_append, List.pairwise_cons] at halone
  obtain ⟨-, ⟨hpost, -⟩, hcross⟩ := halone
  rcases List.mem_append.1 hqm with hqm | hqm
  · exact hne ((hq.trans hid).symm.trans (hcross _ (List.mem_map_of_mem hqm) (id p) (by simp) (hq.trans hid)))
  · exact hne (hpost _ (List.mem_map_of_mem hqm) (hq.trans hid).symm)

/-- **Alarms and features stay in step, and exactly when.** In every run of the client in which no
feature is added under the path of another, whatever the outcome of each `atlas_alarm_set`: after
every step each push alarm is the `pushId` of exactly one feature in the list, which has been given a push
rate that was not zero, has the period of the last such rate, and pushes that feature, without thresholds, when
it fires; the same goes for threshold alarms, with thresholds; and no feature has two of either; if
and only if no feature is ever deleted that has an alarm. -/
theorem matched_iff (cfg : Cfg) (os : Os) {es : List Event}
    (hnew : Along (Timed.step cfg) (fun s e => s.client.AddsNew e) (Timed.init os) es) :
    Along (Timed.step cfg) (fun s e => (s.step cfg e).Matched cfg) (Timed.init os) es ↔
      Along (Timed.step cfg) (fun s e => s.client.DelsIdle e) (Timed.init os) es := by
  refine along_exact TimedInv (fun s e => s.client.AddsNew e) ?_ ?_ (timedInv_init os) hnew
  · intro s e h hnew hidle
    have h' : TimedInv (s.step cfg e) := timedInv_step h hnew hidle
    exact ⟨h'.matched, h'⟩
  · intro s e h _ hm
    cases e with
    | telemetryDel uriPath =>
      cases uriPath with
      | none => trivial
      | some uriPath =>
        intro p hp
        exact ⟨not_serves_del h.base.push hp hm.push, not_serves_del h.base.threshold hp hm.threshold⟩
    | _ => trivial

/-- A feature whose push alarm is set twice, and one that is deleted without alarms. -/
theorem matched_iff_twice :
    Along (Timed.step Cfg.plain) (fun s e => (s.step Cfg.plain e).Matched Cfg.plain) (Timed.init Os.calm)
      [.telemetryAdd (some "a") (some 0), .telemetryAdd (some "b") (some 1), .pushSet (some "a") 5,
        .pushSet (some "a") 7, .telemetryDel (some "b")] :=
  (matched_iff Cfg.plain Os.calm (by decide +kernel)).2 (by decide +kernel)

/-- **A feature deleted with its push alarm**: the alarm goes on without an owner. -/
theorem deleted_feature_leaves_alarm :
    ¬ ∀ (cfg : Cfg) (os : Os) (es : List Event),
      Along (Timed.step cfg) (fun s e => s.client.AddsNew e) (Timed.init os) es →
      Along (Timed.step cfg) (fun s e => (s.step cfg e).Matched cfg) (Timed.init os) es := by
  intro h
  have hm := (h Cfg.plain Os.calm
    ([.telemetryAdd (some "a") (some 0), .pushSet (some "a") 5] ++ [.telemetryDel (some "a")]) (by decide +kernel)).last
  obtain ⟨pre, p, post, hl, -⟩ := hm.push.one ⟨1, pushCb, false, 5000⟩ (by decide +kernel)
  have hnil : pre ++ p :: post = [] := by
    rw [← hl]
    decide +kernel
  simp at hnil

end AtlasClient
