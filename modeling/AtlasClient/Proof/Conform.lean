import AtlasClient.Proof.Config
import AtlasClient.Proof.Endpoints
import AtlasClient.Proof.Payload
import AtlasClient.Proof.Policy

/-!
# What the device sends to the gateway

Every request has the path, the method, the timeout and the commands that belong to its callback.

* `Emits`: a step whose requests are of that form. One lemma for each function.
* `Device.requests_conform`: **every request of every run**, and what a telemetry request reports.
-/

namespace AtlasClient

open FirstMatch Framing Loop Machine

variable {cfg : Cfg} {tells : Fin 15 → Bytes → Prop} {w w₁ w' : Client}

/-! ## The form of a request -/

/-- A request with a batch whose commands satisfy `p`. -/
structure IsRequest (cfg : Cfg) (c : CoapCall AppCb) (path : String) (method : AtlasCoapMethod) (timeout : ℕ)
    (p : List (UInt16 × Bytes) → Prop) : Prop where
  uri : c.uri = cfg.coapGetUri path
  method : c.method = method
  timeout : c.timeout = timeout
  batch : ∃ l, IsBatch c.reqPayload l ∧ p l

/-- A request passes on a value of the data plane under its type. -/
def PassesOn (cfg : Cfg) (type : UInt16) (l : List (UInt16 × Bytes)) : Prop :=
  ∃ value, value ≠ [] ∧ l = [(AtlasCmdType.identity, cfg.identity), (type, value)]

/-- **The protocol**: what is sent, by the callback that waits for the response. `tells` is what the feature at a place
may report. -/
def Conforms (cfg : Cfg) (tells : Fin 15 → Bytes → Prop) (c : CoapCall AppCb) : Prop :=
  match c.callback with
  | .regCallback => IsRequest cfg c "gateway/register" .post 5000 fun l => ∃ ipPort : IpPort,
      l = [(AtlasCmdType.register, cfg.identity), (AtlasCmdType.ipPort, ipPort.1)]
  | .keepaliveCallback => IsRequest cfg c "gateway/keepalive" .put 5000 fun l => ∃ (token : UInt16) (ipPort : IpPort),
      l = [(AtlasCmdType.identity, cfg.identity), (AtlasCmdType.keepalive, hostBytes cfg.endian token),
        (AtlasCmdType.ipPort, ipPort.1)]
  | .policyCallback => IsRequest cfg c "gateway/policy" .put 5000 fun l => ∃ qos packetsPerMin packetsMaxlen : UInt16,
      l = [(AtlasCmdType.dataPlanePolicyQos, netBytes qos),
        (AtlasCmdType.dataPlanePolicyPacketsPerMinute, netBytes packetsPerMin),
        (AtlasCmdType.dataPlanePolicyPacketsMaxlen, netBytes packetsMaxlen)]
  | .telemetryCallback => ∃ (place : Fin 15) (path : String), telemetryPaths[place.1]? = some path ∧
      IsRequest cfg c path .put 40000 fun l => ∃ text,
        l = [(AtlasCmdType.identity, cfg.identity), (featureTypes.get place, text)] ∧ tells place text
  | .featureReputationCallback =>
      IsRequest cfg c "gateway/reputation/feature" .put 5000 (PassesOn cfg AtlasCmdType.dataPlaneFeatureReputation)
  | .feedbackCallback =>
    IsRequest cfg c "gateway/reputation/feedback" .put 5000 (PassesOn cfg AtlasCmdType.dataPlaneFeedback)

/-! ## Steps -/

/-- The features of the client are those of the table. -/
def FromTable (w : Client) : Prop :=
  ∀ p ∈ w.app.features, ∃ place : Fin 15, telemetryPaths[place.1]? = some p.uriPath ∧ p.payloadCb = place

/-- The features are those of the table, and their callbacks say what they may. -/
structure Told (cfg : Cfg) (tells : Fin 15 → Bytes → Prop) (w : Client) : Prop where
  payloads : ∀ k (place : Fin 15) useThreshold, w.net.os.payloads.get k place useThreshold = [] ∨ ∃ text,
    IsBatch (w.net.os.payloads.get k place useThreshold)
      [(AtlasCmdType.identity, cfg.identity), (featureTypes.get place, text)] ∧ tells place text
  features : FromTable w

/-- A step of a client that is `Told`, whose requests conform. -/
def Emits (cfg : Cfg) (tells : Fin 15 → Bytes → Prop) (w w' : Client) : Prop :=
  Told cfg tells w → Told cfg tells w' ∧ ∃ new, w'.calls = w.calls ++ new ∧ ∀ c ∈ new, Conforms cfg tells c

theorem Emits.refl (w : Client) : Emits cfg tells w w := fun h => ⟨h, [], by simp, by simp⟩

theorem Emits.trans (h : Emits cfg tells w w₁) (h' : Emits cfg tells w₁ w') : Emits cfg tells w w' := by
  intro hw
  obtain ⟨hw₁, hnew⟩ := h hw
  obtain ⟨hw', hnew'⟩ := h' hw₁
  exact ⟨hw', appended_trans hnew hnew'⟩

/-- Neither the features nor the calls have changed; answers may have been consumed. -/
theorem Emits.of_same (ho : ∀ k, ∃ j, w'.net.os.payloads.get k = w.net.os.payloads.get j)
    (hf : w'.app.features.map (fun p => (p.uriPath, p.payloadCb)) =
      w.app.features.map fun p => (p.uriPath, p.payloadCb))
    (hc : w'.calls = w.calls) : Emits cfg tells w w' := by
  intro h
  refine ⟨⟨fun k place useThreshold => ?_, fun p hp => ?_⟩, [], by simp [hc], by simp⟩
  · obtain ⟨j, hj⟩ := ho k
    rw [hj]
    exact h.payloads j place useThreshold
  · have hmem : (p.uriPath, p.payloadCb) ∈ w.app.features.map fun p => (p.uriPath, p.payloadCb) :=
      hf ▸ List.mem_map_of_mem hp
    obtain ⟨q, hq, heq⟩ := List.mem_map.1 hmem
    simp only [Prod.mk.injEq] at heq
    rw [← heq.1, ← heq.2]
    exact h.features q hq

theorem Emits.of_os (ho : w'.net.os.payloads = w.net.os.payloads) (hf : w'.app.features = w.app.features)
    (hc : w'.calls = w.calls) : Emits cfg tells w w' := .of_same (fun k => ⟨k, by rw [ho]⟩) (by rw [hf]) hc

/-! ### Alarms and requests -/

theorem alarmSet_payloads (ms : ℕ) (cb : AlarmCb AppAlarm) (once : Bool) (n : Net AppAlarm AppCb) :
    (atlasAlarmSet ms cb once n).2.os.payloads = n.os.payloads := by
  rcases alarmSet_cases ms cb once n with ⟨-, heq⟩ | ⟨fd, s, -, -, -, heq⟩ <;> rw [heq]

theorem alarmCancel_os (id : ℤ) (n : Net AppAlarm AppCb) : (atlasAlarmCancel id n).os = n.os := by
  unfold atlasAlarmCancel
  split <;> rfl

theorem addRequest_payloads (ctx session : ℕ) (coapFd : Option Fresh) (uri : String) (token : UInt32) (timeout : ℕ)
    (cb : AppCb) (n : Net AppAlarm AppCb) :
    (addRequest ctx session coapFd uri token timeout cb n).2.os.payloads = n.os.payloads := by
  have hset := alarmSet_payloads timeout .requestAlarmCb true n
  unfold addRequest
  cases coapFd with
  | none => rfl
  | some fresh =>
    simp only
    split
    · exact hset
    · exact hset

theorem request_payloads (uri : String) (timeout : ℕ) (cb : AppCb) (n : Net AppAlarm AppCb) :
    (atlasCoapClientRequest (some uri) timeout (some cb) n).2.os.payloads = n.os.payloads := by
  unfold atlasCoapClientRequest
  simp only
  repeat' split
  all_goals first | rfl | exact addRequest_payloads ..

/-- **A request** is a step if it conforms. -/
theorem request_emits {uri : String} {m : AtlasCoapMethod} {pl : Bytes} {t : ℕ} {cb : AppCb}
    (h : ∀ status, Conforms cfg tells ⟨uri, m, pl, t, cb, status⟩) (w : Client) :
    Emits cfg tells w (w.request uri m pl t cb) := by
  intro hw
  refine ⟨⟨fun k place useThreshold => ?_, hw.features⟩, _, rfl, fun c hc => ?_⟩
  · have hos : (w.request uri m pl t cb).net.os.payloads = w.net.os.payloads := request_payloads uri t cb w.net
    rw [hos]
    exact hw.payloads k place useThreshold
  · rw [List.mem_singleton.1 hc]
    exact h _

theorem alarmSet_emits (ms : ℕ) (cb : AlarmCb AppAlarm) (once : Bool) (w : Client) :
    Emits cfg tells w (w.mapNet fun n => (atlasAlarmSet ms cb once n).2) := .of_os (alarmSet_payloads ..) rfl rfl

theorem alarmCancel_emits (id : ℤ) (w : Client) : Emits cfg tells w (w.mapNet (atlasAlarmCancel id)) :=
  .of_os (congrArg Os.payloads (alarmCancel_os id w.net)) rfl rfl

theorem mapReg_emits (f : Register → Register) (w : Client) : Emits cfg tells w (mapReg f w) := .of_os rfl rfl rfl

theorem mapConn_emits (f : Connector → Connector) (w : Client) : Emits cfg tells w (mapConn f w) := .of_os rfl rfl rfl

theorem orStay_emits {x : Except Fault Client} (h : ∀ w', x = .ok w' → Emits cfg tells w w') :
    Emits cfg tells w (orStay w x) := by
  cases x with
  | error f => exact .refl w
  | ok w' => exact h w' rfl

/-! ### Telemetry -/

/-- **A push** sends what the callback of the feature tells. -/
theorem push_emits {p : Telemetry} (hp : p ∈ w.app.features) (useThreshold : Bool) :
    Emits cfg tells w (atlasTelemetryPush cfg p useThreshold w) := by
  intro hw
  unfold atlasTelemetryPush
  split
  · exact Emits.refl w hw
  have hask : Emits cfg tells w (askPayload p useThreshold w).2 := .of_same (fun k => ⟨k + 1, rfl⟩) rfl rfl
  simp only
  split
  · exact hask hw
  rename_i hne
  obtain ⟨place, hpath, hplace⟩ := hw.features p hp
  refine hask.trans (request_emits (fun status => ?_) _) hw
  rcases hw.payloads 0 place useThreshold with hnone | ⟨text, hbatch, htext⟩
  · refine absurd ?_ hne
    simp only [askPayload, hplace]
    exact hnone
  · refine ⟨place, p.uriPath, hpath, rfl, rfl, rfl, _, ?_, text, rfl, htext⟩
    simp only [askPayload, hplace]
    exact hbatch

theorem push_features (p : Telemetry) (useThreshold : Bool) (w : Client) :
    (atlasTelemetryPush cfg p useThreshold w).app.features = w.app.features :=
  (push_quiet p useThreshold w).grows.features

theorem pushAll_emits (w : Client) : Emits cfg tells w (atlasTelemetryPushAll cfg w) := by
  have hfold : ∀ (l : List Telemetry) (v : Client), (∀ p ∈ l, p ∈ v.app.features) →
      Emits cfg tells v (l.foldl (fun w p => atlasTelemetryPush cfg p false w) v) := by
    intro l
    induction l with
    | nil => exact fun v _ => .refl v
    | cons p l ih =>
      intro v hl
      refine (push_emits (hl p List.mem_cons_self) false).trans (ih _ fun q hq => ?_)
      rw [push_features]
      exact hl q (List.mem_cons_of_mem _ hq)
  exact hfold w.app.features w fun p hp => hp

/-- A feature that is found is pushed. -/
theorem pushFound_emits (f : Telemetry → Bool) (useThreshold : Bool) (w : Client) :
    Emits cfg tells w (match w.app.features.find? f with
      | none => w
      | some p => atlasTelemetryPush cfg p useThreshold w) := by
  split
  · exact .refl w
  · rename_i hf
    exact push_emits (List.mem_of_find?_eq_some hf) useThreshold

theorem telemetryCallback_emits (uri : String) (status : AtlasCoapResponse) (w : Client) :
    Emits cfg tells w (telemetryCallback cfg uri status w) := by
  unfold telemetryCallback
  split
  · exact .refl w
  split
  · exact .refl w
  · exact pushFound_emits _ false w

theorem resetAlarm_emits (uriPath : String) (old : ℤ) (ms : ℕ) (cb : AppAlarm) (store : ℤ → Telemetry → Telemetry)
    (h : ∀ id p, (store id p).uriPath = p.uriPath ∧ (store id p).payloadCb = p.payloadCb) (w : Client) :
    Emits cfg tells w (resetAlarm uriPath old ms cb store w) := by
  refine .of_same (fun k => ⟨k, ?_⟩) ?_ rfl
  · have hos : (swapAlarm old ms cb w.net).2.os.payloads = w.net.os.payloads := by
      unfold swapAlarm
      rw [alarmSet_payloads]
      split
      · rw [alarmCancel_os]
      · rfl
    simp only [resetAlarm, mapFeatures, World.mapApp, hos]
  · exact map_updFirst fun p => by rw [(h _ p).1, (h _ p).2]

theorem pushSet_emits (uriPath : Option String) (pushRate : UInt16) (w : Client) :
    Emits cfg tells w (atlasTelemetryPushSet cfg uriPath pushRate w) := by
  unfold atlasTelemetryPushSet
  split
  · exact .refl w
  split
  · exact .refl w
  · rename_i hf
    split
    · exact push_emits (List.mem_of_find?_eq_some hf) false
    · exact resetAlarm_emits _ _ _ _ (fun id p => { p with pushId := id }) (fun _ _ => ⟨rfl, rfl⟩) w

theorem thresholdSet_emits (uriPath : Option String) (scanRate : UInt16) (w : Client) :
    Emits cfg tells w (atlasTelemetryThresholdSet uriPath scanRate w) := by
  unfold atlasTelemetryThresholdSet
  split
  · exact .refl w
  split
  · exact .refl w
  split
  · exact .refl w
  · exact resetAlarm_emits _ _ _ _ (fun id p => { p with thresholdId := id }) (fun _ _ => ⟨rfl, rfl⟩) w

/-! ### Registration -/

/-- A payload that has been built. -/
theorem isBatch_of_ok {e : Endian} (cmds : List Cmd) {buf : Bytes} (hfit : (encode cmds).length < 65536)
    (h : cmdBatchBytes e (cmds.map Cmd.args) = .ok buf) : IsBatch buf (cmds.map fun c => (c.type, c.value)) := by
  rw [cmdBatchBytes_ok e cmds hfit] at h
  cases h
  exact ⟨cmds, rfl, rfl⟩

theorem localIpPort_emits (w : Client) : Emits cfg tells w (localIpPort w).2 := .of_os rfl rfl rfl

theorem sendRegister_emits (h : sendRegisterCommand cfg w = .ok w') : Emits cfg tells w w' := by
  obtain ⟨h1, h2, h3⟩ := ownCmds_lt cfg w.net.os.ipPorts.head
  simp only [sendRegisterCommand, bind] at h
  obtain ⟨buf, hbuf, h⟩ := bind_ok.1 h
  cases h
  have hbatch : IsBatch buf [(AtlasCmdType.register, cfg.identity), (AtlasCmdType.ipPort, w.net.os.ipPorts.head.1)] :=
    isBatch_of_ok [Cmd.of AtlasCmdType.register _ h1, Cmd.of AtlasCmdType.ipPort _ h2]
      (by simp [Frame.bytes_length, Cmd.size_eq]; omega) hbuf
  refine (localIpPort_emits w).trans (request_emits (fun _ => ?_) _)
  exact ⟨rfl, rfl, rfl, _, hbatch, _, rfl⟩

theorem sendKeepalive_emits (h : sendKeepaliveCommand cfg w = .ok w') : Emits cfg tells w w' := by
  obtain ⟨h1, h2, h3⟩ := ownCmds_lt cfg w.net.os.ipPorts.head
  have ht : (hostBytes cfg.endian (w.app.reg.kaToken + 1)).length < 65536 := by simp
  simp only [sendKeepaliveCommand, bind] at h
  obtain ⟨buf, hbuf, h⟩ := bind_ok.1 h
  cases h
  have hbatch : IsBatch buf [(AtlasCmdType.identity, cfg.identity),
      (AtlasCmdType.keepalive, hostBytes cfg.endian (w.app.reg.kaToken + 1)),
      (AtlasCmdType.ipPort, w.net.os.ipPorts.head.1)] := by
    refine isBatch_of_ok (e := cfg.endian) [Cmd.of AtlasCmdType.identity _ h1, Cmd.of AtlasCmdType.keepalive _ ht,
      Cmd.of AtlasCmdType.ipPort _ h2] (by simp [Frame.bytes_length, Cmd.size_eq]; omega) ?_
    rw [← hbuf]
    simp only [List.map_cons, List.map_nil, ← hostCmd_eq]
    rfl
  refine (localIpPort_emits w).trans ((mapReg_emits _ _).trans (request_emits (fun _ => ?_) _))
  exact ⟨rfl, rfl, rfl, _, hbatch, _, _, rfl⟩

theorem sendPolicy_emits (h : sendPolicyCommand cfg w = .ok w') : Emits cfg tells w w' := by
  rw [sendPolicy_eq] at h
  cases h
  split
  · refine request_emits (fun _ => ?_) w
    exact ⟨rfl, rfl, rfl, _, ⟨_, rfl, rfl⟩, _, _, _, rfl⟩
  · exact .refl w

theorem regCompleted_emits (w : Client) : Emits cfg tells w (regCompleted cfg w) := by
  have hreg : Emits cfg tells w (mapReg (fun r => { r with registered := true }) w) := mapReg_emits _ w
  refine hreg.trans ((pushAll_emits _).trans ?_)
  exact .of_os (alarmSet_payloads ..) rfl rfl

theorem regCallback_emits {status : AtlasCoapResponse} (h : regCallback cfg status w = .ok w') :
    Emits cfg tells w w' := by
  unfold regCallback at h
  split at h
  · cases h
    exact alarmSet_emits _ _ _ w
  · cases hsent : (if !w.app.reg.registered then sendPolicyCommand cfg w else .ok w : Except Fault Client) with
    | error f =>
      rw [hsent] at h
      cases h
    | ok w₁ =>
      rw [hsent] at h
      cases h
      refine Emits.trans ?_ (regCompleted_emits w₁)
      split at hsent
      · exact sendPolicy_emits hsent
      · cases hsent
        exact .refl w

theorem keepaliveErr_emits (h : keepaliveErr cfg w = .ok w') : Emits cfg tells w w' := by
  unfold keepaliveErr at h
  simp only at h
  split at h
  · refine Emits.trans ?_ (sendRegister_emits h)
    exact .of_os (congrArg Os.payloads (alarmCancel_os _ _)) (by rfl) (by rfl)
  · cases h
    exact mapReg_emits _ w

theorem keepaliveCallback_emits {status : AtlasCoapResponse} {payload : Bytes}
    (h : keepaliveCallback cfg status payload w = .ok w') : Emits cfg tells w w' := by
  unfold keepaliveCallback at h
  split at h
  · split at h
    · exact (mapReg_emits _ w).trans (keepaliveErr_emits h)
    · exact keepaliveErr_emits h
  split at h
  · exact keepaliveErr_emits h
  · cases h
    exact mapReg_emits _ w

/-! ### The connector -/

/-- What a handler does is a step, for each command of a size. -/
theorem fold_emits {handle : AtlasCmd → Client → Except Fault (Client ⊕ Client)} {cmds : List Cmd}
    (hh : ∀ c ∈ cmds, ∀ post w x, handle ⟨c.type, c.length, c.value ++ post⟩ w = .ok x →
    Emits cfg tells w (x.elim id id)) :
    ∀ {w w' : Client}, foldCmds handle cmds w = .ok w' → Emits cfg tells w w' := by
  induction cmds with
  | nil =>
    intro w w' h
    cases h
    exact .refl w
  | cons c cs ih =>
    intro w w' h
    simp only [foldCmds, bind] at h
    obtain ⟨x, hx, h⟩ := bind_ok.1 h
    have hstep := hh c List.mem_cons_self (encode cs) w x hx
    cases x with
    | inl a => exact hstep.trans (ih (fun d hd => hh d (List.mem_cons_of_mem _ hd)) h)
    | inr a =>
      cases h
      exact hstep

theorem emits_inl {x : Except Fault Client} (hx : ∀ w', x = .ok w' → Emits cfg tells w w') {y : Client ⊕ Client}
    (h : Sum.inl <$> x = .ok y) : Emits cfg tells w (y.elim id id) := by
  cases x with
  | error f => cases h
  | ok w' =>
    cases h
    exact hx w' rfl

theorem withConn_emits {f : Connector → Except Fault Connector} (h : withConn f w = .ok w') : Emits cfg tells w w' := by
  simp only [withConn, bind] at h
  obtain ⟨c, -, h⟩ := bind_ok.1 h
  cases h
  exact mapConn_emits _ w

theorem policyHandle_emits (cmd : AtlasCmd) (x : Client ⊕ Client) (h : policyHandle cfg cmd w = .ok x) :
    Emits cfg tells w (x.elim id id) := by
  unfold policyHandle at h
  split at h
  · exact emits_inl (fun _ => withConn_emits) h
  split at h
  · exact emits_inl (fun _ => withConn_emits) h
  split at h
  · exact emits_inl (fun _ => withConn_emits) h
  · cases h
    exact .refl w

theorem parsePolicy_emits {buf : Bytes} {len : UInt16} (h : atlasDataPlaneParsePolicy cfg buf len w = .ok w') :
    Emits cfg tells w w' := by
  rcases parsePolicy_cases h with rfl | ⟨b, b', w₁, hl, hsend⟩
  · exact .refl _
  · have hloop : Emits cfg tells w w₁ :=
      cmdLoop_inv (I := Emits cfg tells w) (fun cmd a x ha hx => ha.trans (policyHandle_emits cmd x hx)) (.refl w) hl
    exact hloop.trans ((mapConn_emits _ w₁).trans (sendPolicy_emits hsend))

/-- A value that is passed on. -/
theorem forward_emits {c : Cmd} (hc : c.size ≤ 2048) {path : String} {cb : AppCb} {post : Bytes}
    (hcb : ∀ call : CoapCall AppCb, call.callback = cb → IsRequest cfg call path .put 5000 (PassesOn cfg c.type) →
      Conforms cfg tells call) (h : forwardToGateway cfg c.type path cb (c.value ++ post) c.length w = .ok w') :
    Emits cfg tells w w' := by
  by_cases hne : c.value = []
  · have h0 : c.length = 0 := UInt16.toNat_inj.1 (by rw [← c.value_length, hne]; rfl)
    rw [forwardToGateway, if_pos h0] at h
    cases h
    exact .refl w
  · rw [forward_request cfg hne hc] at h
    cases h
    refine request_emits (fun status => hcb _ rfl ⟨rfl, rfl, rfl, _, ⟨_, rfl, rfl⟩, ?_⟩) w
    exact ⟨c.value, hne, rfl⟩

theorem dataPlaneHandle_emits {c : Cmd} (hc : c.size ≤ 2048) (post : Bytes) (w : Client) (x : Client ⊕ Client)
    (h : dataPlaneHandle cfg ⟨c.type, c.length, c.value ++ post⟩ w = .ok x) : Emits cfg tells w (x.elim id id) := by
  unfold dataPlaneHandle at h
  split at h
  · exact emits_inl (fun _ => parsePolicy_emits) h
  split at h
  · exact emits_inl (fun _ => withConn_emits) h
  split at h
  · exact emits_inl (fun _ => withConn_emits) h
  split at h
  · rename_i ht
    refine emits_inl (fun w' hw => ?_) h
    simp only at ht
    rw [atlasFeatureReputationHandle, ← ht] at hw
    refine forward_emits hc (fun call hcall hsends => ?_) hw
    rw [ht] at hsends
    simpa only [Conforms, hcall] using hsends
  split at h
  · rename_i ht
    refine emits_inl (fun w' hw => ?_) h
    simp only at ht
    rw [atlasFeatureFeedbackHandle, ← ht] at hw
    refine forward_emits hc (fun call hcall hsends => ?_) hw
    rw [ht] at hsends
    simpa only [Conforms, hcall] using hsends
  split at h
  · refine emits_inl (fun w' hw => ?_) h
    simp only [atlasDataPlaneIdentity, bind] at hw
    obtain ⟨buf, -, hw⟩ := bind_ok.1 hw
    cases hw
    exact mapConn_emits _ w
  · cases h
    exact .refl w

theorem cmd_size_le {cmds : List Cmd} {c : Cmd} (hc : c ∈ cmds) : c.size ≤ (encode cmds).length := by
  obtain ⟨l, r, rfl⟩ := List.append_of_mem hc
  have hbytes := c.bytes_length
  rw [encode_append, encode_cons, List.length_append, List.length_append]
  omega

/-- **A message of the data plane**, as long as the buffer of `atlas_data_plane_read_cb` at most. -/
theorem readCb_emits {fd : ℤ} {received : Option Bytes} (hfit : ∀ buf ∈ received, buf.length ≤ 2048)
    (h : atlasDataPlaneReadCb cfg fd received w = .ok w') : Emits cfg tells w w' := by
  cases received with
  | none =>
    cases h
    exact .of_os rfl rfl rfl
  | some buf =>
    obtain ⟨post, hsplit, hlen⟩ := take_append_rest buf
    simp only [atlasDataPlaneReadCb, bind] at h
    obtain ⟨⟨status, b⟩, hraw, h⟩ := bind_ok.1 h
    simp only at h
    split at h
    · cases h
      exact .refl w
    rename_i hst
    rw [ne_eq, not_not] at hst
    obtain ⟨cmds, hcmds, hne, hh⟩ : ∃ cmds : List Cmd, buf.take (buf.length % 65536) = encode cmds ∧ cmds ≠ [] ∧
        Holds b cmds := by
      generalize buf.take (buf.length % 65536) = s at *
      rw [hsplit] at hlen hraw
      rw [hst] at hraw
      exact setRaw_holds hlen hraw
    have hloop : foldCmds (dataPlaneHandle cfg) cmds w = .ok w' := by
      rw [← loop_raw (e := cfg.endian) hh hne w]
      exact h
    have hsize : (encode cmds).length ≤ 2048 := by
      rw [← hcmds, List.length_take]
      have := hfit buf rfl
      omega
    exact fold_emits (fun c hc => dataPlaneHandle_emits ((cmd_size_le hc).trans hsize)) hloop

/-! ### Events -/

theorem policyCallback_emits (status : AtlasCoapResponse) (w : Client) :
    Emits cfg tells w (policyCallback status w) := by
  unfold policyCallback
  split
  · exact alarmSet_emits _ _ _ w
  · exact .refl w

theorem writeDataPlane_emits (buf : Bytes) (w : Client) : Emits cfg tells w (writeDataPlane buf w) := mapConn_emits _ w

theorem reputationCallback_emits {s : AtlasCoapResponse} {pl : Bytes}
    (h : featureReputationCallback cfg s pl w = .ok w') :
    Emits cfg tells w w' := by
  rcases reputationCallback_cases h with rfl | ⟨buf, rfl⟩ | ⟨b, b', hl⟩
  · exact .refl _
  · exact writeDataPlane_emits buf w
  · refine cmdLoop_inv (I := Emits cfg tells w) (fun cmd a x ha hx => ha.trans ?_) (.refl w) hl
    rcases reputationHandle_cases hx with rfl | ⟨buf, rfl⟩
    · exact .refl a
    · exact writeDataPlane_emits buf a

theorem coapCallback_emits (cb : AppCb) (uri : String) (status : AtlasCoapResponse) (payload : Bytes) (w : Client) :
    Emits cfg tells w (coapCallback cfg cb uri status payload w) := by
  cases cb with
  | regCallback => exact orStay_emits fun _ => regCallback_emits
  | keepaliveCallback => exact orStay_emits fun _ => keepaliveCallback_emits
  | policyCallback => exact policyCallback_emits status w
  | telemetryCallback => exact telemetryCallback_emits uri status w
  | featureReputationCallback => exact orStay_emits fun _ => reputationCallback_emits
  | feedbackCallback => exact .refl w

theorem runAlarm_emits (cb : AlarmCb AppAlarm) (id : ℤ) (w : Client) :
    Emits cfg tells w ((client cfg).runAlarm cb id w) := by
  cases cb with
  | requestAlarmCb =>
    simp only [Program.runAlarm, requestAlarmCb]
    split
    · exact .refl w
    · exact (coapCallback_emits _ _ _ _ w).trans (.of_os rfl rfl rfl)
  | app cb =>
    cases cb with
    | keepaliveAlarmCallback => exact orStay_emits fun _ => sendKeepalive_emits
    | regAlarmCallback => exact orStay_emits fun _ => sendRegister_emits
    | policyAlarmCallback => exact orStay_emits fun _ => sendPolicy_emits
    | pushAlertAlarmCb => exact pushFound_emits _ false w
    | thresholdAlertAlarmCb => exact pushFound_emits _ true w

theorem unlinkIfDirty_os (fd : ℤ) (n : Net AppAlarm AppCb) : (unlinkIfDirty fd n).os = n.os := by
  unfold unlinkIfDirty
  split
  · rfl
  split
  · exact alarmCancel_os _ _
  · rfl

theorem acceptCb_os (accepted : Option Fresh) (w : Client) :
    (atlasDataPlaneAcceptCb accepted w).net.os = w.net.os ∧
      (atlasDataPlaneAcceptCb accepted w).app.features = w.app.features := by
  unfold atlasDataPlaneAcceptCb
  simp only
  split <;> split <;> exact ⟨rfl, rfl⟩

/-- What the main loop does is a step. -/
theorem main_emits {e : Device.Event} (hfit : ∀ fd buf, e = .dataPlaneRead fd (some buf) → buf.length ≤ 2048)
    {ev : Event} (hev : e.main = some ev) (w : Client) : Emits cfg tells w (w.step cfg ev) := by
  cases e with
  | put resource uriPath reqPayload => cases hev
  | start =>
    cases hev
    exact orStay_emits fun _ => sendRegister_emits
  | pdu ctx session received =>
    cases hev
    simp only [Client.step, messageHandler]
    split
    · exact .refl w
    split
    · exact .refl w
    · have hmark : Emits cfg tells w (w.mapNet (markDirty ctx session)) := .of_os rfl rfl rfl
      exact hmark.trans (coapCallback_emits _ _ _ _ _)
  | ioDone fd =>
    cases hev
    exact .of_os (congrArg Os.payloads (unlinkIfDirty_os fd w.net)) rfl rfl
  | alarm fd =>
    cases hev
    simp only [Client.step, Program.fire, atlasAlarmTrigger]
    split
    · exact .refl w
    split
    · exact (runAlarm_emits _ _ w).trans (alarmCancel_emits _ _)
    · exact runAlarm_emits _ _ w
  | dataPlaneRead fd received =>
    cases hev
    refine orStay_emits fun w' => readCb_emits fun buf hbuf => hfit fd buf ?_
    rw [Option.mem_def.1 hbuf]
  | dataPlaneAccept accepted =>
    cases hev
    obtain ⟨hos, hfeatures⟩ := acceptCb_os accepted w
    exact .of_os (congrArg Os.payloads hos) hfeatures (acceptCb_same accepted w).2.2

/-! ### Requests of the gateway -/

theorem pushAlertCb_emits {paths : List (String × String)} {uriPath reqPayload : Bytes} {resp : AtlasCoapResponse}
    (h : atlasPushAlertCb cfg paths uriPath reqPayload w = .ok (resp, w')) : Emits cfg tells w w' := by
  simp only [atlasPushAlertCb, bind] at h
  obtain ⟨⟨status, pushRate⟩, -, h⟩ := bind_ok.1 h
  simp only at h
  split at h
  · cases h
    exact .refl w
  split at h
  · cases h
    exact .refl w
  · cases h
    exact pushSet_emits _ _ w

theorem thresholdCb_emits {long : LongType} {reqPayload : Bytes} {procs procs' : UInt16} {resp : AtlasCoapResponse}
    (h : atlasThresholdAlertProcsCb cfg.endian long reqPayload procs w = .ok (resp, procs', w')) :
    Emits cfg tells w w' := by
  simp only [atlasThresholdAlertProcsCb, bind] at h
  obtain ⟨⟨status, scanRate, threshold⟩, -, h⟩ := bind_ok.1 h
  simp only at h
  split at h
  · cases h
    exact .refl w
  split at h
  · split at h
    · cases h
      exact .refl w
    · cases h
      exact thresholdSet_emits _ _ w
  · cases h

namespace Device

variable {long : LongType} {d : Device} {sys : ℕ → SystemAnswer}

theorem callback_emits {cb : EndpointCb} {uriPath reqPayload respPayload : Bytes} {procs procs' : UInt16}
    {resp : AtlasCoapResponse} (h : callback cfg long cb uriPath reqPayload (procs, w) =
      .ok (resp, respPayload, procs', w')) :
    Emits cfg tells w w' := by
  cases cb with
  | sysinfoPushAlertCb =>
    simp only [callback, bind] at h
    obtain ⟨⟨resp, w₁⟩, hcb, h⟩ := bind_ok.1 h
    cases h
    exact pushAlertCb_emits hcb
  | packetsPushAlertCb =>
    simp only [callback, bind] at h
    obtain ⟨⟨resp, w₁⟩, hcb, h⟩ := bind_ok.1 h
    cases h
    exact pushAlertCb_emits hcb
  | thresholdAlertProcsCb =>
    simp only [callback, bind] at h
    obtain ⟨⟨resp, procs₁, w₁⟩, hcb, h⟩ := bind_ok.1 h
    cases h
    exact thresholdCb_emits hcb

theorem put_emits {resource : ℕ} {uriPath : Option Bytes} {reqPayload : Bytes} {reply : Option CoapReply}
    {procs : UInt16} (h : d.put cfg long sys resource uriPath reqPayload = .ok (reply, procs, w')) :
    Emits cfg tells (d.asked cfg sys) w' := by
  unfold put CoapServer.handler CoapServer.processRequestHandler at h
  split at h
  · cases h
    exact .refl _
  simp only [bind] at h
  obtain ⟨listener, -, h⟩ := bind_ok.1 h
  split at h
  · cases h
    exact .refl _
  · obtain ⟨node, -, h⟩ := bind_ok.1 h
    obtain ⟨⟨resp, respPayload, procs₁, w₁⟩, hcb, h⟩ := bind_ok.1 h
    cases h
    exact callback_emits hcb

/-! ## The device -/

/-- What the feature at a place may report in a step: the text for one of the system's answers, with the counters and
the threshold that the device has before the step. -/
def Tells (d : Device) (sys : ℕ → SystemAnswer) (place : Fin 15) (text : Bytes) : Prop :=
  ∃ k useThreshold texts, report (d.readings (sys k)) useThreshold place = some texts ∧ texts text

theorem asked_told (hf : FromTable d.client) : Told cfg (d.Tells sys) (d.asked cfg sys) := by
  refine ⟨fun k place useThreshold => ?_, hf⟩
  have htells := payload_tells cfg (d.readings (sys k)) useThreshold place
  have hget : (d.asked cfg sys).net.os.payloads.get k place useThreshold =
      orStay [] (payloadCallback cfg (d.readings (sys k)) place useThreshold) := rfl
  rw [hget]
  cases hreport : report (d.readings (sys k)) useThreshold place with
  | none =>
    rw [hreport] at htells
    left
    rw [show payloadCallback cfg (d.readings (sys k)) place useThreshold = .ok [] from htells]
    rfl
  | some texts =>
    rw [hreport] at htells
    obtain ⟨buf, text, hout, hbatch, htext⟩ := htells
    right
    rw [hout]
    exact ⟨text, hbatch, k, useThreshold, texts, hreport, htext⟩

/-- **One step.** -/
theorem step_emits (long : LongType) {e : Event}
    (hfit : ∀ fd buf, e = .dataPlaneRead fd (some buf) → buf.length ≤ 2048) :
    (d.step cfg long (sys, e)).client = d.client ∨
      Emits cfg tells (d.asked cfg sys) (d.step cfg long (sys, e)).client := by
  cases hmain : e.main with
  | some ev =>
    right
    cases e with
    | put resource uriPath reqPayload => cases hmain
    | _ =>
      simp only [step, hmain, Option.elim]
      exact main_emits hfit hmain _
  | none =>
    cases e with
    | put resource uriPath reqPayload =>
      simp only [step]
      split
      · exact .inl rfl
      · rename_i hput
        exact .inr (put_emits hput)
    | _ => cases hmain

theorem fromTable_init (os : Os) : FromTable
    (mapFeatures (fun fs => fs ++ telemetryPaths.zipIdx.map fun p => ⟨p.1, p.2, -1, -1⟩)
    (Client.init os)) := by
  intro p hp
  simp only [mapFeatures, World.mapApp, Client.init, App.init, List.nil_append] at hp
  obtain ⟨⟨path, i⟩, hmem, rfl⟩ := List.mem_map.1 hp
  have hget := List.mem_zipIdx_iff_getElem?.1 hmem
  have hi : i < 15 := (List.getElem?_eq_some_iff.1 hget).1
  exact ⟨⟨i, hi⟩, hget, rfl⟩

/-- What a step sends, and the features after it. -/
theorem step_conforms {e : (ℕ → SystemAnswer) × Event}
    (hfit : ∀ fd buf, e.2 = .dataPlaneRead fd (some buf) → buf.length ≤ 2048)
    (h : FromTable d.client) : FromTable (d.step cfg long e).client ∧
      ∀ c ∈ callsSince d.client (d.step cfg long e).client, Conforms cfg (d.Tells e.1) c := by
  obtain ⟨sys, e⟩ := e
  have hstep : (d.step cfg long (sys, e)).client = d.client ∨
      Emits cfg (d.Tells sys) (d.asked cfg sys) (d.step cfg long (sys, e)).client := step_emits long hfit
  rcases hstep with hsame | hemits
  · rw [hsame]
    exact ⟨h, by simp [callsSince]⟩
  · obtain ⟨htold, new, hcalls, hnew⟩ := hemits (asked_told h)
    refine ⟨htold.features, fun c hc => hnew c ?_⟩
    rw [callsSince, hcalls] at hc
    rwa [show (d.asked cfg sys).calls = d.client.calls from rfl, List.drop_left] at hc

/-- **Every request of every run keeps to the protocol.** For every identity and configuration, both byte orders, any
end-points of the telemetry that could not be installed, whatever the system answers to any call, and in every run of
the device, any responses and timeouts, messages of the data plane that fit into the buffer, and requests of the gateway
for those end-points: each request made in a step has the path, the method and the timeout of its callback, and a
payload that is a batch of exactly the commands that belong to it. These are, with the identity of the device in front,
those of a registration, a keep-alive, a telemetry feature, a reputation request or a feedback; a policy request has the
quality of service, the packets per minute and the maximal length only, and no identity. A telemetry request carries the
command type of its feature, and a text that reports one of the system's answers, or the counters and the threshold that
the device has. -/
theorem requests_conform (cfg : Cfg) (long : LongType) (os : Os) (sysinfoResources packetsResources : ℕ → Option ℕ)
    (es : List ((ℕ → SystemAnswer) × Event))
    (hfit : ∀ e ∈ es, ∀ fd buf, e.2 = .dataPlaneRead fd (some buf) → buf.length ≤ 2048) :
    ∃ d₀, Device.atlasTelemetryFeaturesInit sysinfoResources packetsResources (Client.init os) = .ok d₀ ∧
      Along (Device.step cfg long) (fun d e => ∀ c ∈ callsSince d.client (d.step cfg long e).client,
        Conforms cfg (d.Tells e.1) c) d₀ es := by
  obtain ⟨d₀, lists, hinit, -, hclient, -⟩ := init_spec sysinfoResources packetsResources (Client.init os)
  refine ⟨d₀, hinit, ?_⟩
  have htable : FromTable d₀.client := by
    rw [hclient]
    exact fromTable_init os
  clear hinit hclient
  induction es generalizing d₀ with
  | nil => trivial
  | cons e es ih =>
    obtain ⟨htable', hconforms⟩ := step_conforms (hfit e List.mem_cons_self) htable
    exact ⟨hconforms, ih (fun e' he' => hfit e' (List.mem_cons_of_mem _ he')) _ htable'⟩

/-- A system that answers nothing. -/
def silent : ℕ → SystemAnswer := fun _ => ⟨none, none, none⟩

/-- A start, and a message of the data plane. -/
theorem requests_conform_message :
    ∃ d₀, Device.atlasTelemetryFeaturesInit (fun _ => none) some (Client.init Os.calm) = .ok d₀ ∧
      Along (Device.step Cfg.plain lp64) (fun d e => ∀ c ∈ callsSince d.client (d.step Cfg.plain lp64 e).client,
        Conforms Cfg.plain (d.Tells e.1) c) d₀ [(silent, .start), (silent, .dataPlaneRead 4 (some [0, 13, 0, 0]))] := by
  apply requests_conform Cfg.plain lp64 Os.calm (fun _ => none) some
  intro e he fd buf hread
  simp only [List.mem_cons, List.not_mem_nil, or_false] at he
  rcases he with rfl | rfl
  · cases hread
  · cases hread
    exact Nat.le_of_ble_eq_true rfl

end Device

end AtlasClient
