import AtlasClient.Proof.Registration
import Mathlib.Logic.Relation

/-!
# The primitives of the client

What an event does to the client, taken apart: a chain of primitives, each of a kind.
A property of the whole client is proved of the kinds (`Acts.rel`), and an event is known by
the kinds that it may use (`Client.may`).

* `client_acts`: **every event is a chain of primitives** of its own kinds.
-/

namespace AtlasClient

open FirstMatch Framing Loop

variable {cfg : Cfg} {w w₁ w' : Client}

/-! ## Kinds -/

inductive Kind
  /-- an answer of the system is consumed -/
  | answers
  | request (cb : AppCb)
  /-- the counter or the token of the keep-alive -/
  | counters
  | registered
  /-- the registration is given up, with the alarm of the keep-alive -/
  | unregistered (id : ℤ)
  /-- the alarm of the keep-alive is set -/
  | keepalive
  /-- an alarm that runs once is set -/
  | retry (cb : AppAlarm)
  /-- an alarm that has run goes -/
  | fired (id : ℤ) (cb : AlarmCb AppAlarm)
  | marked (cb : AppCb)
  /-- an entry goes, with its alarm -/
  | unlinked (id coapFd : ℤ) (cb : AppCb) (dirty : Bool)
  /-- the statistics or the written messages of the connector -/
  | connector
  /-- the stored policy -/
  | policy
  /-- the data plane socket is closed, or replaced -/
  | socket
  | features
  /-- the alarm of a feature is replaced -/
  | reset (cb : AppAlarm) (uriPath : String) (old : ℤ)
  deriving DecidableEq

/-- The payload of a policy request. -/
def policyPayload (c : Connector) : Bytes :=
  encode [Cmd.net AtlasCmdType.dataPlanePolicyQos c.policyQos,
    Cmd.net AtlasCmdType.dataPlanePolicyPacketsPerMinute c.policyPacketsPerMin,
    Cmd.net AtlasCmdType.dataPlanePolicyPacketsMaxlen c.policyPacketsMaxlen]

/-- What the policy of the connector is: nothing, or a payload. -/
def Connector.policy (c : Connector) : Bool × Bytes := (c.activePolicy, policyPayload c)

/-- **A primitive** of a kind. -/
inductive Act : Kind → Client → Client → Prop
  | answers (w : Client) (os : Os) (h : w.net.os.Follows os) :
    Act .answers w (w.mapNet fun n => { n with os := os })
  | request {w : Client} (uri : String) (m : AtlasCoapMethod) (pl : Bytes) (t : ℕ) (cb : AppCb)
    (h : cb = .policyCallback → w.app.conn.policy = (true, pl)) : Act (.request cb) w (w.request uri m pl t cb)
  | counters {w : Client} (f : Register → Register)
    (h : ∀ r, (f r).registered = r.registered ∧ (f r).kaAlarmId = r.kaAlarmId) : Act .counters w (mapReg f w)
  | registered (w : Client) : Act .registered w (mapReg (fun r => { r with registered := true }) w)
  | unregistered {w : Client} (h : ∃ r ∈ w.net.reqEntry, r.callback = .keepaliveCallback) :
    Act (.unregistered w.app.reg.kaAlarmId) w
      (mapReg (fun r => { r with registered := false, kaAlarmId := -1 })
        (w.mapNet (atlasAlarmCancel w.app.reg.kaAlarmId)))
  | keepalive (w : Client) (ms : ℕ) :
    Act .keepalive w (mapReg (fun r => { r with kaAlarmId := (atlasAlarmSet ms keepaliveCb false w.net).1 })
      { w with net := (atlasAlarmSet ms keepaliveCb false w.net).2 })
  | retry (w : Client) (ms : ℕ) {cb : AppAlarm} (h : cb = .regAlarmCallback ∨ cb = .policyAlarmCallback) :
    Act (.retry cb) w (w.mapNet fun n => (atlasAlarmSet ms (.app cb) true n).2)
  | fired {w : Client} {id : ℤ} {cb : AlarmCb AppAlarm} (hid : id ∈ w.net.idsOf cb) (honce : runsOnce cb = true)
    (hreq : ∀ r ∈ w.net.reqEntry, r.alarmId ≠ id) : Act (.fired id cb) w (w.mapNet (atlasAlarmCancel id))
  | marked {w : Client} {ctx session : ℕ} {ent : CoapReq AppCb}
    (h : w.net.reqEntry.find? (CoapReq.at ctx session) = some ent) :
    Act (.marked ent.callback) w (w.mapNet (markDirty ctx session))
  | unlinked {w : Client} {pre post : List (CoapReq AppCb)} {p : CoapReq AppCb}
    (h : w.net.reqEntry = pre ++ p :: post) :
    Act (.unlinked p.alarmId p.coapFd p.callback p.dirty) w (w.mapNet fun n => atlasAlarmCancel p.alarmId
      { n with reqEntry := pre ++ post, schedEntry := atlasSchedDelEntry p.coapFd n.schedEntry })
  | connector {w : Client} (f : Connector → Connector)
    (h : (f w.app.conn).connectedSocket = w.app.conn.connectedSocket ∧ (f w.app.conn).policy = w.app.conn.policy) :
    Act .connector w (mapConn f w)
  | policy {w : Client} (f : Connector → Connector)
    (h : (f w.app.conn).connectedSocket = w.app.conn.connectedSocket) : Act .policy w (mapConn f w)
  | closed (w : Client) (fd : ℤ) :
    Act .socket w (w.mapNet fun n => { n with schedEntry := atlasSchedDelEntry fd n.schedEntry })
  | accepted (w : Client) (accepted : Option Fresh) : Act .socket w (atlasDataPlaneAcceptCb accepted w)
  | added (w : Client) (uriPath : String) (payloadCb : ℕ) :
    Act .features w (mapFeatures (fun l => l ++ [⟨uriPath, payloadCb, -1, -1⟩]) w)
  | deleted (w : Client) (uriPath : String) :
    Act .features w (mapFeatures (fun l => l.eraseP fun p => p.uriPath = uriPath) w)
  | resetPush {w : Client} {uriPath : String} {p : Telemetry}
    (h : w.app.features.find? (fun p => p.uriPath = uriPath) = some p) (ms : ℕ) :
    Act (.reset .pushAlertAlarmCb uriPath p.pushId) w
      (resetAlarm uriPath p.pushId ms .pushAlertAlarmCb (fun id p => { p with pushId := id }) w)
  | resetThreshold {w : Client} {uriPath : String} {p : Telemetry}
    (h : w.app.features.find? (fun p => p.uriPath = uriPath) = some p) (ms : ℕ) :
    Act (.reset .thresholdAlertAlarmCb uriPath p.thresholdId) w
      (resetAlarm uriPath p.thresholdId ms .thresholdAlertAlarmCb (fun id p => { p with thresholdId := id }) w)

/-- A chain of primitives whose kinds satisfy `K`. -/
def Acts (K : Kind → Prop) : Client → Client → Prop := Relation.ReflTransGen fun a b => ∃ k, K k ∧ Act k a b

variable {K L : Kind → Prop}

theorem Acts.refl (w : Client) : Acts K w w := Relation.ReflTransGen.refl

theorem Acts.trans (h : Acts K w w₁) (h' : Acts K w₁ w') : Acts K w w' := Relation.ReflTransGen.trans h h'

theorem Act.acts {k : Kind} (h : Act k w w') (hk : K k) : Acts K w w' := Relation.ReflTransGen.single ⟨k, hk, h⟩

theorem Acts.mono (hKL : ∀ k, K k → L k) (h : Acts K w w') : Acts L w w' :=
  Relation.ReflTransGen.mono (fun _ _ ⟨k, hk, ha⟩ => ⟨k, hKL k hk, ha⟩) _ _ h

/-- **A relation that is kept by the kinds** is kept by a chain. -/
theorem Acts.rel {R : Client → Client → Prop} (hrefl : ∀ a, R a a) (htrans : ∀ a b c, R a b → R b c → R a c)
    (hact : ∀ k a b, K k → Act k a b → R a b) (h : Acts K w w') : R w w' := by
  induction h with
  | refl => exact hrefl w
  | tail _ hab ih =>
    obtain ⟨k, hk, ha⟩ := hab
    exact htrans _ _ _ ih (hact k _ _ hk ha)

/-- So is a property. -/
theorem Acts.keeps {P : Client → Prop} (hact : ∀ k a b, K k → Act k a b → P a → P b) (h : Acts K w w') :
    P w → P w' :=
  h.rel (R := fun a b => P a → P b) (fun _ ha => ha) (fun _ _ _ hab hbc ha => hbc (hab ha)) hact

/-- **The calls** of a chain are those of its kinds. -/
theorem Acts.calls (h : Acts K w w') : ∃ new, w'.calls = w.calls ++ new ∧ ∀ c ∈ new, K (.request c.callback) := by
  refine h.rel (R := fun a b => ∃ new, b.calls = a.calls ++ new ∧ ∀ c ∈ new, K (.request c.callback))
    (fun a => ⟨[], by simp, by simp⟩) (fun _ _ _ => appended_trans) ?_
  intro k a b hk hab
  cases hab with
  | request uri m pl t cb => exact ⟨_, rfl, fun c hc => by rw [List.mem_singleton.1 hc]; exact hk⟩
  | accepted _ accepted => exact ⟨[], by rw [(acceptCb_same accepted a).2.2, List.append_nil], by simp⟩
  | _ => exact ⟨[], (List.append_nil _).symm, by simp⟩

/-! ## The modules -/

/-- The kinds of an event are a list. -/
abbrev ActsOf (l : List Kind) : Client → Client → Prop := Acts (· ∈ l)

theorem orStay_acts {x : Except Fault Client} (h : ∀ w', x = .ok w' → Acts K w w') : Acts K w (orStay w x) := by
  cases x with
  | error f => exact Acts.refl w
  | ok w' => exact h w' rfl

/-- A request that is not one of the policy. -/
theorem request_acts {uri : String} {m : AtlasCoapMethod} {pl : Bytes} {t : ℕ} {cb : AppCb} (hcb : cb ≠ .policyCallback)
    (hk : K (.request cb)) (w : Client) : Acts K w (w.request uri m pl t cb) :=
  (Act.request uri m pl t cb fun h => absurd h hcb).acts hk

/-! ### Telemetry -/

abbrev telemetryKinds : List Kind := [.answers, .request .telemetryCallback]

theorem push_acts (f : Telemetry) (b : Bool) (w : Client) : ActsOf telemetryKinds w (atlasTelemetryPush cfg f b w) := by
  unfold atlasTelemetryPush
  split
  · exact Acts.refl w
  · have hask : ActsOf telemetryKinds w (askPayload f b w).2 :=
      (Act.answers w { w.net.os with payloads := w.net.os.payloads.tail }
        ⟨fun k => ⟨k, rfl⟩, fun k => ⟨k, rfl⟩⟩).acts (by simp)
    simp only
    split
    · exact hask
    · exact hask.trans (request_acts (by decide) (by simp) _)

theorem pushAll_acts (cfg : Cfg) (w : Client) : ActsOf telemetryKinds w (atlasTelemetryPushAll cfg w) := by
  unfold atlasTelemetryPushAll
  generalize w.app.features = l
  induction l generalizing w with
  | nil => exact Acts.refl w
  | cons f l ih => exact (push_acts f false w).trans (ih _)

theorem pushAlert_acts (id : ℤ) (w : Client) : ActsOf telemetryKinds w (pushAlertAlarmCb cfg id w) := by
  unfold pushAlertAlarmCb
  split
  · exact Acts.refl w
  · exact push_acts _ _ w

theorem thresholdAlert_acts (id : ℤ) (w : Client) : ActsOf telemetryKinds w (thresholdAlertAlarmCb cfg id w) := by
  unfold thresholdAlertAlarmCb
  split
  · exact Acts.refl w
  · exact push_acts _ _ w

theorem telemetryCallback_acts (uri : String) (s : AtlasCoapResponse) (w : Client) :
    ActsOf telemetryKinds w (telemetryCallback cfg uri s w) := by
  unfold telemetryCallback
  split
  · exact Acts.refl w
  split
  · exact Acts.refl w
  split
  · exact Acts.refl w
  · exact push_acts _ _ w

/-! ### Registration -/

theorem localIpPort_acts (hk : K .answers) (w : Client) : Acts K w (localIpPort w).2 :=
  (Act.answers w { w.net.os with ipPorts := w.net.os.ipPorts.tail } ⟨fun k => ⟨k, rfl⟩, fun k => ⟨k, rfl⟩⟩).acts hk

theorem sendRegister_acts (h : sendRegisterCommand cfg w = .ok w') : ActsOf [.answers, .request .regCallback] w w' := by
  simp only [sendRegisterCommand, bind] at h
  obtain ⟨buf, -, h⟩ := bind_ok.1 h
  cases h
  exact (localIpPort_acts (by simp) w).trans (request_acts (by decide) (by simp) _)

theorem sendKeepalive_acts (h : sendKeepaliveCommand cfg w = .ok w') :
    ActsOf [.counters, .answers, .request .keepaliveCallback] w w' := by
  simp only [sendKeepaliveCommand, bind] at h
  obtain ⟨buf, -, h⟩ := bind_ok.1 h
  cases h
  refine (localIpPort_acts (by simp) w).trans (Acts.trans ?_ (request_acts (by decide) (by simp) _))
  exact (Act.counters (fun r => { r with kaToken := r.kaToken + 1 }) fun r => ⟨rfl, rfl⟩).acts (by simp)

/-- **The policy request** carries the stored policy. -/
theorem sendPolicy_eq (cfg : Cfg) (w : Client) : sendPolicyCommand cfg w = .ok
    (if w.app.conn.activePolicy then
      w.request (cfg.coapGetUri "gateway/policy") .put (policyPayload w.app.conn) 5000 .policyCallback
    else w) := by
  have hbuf := cmdBatchBytes_ok cfg.endian
    [Cmd.net AtlasCmdType.dataPlanePolicyQos w.app.conn.policyQos,
      Cmd.net AtlasCmdType.dataPlanePolicyPacketsPerMinute w.app.conn.policyPacketsPerMin,
      Cmd.net AtlasCmdType.dataPlanePolicyPacketsMaxlen w.app.conn.policyPacketsMaxlen]
    (by simp [Frame.bytes_length, Cmd.size_eq])
  unfold sendPolicyCommand
  cases ha : w.app.conn.activePolicy with
  | false => rfl
  | true =>
    have hcmds : cmdBatchBytes cfg.endian (policyCmds cfg w.app.conn) = .ok (policyPayload w.app.conn) := by
      rw [policyPayload, ← hbuf]
      simp only [policyCmds, netCmd_eq]
      rfl
    simp only [Bool.not_true, Bool.false_eq_true, if_false, if_true, hcmds, bind, Except.bind]
    rfl

theorem sendPolicy_acts (h : sendPolicyCommand cfg w = .ok w') : ActsOf [.request .policyCallback] w w' := by
  rw [sendPolicy_eq] at h
  cases h
  by_cases ha : w.app.conn.activePolicy = true
  · rw [if_pos ha]
    refine (Act.request _ _ _ _ _ fun _ => ?_).acts (by simp)
    rw [Connector.policy, ha]
  · rw [if_neg ha]; exact Acts.refl w

/-- What the callback of a request may use; `ka` is the alarm of the keep-alive. -/
def AppCb.kinds (ka : ℤ) : AppCb → List Kind
  | .regCallback =>
    [.request .policyCallback, .registered, .answers, .request .telemetryCallback, .keepalive, .retry .regAlarmCallback]
  | .keepaliveCallback => [.counters, .unregistered ka, .answers, .request .regCallback]
  | .policyCallback => [.retry .policyAlarmCallback]
  | .telemetryCallback => telemetryKinds
  | .featureReputationCallback => [.connector]
  | .feedbackCallback => []

theorem regCompleted_acts (cfg : Cfg) (w : Client) :
    ActsOf [.registered, .answers, .request .telemetryCallback, .keepalive] w (regCompleted cfg w) :=
  ((Act.registered w).acts (by simp)).trans
    (((pushAll_acts cfg _).mono (by simp)).trans ((Act.keepalive _ 20000).acts (by simp)))

theorem regCallback_acts (ka : ℤ) (status : AtlasCoapResponse) (w : Client) :
    ActsOf (AppCb.regCallback.kinds ka) w (orStay w (regCallback cfg status w)) := by
  unfold regCallback
  split
  · exact (Act.retry w 5000 (Or.inl rfl)).acts (by simp [AppCb.kinds])
  · obtain ⟨w₁, hok, h₁⟩ : ∃ w₁, (if !w.app.reg.registered then sendPolicyCommand cfg w else .ok w) = .ok w₁ ∧
        ActsOf [.request .policyCallback] w w₁ := by
      split
      · obtain ⟨w₁, hok⟩ := sendPolicy_ok cfg w
        exact ⟨w₁, hok, sendPolicy_acts hok⟩
      · exact ⟨w, rfl, Acts.refl w⟩
    rw [hok]
    exact (h₁.mono (by simp [AppCb.kinds])).trans ((regCompleted_acts cfg w₁).mono (by simp [AppCb.kinds]))

theorem keepaliveErr_acts (hr : ∃ r ∈ w.net.reqEntry, r.callback = .keepaliveCallback)
    (h : keepaliveErr cfg w = .ok w') : ActsOf (AppCb.keepaliveCallback.kinds w.app.reg.kaAlarmId) w w' := by
  unfold keepaliveErr at h
  have hcount : ActsOf (AppCb.keepaliveCallback.kinds w.app.reg.kaAlarmId) w
      (mapReg (fun r => { r with kaCount := r.kaCount - 1 }) w) :=
    (Act.counters (fun r => { r with kaCount := r.kaCount - 1 }) fun r => ⟨rfl, rfl⟩).acts (by simp [AppCb.kinds])
  simp only at h
  split at h
  · refine hcount.trans (Acts.trans ?_ ((sendRegister_acts h).mono (by simp [AppCb.kinds])))
    exact (Act.unregistered (w := mapReg (fun r => { r with kaCount := r.kaCount - 1 }) w) hr).acts
      (by simp [AppCb.kinds, mapReg, World.mapApp])
  · cases h; exact hcount

theorem keepaliveCallback_acts (hr : ∃ r ∈ w.net.reqEntry, r.callback = .keepaliveCallback) (status : AtlasCoapResponse)
    (payload : Bytes) : ActsOf (AppCb.keepaliveCallback.kinds w.app.reg.kaAlarmId) w
      (orStay w (keepaliveCallback cfg status payload w)) := by
  refine orStay_acts fun w' h => ?_
  have hcount : ∀ n, ActsOf (AppCb.keepaliveCallback.kinds w.app.reg.kaAlarmId) w
      (mapReg (fun r => { r with kaCount := n }) w) := fun n =>
    (Act.counters (fun r => { r with kaCount := n }) fun r => ⟨rfl, rfl⟩).acts (by simp [AppCb.kinds])
  unfold keepaliveCallback at h
  split at h
  · split at h
    · exact (hcount 1).trans (keepaliveErr_acts (w := mapReg (fun r => { r with kaCount := 1 }) w) hr h)
    · exact keepaliveErr_acts hr h
  · split at h
    · exact keepaliveErr_acts hr h
    · cases h; exact hcount 3

theorem policyCallback_acts (status : AtlasCoapResponse) (w : Client) :
    ActsOf [.retry .policyAlarmCallback] w (policyCallback status w) := by
  unfold policyCallback
  split
  · exact (Act.retry w 5000 (Or.inr rfl)).acts (by simp)
  · exact Acts.refl w

/-! ### The data plane connector -/

/-- The kinds of a command of the data plane that is no policy. -/
abbrev otherKinds : List Kind := [.connector, .request .featureReputationCallback, .request .feedbackCallback]

abbrev policyKinds : List Kind := [.policy, .request .policyCallback]

/-- A handler of commands uses the kinds `K`. -/
def HandleActs (K : Kind → Prop) (handle : AtlasCmd → Client → Except Fault (Client ⊕ Client))
    (cmd : AtlasCmd) : Prop :=
  ∀ w x, handle cmd w = .ok x → Acts K w (x.elim id id)

theorem HandleActs.loop {handle : AtlasCmd → Client → Except Fault (Client ⊕ Client)}
    (hh : ∀ cmd, HandleActs K handle cmd) {e : Endian} {b b' : AtlasCmdBatch}
    (h : cmdLoop e handle b w = .ok (b', w')) : Acts K w w' :=
  cmdLoop_inv (I := Acts K w) (fun cmd a x ha hx => ha.trans (hh cmd a x hx)) (Acts.refl w) h

theorem acts_inl {x : Except Fault Client} (hx : ∀ w', x = .ok w' → Acts K w w') {y : Client ⊕ Client}
    (h : Sum.inl <$> x = .ok y) : Acts K w (y.elim id id) := by
  cases x with
  | error f => cases h
  | ok w' => cases h; exact hx w' rfl

/-- A setter of the connector's statistics. -/
theorem withConn_acts {f : Connector → Except Fault Connector} (hk : K .connector)
    (hf : ∀ c c', f c = .ok c' → c'.connectedSocket = c.connectedSocket ∧ c'.policy = c.policy)
    (h : withConn f w = .ok w') : Acts K w w' := by
  simp only [withConn, bind] at h
  obtain ⟨c, hc, h⟩ := bind_ok.1 h
  cases h
  exact (Act.connector (fun _ => c) (hf _ _ hc)).acts hk

theorem withPolicy_acts {f : Connector → Except Fault Connector} (hk : K .policy)
    (hf : ∀ c c', f c = .ok c' → c'.connectedSocket = c.connectedSocket) (h : withConn f w = .ok w') : Acts K w w' := by
  simp only [withConn, bind] at h
  obtain ⟨c, hc, h⟩ := bind_ok.1 h
  cases h
  exact (Act.policy (fun _ => c) (hf _ _ hc)).acts hk

theorem writeDataPlane_acts (hk : K .connector) (bs : Bytes) (w : Client) : Acts K w (writeDataPlane bs w) :=
  (Act.connector (fun c => { c with written := c.written ++ [(c.connectedSocket, bs)] }) ⟨rfl, rfl⟩).acts hk

theorem policyHandle_acts (hk : K .policy) (cmd : AtlasCmd) : HandleActs K (policyHandle cfg) cmd := by
  intro w x h
  -- each of the three setters copies a word
  have hset : ∀ (f : Connector → UInt16 → Connector) (bs : Bytes) (w' : Client),
      (∀ c v, (f c v).connectedSocket = c.connectedSocket) →
      withConn (fun c => do return f c (← read16 cfg.endian bs 0)) w = .ok w' → Acts K w w' := by
    intro f bs w' hf hw
    refine withPolicy_acts hk (fun c c' hc => ?_) hw
    simp only [bind] at hc
    obtain ⟨v, -, hc⟩ := bind_ok.1 hc
    cases hc; exact hf c v
  unfold policyHandle at h
  split at h
  · exact acts_inl (fun w' => hset (fun c v => { c with policyQos := v }) cmd.value w' fun _ _ => rfl) h
  split at h
  · exact acts_inl (fun w' => hset (fun c v => { c with policyPacketsPerMin := v }) cmd.value w' fun _ _ => rfl) h
  split at h
  · exact acts_inl (fun w' => hset (fun c v => { c with policyPacketsMaxlen := v }) cmd.value w' fun _ _ => rfl) h
  · cases h; exact Acts.refl w

theorem parsePolicy_acts {buf : Bytes} {len : UInt16} (h : atlasDataPlaneParsePolicy cfg buf len w = .ok w') :
    ActsOf policyKinds w w' := by
  rcases parsePolicy_cases h with rfl | ⟨b, b', w₁, hl, hsend⟩
  · exact Acts.refl _
  · refine (HandleActs.loop (policyHandle_acts (by simp)) hl).trans
      (Acts.trans ?_ ((sendPolicy_acts hsend).mono (by simp)))
    exact (Act.policy (fun c => { c with activePolicy := true }) rfl).acts (by simp)

theorem reputationCallback_acts {s : AtlasCoapResponse} {pl : Bytes}
    (h : featureReputationCallback cfg s pl w = .ok w') : ActsOf [.connector] w w' := by
  rcases reputationCallback_cases h with rfl | ⟨buf, rfl⟩ | ⟨b, b', hl⟩
  · exact Acts.refl _
  · exact writeDataPlane_acts (by simp) buf w
  · refine HandleActs.loop (fun cmd w x hx => ?_) hl
    rcases reputationHandle_cases hx with rfl | ⟨buf, rfl⟩
    · exact Acts.refl w
    · exact writeDataPlane_acts (by simp) buf w

theorem forward_acts {t : UInt16} {path : String} {cb : AppCb} (hcb : cb ≠ .policyCallback) (hk : K (.request cb))
    {v : Bytes} {len : UInt16} (h : forwardToGateway cfg t path cb v len w = .ok w') : Acts K w w' := by
  rcases forward_cases h with rfl | ⟨buf, rfl⟩
  · exact Acts.refl _
  · exact request_acts hcb hk w

/-- **A command of the data plane**: a policy is stored and sent, any other leaves it alone. -/
theorem dataPlaneHandle_acts (cmd : AtlasCmd) :
    HandleActs (· ∈ if cmd.type = AtlasCmdType.dataPlanePolicy then policyKinds else otherKinds)
      (dataPlaneHandle cfg) cmd := by
  intro w x h
  have hset : ∀ (f : Connector → UInt16 → Connector) (bs : Bytes) (w' : Client),
      (∀ c v, (f c v).connectedSocket = c.connectedSocket ∧ (f c v).policy = c.policy) →
      withConn (fun c => do return f c (← read16 cfg.endian bs 0)) w = .ok w' → ActsOf otherKinds w w' := by
    intro f bs w' hf hw
    refine withConn_acts (by simp) (fun c c' hc => ?_) hw
    simp only [bind] at hc
    obtain ⟨v, -, hc⟩ := bind_ok.1 hc
    cases hc; exact hf c v
  unfold dataPlaneHandle at h
  split at h
  · rename_i ht
    rw [if_pos ht]
    exact acts_inl (fun _ => parsePolicy_acts) h
  rename_i ht
  rw [if_neg ht]
  split at h
  · exact acts_inl (fun w' => hset (fun c v => { c with packetsPerMin := v }) cmd.value w' fun _ _ => ⟨rfl, rfl⟩) h
  split at h
  · exact acts_inl (fun w' => hset (fun c v => { c with packetsAvg := v }) cmd.value w' fun _ _ => ⟨rfl, rfl⟩) h
  split at h
  · exact acts_inl (fun _ => forward_acts (by decide) (by simp)) h
  split at h
  · exact acts_inl (fun _ => forward_acts (by decide) (by simp)) h
  split at h
  · refine acts_inl (fun w' hw => ?_) h
    simp only [atlasDataPlaneIdentity, bind] at hw
    obtain ⟨buf, -, hw⟩ := bind_ok.1 hw
    cases hw; exact writeDataPlane_acts (by simp) buf w
  · cases h; exact Acts.refl w

theorem foldCmds_acts {handle : AtlasCmd → Client → Except Fault (Client ⊕ Client)} {w' : Client} :
    ∀ {cmds : List Cmd} {w : Client}, (∀ c ∈ cmds, ∀ post, HandleActs K handle ⟨c.type, c.length, c.value ++ post⟩) →
      foldCmds handle cmds w = .ok w' → Acts K w w' := by
  intro cmds
  induction cmds with
  | nil =>
    intro w _ h
    cases h; exact Acts.refl _
  | cons c cs ih =>
    intro w hh h
    simp only [foldCmds, bind] at h
    obtain ⟨x, hx, h⟩ := bind_ok.1 h
    have h₁ := hh c (by simp) (encode cs) w x hx
    cases x with
    | inl a => exact h₁.trans (ih (fun d hd => hh d (by simp [hd])) h)
    | inr a => cases h; exact h₁

/-- The part of a message that is looked at is a batch with a policy. -/
def HasPolicy (buf : Bytes) : Prop :=
  ∃ cmds : List Cmd, buf.take (buf.length % 65536) = encode cmds ∧ ∃ c ∈ cmds, c.type = AtlasCmdType.dataPlanePolicy

/-- **A message of the data plane.** -/
theorem readCb_acts {fd : ℤ} {buf : Bytes} (h : atlasDataPlaneReadCb cfg fd (some buf) w = .ok w') :
    ActsOf (policyKinds ++ otherKinds) w w' ∧ (¬ HasPolicy buf → ActsOf otherKinds w w') := by
  obtain ⟨post, hsplit, hlen⟩ := take_append_rest buf
  set s := buf.take (buf.length % 65536) with hs
  simp only [atlasDataPlaneReadCb, bind] at h
  obtain ⟨⟨status, b⟩, hraw, h⟩ := bind_ok.1 h
  simp only at h
  by_cases hst : status = .ok
  swap
  · rw [if_pos hst] at h
    cases h; exact ⟨Acts.refl w, fun _ => Acts.refl w⟩
  rw [if_neg (not_not_intro hst)] at h
  obtain ⟨cmds, hcmds, hne, hh⟩ : ∃ cmds : List Cmd, s = encode cmds ∧ cmds ≠ [] ∧ Holds b cmds := by
    rw [hsplit] at hlen hraw
    rw [hst] at hraw
    exact setRaw_holds hlen hraw
  have hloop : foldCmds (dataPlaneHandle cfg) cmds w = .ok w' := by
    rw [← loop_raw (e := cfg.endian) hh hne w]
    exact h
  refine ⟨foldCmds_acts (fun c _ post w x hx => ?_) hloop, fun hno => foldCmds_acts (fun c hc post w x hx => ?_) hloop⟩
  · refine (dataPlaneHandle_acts _ w x hx).mono fun k hk => ?_
    split at hk
    · exact List.mem_append_left _ hk
    · exact List.mem_append_right _ hk
  · refine (dataPlaneHandle_acts _ w x hx).mono fun k hk => ?_
    have hct : c.type ≠ AtlasCmdType.dataPlanePolicy := fun ht => hno ⟨cmds, hcmds, c, hc, ht⟩
    rw [if_neg hct] at hk
    exact hk

/-! ## The events -/

/-- **The callback of a request in the table.** -/
theorem coapCallback_acts (cfg : Cfg) {r : CoapReq AppCb} (hr : r ∈ w.net.reqEntry) (uri : String)
    (status : AtlasCoapResponse) (payload : Bytes) :
    ActsOf (r.callback.kinds w.app.reg.kaAlarmId) w (coapCallback cfg r.callback uri status payload w) := by
  cases hcb : r.callback with
  | regCallback => exact regCallback_acts _ status w
  | keepaliveCallback => exact keepaliveCallback_acts ⟨r, hr, hcb⟩ status payload
  | policyCallback => exact policyCallback_acts status w
  | telemetryCallback => exact telemetryCallback_acts uri status w
  | featureReputationCallback => exact orStay_acts fun _ => reputationCallback_acts
  | feedbackCallback => exact Acts.refl w

/-- **The kinds that an event may use.** -/
def Client.may (w : Client) : Event → List Kind
  | .start => [.answers, .request .regCallback]
  | .pdu ctx session _ =>
    match w.net.reqEntry.find? (CoapReq.at ctx session) with
    | none => []
    | some ent => .marked ent.callback :: ent.callback.kinds w.app.reg.kaAlarmId
  | .ioDone fd =>
    match w.net.reqEntry.find? fun p => p.coapFd = fd with
    | none => []
    | some p => [.unlinked p.alarmId p.coapFd p.callback true]
  | .alarm fd =>
    match w.net.alarmEntry.find? fun p => p.alarmId = fd with
    | none => []
    | some a =>
      match a.callback with
      | .requestAlarmCb =>
        match w.net.reqEntry.find? fun p => p.alarmId = fd with
        | none => [.fired fd .requestAlarmCb]
        | some p => .unlinked fd p.coapFd p.callback p.dirty :: p.callback.kinds w.app.reg.kaAlarmId
      | .app .keepaliveAlarmCallback => [.counters, .answers, .request .keepaliveCallback]
      | .app .regAlarmCallback => [.answers, .request .regCallback, .fired fd retryCb]
      | .app .policyAlarmCallback => [.request .policyCallback, .fired fd (.app .policyAlarmCallback)]
      | .app .pushAlertAlarmCb => telemetryKinds
      | .app .thresholdAlertAlarmCb => telemetryKinds
  | .telemetryAdd _ _ => [.features]
  | .telemetryDel _ => [.features]
  | .pushSet none _ => []
  | .pushSet (some uriPath) _ =>
    match w.app.features.find? fun p => p.uriPath = uriPath with
    | none => []
    | some p => [.answers, .request .telemetryCallback, .reset .pushAlertAlarmCb uriPath p.pushId]
  | .thresholdSet none _ => []
  | .thresholdSet (some uriPath) _ =>
    match w.app.features.find? fun p => p.uriPath = uriPath with
    | none => []
    | some p => [.reset .thresholdAlertAlarmCb uriPath p.thresholdId]
  | .dataPlaneRead _ none => [.socket]
  | .dataPlaneRead _ (some _) => policyKinds ++ otherKinds
  | .dataPlaneAccept _ => [.socket]

theorem ioDone_acts (fd : ℤ) (w : Client) : ActsOf (w.may (.ioDone fd)) w (w.step cfg (.ioDone fd)) := by
  unfold Client.step Client.may
  simp only
  cases hf : w.net.reqEntry.find? fun p => p.coapFd = fd with
  | none =>
    have hsame : w.mapNet (unlinkIfDirty fd) = w := by simp [World.mapNet, unlinkIfDirty, hf]
    rw [hsame]; exact Acts.refl w
  | some p =>
    obtain ⟨pre, post, hl, hpre, hp⟩ := find?_split hf
    by_cases hd : p.dirty = true
    · have hgo : w.mapNet (unlinkIfDirty fd) = w.mapNet fun n => atlasAlarmCancel p.alarmId
          { n with reqEntry := pre ++ post, schedEntry := atlasSchedDelEntry p.coapFd n.schedEntry } := by
        simp only [World.mapNet, unlinkIfDirty, hf, hd, if_true]
        rw [hl, eraseP_split hpre hp]
      rw [hgo]
      exact (Act.unlinked hl).acts (by simp [hd])
    · have hsame : w.mapNet (unlinkIfDirty fd) = w := by simp [World.mapNet, unlinkIfDirty, hf, hd]
      rw [hsame]; exact Acts.refl w

theorem pdu_acts (ctx session : ℕ) (received : CoapPdu) (w : Client) :
    ActsOf (w.may (.pdu ctx session received)) w (w.step cfg (.pdu ctx session received)) := by
  unfold Client.may
  simp only
  cases hf : w.net.reqEntry.find? (CoapReq.at ctx session) with
  | none => rw [pdu_unknown cfg received hf]; exact Acts.refl w
  | some ent =>
    by_cases hv : validateToken cfg.endian received ent.token = true
    · rw [pdu_eq cfg hf hv]
      obtain ⟨pre, post, -, hm⟩ := markDirty_split hf
      have hmem : { ent with dirty := true } ∈ (w.mapNet (markDirty ctx session)).net.reqEntry := by
        simp only [World.mapNet, hm]; simp
      exact ((Act.marked hf).acts (by simp)).trans ((coapCallback_acts cfg hmem ent.uri _ _).mono fun k hk =>
        List.mem_cons_of_mem _ hk)
    · rw [pdu_stale hf hv]
      exact Acts.refl w

/-- **A request times out**: its callback, then the entry goes with its alarm. -/
theorem timeout_act (cfg : Cfg) (h : BaseInv w) (hka : KaOk w) {fd : ℤ} {p : CoapReq AppCb}
    (hf : w.net.reqEntry.find? (fun p => p.alarmId = fd) = some p) :
    Act (.unlinked fd p.coapFd p.callback p.dirty) (coapCallback cfg p.callback p.uri .timeout [] w)
      ((requestAlarmCb (client cfg) fd w).mapNet (atlasAlarmCancel fd)) := by
  obtain ⟨hpid, pre, post, hl, heq⟩ := timeout_split cfg h hka hf
  rw [heq, ← hpid]
  exact Act.unlinked hl

theorem timeout_acts (h : BaseInv w) (hka : KaOk w) {fd : ℤ} {p : CoapReq AppCb}
    (hf : w.net.reqEntry.find? (fun p => p.alarmId = fd) = some p) :
    ActsOf (.unlinked fd p.coapFd p.callback p.dirty :: p.callback.kinds w.app.reg.kaAlarmId) w
      ((requestAlarmCb (client cfg) fd w).mapNet (atlasAlarmCancel fd)) := by
  have hacts := coapCallback_acts cfg (List.mem_of_find?_eq_some hf) p.uri .timeout []
  exact (hacts.mono fun k hk => List.mem_cons_of_mem _ hk).trans ((timeout_act cfg h hka hf).acts (by simp))

/-- A chain of requests, then the alarm goes. -/
theorem Acts.fired {K : Kind → Prop} (ha : Acts K w w') {S : AppCb → Prop} (hg : Grows S w w') (h : BaseInv w)
    {id : ℤ} {cb : AppAlarm} (hid : id ∈ w.net.idsOf (.app cb)) (honce : runsOnce (.app cb) = true)
    (hk : K (.fired id (.app cb))) : Acts K w (w'.mapNet (atlasAlarmCancel id)) := by
  have hid' : id ∈ w'.net.idsOf (.app cb) := hg.idsOf_subset _ id hid
  exact ha.trans ((Act.fired hid' honce ((h.grows hg).net.not_own hid')).acts hk)

theorem alarm_acts (h : BaseInv w) (hka : KaOk w) (fd : ℤ) : ActsOf (w.may (.alarm fd)) w (w.step cfg (.alarm fd)) := by
  unfold Client.may
  simp only
  cases hf : w.net.alarmEntry.find? fun p => p.alarmId = fd with
  | none => rw [alarm_unknown cfg hf]; exact Acts.refl w
  | some a =>
    have hfd : a.alarmId = fd := by simpa using List.find?_some hf
    have hid : fd ∈ w.net.idsOf a.callback := mem_idsOf.2 ⟨a, List.mem_of_find?_eq_some hf, rfl, hfd⟩
    rw [alarm_eq cfg hf, h.kinds a (List.mem_of_find?_eq_some hf)]
    simp only
    cases hcb : a.callback with
    | requestAlarmCb =>
      rw [hcb] at hid
      simp only [runsOnce, if_true, Program.runAlarm]
      cases hp : w.net.reqEntry.find? fun p => p.alarmId = fd with
      | none =>
        have hsame : requestAlarmCb (client cfg) fd w = w := by simp [requestAlarmCb, hp]
        rw [hsame]
        exact (Act.fired hid rfl (by simpa using hp)).acts (by simp)
      | some p => exact timeout_acts h hka hp
    | app cb =>
      rw [hcb] at hid
      cases cb with
      | keepaliveAlarmCallback => exact orStay_acts fun _ => sendKeepalive_acts
      | regAlarmCallback =>
        obtain ⟨w', hok, hg, -⟩ := sendRegister_spec cfg w
        simp only [Program.runAlarm, client, alarmCallback, hok, orStay, runsOnce, if_true]
        exact ((sendRegister_acts hok).mono (by simp)).fired hg h hid rfl (by simp)
      | policyAlarmCallback =>
        obtain ⟨w', hok⟩ := sendPolicy_ok cfg w
        simp only [Program.runAlarm, client, alarmCallback, hok, orStay, runsOnce, if_true]
        exact ((sendPolicy_acts hok).mono (by simp)).fired (sendPolicy_quiet hok).grows h hid rfl (by simp)
      | pushAlertAlarmCb => exact pushAlert_acts fd w
      | thresholdAlertAlarmCb => exact thresholdAlert_acts fd w

/-- **Every event is a chain of primitives** of its own kinds. -/
theorem client_acts (cfg : Cfg) (h : BaseInv w) (hka : KaOk w) (e : Event) : ActsOf (w.may e) w (w.step cfg e) := by
  cases e with
  | start => exact orStay_acts fun _ => sendRegister_acts
  | pdu ctx session received => exact pdu_acts ctx session received w
  | ioDone fd => exact ioDone_acts fd w
  | alarm fd => exact alarm_acts h hka fd
  | telemetryAdd uriPath payloadCb =>
    simp only [Client.step, atlasTelemetryAdd]
    split
    · exact (Act.added w _ _).acts (by simp [Client.may])
    · exact Acts.refl w
  | telemetryDel uriPath =>
    simp only [Client.step, atlasTelemetryDel]
    split
    · exact Acts.refl w
    · exact (Act.deleted w _).acts (by simp [Client.may])
  | pushSet uriPath pushRate =>
    cases uriPath with
    | none => exact Acts.refl w
    | some uriPath =>
      simp only [Client.step, atlasTelemetryPushSet, Client.may]
      cases hf : w.app.features.find? fun p => p.uriPath = uriPath with
      | none => exact Acts.refl w
      | some p =>
        simp only
        split
        · exact (push_acts p false w).mono (by simp)
        · exact (Act.resetPush hf _).acts (by simp)
  | thresholdSet uriPath scanRate =>
    cases uriPath with
    | none => exact Acts.refl w
    | some uriPath =>
      simp only [Client.step, atlasTelemetryThresholdSet, Client.may]
      by_cases h0 : scanRate = 0
      · rw [if_pos h0]; exact Acts.refl w
      rw [if_neg h0]
      cases hf : w.app.features.find? fun p => p.uriPath = uriPath with
      | none => exact Acts.refl w
      | some p => exact (Act.resetThreshold hf _).acts (by simp)
  | dataPlaneRead fd received =>
    refine orStay_acts fun w' hw => ?_
    cases received with
    | none => cases hw; exact (Act.closed w fd).acts (by simp [Client.may])
    | some buf => exact (readCb_acts hw).1
  | dataPlaneAccept accepted => exact (Act.accepted w accepted).acts (by simp [Client.may])

end AtlasClient
