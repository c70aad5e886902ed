import AtlasClient.Proof.Command
import AtlasClient.Proof.Net
import AtlasClient.Spec.Machine

/-!
# What the callbacks do

Most of the client only issues requests. `Grows S` says so: the lists grow at the end, by
requests whose callbacks are in `S` and by their alarms. `Quiet` is the case that concerns
neither registration nor keep-alive.

* `cmdBatchBytes_ok`: a payload that fits is the encoding of its commands.
* `readCb_eq`: a message of the data plane is handled command by command.
* `pdu_eq`, `alarm_eq`: which callback an event runs.
* `sendPolicy_quiet`, `push_quiet`, `readCb_quiet`, …: one lemma for each function.
* `sendRegister_spec`, `sendKeepalive_spec`: the two other requests, which never fault.
-/

namespace AtlasClient

open Framing Loop

variable {cfg : Cfg} {w w₁ w₂ w' : Client} {S T : AppCb → Prop}

/-! ## Payloads -/

/-- **A payload that fits is the encoding of its commands.** -/
theorem cmdBatchBytes_ok (e : Endian) (cmds : List Cmd) (h : (encode cmds).length < 65536) :
    cmdBatchBytes e (cmds.map Cmd.args) = .ok (encode cmds) := by
  obtain ⟨b, hb, hh⟩ := addCmds_ok (e := e) cmds holds_new h
  have hread : readAt b.buf_ 0 b.length_.toNat = .ok b.buf_ := by
    simpa using readAt_head b.buf_ [] hh.len
  simp only [cmdBatchBytes, hb, bind, Except.bind, atlasCmdBatchGetBuf, hread]
  rw [hh.buf, List.nil_append]

theorem stringCmd_eq (t : UInt16) (s : Bytes) (h : s.length < 65536) : stringCmd t s = (Cmd.of t s h).args := rfl

theorem hostCmd_eq (e : Endian) (t v : UInt16) :
    (t, (2 : UInt16), hostBytes e v) = (Cmd.of t (hostBytes e v) (by simp)).args := by
  cases e <;> rfl

/-- A word in network order, as a command. -/
def Cmd.net (type value : UInt16) : Cmd := Cmd.of type (netBytes value) (by simp)

@[simp] theorem Cmd.net_value (type value : UInt16) : (Cmd.net type value).value = netBytes value := rfl

theorem netCmd_eq (e : Endian) (type value : UInt16) :
    (type, (2 : UInt16), hostBytes e (htons e value)) = (Cmd.net type value).args := by
  rw [hostBytes_htons]
  rfl

/-! ## Messages -/

/-- A loop over a received batch, when the bytes are an encoding. -/
theorem loop_raw {e : Endian} {handle : AtlasCmd → Client → Except Fault (Client ⊕ Client)} {b : AtlasCmdBatch}
    {cmds : List Cmd} (h : Holds b cmds) (hne : cmds ≠ []) (w : Client) :
    (do let (_, w) ← cmdLoop e handle b w; return w : Except Fault Client) = foldCmds handle cmds w := by
  rw [← cmdLoop_eq e handle h hne w]
  cases cmdLoop e handle b w <;> rfl

/-- **`atlas_data_plane_read_cb`** handles the commands of a message in order. -/
theorem readCb_eq (cfg : Cfg) (fd : ℤ) {cmds : List Cmd} (hne : cmds ≠ []) (hfit : (encode cmds).length ≤ 2048)
    (w : Client) : atlasDataPlaneReadCb cfg fd (some (encode cmds)) w = foldCmds (dataPlaneHandle cfg) cmds w := by
  obtain ⟨b, hb, hh⟩ := setRaw_encode cfg.endian atlasCmdBatchNew hne (by omega)
  rw [← loop_raw hh hne w]
  simp only [atlasDataPlaneReadCb, hb, bind, Except.bind]
  rfl

/-! ## Events -/

/-- A response that finds its request runs the callback. -/
theorem pdu_eq (cfg : Cfg) {ctx session : ℕ} {received : CoapPdu} {ent : CoapReq AppCb}
    (hf : w.net.reqEntry.find? (CoapReq.at ctx session) = some ent)
    (hv : validateToken cfg.endian received ent.token = true) :
    w.step cfg (.pdu ctx session received) = coapCallback cfg ent.callback ent.uri received.response.1
      received.response.2 (w.mapNet (markDirty ctx session)) := by
  simp only [Client.step, messageHandler, hf, client, hv, Bool.not_true, Bool.false_eq_true, if_false]

theorem pdu_unknown (cfg : Cfg) {ctx session : ℕ} (received : CoapPdu)
    (hf : w.net.reqEntry.find? (CoapReq.at ctx session) = none) : w.step cfg (.pdu ctx session received) = w := by
  simp only [Client.step, messageHandler, hf]

/-- The token is another one. -/
theorem pdu_stale {ctx session : ℕ} {received : CoapPdu} {ent : CoapReq AppCb}
    (hf : w.net.reqEntry.find? (CoapReq.at ctx session) = some ent)
    (hv : validateToken cfg.endian received ent.token ≠ true) : w.step cfg (.pdu ctx session received) = w := by
  simp only [Client.step, messageHandler, hf, client, hv, Bool.not_false, if_true]

/-- An alarm fires, and goes if it runs once. -/
theorem alarm_eq (cfg : Cfg) {fd : ℤ} {a : AlarmEntry AppAlarm}
    (hf : w.net.alarmEntry.find? (fun p => p.alarmId = fd) = some a) :
    w.step cfg (.alarm fd) = if a.runOnce then
        ((client cfg).runAlarm a.callback fd w).mapNet (atlasAlarmCancel fd)
      else (client cfg).runAlarm a.callback fd w := by
  have hfd : a.alarmId = fd := by simpa using List.find?_some hf
  simp only [Client.step, Program.fire, atlasAlarmTrigger, hf, hfd]

theorem alarm_unknown (cfg : Cfg) {fd : ℤ} (hf : w.net.alarmEntry.find? (fun p => p.alarmId = fd) = none) :
    w.step cfg (.alarm fd) = w := by
  simp only [Client.step, Program.fire, atlasAlarmTrigger, hf]

/-! ## Growing lists -/

/-- `w'` is `w` after requests whose callbacks satisfy `S`. -/
structure Grows (S : AppCb → Prop) (w w' : Client) : Prop where
  features : w'.app.features = w.app.features
  alarms : ∃ new, w'.net.alarmEntry = w.net.alarmEntry ++ new ∧
    ∀ a ∈ new, a.callback = .requestAlarmCb ∧ a.runOnce = true
  reqs : ∃ new, w'.net.reqEntry = w.net.reqEntry ++ new ∧ ∀ r ∈ new, S r.callback
  calls : ∃ new, w'.calls = w.calls ++ new ∧ ∀ c ∈ new, S c.callback
  ok : NetOk w.net → NetOk w'.net
  os : w.net.os.Follows w'.net.os

/-- Nothing that `Grows` speaks about has changed. -/
theorem Grows.of_eq (hf : w'.app.features = w.app.features) (ha : w'.net.alarmEntry = w.net.alarmEntry)
    (hr : w'.net.reqEntry = w.net.reqEntry) (hc : w'.calls = w.calls) (ho : w.net.os.Follows w'.net.os) :
    Grows S w w' where
  features := hf
  alarms := ⟨[], by simp [ha], by simp⟩
  reqs := ⟨[], by simp [hr], by simp⟩
  calls := ⟨[], by simp [hc], by simp⟩
  ok h := h.sublist (by rw [ha]) (by rw [hr]) (by
    intro r hm
    rw [hr] at hm
    have := h.own r hm
    simpa [Net.idsOf, ha] using this)
  os := ho

theorem Grows.refl (w : Client) : Grows S w w := Grows.of_eq rfl rfl rfl rfl (Os.Follows.refl _)

theorem Grows.mono (h : ∀ cb, S cb → T cb) (g : Grows S w w') : Grows T w w' := by
  obtain ⟨new, hr, hs⟩ := g.reqs
  obtain ⟨new', hc, hs'⟩ := g.calls
  exact ⟨g.features, g.alarms, ⟨new, hr, fun r hm => h _ (hs r hm)⟩, ⟨new', hc, fun c hm => h _ (hs' c hm)⟩,
    g.ok, g.os⟩

/-- What is appended twice. -/
theorem appended_trans {α : Type} {P : α → Prop} {l l₁ l₂ : List α} (h : ∃ new, l₁ = l ++ new ∧ ∀ x ∈ new, P x)
    (h' : ∃ new, l₂ = l₁ ++ new ∧ ∀ x ∈ new, P x) : ∃ new, l₂ = l ++ new ∧ ∀ x ∈ new, P x := by
  obtain ⟨a, rfl, ha⟩ := h
  obtain ⟨b, rfl, hb⟩ := h'
  exact ⟨a ++ b, List.append_assoc _ _ _, List.forall_mem_append.2 ⟨ha, hb⟩⟩

theorem Grows.trans (g : Grows S w w₁) (g' : Grows S w₁ w₂) : Grows S w w₂ where
  features := g'.features.trans g.features
  alarms := appended_trans g.alarms g'.alarms
  reqs := appended_trans g.reqs g'.reqs
  calls := appended_trans g.calls g'.calls
  ok h := g'.ok (g.ok h)
  os := g.os.trans g'.os

theorem request_net (uri : String) (m : AtlasCoapMethod) (pl : Bytes) (t : ℕ) (cb : AppCb) (w : Client) :
    (w.request uri m pl t cb).net = (atlasCoapClientRequest (some uri) t (some cb) w.net).2 := rfl

theorem request_grows (uri : String) (m : AtlasCoapMethod) (pl : Bytes) (t : ℕ) (cb : AppCb) (w : Client) :
    Grows (· = cb) w (w.request uri m pl t cb) := by
  have hcalls : ∃ new, (w.request uri m pl t cb).calls = w.calls ++ new ∧ ∀ c ∈ new, c.callback = cb :=
    ⟨_, rfl, by simp⟩
  rcases request_cases uri t cb w.net with ⟨-, -, ha, hr, ho⟩ | ⟨-, -, ho, r, hacc⟩
  · have hg : Grows (· = cb) w { w.request uri m pl t cb with calls := w.calls } :=
      Grows.of_eq rfl ha hr rfl ho
    exact ⟨rfl, hg.alarms, hg.reqs, hcalls, hg.ok, ho⟩
  · refine ⟨rfl, ⟨_, hacc.alarms, by simp⟩, ⟨_, hacc.reqs, ?_⟩, hcalls, fun h => h.accepted hacc, ho⟩
    intro q hq
    rw [List.mem_singleton] at hq
    rw [hq]; exact hacc.callback

/-! ## Quiet steps -/

/-- Neither registration nor keep-alive. -/
def Other (cb : AppCb) : Prop := cb ≠ .regCallback ∧ cb ≠ .keepaliveCallback

structure Quiet (w w' : Client) : Prop where
  grows : Grows Other w w'
  reg : w'.app.reg = w.app.reg

theorem Quiet.refl (w : Client) : Quiet w w := ⟨Grows.refl w, rfl⟩

theorem Quiet.trans (q : Quiet w w₁) (q' : Quiet w₁ w₂) : Quiet w w₂ :=
  ⟨q.grows.trans q'.grows, q'.reg.trans q.reg⟩

/-- The lists, the calls and the variables of other modules are as before. -/
theorem Quiet.of_eq (hf : w'.app.features = w.app.features) (ha : w'.net.alarmEntry = w.net.alarmEntry)
    (hr : w'.net.reqEntry = w.net.reqEntry) (hc : w'.calls = w.calls) (ho : w.net.os.Follows w'.net.os)
    (hg : w'.app.reg = w.app.reg) : Quiet w w' := ⟨Grows.of_eq hf ha hr hc ho, hg⟩

theorem request_quiet {uri : String} {m : AtlasCoapMethod} {pl : Bytes} {t : ℕ} {cb : AppCb} (h : Other cb)
    (w : Client) : Quiet w (w.request uri m pl t cb) :=
  ⟨(request_grows uri m pl t cb w).mono (fun cb' (heq : cb' = cb) => by rw [heq]; exact h), rfl⟩

theorem mapConn_quiet (f : Connector → Connector) (w : Client) : Quiet w (mapConn f w) :=
  Quiet.of_eq rfl rfl rfl rfl (Os.Follows.refl _) rfl

theorem sched_quiet (f : List (SchedEntry SchedCb) → List (SchedEntry SchedCb)) (w : Client) :
    Quiet w (w.mapNet fun n => { n with schedEntry := f n.schedEntry }) :=
  Quiet.of_eq rfl rfl rfl rfl (Os.Follows.refl _) rfl

theorem askPayload_quiet (f : Telemetry) (b : Bool) (w : Client) : Quiet w (askPayload f b w).2 :=
  Quiet.of_eq rfl rfl rfl rfl ⟨fun k => ⟨k, rfl⟩, fun k => ⟨k, rfl⟩⟩ rfl

/-! ### Telemetry -/

theorem push_quiet (f : Telemetry) (b : Bool) (w : Client) : Quiet w (atlasTelemetryPush cfg f b w) := by
  unfold atlasTelemetryPush
  split
  · exact Quiet.refl w
  · have hq := askPayload_quiet f b w
    simp only
    split
    · exact hq
    · exact hq.trans (request_quiet ⟨by decide, by decide⟩ _)

theorem pushAll_quiet (cfg : Cfg) (w : Client) : Quiet w (atlasTelemetryPushAll cfg w) := by
  unfold atlasTelemetryPushAll
  generalize w.app.features = l
  induction l generalizing w with
  | nil => exact Quiet.refl w
  | cons f l ih => exact (push_quiet f false w).trans (ih _)

theorem pushAlert_quiet (id : ℤ) (w : Client) : Quiet w (pushAlertAlarmCb cfg id w) := by
  unfold pushAlertAlarmCb
  split
  · exact Quiet.refl w
  · exact push_quiet _ _ w

theorem thresholdAlert_quiet (id : ℤ) (w : Client) : Quiet w (thresholdAlertAlarmCb cfg id w) := by
  unfold thresholdAlertAlarmCb
  split
  · exact Quiet.refl w
  · exact push_quiet _ _ w

theorem telemetryCallback_quiet (uri : String) (s : AtlasCoapResponse) (w : Client) :
    Quiet w (telemetryCallback cfg uri s w) := by
  unfold telemetryCallback
  split
  · exact Quiet.refl w
  split
  · exact Quiet.refl w
  split
  · exact Quiet.refl w
  · exact push_quiet _ _ w

/-! ### The data plane connector -/

theorem withConn_ok {f : Connector → Except Fault Connector} {c : Connector} (h : f w.app.conn = .ok c) :
    withConn f w = .ok (mapConn (fun _ => c) w) := bind_of_ok h _

theorem withConn_quiet {f : Connector → Except Fault Connector} (h : withConn f w = .ok w') : Quiet w w' := by
  simp only [withConn, bind] at h
  obtain ⟨c, -, h⟩ := bind_ok.1 h
  cases h; exact mapConn_quiet _ _

theorem sendPolicy_quiet (h : sendPolicyCommand cfg w = .ok w') : Quiet w w' := by
  unfold sendPolicyCommand at h
  split at h
  · cases h; exact Quiet.refl w
  · simp only [bind] at h
    obtain ⟨buf, -, h⟩ := bind_ok.1 h
    cases h; exact request_quiet ⟨by decide, by decide⟩ w

/-- What a handler of commands does is quiet. -/
def QuietHandle (handle : AtlasCmd → Client → Except Fault (Client ⊕ Client)) : Prop :=
  ∀ cmd w x, handle cmd w = .ok x → Quiet w (x.elim id id)

theorem QuietHandle.loop {handle : AtlasCmd → Client → Except Fault (Client ⊕ Client)} (hq : QuietHandle handle)
    {e : Endian} {b b' : AtlasCmdBatch} (h : cmdLoop e handle b w = .ok (b', w')) : Quiet w w' :=
  cmdLoop_inv (I := Quiet w) (fun cmd a x ha hx => ha.trans (hq cmd a x hx)) (Quiet.refl w) h

theorem quiet_inl {x : Except Fault Client} (hx : ∀ w', x = .ok w' → Quiet w w') {y : Client ⊕ Client}
    (h : Sum.inl <$> x = .ok y) : Quiet w (y.elim id id) := by
  cases x with
  | error f => cases h
  | ok w' => cases h; exact hx w' rfl

theorem policyHandle_quiet : QuietHandle (policyHandle cfg) := by
  intro cmd w x h
  unfold policyHandle at h
  split at h
  · exact quiet_inl (fun _ => withConn_quiet) h
  split at h
  · exact quiet_inl (fun _ => withConn_quiet) h
  split at h
  · exact quiet_inl (fun _ => withConn_quiet) h
  · cases h; exact Quiet.refl w

/-- What a policy does: nothing, or its values are stored, and it is sent. -/
theorem parsePolicy_cases {buf : Bytes} {len : UInt16} (h : atlasDataPlaneParsePolicy cfg buf len w = .ok w') :
    w' = w ∨ ∃ b b' w₁, cmdLoop cfg.endian (policyHandle cfg) b w = .ok (b', w₁) ∧
      sendPolicyCommand cfg (mapConn (fun c => { c with activePolicy := true }) w₁) = .ok w' := by
  unfold atlasDataPlaneParsePolicy at h
  split at h
  · cases h; exact Or.inl rfl
  · simp only [bind] at h
    obtain ⟨⟨s, b⟩, -, h⟩ := bind_ok.1 h
    simp only at h
    split at h
    · cases h; exact Or.inl rfl
    · obtain ⟨⟨b', w₁⟩, hl, h⟩ := bind_ok.1 h
      exact Or.inr ⟨b, b', w₁, hl, h⟩

/-- What a command of a reputation response does: it is written on, or nothing. -/
theorem reputationHandle_cases {cmd : AtlasCmd} {x : Client ⊕ Client} (h : reputationHandle cfg cmd w = .ok x) :
    x = .inl w ∨ ∃ buf, x = .inl (writeDataPlane buf w) := by
  unfold reputationHandle at h
  split at h
  · simp only [bind] at h
    obtain ⟨buf, -, h⟩ := bind_ok.1 h
    cases h; exact Or.inr ⟨buf, rfl⟩
  · cases h; exact Or.inl rfl

/-- What a reputation response does: an error is written, or its commands are handled, if it has any. -/
theorem reputationCallback_cases {s : AtlasCoapResponse} {pl : Bytes}
    (h : featureReputationCallback cfg s pl w = .ok w') :
    w' = w ∨ (∃ buf, w' = writeDataPlane buf w) ∨
      ∃ b b', cmdLoop cfg.endian (reputationHandle cfg) b w = .ok (b', w') := by
  unfold featureReputationCallback at h
  split at h
  · simp only [bind] at h
    obtain ⟨buf, -, h⟩ := bind_ok.1 h
    cases h; exact Or.inr (Or.inl ⟨buf, rfl⟩)
  · unfold atlasReputationRespParse at h
    split at h
    · cases h; exact Or.inl rfl
    · simp only [bind] at h
      obtain ⟨⟨s, b⟩, -, h⟩ := bind_ok.1 h
      simp only at h
      split at h
      · cases h; exact Or.inl rfl
      · obtain ⟨⟨b', w₁⟩, hl, h⟩ := bind_ok.1 h
        cases h; exact Or.inr (Or.inr ⟨b, b', hl⟩)

/-- What is forwarded is a request, unless it is empty. -/
theorem forward_cases {t : UInt16} {path : String} {cb : AppCb} {v : Bytes} {len : UInt16}
    (h : forwardToGateway cfg t path cb v len w = .ok w') :
    w' = w ∨ ∃ buf, w' = w.request (cfg.coapGetUri path) .put buf 5000 cb := by
  unfold forwardToGateway at h
  split at h
  · cases h; exact Or.inl rfl
  · simp only [bind] at h
    obtain ⟨buf, -, h⟩ := bind_ok.1 h
    cases h; exact Or.inr ⟨buf, rfl⟩

theorem parsePolicy_quiet {buf : Bytes} {len : UInt16} (h : atlasDataPlaneParsePolicy cfg buf len w = .ok w') :
    Quiet w w' := by
  rcases parsePolicy_cases h with rfl | ⟨b, b', w₁, hl, hsend⟩
  · exact Quiet.refl _
  · exact ((policyHandle_quiet.loop hl).trans (mapConn_quiet _ _)).trans (sendPolicy_quiet hsend)

theorem writeDataPlane_quiet (buf : Bytes) (w : Client) : Quiet w (writeDataPlane buf w) := mapConn_quiet _ w

theorem reputationHandle_quiet : QuietHandle (reputationHandle cfg) := by
  intro cmd w x h
  rcases reputationHandle_cases h with rfl | ⟨buf, rfl⟩
  · exact Quiet.refl w
  · exact writeDataPlane_quiet buf w

theorem reputationCallback_quiet {s : AtlasCoapResponse} {pl : Bytes}
    (h : featureReputationCallback cfg s pl w = .ok w') : Quiet w w' := by
  rcases reputationCallback_cases h with rfl | ⟨buf, rfl⟩ | ⟨b, b', hl⟩
  · exact Quiet.refl _
  · exact writeDataPlane_quiet buf w
  · exact reputationHandle_quiet.loop hl

theorem forward_quiet {t : UInt16} {path : String} {cb : AppCb} (hcb : Other cb) {v : Bytes} {len : UInt16}
    (h : forwardToGateway cfg t path cb v len w = .ok w') : Quiet w w' := by
  rcases forward_cases h with rfl | ⟨buf, rfl⟩
  · exact Quiet.refl _
  · exact request_quiet hcb w

theorem identity_quiet (h : atlasDataPlaneIdentity cfg w = .ok w') : Quiet w w' := by
  simp only [atlasDataPlaneIdentity, bind] at h
  obtain ⟨buf, -, h⟩ := bind_ok.1 h
  cases h; exact writeDataPlane_quiet buf w

theorem dataPlaneHandle_quiet : QuietHandle (dataPlaneHandle cfg) := by
  intro cmd w x h
  unfold dataPlaneHandle at h
  split at h
  · exact quiet_inl (fun _ => parsePolicy_quiet) h
  split at h
  · exact quiet_inl (fun _ => withConn_quiet) h
  split at h
  · exact quiet_inl (fun _ => withConn_quiet) h
  split at h
  · exact quiet_inl (fun _ => forward_quiet ⟨by decide, by decide⟩) h
  split at h
  · exact quiet_inl (fun _ => forward_quiet ⟨by decide, by decide⟩) h
  split at h
  · exact quiet_inl (fun _ => identity_quiet) h
  · cases h; exact Quiet.refl w

/-- **A message of the data plane** has no effect on registration. -/
theorem readCb_quiet {fd : ℤ} {received : Option Bytes} (h : atlasDataPlaneReadCb cfg fd received w = .ok w') :
    Quiet w w' := by
  unfold atlasDataPlaneReadCb at h
  split at h
  · cases h; exact sched_quiet _ w
  · simp only [bind] at h
    obtain ⟨⟨s, b⟩, -, h⟩ := bind_ok.1 h
    simp only at h
    split at h
    · cases h; exact Quiet.refl w
    · obtain ⟨⟨b', w₁⟩, hl, h⟩ := bind_ok.1 h
      cases h; exact dataPlaneHandle_quiet.loop hl

/-- Accepting a connection has to do with the socket and the scheduler only. -/
theorem acceptCb_same (accepted : Option Fresh) (w : Client) :
    (atlasDataPlaneAcceptCb accepted w).net.alarmEntry = w.net.alarmEntry ∧
      (atlasDataPlaneAcceptCb accepted w).net.reqEntry = w.net.reqEntry ∧
      (atlasDataPlaneAcceptCb accepted w).calls = w.calls := by
  unfold atlasDataPlaneAcceptCb
  simp only
  split <;> split <;> exact ⟨rfl, rfl, rfl⟩

theorem acceptCb_quiet (accepted : Option Fresh) (w : Client) : Quiet w (atlasDataPlaneAcceptCb accepted w) := by
  unfold atlasDataPlaneAcceptCb
  have hq : Quiet w (if w.app.conn.connectedSocket ≠ -1 then
      w.mapNet fun n => { n with schedEntry := atlasSchedDelEntry w.app.conn.connectedSocket n.schedEntry }
    else w) := by
    split
    · exact sched_quiet _ w
    · exact Quiet.refl w
  simp only
  split
  · exact hq.trans (mapConn_quiet _ _)
  · exact (hq.trans (mapConn_quiet _ _)).trans (sched_quiet _ _)

/-- A step that may fault. -/
theorem orStay_quiet {x : Except Fault Client} (h : ∀ w', x = .ok w' → Quiet w w') : Quiet w (orStay w x) := by
  cases x with
  | error f => exact Quiet.refl w
  | ok w' => exact h w' rfl

end AtlasClient
