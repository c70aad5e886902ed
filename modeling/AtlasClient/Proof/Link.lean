import AtlasClient.Proof.Reputation
import AtlasClient.Spec.Link

/-!
# A reply and its question

The library takes the next message for the reply. Whether it is depends on what is queued
when it asks, and on what the connector writes while it waits.

* `client_writes`: outside the data plane socket, the client writes to it only when a
  reputation request is completed.
* `replies_run`: what a run writes on behalf of a reputation request.
* `reply_iff`: **the next message is the reply to the question** exactly when no reply is
  queued when the question is asked, and the connector writes none for another question
  while nothing is queued.
-/

namespace AtlasClient

open Framing Loop Machine

variable {cfg : Cfg} {w w' : Client}

/-! ## What the client writes -/

theorem writes_nil (h : w'.app.conn = w.app.conn) : Writes [] w w' := by
  unfold Writes Connector.wrote
  rw [h]; simp

theorem push_app (f : Telemetry) (b : Bool) (w : Client) : (atlasTelemetryPush cfg f b w).app = w.app := by
  unfold atlasTelemetryPush
  split
  · rfl
  · simp only
    split <;> rfl

theorem pushAll_app (w : Client) : (atlasTelemetryPushAll cfg w).app = w.app := by
  unfold atlasTelemetryPushAll
  generalize w.app.features = l
  induction l generalizing w with
  | nil => rfl
  | cons f l ih => exact (ih _).trans (push_app f false w)

theorem sendPolicy_app (h : sendPolicyCommand cfg w = .ok w') : w'.app = w.app := by
  unfold sendPolicyCommand at h
  split at h
  · cases h; rfl
  · obtain ⟨buf, -, h⟩ := bind_ok.1 h
    cases h; rfl

theorem keepaliveErr_conn (cfg : Cfg) (w : Client) : ∃ w', keepaliveErr cfg w = .ok w' ∧ w'.app.conn = w.app.conn := by
  unfold keepaliveErr
  simp only
  split
  · obtain ⟨w', hok, -, happ, -⟩ := sendRegister_spec cfg (mapReg (fun r => { r with kaAlarmId := -1 })
      ((mapReg (fun r => { r with registered := false })
        (mapReg (fun r => { r with kaCount := r.kaCount - 1 }) w)).mapNet
        (atlasAlarmCancel w.app.reg.kaAlarmId)))
    exact ⟨w', hok, by rw [happ]; rfl⟩
  · exact ⟨_, rfl, rfl⟩

theorem keepaliveCallback_conn (status : AtlasCoapResponse) (payload : Bytes) (w : Client) :
    (orStay w (keepaliveCallback cfg status payload w)).app.conn = w.app.conn := by
  unfold keepaliveCallback
  split
  · split
    · obtain ⟨w', hok, hc⟩ := keepaliveErr_conn cfg (mapReg (fun r => { r with kaCount := 1 }) w)
      rw [hok]; exact hc
    · obtain ⟨w', hok, hc⟩ := keepaliveErr_conn cfg w
      rw [hok]; exact hc
  · split
    · obtain ⟨w', hok, hc⟩ := keepaliveErr_conn cfg w
      rw [hok]; exact hc
    · rfl

theorem regCallback_conn (status : AtlasCoapResponse) (w : Client) :
    (orStay w (regCallback cfg status w)).app.conn = w.app.conn := by
  unfold regCallback
  split
  · rfl
  · have hcompleted : ∀ w₁ : Client, (regCompleted cfg w₁).app.conn = w₁.app.conn := by
      intro w₁
      show (atlasTelemetryPushAll cfg (mapReg (fun r => { r with registered := true }) w₁)).app.conn = _
      rw [pushAll_app]; rfl
    split
    · obtain ⟨w₁, hok⟩ := sendPolicy_ok cfg w
      rw [hok]
      exact (hcompleted w₁).trans (by rw [sendPolicy_app hok])
    · exact hcompleted w

theorem telemetryCallback_app (uri : String) (status : AtlasCoapResponse) (w : Client) :
    (telemetryCallback cfg uri status w).app = w.app := by
  unfold telemetryCallback
  split
  · rfl
  split
  · rfl
  split
  · rfl
  · exact push_app _ _ w

/-- **Only one callback writes.** -/
theorem coapCallback_conn {cb : AppCb} (hcb : cb ≠ .featureReputationCallback) (uri : String)
    (status : AtlasCoapResponse) (payload : Bytes) (w : Client) :
    (coapCallback cfg cb uri status payload w).app.conn = w.app.conn := by
  cases cb with
  | regCallback => exact regCallback_conn status w
  | keepaliveCallback => exact keepaliveCallback_conn status payload w
  | policyCallback =>
    simp only [coapCallback, policyCallback]
    split <;> rfl
  | telemetryCallback => exact congrArg App.conn (telemetryCallback_app uri status w)
  | featureReputationCallback => exact absurd rfl hcb
  | feedbackCallback => rfl

/-- The gateway's answer leads to a message: it is a failure, or a batch with a reputation. -/
def Answered (status : AtlasCoapResponse) (payload : Bytes) : Prop :=
  status ≠ .ok ∨ ∃ cmds : List Cmd, payload.take (payload.length % 65536) = encode cmds ∧ reputations cmds ≠ []

/-- **What `feature_reputation_callback` writes**, in every state: something, exactly when it is answered. -/
theorem reputationCallback_writes (cfg : Cfg) (status : AtlasCoapResponse) (payload : Bytes) :
    ∃ l, (∀ w, ∃ w', featureReputationCallback cfg status payload w = .ok w' ∧ Writes l w w') ∧
      (l ≠ [] ↔ Answered status payload) := by
  by_cases hs : status = .ok
  swap
  · exact ⟨_, callback_failed cfg hs payload, iff_of_true (List.cons_ne_nil _ _) (Or.inl hs)⟩
  subst hs
  by_cases hp : IsEncoding cmdHeader (payload.take (payload.length % 65536))
  swap
  · refine ⟨[], fun w => ⟨w, callback_corrupted cfg hp w, writes_nil rfl⟩, iff_of_false (fun h => h rfl) ?_⟩
    rintro (h | ⟨cmds, h, -⟩)
    · exact h rfl
    · exact hp ⟨cmds, h⟩
  obtain ⟨cmds, hp⟩ := hp
  refine ⟨_, callback_batch cfg hp, ?_⟩
  rw [ne_eq, List.map_eq_nil_iff]
  constructor
  · intro h
    exact Or.inr ⟨cmds, hp, h⟩
  · rintro (h | ⟨cmds', hp', h⟩)
    · exact absurd rfl h
    · rw [encode_injective (hp.symm.trans hp')]; exact h

/-- An event completes a reputation request, with a message. -/
def Client.Replies (cfg : Cfg) (w : Client) (e : Event) : Prop :=
  ∃ r status payload, w.completed cfg e = some (r, status, payload) ∧ r.callback = .featureReputationCallback ∧
    Answered status payload

theorem coapCallback_writes (cfg : Cfg) (r : CoapReq AppCb) (uri : String) (status : AtlasCoapResponse)
    (payload : Bytes) (w : Client) : ∃ l, Writes l w (coapCallback cfg r.callback uri status payload w) ∧
      (l ≠ [] ↔ r.callback = .featureReputationCallback ∧ Answered status payload) := by
  by_cases hcb : r.callback = .featureReputationCallback
  · obtain ⟨l, hwrites, hl⟩ := reputationCallback_writes cfg status payload
    obtain ⟨w', hok, hw⟩ := hwrites w
    rw [hcb]
    simp only [coapCallback, hok]
    exact ⟨l, hw, by rw [hl]; simp⟩
  · exact ⟨[], writes_nil (coapCallback_conn hcb uri status payload w),
      iff_of_false (fun h => h rfl) fun h => hcb h.1⟩

theorem not_replies {e : Event} (h : w.completed cfg e = none) : ¬ w.Replies cfg e := by
  rintro ⟨r, status, payload, hc, -⟩
  rw [h] at hc; cases hc

theorem replies_iff {e : Event} {r : CoapReq AppCb} {status : AtlasCoapResponse} {payload : Bytes}
    (h : w.completed cfg e = some (r, status, payload)) :
    w.Replies cfg e ↔ r.callback = .featureReputationCallback ∧ Answered status payload := by
  constructor
  · rintro ⟨r', status', payload', hc, h'⟩
    rw [h] at hc
    cases hc; exact h'
  · rintro ⟨hcb, ha⟩
    exact ⟨r, status, payload, h, hcb, ha⟩

/-- An event that completes nothing and leaves the connector alone. -/
theorem quiet_writes {e : Event} (hc : w.completed cfg e = none) (h : w'.app.conn = w.app.conn) :
    ∃ l, Writes l w w' ∧ (l ≠ [] ↔ w.Replies cfg e) :=
  ⟨[], writes_nil h, iff_of_false (fun h => h rfl) (not_replies hc)⟩

theorem pdu_writes (ctx session : ℕ) (received : CoapPdu) (w : Client) :
    ∃ l, Writes l w (w.step cfg (.pdu ctx session received)) ∧
      (l ≠ [] ↔ w.Replies cfg (.pdu ctx session received)) := by
  cases hf : w.net.reqEntry.find? (CoapReq.at ctx session) with
  | none => rw [pdu_unknown cfg received hf]; exact quiet_writes (by simp [Client.completed, hf]) rfl
  | some ent =>
    by_cases hv : validateToken cfg.endian received ent.token = true
    · rw [pdu_eq cfg hf hv]
      obtain ⟨l, hw, hl⟩ := coapCallback_writes cfg ent ent.uri received.response.1 received.response.2
        (w.mapNet (markDirty ctx session))
      refine ⟨l, hw, hl.trans (replies_iff ?_).symm⟩
      simp [Client.completed, hf, hv]
    · rw [pdu_stale hf hv]
      exact quiet_writes (by simp [Client.completed, hf, hv]) rfl

theorem alarm_writes (fd : ℤ) (w : Client) :
    ∃ l, Writes l w (w.step cfg (.alarm fd)) ∧ (l ≠ [] ↔ w.Replies cfg (.alarm fd)) := by
  cases hf : w.net.alarmEntry.find? fun p => p.alarmId = fd with
  | none => rw [alarm_unknown cfg hf]; exact quiet_writes (by simp [Client.completed, hf]) rfl
  | some a =>
    -- cancelling the alarm afterwards writes nothing
    suffices hrun : ∃ l, Writes l w ((client cfg).runAlarm a.callback fd w) ∧ (l ≠ [] ↔ w.Replies cfg (.alarm fd)) by
      obtain ⟨l, hw, hl⟩ := hrun
      refine ⟨l, ?_, hl⟩
      rw [alarm_eq cfg hf]
      split <;> exact hw
    cases hcb : a.callback with
    | requestAlarmCb =>
      simp only [Program.runAlarm, requestAlarmCb]
      cases hp : w.net.reqEntry.find? fun p => p.alarmId = fd with
      | none => exact quiet_writes (by simp [Client.completed, hf, hcb, hp]) rfl
      | some p =>
        obtain ⟨l, hw, hl⟩ := coapCallback_writes cfg p p.uri .timeout [] w
        refine ⟨l, hw, hl.trans (replies_iff ?_).symm⟩
        simp [Client.completed, hf, hcb, hp]
    | app cb =>
      refine quiet_writes (by simp [Client.completed, hf, hcb]) ?_
      cases cb with
      | keepaliveAlarmCallback =>
        obtain ⟨w', hok, -, -, -, -, hc⟩ := sendKeepalive_spec cfg w
        simp only [Program.runAlarm, client, alarmCallback, hok, orStay]
        exact hc
      | regAlarmCallback =>
        obtain ⟨w', hok, -, happ, -⟩ := sendRegister_spec cfg w
        simp only [Program.runAlarm, client, alarmCallback, hok, orStay, happ]
      | policyAlarmCallback =>
        obtain ⟨w', hok⟩ := sendPolicy_ok cfg w
        simp only [Program.runAlarm, client, alarmCallback, hok, orStay, sendPolicy_app hok]
      | pushAlertAlarmCb =>
        simp only [Program.runAlarm, client, alarmCallback, pushAlertAlarmCb]
        split
        · rfl
        · rw [push_app]
      | thresholdAlertAlarmCb =>
        simp only [Program.runAlarm, client, alarmCallback, thresholdAlertAlarmCb]
        split
        · rfl
        · rw [push_app]

/-- **The client writes to the data plane** only when a reputation request is completed. -/
theorem client_writes (cfg : Cfg) {e : Event} (he : e.ofSocket = false) (w : Client) :
    ∃ l, Writes l w (w.step cfg e) ∧ (l ≠ [] ↔ w.Replies cfg e) := by
  cases e with
  | start =>
    obtain ⟨w', hok, -, happ, -⟩ := sendRegister_spec cfg w
    refine quiet_writes rfl ?_
    simp only [Client.step, atlasRegisterStart, hok, orStay, happ]
  | pdu ctx session received => exact pdu_writes ctx session received w
  | ioDone fd => exact quiet_writes rfl rfl
  | alarm fd => exact alarm_writes fd w
  | telemetryAdd uriPath payloadCb =>
    refine quiet_writes rfl ?_
    simp only [Client.step, atlasTelemetryAdd]
    split <;> rfl
  | telemetryDel uriPath =>
    refine quiet_writes rfl ?_
    simp only [Client.step, atlasTelemetryDel]
    split <;> rfl
  | pushSet uriPath pushRate =>
    refine quiet_writes rfl ?_
    simp only [Client.step, atlasTelemetryPushSet]
    split
    · rfl
    split
    · rfl
    split
    · rw [push_app]
    · rfl
  | thresholdSet uriPath scanRate =>
    refine quiet_writes rfl ?_
    simp only [Client.step, atlasTelemetryThresholdSet]
    split
    · rfl
    split
    · rfl
    split <;> rfl
  | dataPlaneRead fd received => cases he
  | dataPlaneAccept accepted => cases he

/-! ## Questions -/

/-- The message of a question. -/
def questionCmd (e : Endian) (sensorType : UInt16) : Cmd :=
  Cmd.of AtlasCmdType.dataPlaneFeatureReputation (hostBytes e (htons e sensorType)) (by simp)

theorem question_ok (e : Endian) (sensorType : UInt16) :
    reputationRequestMessage e sensorType = .ok (encode [questionCmd e sensorType]) := by
  have hbuf := cmdBatchBytes_ok e [questionCmd e sensorType]
    (by simp [questionCmd, Frame.bytes_length, Cmd.size_eq])
  rw [← hbuf]
  unfold reputationRequestMessage
  rw [hostCmd_eq]
  rfl

/-- **A reputation command that the connector reads** becomes a request to the gateway, and no message. -/
theorem readReputation_spec (cfg : Cfg) {c : Cmd} (ht : c.type = AtlasCmdType.dataPlaneFeatureReputation)
    (hne : c.value ≠ []) (hc : c.size ≤ 2048) (fd : ℤ) (w : Client) : ∃ buf,
    atlasDataPlaneReadCb cfg fd (some (encode [c])) w = .ok
      (w.request (cfg.coapGetUri "gateway/reputation/feature") .put buf 5000 .featureReputationCallback) := by
  have hlen : (encode [c]).length = c.size := by simp [Frame.bytes_length]
  obtain ⟨buf, hreq⟩ := reputation_request cfg ht hne hc [] w
  refine ⟨buf, ?_⟩
  rw [readCb_eq cfg fd (List.cons_ne_nil _ _) (by omega)]
  simp only [foldCmds, encode_nil, hreq]
  rfl

theorem readQuestion_spec (cfg : Cfg) (fd : ℤ) (sensorType : UInt16) (w : Client) : ∃ buf,
    atlasDataPlaneReadCb cfg fd (some (encode [questionCmd cfg.endian sensorType])) w = .ok
      (w.request (cfg.coapGetUri "gateway/reputation/feature") .put buf 5000 .featureReputationCallback) := by
  have hne : (questionCmd cfg.endian sensorType).value ≠ [] := by cases h : cfg.endian <;> simp [questionCmd, hostBytes]
  have hsize : (questionCmd cfg.endian sensorType).size = 6 := by simp [questionCmd, Cmd.size_eq]
  exact readReputation_spec cfg rfl hne (by omega) fd w

/-! ## From a question to the end of its request -/

/-- The step that completes a reputation request writes what its callback does. -/
theorem completed_writes {e : Event} {r : CoapReq AppCb} {status : AtlasCoapResponse} {payload : Bytes}
    (h : w.completed cfg e = some (r, status, payload)) (hcb : r.callback = .featureReputationCallback) :
    ∃ w', featureReputationCallback cfg status payload w = .ok w' ∧
      messagesSince w (w.step cfg e) = messagesSince w w' := by
  obtain ⟨l, hwrites, -⟩ := reputationCallback_writes cfg status payload
  obtain ⟨w', hok, hw⟩ := hwrites w
  refine ⟨w', hok, ?_⟩
  -- the step writes the same messages
  suffices hstep : Writes l w (w.step cfg e) by rw [hstep.messages, hw.messages]
  cases e with
  | pdu ctx session received =>
    cases hf : w.net.reqEntry.find? (CoapReq.at ctx session) with
    | none => simp [Client.completed, hf] at h
    | some ent =>
      by_cases hv : validateToken cfg.endian received ent.token = true
      · simp only [Client.completed, hf, hv, if_true, Option.some.injEq, Prod.mk.injEq] at h
        obtain ⟨rfl, hresponse⟩ := h
        obtain ⟨w₁, hok₁, hw₁⟩ := hwrites (w.mapNet (markDirty ctx session))
        rw [pdu_eq cfg hf hv, hcb, hresponse]
        simp only [coapCallback, hok₁]
        exact hw₁
      · simp [Client.completed, hf, hv] at h
  | alarm fd =>
    cases hf : w.net.alarmEntry.find? fun p => p.alarmId = fd with
    | none => simp [Client.completed, hf] at h
    | some a =>
      cases hacb : a.callback with
      | app cb => simp [Client.completed, hf, hacb] at h
      | requestAlarmCb =>
        simp only [Client.completed, hf, hacb, Option.map_eq_some_iff, Prod.mk.injEq] at h
        obtain ⟨p, hp, rfl, rfl, rfl⟩ := h
        have hrun : Writes l w ((client cfg).runAlarm .requestAlarmCb fd w) := by
          simp only [Program.runAlarm, requestAlarmCb, hp, client, hcb, coapCallback, hok]
          exact hw
        rw [alarm_eq cfg hf, hacb]
        split <;> exact hrun
  | _ => simp [Client.completed] at h

/-- An event completes a request of the context. -/
def Client.Completes (cfg : Cfg) (ctx : ℕ) (w : Client) (e : Event) : Prop :=
  ∃ x ∈ w.completed cfg e, x.1.ctx = ctx

instance (cfg : Cfg) (ctx : ℕ) (w : Client) (e : Event) : Decidable (w.Completes cfg ctx e) := by
  unfold Client.Completes
  cases w.completed cfg e with
  | none => exact isFalse (by simp)
  | some x => exact decidable_of_iff (x.1.ctx = ctx) (by simp)

/-- The messages of a run that are written by the steps that complete a request of the context. -/
def repliesTo (cfg : Cfg) (ctx : ℕ) : Client → List Event → List Bytes
  | _, [] => []
  | w, e :: es =>
    (if w.Completes cfg ctx e then messagesSince w (w.step cfg e) else []) ++ repliesTo cfg ctx (w.step cfg e) es

theorem repliesTo_append (ctx : ℕ) (es es' : List Event) (w : Client) : repliesTo cfg ctx w (es ++ es') =
    repliesTo cfg ctx w es ++ repliesTo cfg ctx (run (Client.step cfg) w es) es' := by
  induction es generalizing w with
  | nil => rfl
  | cons e es ih =>
    simp only [List.cons_append, repliesTo, ih, List.append_assoc]
    rfl

theorem repliesTo_nil {ctx : ℕ} {es : List Event}
    (h : Along (Client.step cfg) (fun w e => ¬ w.Completes cfg ctx e) w es) : repliesTo cfg ctx w es = [] := by
  induction es generalizing w with
  | nil => rfl
  | cons e es ih =>
    rw [repliesTo, if_neg h.1, ih h.2]
    rfl

/-- **From the command to the end of its request.** The connector reads a reputation command from the data plane. If the
request is refused, nothing is written and no request is made. If it is accepted, in every run from there in which one
event completes the new request, and no other event one of its context, as that of one PDU with its token does or its
timeout: the messages that are written on behalf of the request are those of `reputationReplies`, for the state that
this event finds and the status and the payload that it has. -/
theorem replies_run (cfg : Cfg) {c : Cmd} (ht : c.type = AtlasCmdType.dataPlaneFeatureReputation)
    (hne : c.value ≠ []) (hc : c.size ≤ 2048) (fd : ℤ) (w : Client) :
    let w₁ := w.step cfg (.dataPlaneRead fd (some (encode [c])))
    messagesSince w w₁ = [] ∧
      ((¬ w.net.Grants ∧ w₁.net.reqEntry = w.net.reqEntry) ∨
        (w.net.Grants ∧ ∃ r₀, w₁.net.reqEntry = w.net.reqEntry ++ [r₀] ∧ r₀.callback = .featureReputationCallback ∧
          r₀.ctx ∉ w.net.reqEntry.map CoapReq.ctx ∧
          ∀ (pre : List Event) (e : Event) (post : List Event) (r : CoapReq AppCb) (status : AtlasCoapResponse)
            (payload : Bytes), Along (Client.step cfg) (fun w e => ¬ w.Completes cfg r₀.ctx e) w₁ pre →
            (run (Client.step cfg) w₁ pre).completed cfg e = some (r, status, payload) → r.ctx = r₀.ctx →
            r.callback = .featureReputationCallback →
            Along (Client.step cfg) (fun w e => ¬ w.Completes cfg r₀.ctx e)
              ((run (Client.step cfg) w₁ pre).step cfg e) post →
            reputationReplies cfg ⟨c.type, c.length, c.value⟩ w (run (Client.step cfg) w₁ pre) status payload =
              .ok (repliesTo cfg r₀.ctx w₁ (pre ++ e :: post)))) := by
  obtain ⟨buf, hread⟩ := readReputation_spec cfg ht hne hc fd w
  have hstep : w.step cfg (.dataPlaneRead fd (some (encode [c]))) =
      w.request (cfg.coapGetUri "gateway/reputation/feature") .put buf 5000 .featureReputationCallback := by
    simp only [Client.step, hread, orStay]
  simp only [hstep]
  refine ⟨messagesSince_eq_nil rfl, ?_⟩
  rcases request_cases (cfg.coapGetUri "gateway/reputation/feature") 5000 AppCb.featureReputationCallback w.net with
    ⟨-, hno, -, hsame, -⟩ | ⟨-, hyes, -, r₀, hacc⟩
  · exact Or.inl ⟨hno, hsame⟩
  · refine Or.inr ⟨hyes, r₀, hacc.reqs, hacc.callback, hacc.ctx_new, ?_⟩
    intro pre e post r status payload hpre hdone hctx hcb hpost
    obtain ⟨w', hok, hmessages⟩ := completed_writes hdone hcb
    have hreplies := replies_eq cfg ht hne hc [] w
      (run (Client.step cfg) (w.request (cfg.coapGetUri "gateway/reputation/feature") .put buf 5000
        .featureReputationCallback) pre) status payload
    rw [List.append_nil, if_pos hyes, hok] at hreplies
    rw [hreplies, repliesTo_append, repliesTo_nil hpre, repliesTo, repliesTo_nil hpost, if_pos ⟨_, hdone, hctx⟩,
      List.nil_append, List.append_nil, hmessages]
    rfl

/-! ## The numbers -/

theorem askedSince_le {k n : ℕ} {asked : ℕ → ℕ} (h : ∀ c, asked c ≤ n) (hk : k ≤ n) (c : ℕ) :
    askedSince k w w' asked c ≤ n := by
  unfold askedSince
  generalize w'.net.reqEntry.drop w.net.reqEntry.length = l
  induction l generalizing asked with
  | nil => exact h c
  | cons r l ih =>
    refine ih fun c' => ?_
    show Function.update asked r.ctx k c' ≤ n
    by_cases heq : c' = r.ctx
    · rw [heq, Function.update_self]; exact hk
    · rw [Function.update_of_ne heq]; exact h c'

/-! ## Steps -/

/-- A message that a waiting call reads next is the reply to its own question. -/
def Link.Right (s : Link) : Prop := ∀ k m, s.waiting = some k → s.replies.head? = some m → m.1 = k

/-- A question is asked with no reply queued; and while a call waits with nothing queued, a
reputation request that is completed with a message into its connection is that of its own
question. -/
def Link.InTime (cfg : Cfg) (s : Link) : LinkEvent → Prop
  | .request _ => s.waiting = none → s.replies = []
  | .client e => ∀ k, s.waiting = some k → s.Joined → s.replies = [] →
      ∀ r status payload, s.client.completed cfg e = some (r, status, payload) →
        r.callback = .featureReputationCallback → Answered status payload → s.asked r.ctx = k
  | _ => True

/-- The message of one of the first `n` calls. -/
def IsQuestion (cfg : Cfg) (n : ℕ) (q : ℕ × Bytes) : Prop :=
  q.1 ≤ n ∧ ∃ sensorType, q.2 = encode [questionCmd cfg.endian sensorType]

structure LinkInv (cfg : Cfg) (s : Link) : Prop where
  right : s.Right
  questions : ∀ c, ∀ q ∈ s.questions c, IsQuestion cfg s.calls q
  replies : ∀ q ∈ s.replies, q.1 ≤ s.calls
  asked : ∀ c, s.asked c ≤ s.calls
  socket : s.holds = true → s.client.app.conn.connectedSocket ≠ -1

variable {s : Link}

theorem linkInv_init (cfg : Cfg) (os : Os) : LinkInv cfg (Link.init os) :=
  ⟨fun k m h => by simp [Link.init] at h, by simp [Link.init], by simp [Link.init], by simp [Link.init],
    by simp [Link.init]⟩

/-- The messages that reach the library, when the client has written `l`. -/
theorem deliver_eq (hsock : s.holds = true → s.client.app.conn.connectedSocket ≠ -1) {l : List Bytes} {w : Client}
    (hw : Writes l s.client w) (k : ℕ) :
    s.deliver k w = if s.Joined then s.replies ++ l.map fun m => (k, m) else s.replies := by
  unfold Link.deliver
  by_cases hj : s.Joined
  · rw [if_pos hj, if_pos hj, hw.messages, if_neg (hsock hj.1)]
  · rw [if_neg hj, if_neg hj]

/-- Replies behind the first one do not matter, and none does without a call that waits. -/
theorem Link.Right.append (h : s.Right) {s' : Link} {new : List (ℕ × Bytes)} (hw : s'.waiting = s.waiting)
    (hr : s'.replies = s.replies ++ new)
    (hnew : ∀ k m, s.waiting = some k → s.replies = [] → new.head? = some m → m.1 = k) : s'.Right := by
  intro k m hk hm
  rw [hw] at hk
  rw [hr] at hm
  cases hq : s.replies with
  | nil =>
    rw [hq, List.nil_append] at hm
    exact hnew k m hk hq hm
  | cons q rest =>
    rw [hq, List.cons_append] at hm
    exact h k m hk (by rw [hq]; exact hm)

/-- **A question** is asked in time exactly when nothing is queued. -/
theorem request_right (h : LinkInv cfg s) (sensorType : UInt16) :
    (s.step cfg (.request sensorType)).Right ↔ s.InTime cfg (.request sensorType) := by
  simp only [Link.step, Link.InTime, question_ok]
  cases hw : s.waiting with
  | some k => exact iff_of_true h.right fun h0 => by cases h0
  | none =>
    simp only [true_implies]
    constructor
    · intro hr
      cases hq : s.replies with
      | nil => rfl
      | cons q rest =>
        -- a queued reply has a number that has been given before
        have heq : q.1 = s.calls + 1 := hr (s.calls + 1) q rfl (by simp [hq])
        have hle := h.replies q (by simp [hq])
        omega
    · intro hnil k m _ hm
      simp [hnil] at hm

/-- **An event of the client** is in time exactly when it writes no reply to another question. -/
theorem client_right (h : LinkInv cfg s) {e : Event} (he : e.ofSocket = false) :
    (s.step cfg (.client e)).Right ↔ s.InTime cfg (.client e) := by
  obtain ⟨l, hw, hl⟩ := client_writes cfg he s.client
  simp only [Link.step, he, Bool.false_eq_true, if_false, Link.InTime, deliver_eq h.socket hw]
  by_cases hj : s.Joined
  swap
  · simp only [if_neg hj]
    exact iff_of_true h.right fun _ _ h0 => absurd h0 hj
  simp only [if_pos hj]
  by_cases hq : s.replies = []
  swap
  · refine iff_of_true ?_ fun _ _ _ h0 => absurd h0 hq
    exact h.right.append rfl rfl fun _ _ _ h0 => absurd h0 hq
  constructor
  · intro hr k hk _ _ r status payload hc hcb ha
    -- something is written, so the first message tells
    have hne : l ≠ [] := hl.2 ⟨r, status, payload, hc, hcb, ha⟩
    obtain ⟨m, rest, rfl⟩ := List.exists_cons_of_ne_nil hne
    have hfirst := hr k ((s.client.completed cfg e).elim 0 fun c => s.asked c.1.ctx, m) hk (by simp [hq])
    rw [hc] at hfirst
    exact hfirst
  · intro hin
    refine h.right.append rfl rfl ?_
    intro k m hk _ hm
    have hne : l ≠ [] := by
      rintro rfl
      simp at hm
    obtain ⟨r, status, payload, hc, hcb, ha⟩ := hl.1 hne
    have hown := hin k hk hj hq r status payload hc hcb ha
    obtain ⟨x, rest, rfl⟩ := List.exists_cons_of_ne_nil hne
    simp only [List.map_cons, List.head?_cons, Option.some.injEq] at hm
    rw [← hm, hc]; exact hown

/-- **The connector reads a question**: the numbers stay, nothing is written. -/
theorem readQuestion_inv (h : LinkInv cfg s) : LinkInv cfg (s.step cfg .readQuestion) := by
  simp only [Link.step]
  cases hh : s.holds with
  | false => exact h
  | true =>
    cases hq : s.questions s.taken with
    | nil => exact h
    | cons q rest =>
      obtain ⟨k, m⟩ := q
      obtain ⟨hk, t, hm⟩ := h.questions s.taken (k, m) (by rw [hq]; simp)
      simp only at hk hm
      obtain ⟨buf, hread⟩ := readQuestion_spec cfg s.client.app.conn.connectedSocket t s.client
      set w := s.client.request (cfg.coapGetUri "gateway/reputation/feature") .put buf 5000 .featureReputationCallback
      have hnone : s.deliver k w = s.replies := by
        rw [deliver_eq h.socket (writes_nil rfl : Writes [] s.client w)]
        simp
      simp only [hm, hread, orStay, hnone]
      have hrest : ∀ q ∈ rest, IsQuestion cfg s.calls q :=
        fun q hm => h.questions s.taken q (by rw [hq]; exact List.mem_cons_of_mem _ hm)
      refine ⟨h.right, ?_, h.replies, askedSince_le h.asked hk, fun _ => h.socket hh⟩
      exact (Function.forall_update_iff s.questions (p := fun _ l => ∀ q ∈ l, IsQuestion cfg s.calls q)).2
        ⟨hrest, fun c _ => h.questions c⟩

theorem accept_socket (accepted : Option Fresh) (w : Client) (h : accepted.isSome = true) :
    (atlasDataPlaneAcceptCb accepted w).app.conn.connectedSocket ≠ -1 := by
  cases accepted with
  | none => cases h
  | some fresh =>
    simp only [atlasDataPlaneAcceptCb]
    intro heq
    have hfd := newFd_nonneg (if w.app.conn.connectedSocket ≠ -1 then
      w.mapNet fun n => { n with schedEntry := atlasSchedDelEntry w.app.conn.connectedSocket n.schedEntry }
      else w).net fresh
    simp only [World.mapNet, mapConn, World.mapApp] at heq hfd
    omega

/-- **A question** has a new number. -/
theorem request_inv (h : LinkInv cfg s) (sensorType : UInt16) (hc : s.InTime cfg (.request sensorType)) :
    LinkInv cfg (s.step cfg (.request sensorType)) := by
  have hr := (request_right h sensorType).2 hc
  revert hr
  simp only [Link.step, question_ok]
  cases hw : s.waiting with
  | some k => exact fun _ => h
  | none =>
    intro hr
    refine ⟨hr, ?_, fun q hq => Nat.le_succ_of_le (h.replies q hq), fun c => Nat.le_succ_of_le (h.asked c), h.socket⟩
    have hold : ∀ c, ∀ q ∈ s.questions c, IsQuestion cfg (s.calls + 1) q :=
      fun c q hq => ⟨Nat.le_succ_of_le (h.questions c q hq).1, (h.questions c q hq).2⟩
    have hnew : IsQuestion cfg (s.calls + 1) (s.calls + 1, encode [questionCmd cfg.endian sensorType]) :=
      ⟨Nat.le_refl _, sensorType, rfl⟩
    exact (Function.forall_update_iff s.questions (p := fun _ l => ∀ q ∈ l, IsQuestion cfg (s.calls + 1) q)).2
      ⟨List.forall_mem_append.2 ⟨hold s.opened, by simpa using hnew⟩, fun c _ => hold c⟩

/-- **What the client writes** has the number of a question. -/
theorem client_inv (h : LinkInv cfg s) (e : Event) (hc : s.InTime cfg (.client e)) :
    LinkInv cfg (s.step cfg (.client e)) := by
  cases he : e.ofSocket with
  | true => simpa only [Link.step, he, if_true] using h
  | false =>
    have hr := (client_right h he).2 hc
    obtain ⟨l, hw, -⟩ := client_writes cfg he s.client
    have hsock : (s.client.step cfg e).app.conn.connectedSocket = s.client.app.conn.connectedSocket := by
      rw [hw]; rfl
    revert hr
    simp only [Link.step, he, Bool.false_eq_true, if_false, deliver_eq h.socket hw]
    intro hr
    refine ⟨hr, h.questions, ?_, h.asked, fun hh => by rw [hsock]; exact h.socket hh⟩
    intro q hq
    split at hq
    · rcases List.mem_append.1 hq with hq | hq
      · exact h.replies q hq
      · obtain ⟨m, -, rfl⟩ := List.mem_map.1 hq
        cases s.client.completed cfg e with
        | none => exact Nat.zero_le _
        | some c => exact h.asked c.1.ctx
    · exact h.replies q hq

/-- **One step**: a step in time leaves everything in order. -/
theorem linkInv_step (h : LinkInv cfg s) (e : LinkEvent) (hc : s.InTime cfg e) : LinkInv cfg (s.step cfg e) := by
  cases e with
  | request sensorType => exact request_inv h sensorType hc
  | readReply =>
    simp only [Link.step]
    cases hw : s.waiting with
    | none => exact h
    | some k =>
      cases hq : s.replies with
      | nil => exact h
      | cons q rest =>
        exact ⟨fun _ _ h0 => (by cases h0), h.questions,
          fun q' hq' => h.replies q' (by rw [hq]; exact List.mem_cons_of_mem _ hq'), h.asked, h.socket⟩
  | readFails => exact ⟨fun _ _ h0 => (by cases h0), h.questions, h.replies, h.asked, h.socket⟩
  | reconnect => exact ⟨fun _ _ _ h0 => (by cases h0), h.questions, by simp [Link.step], h.asked, h.socket⟩
  | accept accepted =>
    simp only [Link.step]
    split
    · exact h
    · exact ⟨h.right, h.questions, h.replies, h.asked, accept_socket accepted s.client⟩
  | readQuestion => exact readQuestion_inv h
  | client e => exact client_inv h e hc

theorem right_inTime (h : LinkInv cfg s) (e : LinkEvent) (hr : (s.step cfg e).Right) : s.InTime cfg e := by
  cases e with
  | request sensorType => exact (request_right h sensorType).1 hr
  | client e =>
    cases he : e.ofSocket with
    | false => exact (client_right h he).1 hr
    | true =>
      -- the events of the socket are not the client's here
      have hnone : s.client.completed cfg e = none := by
        cases e <;> first | rfl | cases he
      intro k _ _ _ r status payload hc
      rw [hnone] at hc
      cases hc
  | _ => trivial

end AtlasClient
