import AtlasClient.Lib.Simulation
import AtlasClient.Proof.Ownership
import AtlasClient.Spec.MainLoop

/-!
# The scheduler's list is not read

The modules add entries to the list of the scheduler and delete them, and never look at it.

* `OnlySched`: two clients that differ in nothing but the list.
* `Blind`, `BlindE`: a function that makes such clients of such clients; one lemma for each function of the modules.
* `step_blind`: **no event looks at the list.**
-/

namespace AtlasClient

open FirstMatch Loop Simulation

/-- `w'` differs from `w` in nothing but the scheduler's list. -/
def OnlySched (w w' : Client) : Prop := ∃ l, w' = w.mapNet (Net.withSched l)

/-- A function that does not look at the list. -/
def Blind (f : Client → Client) : Prop := ∀ ⦃w w'⦄, OnlySched w w' → OnlySched (f w) (f w')

/-- The same for one that can fail. -/
def BlindE (f : Client → Except Fault Client) : Prop := ∀ ⦃w w'⦄, OnlySched w w' → Alike OnlySched (f w) (f w')

variable {cfg : Cfg} {f g : Client → Client} {h k : Client → Except Fault Client} {w w' : Client}

theorem OnlySched.refl (w : Client) : OnlySched w w := ⟨w.net.schedEntry, rfl⟩

theorem OnlySched.trans {w'' : Client} (h : OnlySched w w') (h' : OnlySched w' w'') : OnlySched w w'' := by
  obtain ⟨l, rfl⟩ := h
  obtain ⟨l', rfl⟩ := h'
  exact ⟨l', rfl⟩

/-- A change of the network that does not look at the list. -/
theorem blind_mapNet {f : Net AppAlarm AppCb → Net AppAlarm AppCb}
    (hf : ∀ n l, ∃ l', f (n.withSched l) = (f n).withSched l') :
    Blind fun w => w.mapNet f := by
  rintro w _ ⟨l, rfl⟩
  obtain ⟨l', hl⟩ := hf w.net l
  exact ⟨l', congrArg (fun n => { w with net := n }) hl⟩

theorem blind_mapApp (f : App → App) : Blind fun w => w.mapApp f := by
  rintro w _ ⟨l, rfl⟩
  exact ⟨l, rfl⟩

theorem Blind.comp (hf : Blind f) (hg : Blind g) : Blind fun w => f (g w) := fun _ _ hw => hf (hg hw)

theorem Blind.pure (hf : Blind f) : BlindE fun w => .ok (f w) := fun _ _ hw => .ok (hf hw)

theorem blindE_ok : BlindE .ok := fun _ _ hw => .ok hw

theorem BlindE.orStay (hh : BlindE h) : Blind fun w => orStay w (h w) := by
  intro w w' hw
  have hx := hh hw
  show OnlySched (AtlasClient.orStay w (h w)) (AtlasClient.orStay w' (h w'))
  generalize h w = a at hx ⊢
  generalize h w' = b at hx ⊢
  cases hx with
  | error f => exact hw
  | ok hst => exact hst

/-- A choice that depends on what is outside of the list. -/
theorem Blind.ite {c : Client → Prop} [DecidablePred c] (hc : ∀ w l, c (w.mapNet (Net.withSched l)) ↔ c w)
    (hf : Blind f) (hg : Blind g) : Blind fun w => if c w then f w else g w := by
  rintro w _ ⟨l, rfl⟩
  by_cases hw : c w
  · simp only [if_pos hw, if_pos ((hc w l).2 hw)]
    exact hf ⟨l, rfl⟩
  · simp only [if_neg hw, if_neg fun h => hw ((hc w l).1 h)]
    exact hg ⟨l, rfl⟩

theorem BlindE.ite {c : Client → Prop} [DecidablePred c] (hc : ∀ w l, c (w.mapNet (Net.withSched l)) ↔ c w)
    (hh : BlindE h) (hk : BlindE k) : BlindE fun w => if c w then h w else k w := by
  rintro w _ ⟨l, rfl⟩
  by_cases hw : c w
  · simp only [if_pos hw, if_pos ((hc w l).2 hw)]
    exact hh ⟨l, rfl⟩
  · simp only [if_neg hw, if_neg fun h => hw ((hc w l).1 h)]
    exact hk ⟨l, rfl⟩

/-- A value that is read outside of the list. -/
theorem Blind.read {α : Type} {v : Client → α} (hv : ∀ w l, v (w.mapNet (Net.withSched l)) = v w)
    {f : α → Client → Client} (hf : ∀ a, Blind (f a)) : Blind fun w => f (v w) w := by
  rintro w _ ⟨l, rfl⟩
  show OnlySched (f (v w) w) (f (v (w.mapNet (Net.withSched l))) (w.mapNet (Net.withSched l)))
  rw [hv]
  exact hf _ ⟨l, rfl⟩

theorem BlindE.read {α : Type} {v : Client → α} (hv : ∀ w l, v (w.mapNet (Net.withSched l)) = v w)
    {f : α → Client → Except Fault Client} (hf : ∀ a, BlindE (f a)) : BlindE fun w => f (v w) w := by
  rintro w _ ⟨l, rfl⟩
  show Alike OnlySched (f (v w) w) (f (v (w.mapNet (Net.withSched l))) (w.mapNet (Net.withSched l)))
  rw [hv]
  exact hf _ ⟨l, rfl⟩

/-- An output that is computed first. -/
theorem BlindE.after {α : Type} (x : Except Fault α) {f : α → Client → Except Fault Client} (hf : ∀ a, BlindE (f a)) :
    BlindE fun w => x.bind fun a => f a w := fun _ _ hw => .after x fun a => hf a hw

/-! ## Alarms and requests -/

section

variable (n : Net AppAlarm AppCb) (l : List (SchedEntry SchedCb))

theorem alarmSet_withSched (ms : ℕ) (cb : AlarmCb AppAlarm) (once : Bool) :
    ∃ l', atlasAlarmSet ms cb once (n.withSched l) =
    ((atlasAlarmSet ms cb once n).1, (atlasAlarmSet ms cb once n).2.withSched l') := by
  have hos : (n.withSched l).os = n.os := rfl
  simp only [atlasAlarmSet, hos]
  cases n.os.timers.head with
  | none => exact ⟨l, rfl⟩
  | some fresh => exact ⟨_, rfl⟩

theorem alarmCancel_withSched (id : ℤ) :
    ∃ l', atlasAlarmCancel id (n.withSched l) = (atlasAlarmCancel id n).withSched l' := by
  have halarms : (n.withSched l).alarmEntry = n.alarmEntry := rfl
  simp only [atlasAlarmCancel, halarms]
  cases n.alarmEntry.find? fun p => p.alarmId = id with
  | none => exact ⟨l, rfl⟩
  | some p => exact ⟨_, rfl⟩

theorem addRequest_withSched (ctx session : ℕ) (coapFd : Option Fresh) (uri : String) (token : UInt32) (timeout : ℕ)
    (cb : AppCb) : ∃ l', addRequest ctx session coapFd uri token timeout cb (n.withSched l) =
      ((addRequest ctx session coapFd uri token timeout cb n).1,
        (addRequest ctx session coapFd uri token timeout cb n).2.withSched l') := by
  unfold addRequest
  cases coapFd with
  | none => exact ⟨l, rfl⟩
  | some fresh =>
    obtain ⟨l', hset⟩ := alarmSet_withSched n l timeout .requestAlarmCb true
    simp only [hset]
    by_cases hfailed : (atlasAlarmSet timeout .requestAlarmCb true n).1 < 0
    · simp only [if_pos hfailed]
      exact ⟨l', rfl⟩
    · simp only [if_neg hfailed]
      exact ⟨_, rfl⟩

theorem request_withSched (uri : String) (timeout : ℕ) (cb : AppCb) :
    ∃ l', atlasCoapClientRequest (some uri) timeout (some cb) (n.withSched l) =
      ((atlasCoapClientRequest (some uri) timeout (some cb) n).1,
        (atlasCoapClientRequest (some uri) timeout (some cb) n).2.withSched l') := by
  have hos : (n.withSched l).os = n.os := rfl
  simp only [atlasCoapClientRequest, hos]
  -- one early return after the other
  cases n.os.requests.head.splitUri with
  | false => exact ⟨l, rfl⟩
  | true =>
  cases n.os.requests.head.resolved with
  | false => exact ⟨l, rfl⟩
  | true =>
  cases n.os.requests.head.ctx with
  | none => exact ⟨l, rfl⟩
  | some ctx =>
  cases n.os.requests.head.session with
  | none => exact ⟨l, rfl⟩
  | some session =>
  cases n.os.requests.head.pdu with
  | false => exact ⟨l, rfl⟩
  | true =>
  cases n.os.requests.head.tokenAdded with
  | false => exact ⟨l, rfl⟩
  | true =>
    exact addRequest_withSched
      { n with os := { n.os with requests := n.os.requests.tail }, token := n.token + 1 } l _ _ _ _ _ _ _

end

theorem blind_request (uri : String) (method : AtlasCoapMethod) (payload : Bytes) (timeout : ℕ) (cb : AppCb) :
    Blind fun w => w.request uri method payload timeout cb := by
  rintro w _ ⟨l, rfl⟩
  obtain ⟨l', hreq⟩ := request_withSched w.net l uri timeout cb
  refine ⟨l', ?_⟩
  have hnet : (w.mapNet (Net.withSched l)).net = w.net.withSched l := rfl
  simp only [World.request, hnet, hreq]
  rfl

theorem blind_setAlarm (ms : ℕ) (cb : AlarmCb AppAlarm) (once : Bool) :
    Blind fun w => w.mapNet fun n => (atlasAlarmSet ms cb once n).2 :=
  blind_mapNet fun n l => by
    obtain ⟨l', hset⟩ := alarmSet_withSched n l ms cb once
    exact ⟨l', congrArg Prod.snd hset⟩

theorem blind_cancel (id : ℤ) : Blind fun w => w.mapNet (atlasAlarmCancel id) :=
  blind_mapNet fun n l => alarmCancel_withSched n l id

/-! ## Telemetry -/

theorem blind_push (feature : Telemetry) (useThreshold : Bool) :
    Blind (atlasTelemetryPush cfg feature useThreshold) := by
  refine Blind.ite (fun _ _ => Iff.rfl) (fun _ _ hw => hw) ?_
  -- the payload is an answer of the system
  refine Blind.read (v := fun w => (askPayload feature useThreshold w).1) (fun _ _ => rfl)
    (f := fun payload w => if payload = [] then (askPayload feature useThreshold w).2
      else (askPayload feature useThreshold w).2.request (cfg.coapGetUri feature.uriPath) .put payload 40000
        .telemetryCallback)
    fun payload => ?_
  have hask : Blind fun w => (askPayload feature useThreshold w).2 :=
    blind_mapNet (f := fun n => { n with os := { n.os with payloads := n.os.payloads.tail } }) fun _ l => ⟨l, rfl⟩
  refine Blind.ite (c := fun _ => payload = []) (fun _ _ => Iff.rfl) hask ?_
  exact (blind_request _ _ _ _ _).comp hask

theorem blind_pushAll : Blind (atlasTelemetryPushAll cfg) := by
  refine Blind.read (v := fun w => w.app.features) (fun _ _ => rfl)
    (f := fun features w => features.foldl (fun w p => atlasTelemetryPush cfg p false w) w) fun features => ?_
  induction features with
  | nil => exact fun _ _ hw => hw
  | cons p features ih => exact ih.comp (blind_push p false)

theorem blind_mapFeatures (f : List Telemetry → List Telemetry) : Blind (mapFeatures f) := blind_mapApp _

/-- A push of the first feature that fits. -/
theorem blind_pushFound (q : Telemetry → Bool) (useThreshold : Bool) : Blind fun w =>
    match w.app.features.find? q with
    | none => w
    | some p => atlasTelemetryPush cfg p useThreshold w := by
  refine Blind.read (v := fun w => w.app.features.find? q) (fun _ _ => rfl)
    (f := fun found w => match found with | none => w | some p => atlasTelemetryPush cfg p useThreshold w) ?_
  intro found
  cases found with
  | none => exact fun _ _ hw => hw
  | some p => exact blind_push p useThreshold

theorem blind_telemetryCallback (uri : String) (status : AtlasCoapResponse) :
    Blind (telemetryCallback cfg uri status) := by
  unfold telemetryCallback
  by_cases hok : status = .ok
  · simp only [if_pos hok]
    exact fun _ _ hw => hw
  by_cases htimeout : status ≠ .timeout
  · simp only [if_neg hok, if_pos htimeout]
    exact fun _ _ hw => hw
  · simp only [if_neg hok, if_neg htimeout]
    exact blind_pushFound _ _

theorem blind_resetAlarm (uriPath : String) (old : ℤ) (ms : ℕ) (cb : AppAlarm) (store : ℤ → Telemetry → Telemetry) :
    Blind (resetAlarm uriPath old ms cb store) := by
  rintro w _ ⟨l, rfl⟩
  have hcancel : ∃ l₁, (if 0 ≤ old then atlasAlarmCancel old (w.net.withSched l) else w.net.withSched l) =
      (if 0 ≤ old then atlasAlarmCancel old w.net else w.net).withSched l₁ := by
    split
    · exact alarmCancel_withSched w.net l old
    · exact ⟨l, rfl⟩
  obtain ⟨l₁, hcancel⟩ := hcancel
  obtain ⟨l', hset⟩ := alarmSet_withSched (if 0 ≤ old then atlasAlarmCancel old w.net else w.net) l₁ ms (.app cb) false
  have hnet : (w.mapNet (Net.withSched l)).net = w.net.withSched l := rfl
  refine ⟨l', ?_⟩
  simp only [resetAlarm, swapAlarm, hnet, hcancel, hset]
  rfl

theorem blind_pushSet (cfg : Cfg) (uriPath : Option String) (pushRate : UInt16) :
    Blind (atlasTelemetryPushSet cfg uriPath pushRate) := by
  cases uriPath with
  | none => exact fun _ _ hw => hw
  | some uriPath =>
    refine Blind.read (v := fun w => w.app.features.find? fun p => p.uriPath = uriPath) (fun _ _ => rfl)
      (f := fun found w => match found with
        | none => w
        | some p => if pushRate = 0 then atlasTelemetryPush cfg p false w
          else resetAlarm uriPath p.pushId (pushRate.toNat * 1000) .pushAlertAlarmCb
            (fun id p => { p with pushId := id }) w)
      fun found => ?_
    cases found with
    | none => exact fun _ _ hw => hw
    | some p =>
      exact Blind.ite (c := fun _ => pushRate = 0) (fun _ _ => Iff.rfl) (blind_push p false)
        (blind_resetAlarm _ _ _ _ _)

theorem blind_thresholdSet (uriPath : Option String) (scanRate : UInt16) :
    Blind (atlasTelemetryThresholdSet uriPath scanRate) := by
  cases uriPath with
  | none => exact fun _ _ hw => hw
  | some uriPath =>
    refine Blind.ite (c := fun _ => scanRate = 0) (fun _ _ => Iff.rfl) (fun _ _ hw => hw) ?_
    refine Blind.read (v := fun w => w.app.features.find? fun p => p.uriPath = uriPath) (fun _ _ => rfl)
      (f := fun found w => match found with
        | none => w
        | some p => resetAlarm uriPath p.thresholdId (scanRate.toNat * 1000) .thresholdAlertAlarmCb
          (fun id p => { p with thresholdId := id }) w) fun found => ?_
    cases found with
    | none => exact fun _ _ hw => hw
    | some p => exact blind_resetAlarm _ _ _ _ _

/-! ## Registration -/

theorem blind_mapReg (f : Register → Register) : Blind (mapReg f) := blind_mapApp _

theorem blind_localIpPort : Blind fun w => (localIpPort w).2 :=
  blind_mapNet (f := fun n => { n with os := { n.os with ipPorts := n.os.ipPorts.tail } }) fun _ l => ⟨l, rfl⟩

theorem blind_sendRegister : BlindE (sendRegisterCommand cfg) := by
  refine BlindE.read (v := fun w => (localIpPort w).1) (fun _ _ => rfl)
    (f := fun ipPort w => (cmdBatchBytes cfg.endian
      [stringCmd AtlasCmdType.register cfg.identity, stringCmd AtlasCmdType.ipPort ipPort]).bind fun buf =>
        .ok ((localIpPort w).2.request (cfg.coapGetUri "gateway/register") .post buf 5000 .regCallback)) ?_
  intro ipPort
  exact BlindE.after _ fun buf => ((blind_request _ _ _ _ _).comp blind_localIpPort).pure

theorem blind_sendKeepalive : BlindE (sendKeepaliveCommand cfg) := by
  refine BlindE.read (v := fun w => ((localIpPort w).1, w.app.reg.kaToken + 1)) (fun _ _ => rfl)
    (f := fun v w => (cmdBatchBytes cfg.endian [stringCmd AtlasCmdType.identity cfg.identity,
      (AtlasCmdType.keepalive, 2, hostBytes cfg.endian v.2), stringCmd AtlasCmdType.ipPort v.1]).bind fun buf =>
        .ok ((mapReg (fun r => { r with kaToken := r.kaToken + 1 }) (localIpPort w).2).request
          (cfg.coapGetUri "gateway/keepalive") .put buf 5000 .keepaliveCallback)) fun v => ?_
  exact BlindE.after _ fun buf => ((blind_request _ _ _ _ _).comp ((blind_mapReg _).comp blind_localIpPort)).pure

theorem blind_keepaliveErr : BlindE (keepaliveErr cfg) := by
  have hcount := blind_mapReg fun r => { r with kaCount := r.kaCount - 1 }
  refine BlindE.ite (c := fun w => (mapReg (fun r => { r with kaCount := r.kaCount - 1 }) w).app.reg.kaCount = 0)
    (fun _ _ => Iff.rfl) ?_ hcount.pure
  -- the alarm of the keep-alive goes, and the registration starts again
  have hcancel : Blind fun w => w.mapNet (atlasAlarmCancel w.app.reg.kaAlarmId) :=
    Blind.read (v := fun w => w.app.reg.kaAlarmId) (fun _ _ => rfl) (f := fun id w => w.mapNet (atlasAlarmCancel id))
      blind_cancel
  intro w w' hw
  exact blind_sendRegister (blind_mapReg _ (hcancel (blind_mapReg _ (hcount hw))))

theorem blind_keepaliveCallback (status : AtlasCoapResponse) (payload : Bytes) :
    BlindE (keepaliveCallback cfg status payload) := by
  refine BlindE.ite (c := fun _ => status ≠ .ok) (fun _ _ => Iff.rfl) ?_ ?_
  · have hforced : Blind fun w =>
        if status = .notFound ∨ status = .notAcceptableHere then mapReg (fun r => { r with kaCount := 1 }) w else w :=
      Blind.ite (c := fun _ => status = .notFound ∨ status = .notAcceptableHere) (fun _ _ => Iff.rfl)
        (blind_mapReg _) fun _ _ hw => hw
    exact fun _ _ hw => blind_keepaliveErr (hforced hw)
  · exact BlindE.ite (c := fun w => (!tokenMatches cfg payload w) = true) (fun _ _ => Iff.rfl) blind_keepaliveErr
      (blind_mapReg _).pure

theorem blind_regCompleted : Blind (regCompleted cfg) := by
  have hset : Blind fun w => mapReg (fun r => { r with kaAlarmId := (atlasAlarmSet 20000 keepaliveCb false w.net).1 })
      { w with net := (atlasAlarmSet 20000 keepaliveCb false w.net).2 } := by
    rintro w _ ⟨l, rfl⟩
    obtain ⟨l', hset⟩ := alarmSet_withSched w.net l 20000 keepaliveCb false
    have hnet : (w.mapNet (Net.withSched l)).net = w.net.withSched l := rfl
    refine ⟨l', ?_⟩
    simp only [hnet, hset]
    rfl
  exact fun _ _ hw => hset (blind_pushAll (blind_mapReg _ hw))

/-! ## The connector -/

theorem blind_mapConn (f : Connector → Connector) : Blind (mapConn f) := blind_mapApp _

theorem blind_sendPolicy : BlindE (sendPolicyCommand cfg) := by
  refine BlindE.ite (c := fun w => (!w.app.conn.activePolicy) = true) (fun _ _ => Iff.rfl) blindE_ok ?_
  refine BlindE.read (v := fun w => w.app.conn) (fun _ _ => rfl)
    (f := fun conn w => (cmdBatchBytes cfg.endian (policyCmds cfg conn)).bind fun buf =>
      .ok (w.request (cfg.coapGetUri "gateway/policy") .put buf 5000 .policyCallback)) fun conn => ?_
  exact BlindE.after _ fun buf => (blind_request _ _ _ _ _).pure

theorem blind_regCallback (status : AtlasCoapResponse) : BlindE (regCallback cfg status) := by
  refine BlindE.ite (c := fun _ => status ≠ .ok) (fun _ _ => Iff.rfl) (blind_setAlarm _ _ _).pure ?_
  have hpolicy : BlindE fun w => if !w.app.reg.registered then sendPolicyCommand cfg w else .ok w :=
    BlindE.ite (c := fun w => (!w.app.reg.registered) = true) (fun _ _ => Iff.rfl) blind_sendPolicy blindE_ok
  exact fun _ _ hw => (hpolicy hw).map fun _ _ h => blind_regCompleted h

theorem blind_policyCallback (status : AtlasCoapResponse) : Blind (policyCallback status) :=
  Blind.ite (c := fun _ => status ≠ .ok) (fun _ _ => Iff.rfl) (blind_setAlarm _ _ _) fun _ _ hw => hw

theorem blind_withConn (f : Connector → Except Fault Connector) : BlindE (withConn f) :=
  BlindE.read (v := fun w => w.app.conn) (fun _ _ => rfl)
    (f := fun conn w => (f conn).bind fun c => .ok (mapConn (fun _ => c) w)) fun _ =>
      BlindE.after _ fun _ => (blind_mapConn _).pure

theorem blind_writeDataPlane (bs : Bytes) : Blind (writeDataPlane bs) := blind_mapConn _

/-- A handler of commands that does not look at the list. -/
def BlindHandle (handle : AtlasCmd → Client → Except Fault (Client ⊕ Client)) : Prop :=
  ∀ cmd ⦃w w'⦄, OnlySched w w' → Alike (Sum.LiftRel OnlySched OnlySched) (handle cmd w) (handle cmd w')

theorem BlindE.inl (hh : BlindE h) {w w' : Client} (hw : OnlySched w w') :
    Alike (Sum.LiftRel OnlySched OnlySched) (Sum.inl <$> h w) (Sum.inl <$> h w' : Except Fault (Client ⊕ Client)) :=
  (hh hw).map fun _ _ hst => .inl hst

/-- The loop over a batch, and what comes behind it. -/
theorem BlindHandle.loop {handle : AtlasCmd → Client → Except Fault (Client ⊕ Client)} (hh : BlindHandle handle)
    (e : Endian) (b : AtlasCmdBatch) (hk : BlindE k) : BlindE fun w => (cmdLoop e handle b w).bind fun r => k r.2 := by
  intro w w' hw
  -- the batch and the cursor do not depend on the client
  have hbody : ∀ s t : AtlasCmdBatch × Option ℕ × Client, (s.1 = t.1 ∧ s.2.1 = t.2.1 ∧ OnlySched s.2.2 t.2.2) →
      Alike (Sum.LiftRel
        (fun s t : AtlasCmdBatch × Option ℕ × Client => s.1 = t.1 ∧ s.2.1 = t.2.1 ∧ OnlySched s.2.2 t.2.2)
        fun s t : AtlasCmdBatch × Client => s.1 = t.1 ∧ OnlySched s.2 t.2)
          (cmdBody e handle s) (cmdBody e handle t) := by
    rintro ⟨b, cur, w⟩ ⟨_, _, w'⟩ ⟨rfl, rfl, hw⟩
    cases cur with
    | none => exact .ok (.inr ⟨rfl, hw⟩)
    | some off =>
      refine Alike.after (cmdAt e b off) fun cmd => (hh cmd hw).bind fun s t hst => ?_
      cases hst with
      | inl hnext => exact Alike.after (atlasCmdBatchGet e b (some off)) fun r => .ok (.inl ⟨rfl, rfl, hnext⟩)
      | inr hdone => exact .ok (.inr ⟨rfl, hdone⟩)
  have hloop : Alike (fun s t : AtlasCmdBatch × Client => s.1 = t.1 ∧ OnlySched s.2 t.2)
      (cmdLoop e handle b w) (cmdLoop e handle b w') :=
    Alike.after (atlasCmdBatchGet e b none) fun r => loop_alike hbody _ ⟨rfl, rfl, hw⟩
  exact hloop.bind fun s t hst => hk hst.2

theorem blind_policyHandle : BlindHandle (policyHandle cfg) := by
  intro cmd w w' hw
  unfold policyHandle
  split
  · exact (blind_withConn _).inl hw
  split
  · exact (blind_withConn _).inl hw
  split
  · exact (blind_withConn _).inl hw
  · exact .ok (.inl hw)

/-- A buffer is checked, and its commands are handled. -/
theorem blind_handled (buf : Bytes) (bufLen : UInt16) {handle : AtlasCmd → Client → Except Fault (Client ⊕ Client)}
    (hh : BlindHandle handle) (hk : BlindE k) : BlindE fun w =>
      (atlasCmdBatchSetRaw cfg.endian atlasCmdBatchNew buf bufLen).bind fun r =>
        if r.1 ≠ .ok then .ok w else (cmdLoop cfg.endian handle r.2 w).bind fun s => k s.2 := by
  refine BlindE.after _ (f := fun (r : AtlasStatus × AtlasCmdBatch) w =>
    if r.1 ≠ .ok then .ok w else (cmdLoop cfg.endian handle r.2 w).bind fun s => k s.2) fun r => ?_
  exact BlindE.ite (c := fun _ => r.1 ≠ .ok) (fun _ _ => Iff.rfl) blindE_ok (hh.loop cfg.endian r.2 hk)

theorem blind_parsePolicy (buf : Bytes) (bufLen : UInt16) : BlindE (atlasDataPlaneParsePolicy cfg buf bufLen) := by
  refine BlindE.ite (c := fun _ => buf = [] ∨ bufLen = 0) (fun _ _ => Iff.rfl) blindE_ok ?_
  refine blind_handled buf bufLen blind_policyHandle
    (k := fun w => sendPolicyCommand cfg (mapConn (fun c => { c with activePolicy := true }) w)) ?_
  exact fun _ _ hw => blind_sendPolicy (blind_mapConn _ hw)

theorem blind_reputationHandle : BlindHandle (reputationHandle cfg) := by
  intro cmd w w' hw
  unfold reputationHandle
  split
  · exact Alike.after _ fun buf => .ok (.inl (blind_writeDataPlane buf hw))
  · exact .ok (.inl hw)

theorem blind_reputationCallback (status : AtlasCoapResponse) (payload : Bytes) :
    BlindE (featureReputationCallback cfg status payload) := by
  refine BlindE.ite (c := fun _ => status ≠ .ok) (fun _ _ => Iff.rfl) ?_ ?_
  · exact BlindE.after _ fun buf => (blind_writeDataPlane buf).pure
  · refine BlindE.ite (c := fun _ => payload = [] ∨ UInt16.ofNat payload.length = 0) (fun _ _ => Iff.rfl) blindE_ok ?_
    exact blind_handled payload _ blind_reputationHandle blindE_ok

theorem blind_forward (type : UInt16) (path : String) (cb : AppCb) (value : Bytes) (length : UInt16) :
    BlindE (forwardToGateway cfg type path cb value length) := by
  refine BlindE.ite (c := fun _ => length = 0) (fun _ _ => Iff.rfl) blindE_ok ?_
  exact BlindE.after _ fun buf => (blind_request _ _ _ _ _).pure

theorem blind_identity : BlindE (atlasDataPlaneIdentity cfg) :=
  BlindE.after _ fun buf => (blind_writeDataPlane buf).pure

theorem blind_dataPlaneHandle : BlindHandle (dataPlaneHandle cfg) := by
  intro cmd w w' hw
  unfold dataPlaneHandle
  split
  · exact (blind_parsePolicy _ _).inl hw
  split
  · exact (blind_withConn _).inl hw
  split
  · exact (blind_withConn _).inl hw
  split
  · exact (blind_forward _ _ _ _ _).inl hw
  split
  · exact (blind_forward _ _ _ _ _).inl hw
  split
  · exact blind_identity.inl hw
  · exact .ok (.inl hw)

theorem blind_readCb (fd : ℤ) (received : Option Bytes) : BlindE (atlasDataPlaneReadCb cfg fd received) := by
  cases received with
  | none =>
    exact (blind_mapNet (f := fun n => { n with schedEntry := atlasSchedDelEntry fd n.schedEntry })
      fun _ _ => ⟨_, rfl⟩).pure
  | some buf => exact blind_handled buf _ blind_dataPlaneHandle blindE_ok

theorem blind_acceptCb (accepted : Option Fresh) : Blind (atlasDataPlaneAcceptCb accepted) := by
  have hclose : Blind fun w => if w.app.conn.connectedSocket ≠ -1 then
      w.mapNet fun n => { n with schedEntry := atlasSchedDelEntry w.app.conn.connectedSocket n.schedEntry } else w := by
    refine Blind.ite (c := fun w => w.app.conn.connectedSocket ≠ -1) (fun _ _ => Iff.rfl) ?_ fun _ _ hw => hw
    rintro w _ ⟨l, rfl⟩
    exact ⟨_, rfl⟩
  cases accepted with
  | none => exact (blind_mapConn fun c => { c with connectedSocket := -1 }).comp hclose
  | some fresh =>
    have hopen : Blind fun w => (mapConn (fun c => { c with connectedSocket := w.net.newFd fresh }) w).mapNet fun n =>
        { n with schedEntry := atlasSchedAddEntry (w.net.newFd fresh) (some .atlasDataPlaneReadCb) n.schedEntry } := by
      rintro w _ ⟨l, rfl⟩
      exact ⟨_, rfl⟩
    exact hopen.comp hclose

/-! ## The events -/

theorem blind_coapCallback (cfg : Cfg) (cb : AppCb) (uri : String) (status : AtlasCoapResponse) (payload : Bytes) :
    Blind (coapCallback cfg cb uri status payload) := by
  cases cb with
  | regCallback => exact (blind_regCallback status).orStay
  | keepaliveCallback => exact (blind_keepaliveCallback status payload).orStay
  | policyCallback => exact blind_policyCallback status
  | telemetryCallback => exact blind_telemetryCallback uri status
  | featureReputationCallback => exact (blind_reputationCallback status payload).orStay
  | feedbackCallback => exact fun _ _ hw => hw

theorem blind_alarmCallback (cb : AppAlarm) (id : ℤ) : Blind (alarmCallback cfg cb id) := by
  cases cb with
  | keepaliveAlarmCallback => exact blind_sendKeepalive.orStay
  | regAlarmCallback => exact blind_sendRegister.orStay
  | policyAlarmCallback => exact blind_sendPolicy.orStay
  | pushAlertAlarmCb => exact blind_pushFound _ _
  | thresholdAlertAlarmCb => exact blind_pushFound _ _

theorem blind_messageHandler (ctx session : ℕ) (received : CoapPdu) :
    Blind (messageHandler (client cfg) ctx session received) := by
  rintro w _ ⟨l, rfl⟩
  have hreqs : (w.mapNet (Net.withSched l)).net.reqEntry = w.net.reqEntry := rfl
  simp only [messageHandler, hreqs]
  cases w.net.reqEntry.find? (CoapReq.at ctx session) with
  | none => exact ⟨l, rfl⟩
  | some ent =>
    simp only
    split
    · exact ⟨l, rfl⟩
    · exact blind_coapCallback cfg _ _ _ _ ⟨l, rfl⟩

theorem blind_unlinkIfDirty (fd : ℤ) : Blind fun w => w.mapNet (unlinkIfDirty fd) := by
  refine blind_mapNet fun n l => ?_
  have hreqs : (n.withSched l).reqEntry = n.reqEntry := rfl
  simp only [unlinkIfDirty, hreqs]
  cases n.reqEntry.find? fun p => p.coapFd = fd with
  | none => exact ⟨l, rfl⟩
  | some p =>
    simp only
    split
    · exact alarmCancel_withSched { n with
        reqEntry := n.reqEntry.eraseP fun p => p.coapFd = fd
        schedEntry := atlasSchedDelEntry p.coapFd n.schedEntry } (atlasSchedDelEntry p.coapFd l) p.alarmId
    · exact ⟨l, rfl⟩

theorem blind_requestAlarmCb (id : ℤ) : Blind (requestAlarmCb (client cfg) id) := by
  rintro w _ ⟨l, rfl⟩
  have hreqs : (w.mapNet (Net.withSched l)).net.reqEntry = w.net.reqEntry := rfl
  simp only [requestAlarmCb, hreqs]
  cases w.net.reqEntry.find? fun p => p.alarmId = id with
  | none => exact ⟨l, rfl⟩
  | some p =>
    obtain ⟨l', hl'⟩ := blind_coapCallback cfg p.callback p.uri .timeout [] ⟨l, rfl⟩
    exact ⟨atlasSchedDelEntry p.coapFd l', congrArg (World.mapNet (unlinkTimedOut id p.coapFd)) hl'⟩

theorem blind_fire (fd : ℤ) : Blind ((client cfg).fire fd) := by
  have hrun : ∀ cb id, Blind ((client cfg).runAlarm cb id) := by
    intro cb id
    cases cb with
    | requestAlarmCb => exact blind_requestAlarmCb id
    | app cb => exact blind_alarmCallback cb id
  rintro w _ ⟨l, rfl⟩
  have halarms : (w.mapNet (Net.withSched l)).net.alarmEntry = w.net.alarmEntry := rfl
  simp only [Program.fire, atlasAlarmTrigger, halarms]
  cases w.net.alarmEntry.find? fun p => p.alarmId = fd with
  | none => exact ⟨l, rfl⟩
  | some p =>
    simp only
    split
    · exact blind_cancel _ (hrun _ _ ⟨l, rfl⟩)
    · exact hrun _ _ ⟨l, rfl⟩

/-- **No event looks at the list.** -/
theorem step_blind (cfg : Cfg) (e : Event) : Blind fun w => w.step cfg e := by
  cases e with
  | start => exact blind_sendRegister.orStay
  | pdu ctx session received => exact blind_messageHandler ctx session received
  | ioDone fd => exact blind_unlinkIfDirty fd
  | alarm fd => exact blind_fire fd
  | telemetryAdd uriPath payloadCb =>
    cases uriPath with
    | none => exact fun _ _ hw => hw
    | some uriPath =>
      cases payloadCb with
      | none => exact fun _ _ hw => hw
      | some payloadCb => exact blind_mapFeatures fun l => l ++ [⟨uriPath, payloadCb, -1, -1⟩]
  | telemetryDel uriPath =>
    cases uriPath with
    | none => exact fun _ _ hw => hw
    | some uriPath => exact blind_mapFeatures _
  | pushSet uriPath pushRate => exact blind_pushSet cfg uriPath pushRate
  | thresholdSet uriPath scanRate => exact blind_thresholdSet uriPath scanRate
  | dataPlaneRead fd received => exact (blind_readCb fd received).orStay
  | dataPlaneAccept accepted => exact blind_acceptCb accepted

end AtlasClient
