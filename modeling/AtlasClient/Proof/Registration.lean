import AtlasClient.Lib.Run
import AtlasClient.Proof.Ownership

/-!
# Registration, seen from outside

`RegView` is what registration is about: whether the client is registered, its
keep-alive counter and id, the live keep-alive and retry alarms, and whether a
register request is outstanding. Of every event of the client it matters only which
callback of the registration module it runs (`regOp`).

* `client_step`: **every event keeps the ownership of the alarms, and changes the view
  by the step of its operation** (`RegStep`), whatever else it does.
-/

namespace AtlasClient

open FirstMatch Framing Loop Machine

variable {cfg : Cfg} {w w' : Client}

/-! ## The view -/

structure RegView where
  registered : Bool
  kaCount : UInt8
  kaAlarmId : ℤ
  /-- the live alarms of `keepalive_alarm_callback` -/
  keepalives : List ℤ
  /-- the live alarms of `reg_alarm_callback` -/
  retries : List ℤ
  /-- a register request is in the table and its callback has not been invoked -/
  outstanding : Bool
  /-- the number of calls for a register request -/
  attempts : ℕ

def Net.outstanding (n : Net AppAlarm AppCb) : Bool :=
  n.reqEntry.any fun r => r.callback = .regCallback && !r.dirty

def regView (w : Client) : RegView where
  registered := w.app.reg.registered
  kaCount := w.app.reg.kaCount
  kaAlarmId := w.app.reg.kaAlarmId
  keepalives := w.net.idsOf keepaliveCb
  retries := w.net.idsOf retryCb
  outstanding := w.net.outstanding
  attempts := w.calls.countP fun c => c.callback = .regCallback

/-- How a keep-alive request ended. -/
inductive KaResult
  | success
  | failure
  /-- a failure that forces the registration -/
  | forced
  deriving DecidableEq, Repr

def kaResult (status : AtlasCoapResponse) (tokenOk : Bool) : KaResult :=
  if status = .ok then (if tokenOk then .success else .failure)
  else if status = .notFound ∨ status = .notAcceptableHere then .forced
  else .failure

/-- What an event means to the registration module. -/
inductive RegOp
  | quiet
  /-- `send_register_command`, from the start of the client or from a retry alarm -/
  | send (fired : Option ℤ)
  /-- `reg_callback` -/
  | response (ok : Bool)
  /-- `keepalive_callback` -/
  | keepalive (result : KaResult)
  deriving DecidableEq, Repr

/-- The callback of a request is invoked. -/
def completion (cfg : Cfg) (w : Client) (status : AtlasCoapResponse) (payload : Bytes) : AppCb → RegOp
  | .regCallback => .response (status = .ok)
  | .keepaliveCallback => .keepalive (kaResult status (tokenMatches cfg payload w))
  | _ => .quiet

def regOp (cfg : Cfg) (w : Client) : Event → RegOp
  | .start => .send none
  | .pdu ctx session received =>
    match w.net.reqEntry.find? (CoapReq.at ctx session) with
    | none => .quiet
    | some ent =>
      if validateToken cfg.endian received ent.token then
        completion cfg w received.response.1 received.response.2 ent.callback
      else .quiet
  | .alarm fd =>
    match w.net.alarmEntry.find? fun p => p.alarmId = fd with
    | none => .quiet
    | some a =>
      match a.callback with
      | .app .regAlarmCallback => .send (some fd)
      | .requestAlarmCb =>
        match w.net.reqEntry.find? fun p => p.alarmId = fd with
        | none => .quiet
        | some p => completion cfg w .timeout [] p.callback
      | _ => .quiet
  | _ => .quiet

/-! ## The steps of the view -/

/-- A register request is made; `grants` tells whether it is accepted. -/
def RegView.sent (grants : Bool) (v : RegView) : RegView :=
  { v with outstanding := v.outstanding || grants, attempts := v.attempts + 1 }

/-- A keep-alive failure with the counter at `c`. -/
def RegView.fail (grants : Bool) (c : UInt8) (v : RegView) : RegView :=
  if c - 1 = 0 then
    RegView.sent grants { v with
      registered := false
      kaCount := 0
      keepalives := v.keepalives.filter (· ≠ v.kaAlarmId)
      kaAlarmId := -1 }
  else { v with kaCount := c - 1 }

/-- Every alarm can be set. -/
def Os.TimersOk (os : Os) : Prop := ∀ k, (os.timers.get k).isSome

/-- What an operation does to the view. -/
def RegStep (os : Os) (grants : Bool) : RegOp → RegView → RegView → Prop
  | .quiet, v, v' => v' = v
  | .send none, v, v' => v' = v.sent grants
  | .send (some id), v, v' => v' = { v.sent grants with retries := v.retries.filter (· ≠ id) }
  | .response true, v, v' => ∃ ids id o, (o = true → v.outstanding = true) ∧
      v' = { v with
        registered := true
        kaAlarmId := id
        keepalives := v.keepalives ++ ids
        outstanding := o } ∧
      (ids = [id] ∧ 0 ≤ id ∨ ids = [] ∧ id = -1 ∧ ¬ os.TimersOk)
  | .response false, v, v' => ∃ ids o, (o = true → v.outstanding = true) ∧
      v' = { v with retries := v.retries ++ ids, outstanding := o } ∧ (ids = [] → ¬ os.TimersOk)
  | .keepalive .success, v, v' => v' = { v with kaCount := 3 }
  | .keepalive .failure, v, v' => v' = v.fail grants v.kaCount
  | .keepalive .forced, v, v' => v' = v.fail grants 1

/-! ## Growing lists -/

theorem any_append_false {α : Type} {p : α → Bool} {l new : List α} (h : ∀ x ∈ new, p x = false) :
    (l ++ new).any p = l.any p := by
  have hnew : new.any p = false := List.any_eq_false.2 fun x hx => by simp [h x hx]
  rw [List.any_append, hnew, Bool.or_false]

/-- Requests other than register requests leave the view alone. -/
theorem Grows.view {S : AppCb → Prop} (g : Grows S w w') (hS : ∀ cb, S cb → cb ≠ .regCallback)
    (hreg : w'.app.reg.registered = w.app.reg.registered) (hc : w'.app.reg.kaCount = w.app.reg.kaCount)
    (hka : w'.app.reg.kaAlarmId = w.app.reg.kaAlarmId) : regView w' = regView w := by
  obtain ⟨nr, hr, hnr⟩ := g.reqs
  obtain ⟨nc, hcl, hnc⟩ := g.calls
  have ho : w'.net.outstanding = w.net.outstanding := by
    unfold Net.outstanding
    rw [hr, any_append_false]
    intro r hm
    simp [hS _ (hnr r hm)]
  have ha : w'.calls.countP (fun c => c.callback = .regCallback) =
      w.calls.countP fun c => c.callback = .regCallback := by
    have hz : nc.countP (fun c => c.callback = .regCallback) = 0 :=
      List.countP_eq_zero.2 fun c hm => by simpa using hS _ (hnc c hm)
    rw [hcl, List.countP_append, hz, Nat.add_zero]
  unfold regView
  rw [hreg, hc, hka, g.idsOf (by decide), g.idsOf (by decide), ho, ha]

theorem Quiet.view (q : Quiet w w') : regView w' = regView w :=
  q.grows.view (fun _ h => h.1) (by rw [q.reg]) (by rw [q.reg]) (by rw [q.reg])

theorem Quiet.kaOk (q : Quiet w w') (h : KaOk w) : KaOk w' :=
  h.grows q.grows (fun _ h => h.2) (by rw [q.reg]) (by rw [q.reg])

theorem Aside.view (a : Aside w w') : regView w' = regView w := by
  unfold regView Net.outstanding
  rw [a.reqs, a.reg, a.calls, a.keepalives, a.retries]

theorem Aside.kaOk (a : Aside w w') (h : KaOk w) : KaOk w' := by
  rcases h with h | h
  · left; unfold KaOwned; rw [a.reg, a.keepalives]; exact h
  · right
    exact ⟨by rw [a.reg]; exact h.registered, a.keepalives.trans h.alarms, by rw [a.reqs]; exact h.reqs⟩

/-! ## The two requests of the module -/

theorem ownCmds_lt (cfg : Cfg) (ipPort : IpPort) :
    cfg.identity.length < 65536 ∧ ipPort.1.length < 65536 ∧ cfg.identity.length + ipPort.1.length ≤ 85 := by
  have h1 := cfg.identity_length
  have h2 := ipPort.2
  omega

/-- **`send_register_command`** never faults, and asks for one register request. -/
theorem sendRegister_spec (cfg : Cfg) (w : Client) : ∃ w', sendRegisterCommand cfg w = .ok w' ∧
    Grows (· = .regCallback) w w' ∧ w'.app = w.app ∧
    regView w' = (regView w).sent (decide w.net.Grants) := by
  obtain ⟨h1, h2, h3⟩ := ownCmds_lt cfg w.net.os.ipPorts.head
  have hbuf := cmdBatchBytes_ok cfg.endian
    [Cmd.of AtlasCmdType.register _ h1, Cmd.of AtlasCmdType.ipPort _ h2]
    (by simp [Frame.bytes_length, Cmd.size_eq]; omega)
  set buf : Bytes := encode [Cmd.of AtlasCmdType.register _ h1, Cmd.of AtlasCmdType.ipPort _ h2]
  set w₁ := (localIpPort w).2 with hw₁
  refine ⟨w₁.request (cfg.coapGetUri "gateway/register") .post buf 5000 .regCallback, ?_, ?_, rfl, ?_⟩
  · simp only [sendRegisterCommand, bind, localIpPort, stringCmd_eq _ _ h1, stringCmd_eq _ _ h2]
    rw [show [(Cmd.of AtlasCmdType.register _ h1).args, (Cmd.of AtlasCmdType.ipPort _ h2).args] =
      [Cmd.of AtlasCmdType.register _ h1, Cmd.of AtlasCmdType.ipPort _ h2].map Cmd.args from rfl, hbuf]
    rfl
  · have hq : Grows (· = .regCallback) w w₁ :=
      Grows.of_eq rfl rfl rfl rfl ⟨fun k => ⟨k, rfl⟩, fun k => ⟨k, rfl⟩⟩
    exact hq.trans (request_grows _ _ _ _ _ w₁)
  · have hg := request_grows (cfg.coapGetUri "gateway/register") .post buf 5000 .regCallback w₁
    have ho : (w₁.request (cfg.coapGetUri "gateway/register") .post buf 5000 .regCallback).net.outstanding =
        (w.net.outstanding || decide w.net.Grants) := by
      rcases request_cases (cfg.coapGetUri "gateway/register") 5000 AppCb.regCallback w₁.net with
        ⟨-, hno, -, hr, -⟩ | ⟨-, hyes, -, r, hacc⟩
      · have hno' : ¬ w.net.Grants := hno
        simp only [hno', decide_false, Bool.or_false]
        rw [Net.outstanding, request_net, hr]; rfl
      · have hyes' : w.net.Grants := hyes
        simp only [hyes', decide_true, Bool.or_true]
        rw [Net.outstanding, request_net, hacc.reqs, List.any_append]
        simp [hacc.callback, hacc.clean]
    unfold regView RegView.sent
    rw [ho, hg.idsOf (by decide), hg.idsOf (by decide)]
    simp only [World.request, List.countP_append]
    rfl

/-- **`send_keepalive_command`** never faults, and asks for one keep-alive request. -/
theorem sendKeepalive_spec (cfg : Cfg) (w : Client) : ∃ w', sendKeepaliveCommand cfg w = .ok w' ∧
    Grows (· = .keepaliveCallback) w w' ∧ w'.app.reg.registered = w.app.reg.registered ∧
    w'.app.reg.kaCount = w.app.reg.kaCount ∧ w'.app.reg.kaAlarmId = w.app.reg.kaAlarmId ∧
    w'.app.conn = w.app.conn := by
  obtain ⟨h1, h2, h3⟩ := ownCmds_lt cfg w.net.os.ipPorts.head
  have ht : (hostBytes cfg.endian (w.app.reg.kaToken + 1)).length < 65536 := by simp
  have hbuf := cmdBatchBytes_ok cfg.endian
    [Cmd.of AtlasCmdType.identity _ h1, Cmd.of AtlasCmdType.keepalive _ ht,
      Cmd.of AtlasCmdType.ipPort _ h2] (by simp [Frame.bytes_length, Cmd.size_eq]; omega)
  set buf : Bytes := encode [Cmd.of AtlasCmdType.identity _ h1, Cmd.of AtlasCmdType.keepalive _ ht,
    Cmd.of AtlasCmdType.ipPort _ h2]
  set w₁ := mapReg (fun r => { r with kaToken := r.kaToken + 1 }) (localIpPort w).2
  refine ⟨w₁.request (cfg.coapGetUri "gateway/keepalive") .put buf 5000 .keepaliveCallback, ?_, ?_, rfl, rfl, rfl, rfl⟩
  · simp only [sendKeepaliveCommand, bind, localIpPort, stringCmd_eq _ _ h1, stringCmd_eq _ _ h2]
    have hkt : (mapReg (fun r => { r with kaToken := r.kaToken + 1 })
        (w.mapNet fun n => { n with os := { n.os with ipPorts := n.os.ipPorts.tail } })).app.reg.kaToken =
        w.app.reg.kaToken + 1 := rfl
    rw [hkt, hostCmd_eq, show [(Cmd.of AtlasCmdType.identity _ h1).args, (Cmd.of AtlasCmdType.keepalive _ ht).args,
      (Cmd.of AtlasCmdType.ipPort _ h2).args] = [Cmd.of AtlasCmdType.identity _ h1,
        Cmd.of AtlasCmdType.keepalive _ ht, Cmd.of AtlasCmdType.ipPort _ h2].map Cmd.args from rfl, hbuf]
    rfl
  · have hq : Grows (· = .keepaliveCallback) w w₁ :=
      Grows.of_eq rfl rfl rfl rfl ⟨fun k => ⟨k, rfl⟩, fun k => ⟨k, rfl⟩⟩
    exact hq.trans (request_grows _ _ _ _ _ w₁)

/-! ## The callbacks -/

/-- What a callback leaves of the lists: requests stay in front, timeout alarms stay live. -/
structure Keeps (w w' : Client) : Prop where
  reqs : ∃ new, w'.net.reqEntry = w.net.reqEntry ++ new
  live : ∀ id ∈ w.net.idsOf .requestAlarmCb, id ∈ w'.net.idsOf .requestAlarmCb
  os : w.net.os.Follows w'.net.os

theorem Keeps.trans {w₁ : Client} (h : Keeps w w₁) (h' : Keeps w₁ w') : Keeps w w' := by
  obtain ⟨a, ha⟩ := h.reqs
  obtain ⟨b, hb⟩ := h'.reqs
  exact ⟨⟨a ++ b, by rw [hb, ha, List.append_assoc]⟩, fun id hid => h'.live id (h.live id hid), h.os.trans h'.os⟩

theorem Grows.keeps {S : AppCb → Prop} (g : Grows S w w') : Keeps w w' := by
  obtain ⟨new, hr, -⟩ := g.reqs
  exact ⟨⟨new, hr⟩, g.idsOf_subset _, g.os⟩

/-- What holds after a callback: the invariant, and the step of the view. -/
structure Done (w w' : Client) (op : RegOp) : Prop where
  base : BaseInv w'
  ka : KaOk w'
  keeps : Keeps w w'
  step : RegStep w.net.os (decide w.net.Grants) op (regView w) (regView w')

theorem Quiet.done (q : Quiet w w') (h : BaseInv w) (hk : KaOk w) : Done w w' .quiet :=
  ⟨h.grows q.grows, q.kaOk hk, q.grows.keeps, q.view⟩

/-- Cancelling the keep-alive alarm, if there is one, touches no other. -/
theorem cancelKa (h : BaseInv w) (hka : KaOwned w) :
    BaseInv (w.mapNet (atlasAlarmCancel w.app.reg.kaAlarmId)) ∧
      ∀ cb, cb ≠ keepaliveCb → (atlasAlarmCancel w.app.reg.kaAlarmId w.net).idsOf cb = w.net.idsOf cb := by
  have hother : ∀ cb, cb ≠ keepaliveCb → w.app.reg.kaAlarmId ∉ w.net.idsOf cb := by
    intro cb hcb hm
    rcases hka with hka | hka
    · exact h.net.neg_notMem cb (hka ▸ hm)
    · exact hcb (h.net.callback_unique hm hka)
  refine ⟨h.cancel ?_ (hother _ (by decide)) (hother _ (by decide)), ?_⟩
  · intro r hr heq
    exact hother _ (by decide) (heq ▸ h.net.own r hr)
  · intro cb hcb
    exact idsOf_cancel_notMem h.net (hother cb hcb)

/-- **A keep-alive failure** lowers the counter, and at zero starts the registration anew. -/
theorem keepaliveErr_spec (cfg : Cfg) (h : BaseInv w) (hka : KaOwned w) : ∃ w', keepaliveErr cfg w = .ok w' ∧
    BaseInv w' ∧ KaOwned w' ∧ Keeps w w' ∧
    regView w' = (regView w).fail (decide w.net.Grants) w.app.reg.kaCount := by
  unfold keepaliveErr
  simp only [RegView.fail]
  by_cases hc : w.app.reg.kaCount - 1 = 0
  · obtain ⟨hb, hother⟩ := cancelKa h hka
    -- the state in which the register request is made
    set w₁ : Client := { w with
      net := atlasAlarmCancel w.app.reg.kaAlarmId w.net
      app := { w.app with reg := { w.app.reg with registered := false, kaCount := 0, kaAlarmId := -1 } } } with hw₁
    have hb₁ : BaseInv w₁ := hb.congr rfl rfl
    obtain ⟨w', hok, hg, happ, hview⟩ := sendRegister_spec cfg w₁
    have hk₁ : Keeps w w₁ := by
      refine ⟨⟨[], by simp [hw₁]⟩, ?_, ?_⟩
      · intro id hid
        rw [show w₁.net.idsOf .requestAlarmCb = w.net.idsOf .requestAlarmCb from hother _ (by decide)]; exact hid
      · rw [show w₁.net.os = w.net.os from cancel_os _ _]; exact Os.Follows.refl _
    refine ⟨w', ?_, hb₁.grows hg, Or.inl (by rw [happ]), hk₁.trans hg.keeps, ?_⟩
    · rw [← hok]
      simp only [mapReg, World.mapApp, World.mapNet, hc, if_true]
      rfl
    · have hgr : w₁.net.Grants ↔ w.net.Grants := by
        unfold Net.Grants
        rw [show w₁.net.os = w.net.os from cancel_os _ _]
      rw [hview, if_pos (by exact hc)]
      simp only [hgr]
      congr 1
      simp only [regView, hw₁]
      rw [idsOf_cancel h.net, hother retryCb (by decide)]
      simp only [Net.outstanding, cancel_reqEntry]
      rfl
  · refine ⟨mapReg (fun r => { r with kaCount := r.kaCount - 1 }) w, ?_, h.congr rfl rfl, hka,
      ⟨⟨[], by simp [mapReg, World.mapApp]⟩, fun _ h => h, Os.Follows.refl _⟩, ?_⟩
    · simp [mapReg, World.mapApp, hc]
    · rw [if_neg (by exact hc)]; rfl

/-- **`keepalive_callback`** never faults. -/
theorem keepaliveCallback_spec (h : BaseInv w) (hka : KaOwned w) (status : AtlasCoapResponse) (payload : Bytes) :
    Done w (orStay w (keepaliveCallback cfg status payload w))
      (.keepalive (kaResult status (tokenMatches cfg payload w))) := by
  unfold keepaliveCallback kaResult
  by_cases hs : status = .ok
  · subst hs
    simp only [ne_eq, not_true, if_false, if_true]
    by_cases ht : tokenMatches cfg payload w = true
    · simp only [ht, Bool.not_true, Bool.false_eq_true, if_false, if_true]
      exact ⟨h.congr rfl rfl, Or.inl hka, ⟨⟨[], by simp [orStay, mapReg, World.mapApp]⟩, fun _ h => h,
        Os.Follows.refl _⟩, rfl⟩
    · simp only [ht, Bool.not_false, Bool.false_eq_true, if_false, if_true]
      obtain ⟨w', hok, hb, hk, hkeep, hview⟩ := keepaliveErr_spec cfg h hka
      rw [hok]
      exact ⟨hb, Or.inl hk, hkeep, hview⟩
  · rw [if_pos hs, if_neg hs]
    by_cases hf : status = .notFound ∨ status = .notAcceptableHere
    · rw [if_pos hf, if_pos hf]
      -- the counter is set to 1 first, so that the failure takes it to 0
      set w₁ := mapReg (fun r => { r with kaCount := 1 }) w
      obtain ⟨w', hok, hb, hk, hkeep, hview⟩ := keepaliveErr_spec cfg (w := w₁) (h.congr rfl rfl) hka
      rw [hok]
      refine ⟨hb, Or.inl hk, ⟨hkeep.reqs, hkeep.live, hkeep.os⟩, ?_⟩
      show regView w' = _
      rw [hview]; rfl
    · rw [if_neg hf, if_neg hf]
      obtain ⟨w', hok, hb, hk, hkeep, hview⟩ := keepaliveErr_spec cfg h hka
      rw [hok]
      exact ⟨hb, Or.inl hk, hkeep, hview⟩

theorem sendPolicy_ok (cfg : Cfg) (w : Client) : ∃ w', sendPolicyCommand cfg w = .ok w' := by
  unfold sendPolicyCommand
  split
  · exact ⟨w, rfl⟩
  · have hbuf := cmdBatchBytes_ok cfg.endian
      [Cmd.of AtlasCmdType.dataPlanePolicyQos (hostBytes cfg.endian (htons cfg.endian w.app.conn.policyQos))
          (by simp),
        Cmd.of AtlasCmdType.dataPlanePolicyPacketsPerMinute
          (hostBytes cfg.endian (htons cfg.endian w.app.conn.policyPacketsPerMin)) (by simp),
        Cmd.of AtlasCmdType.dataPlanePolicyPacketsMaxlen
          (hostBytes cfg.endian (htons cfg.endian w.app.conn.policyPacketsMaxlen)) (by simp)]
      (by simp [Frame.bytes_length, Cmd.size_eq])
    simp only [policyCmds, hostCmd_eq, bind]
    exact ⟨_, bind_ok.2 ⟨_, hbuf, rfl⟩⟩

theorem Os.Follows.timersOk {a b : Os} (h : a.Follows b) (ht : a.TimersOk) : b.TimersOk := by
  intro k
  obtain ⟨j, hj⟩ := h.timers k
  rw [hj]; exact ht j

theorem Os.not_timersOk {os : Os} (h : os.timers.head = none) : ¬ os.TimersOk := by
  intro ht
  have hsome := ht 0
  rw [show os.timers.get 0 = none from h] at hsome
  cases hsome

/-- **A failed registration** sets a retry alarm. -/
theorem regFailed_spec (h : BaseInv w) (hka : KaOk w) :
    Done w (w.mapNet fun n => (atlasAlarmSet 5000 retryCb true n).2) (.response false) := by
  obtain ⟨ids, hids, hid⟩ := alarmSet_ids w.net 5000 retryCb true
  obtain ⟨hr, hf⟩ := alarmSet_reqs w.net 5000 retryCb true
  have hkeep : ∀ cb, ∀ id ∈ w.net.idsOf cb, id ∈ (atlasAlarmSet 5000 retryCb true w.net).2.idsOf cb := by
    intro cb id hm
    rw [hids]; exact List.mem_append_left _ hm
  refine ⟨h.alarmSet 5000 (by rfl), ?_, ⟨⟨[], by simpa [World.mapNet] using hr⟩, hkeep _, hf⟩, ?_⟩
  · rcases hka with hka | hka
    · exact Or.inl (hka.imp_right (hkeep _ _))
    · refine Or.inr ⟨hka.registered, ?_, ?_⟩
      · show (atlasAlarmSet 5000 retryCb true w.net).2.idsOf keepaliveCb = []
        rw [hids, if_neg (by decide), List.append_nil]; exact hka.alarms
      · show ∀ r ∈ (atlasAlarmSet 5000 retryCb true w.net).2.reqEntry, _
        rw [hr]; exact hka.reqs
  · refine ⟨ids, w.net.outstanding, id, ?_, ?_⟩
    · simp only [regView, World.mapNet, Net.outstanding, hids, hr]
      simp
    · intro hnil
      rcases hid with ⟨-, -, hnone⟩ | ⟨fd, hfd, -⟩
      · exact Os.not_timersOk hnone
      · rw [hnil] at hfd; cases hfd

/-- **A successful registration** sets a keep-alive alarm, after quiet steps: the policy and the
telemetry. -/
theorem regCompleted_spec {w₁ : Client} (h : BaseInv w) (hq : Quiet w w₁) :
    Done w (regCompleted cfg w₁) (.response true) := by
  set w₂ := mapReg (fun r => { r with registered := true }) w₁ with hw₂
  have hq₂ := pushAll_quiet cfg w₂
  set w₃ := atlasTelemetryPushAll cfg w₂
  have hb₃ : BaseInv w₃ := ((h.grows hq.grows).congr rfl rfl : BaseInv w₂).grows hq₂.grows
  have hk₃ : Keeps w w₃ := hq.grows.keeps.trans
    (⟨hq₂.grows.keeps.reqs, hq₂.grows.keeps.live, hq₂.grows.keeps.os⟩ : Keeps w₁ w₃)
  have hview₃ : regView w₃ = { regView w with registered := true } := by
    have hview₂ : regView w₃ = regView w₂ := hq₂.view
    rw [hview₂, ← hq.view]; rfl
  obtain ⟨ids, hids, hid⟩ := alarmSet_ids w₃.net 20000 keepaliveCb false
  obtain ⟨hr, hf⟩ := alarmSet_reqs w₃.net 20000 keepaliveCb false
  set res := atlasAlarmSet 20000 keepaliveCb false w₃.net
  have hend : regCompleted cfg w₁ = mapReg (fun r => { r with kaAlarmId := res.1 }) { w₃ with net := res.2 } := rfl
  -- the view of the state in which the alarm is set, and the alarm
  have hview : regView (regCompleted cfg w₁) =
      { regView w₃ with kaAlarmId := res.1, keepalives := (regView w₃).keepalives ++ ids } := by
    rw [hend]
    simp only [regView, mapReg, World.mapApp, Net.outstanding, hids, hr]
    simp
  rw [hend] at hview ⊢
  refine ⟨(hb₃.alarmSet 20000 (by rfl)).congr rfl rfl, Or.inl ?_, ?_, ?_⟩
  · show res.1 = -1 ∨ res.1 ∈ res.2.idsOf keepaliveCb
    rcases hid with ⟨-, h1, -⟩ | ⟨fd, rfl, h1, -, -⟩
    · exact Or.inl h1
    · rw [hids, if_pos rfl, h1]
      exact Or.inr (List.mem_append_right _ (List.mem_singleton_self fd))
  · obtain ⟨new, hnew⟩ := hk₃.reqs
    refine ⟨⟨new, hr.trans hnew⟩, ?_, hk₃.os.trans hf⟩
    intro id hm
    show id ∈ res.2.idsOf .requestAlarmCb
    rw [hids]
    exact List.mem_append_left _ (hk₃.live id hm)
  · refine ⟨ids, res.1, (regView w).outstanding, id, ?_, ?_⟩
    · rw [hview, hview₃]
    · rcases hid with ⟨h0, h1, hnone⟩ | ⟨fd, h0, h1, h2, -⟩
      · exact Or.inr ⟨h0, h1, fun ht => Os.not_timersOk hnone (hk₃.os.timersOk ht)⟩
      · exact Or.inl ⟨by rw [h0, h1], by omega⟩

/-- **`reg_callback`** never faults. -/
theorem regCallback_spec (h : BaseInv w) (hka : KaOk w) (status : AtlasCoapResponse) :
    Done w (orStay w (regCallback cfg status w)) (.response (status = .ok)) := by
  unfold regCallback
  by_cases hs : status = .ok
  · subst hs
    -- a policy request when it is the first registration
    obtain ⟨w₁, hok, hq⟩ : ∃ w₁, (if !w.app.reg.registered then sendPolicyCommand cfg w else .ok w) = .ok w₁ ∧
        Quiet w w₁ := by
      split
      · obtain ⟨w₁, hok⟩ := sendPolicy_ok cfg w
        exact ⟨w₁, hok, sendPolicy_quiet hok⟩
      · exact ⟨w, rfl, Quiet.refl w⟩
    rw [if_neg (not_not_intro rfl), hok]
    exact regCompleted_spec h hq
  · rw [if_pos hs, decide_eq_false hs]
    exact regFailed_spec h hka

theorem policyCallback_spec (h : BaseInv w) (hka : KaOk w) (status : AtlasCoapResponse) :
    Done w (policyCallback status w) .quiet := by
  unfold policyCallback
  split
  · obtain ⟨ids, hids, -⟩ := alarmSet_ids w.net 5000 (.app .policyAlarmCallback) true
    obtain ⟨hr, hf⟩ := alarmSet_reqs w.net 5000 (.app .policyAlarmCallback) true
    have hsame : ∀ cb, cb ≠ .app .policyAlarmCallback →
        (atlasAlarmSet 5000 (.app .policyAlarmCallback) true w.net).2.idsOf cb = w.net.idsOf cb := by
      intro cb hcb
      rw [hids, if_neg hcb, List.append_nil]
    have ha : Aside w (w.mapNet fun n => (atlasAlarmSet 5000 (.app .policyAlarmCallback) true n).2) :=
      ⟨hr, rfl, rfl, hf, hsame _ (by decide), hsame _ (by decide)⟩
    refine ⟨h.alarmSet 5000 (by rfl), ha.kaOk hka, ⟨⟨[], hr.trans (by simp)⟩, ?_, hf⟩, ha.view⟩
    intro id hid
    show id ∈ (atlasAlarmSet 5000 (.app .policyAlarmCallback) true w.net).2.idsOf .requestAlarmCb
    rw [hsame _ (by decide)]; exact hid
  · exact (Quiet.refl w).done h hka

/-- **The callback of a request in the table.** -/
theorem coapCallback_spec (cfg : Cfg) (h : BaseInv w) (hka : KaOk w) {r : CoapReq AppCb} (hr : r ∈ w.net.reqEntry)
    (uri : String) (status : AtlasCoapResponse) (payload : Bytes) :
    Done w (coapCallback cfg r.callback uri status payload w) (completion cfg w status payload r.callback) := by
  cases hcb : r.callback with
  | regCallback => exact regCallback_spec h hka status
  | keepaliveCallback =>
    -- a keep-alive request in the table: the client has been registered
    refine keepaliveCallback_spec h (hka.resolve_right fun hn => ?_) status payload
    exact hn.reqs r hr hcb
  | policyCallback => exact policyCallback_spec h hka status
  | telemetryCallback => exact (telemetryCallback_quiet uri status w).done h hka
  | featureReputationCallback => exact (orStay_quiet fun _ => reputationCallback_quiet).done h hka
  | feedbackCallback => exact (Quiet.refl w).done h hka

/-! ## Unlinking -/

/-- What holds after an event. -/
structure Stepped (w w' : Client) (op : RegOp) : Prop where
  base : BaseInv w'
  ka : KaOk w'
  os : w.net.os.Follows w'.net.os
  step : RegStep w.net.os (decide w.net.Grants) op (regView w) (regView w')

theorem Done.stepped {op : RegOp} (d : Done w w' op) : Stepped w w' op := ⟨d.base, d.ka, d.keeps.os, d.step⟩

/-- Entries that go after the callback matter only to the response of a register request. -/
theorem RegStep.after {os : Os} {g : Bool} {op : RegOp} {v v' v'' : RegView} {o : Bool}
    (h : RegStep os g op v v') (hv : v'' = { v' with outstanding := o }) (ho : o = true → v'.outstanding = true)
    (hop : (∀ b, op ≠ .response b) → o = v'.outstanding) : RegStep os g op v v'' := by
  cases op with
  | response b =>
    cases b with
    | true =>
      obtain ⟨ids, id, o', ho', rfl, hid⟩ := h
      exact ⟨ids, id, o, fun h1 => ho' (ho h1), hv, hid⟩
    | false =>
      obtain ⟨ids, o', ho', rfl, hid⟩ := h
      exact ⟨ids, o, fun h1 => ho' (ho h1), hv, hid⟩
  | _ =>
    have heq : v'' = v' := by rw [hv, hop (by simp)]
    rw [heq]; exact h

/-- So do entries that are marked before it. -/
theorem RegStep.before {os : Os} {g : Bool} {op : RegOp} {v v₀ v' : RegView} {o : Bool}
    (h : RegStep os g op v₀ v') (hv : v₀ = { v with outstanding := o }) (ho : o = true → v.outstanding = true)
    (hop : (∀ b, op ≠ .response b) → o = v.outstanding) : RegStep os g op v v' := by
  cases op with
  | response b =>
    cases b with
    | true =>
      obtain ⟨ids, id, o', ho', rfl, hid⟩ := h
      rw [hv] at ho' ⊢
      exact ⟨ids, id, o', fun h1 => ho (ho' h1), rfl, hid⟩
    | false =>
      obtain ⟨ids, o', ho', rfl, hid⟩ := h
      rw [hv] at ho' ⊢
      exact ⟨ids, o', fun h1 => ho (ho' h1), rfl, hid⟩
  | _ =>
    have heq : v₀ = v := by rw [hv, hop (by simp)]
    rw [← heq]; exact h

theorem KaOk.congr (h : KaOk w) (hreg : w'.app.reg = w.app.reg)
    (ha : w'.net.idsOf keepaliveCb = w.net.idsOf keepaliveCb)
    (hr : ∀ r ∈ w'.net.reqEntry, ∃ q ∈ w.net.reqEntry, r.callback = q.callback) : KaOk w' := by
  rcases h with h | h
  · left; unfold KaOwned; rw [hreg, ha]; exact h
  · refine Or.inr ⟨by rw [hreg]; exact h.registered, ha.trans h.alarms, ?_⟩
    intro r hm
    obtain ⟨q, hq, heq⟩ := hr r hm
    rw [heq]; exact h.reqs q hq

/-- **An entry and its alarm go.** -/
theorem unlink_spec (h : BaseInv w) (hka : KaOk w) {pre post : List (CoapReq AppCb)} {p : CoapReq AppCb}
    (hl : w.net.reqEntry = pre ++ p :: post) (s : List (SchedEntry SchedCb)) :
    let w' := w.mapNet fun n => atlasAlarmCancel p.alarmId { n with reqEntry := pre ++ post, schedEntry := s }
    BaseInv w' ∧ KaOk w' ∧ w'.net.os = w.net.os ∧ ∃ o, regView w' = { regView w with outstanding := o } ∧
      (o = true → (regView w).outstanding = true) ∧
      (p.callback ≠ .regCallback ∨ p.dirty = true → o = (regView w).outstanding) := by
  obtain ⟨hn, hreq⟩ := h.net.unlink (s := s) hl
  have hp : p ∈ w.net.reqEntry := by rw [hl]; simp
  have hown := h.net.own p hp
  set w₁ : Client := w.mapNet fun n => { n with reqEntry := pre ++ post, schedEntry := s } with hw₁
  have hb₁ : BaseInv w₁ := ⟨hn, h.kinds, h.push.mono fun _ h => h, h.threshold.mono fun _ h => h⟩
  have hnot : ∀ cb, cb ≠ .requestAlarmCb → p.alarmId ∉ w₁.net.idsOf cb := by
    intro cb hcb hm
    exact hcb (hn.callback_unique hm hown)
  have hids : ∀ cb, cb ≠ .requestAlarmCb → (atlasAlarmCancel p.alarmId w₁.net).idsOf cb = w.net.idsOf cb :=
    fun cb hcb => idsOf_cancel_notMem hn (hnot cb hcb)
  refine ⟨hb₁.cancel hreq (hnot _ (by decide)) (hnot _ (by decide)), ?_, cancel_os _ _, ?_⟩
  · refine hka.congr rfl (hids _ (by decide)) ?_
    intro r hr
    refine ⟨r, ?_, rfl⟩
    have hr' : r ∈ pre ++ post := by simpa [World.mapNet] using hr
    rw [hl]
    exact sublist_split.subset hr'
  · refine ⟨(pre ++ post).any fun r => r.callback = .regCallback && !r.dirty, ?_, ?_, ?_⟩
    · have h1 := hids keepaliveCb (by decide)
      have h2 := hids retryCb (by decide)
      simp only [hw₁, World.mapNet] at h1 h2
      simp only [regView, World.mapNet, Net.outstanding, h1, h2, cancel_reqEntry]
    · intro ho
      simp only [regView, Net.outstanding, hl, List.any_append, List.any_cons, Bool.or_eq_true] at ho ⊢
      rcases ho with ho | ho
      · exact Or.inl ho
      · exact Or.inr (Or.inr ho)
    · intro hcase
      have hq : (decide (p.callback = .regCallback) && !p.dirty) = false := by
        rcases hcase with hc | hc <;> simp [hc]
      simp only [regView, Net.outstanding, hl, List.any_append, List.any_cons, hq, Bool.false_or]

/-! ## The events -/

/-- **One pass of `coap_client_sched_callback`** is a run of events. -/
theorem sched_eq_run (cfg : Cfg) (fd : ℤ) (pdus : List CoapPdu) {p : CoapReq AppCb}
    (hf : w.net.reqEntry.find? (fun p => p.coapFd = fd) = some p) :
    coapClientSchedCallback (client cfg) fd pdus w =
      run (Client.step cfg) w (pdus.map (Event.pdu p.ctx p.session) ++ [.ioDone fd]) := by
  have hfold : run (Client.step cfg) w (pdus.map (Event.pdu p.ctx p.session)) =
      pdus.foldl (fun w received => messageHandler (client cfg) p.ctx p.session received w) w := by
    rw [run, List.foldl_map]; rfl
  rw [run_append, hfold]
  simp only [coapClientSchedCallback, hf]
  rfl

theorem ioDone_spec (h : BaseInv w) (hka : KaOk w) (fd : ℤ) : Stepped w (w.step cfg (.ioDone fd)) .quiet := by
  unfold Client.step
  rcases unlinkIfDirty_cases fd w.net with heq | ⟨pre, p, post, s, hl, hd, heq⟩
  · have hw : w.mapNet (unlinkIfDirty fd) = w := by simp [World.mapNet, heq]
    simp only [hw]
    exact ((Quiet.refl w).done h hka).stepped
  · obtain ⟨hb, hk, ho, o, hv, -, hsame⟩ := unlink_spec h hka hl s
    have hw : w.mapNet (unlinkIfDirty fd) =
        w.mapNet fun n => atlasAlarmCancel p.alarmId { n with reqEntry := pre ++ post, schedEntry := s } := by
      simp [World.mapNet, heq]
    simp only [hw]
    refine ⟨hb, hk, by rw [ho]; exact Os.Follows.refl _, ?_⟩
    show regView _ = _
    rw [hv, hsame (Or.inr hd)]

/-- **An entry is marked.** -/
theorem markDirty_spec (h : BaseInv w) (hka : KaOk w) {ctx session : ℕ} {ent : CoapReq AppCb}
    (hf : w.net.reqEntry.find? (CoapReq.at ctx session) = some ent) :
    let w₀ := w.mapNet (markDirty ctx session)
    BaseInv w₀ ∧ KaOk w₀ ∧ { ent with dirty := true } ∈ w₀.net.reqEntry ∧
      (w₀.net.outstanding = true → w.net.outstanding = true) ∧
      (ent.callback ≠ .regCallback → w₀.net.outstanding = w.net.outstanding) := by
  obtain ⟨pre, post, hl, hm⟩ := markDirty_split hf
  set w₀ := w.mapNet (markDirty ctx session)
  have hm₀ : w₀.net.reqEntry = pre ++ { ent with dirty := true } :: post := hm
  refine ⟨⟨h.net.markDirty hf, h.kinds, h.push.mono fun _ h => h, h.threshold.mono fun _ h => h⟩,
    hka.congr rfl rfl ?_, by rw [hm₀]; simp, ?_, ?_⟩
  · intro r hr
    obtain ⟨q, hq, hcb, -⟩ := mem_markDirty hf hr
    exact ⟨q, hq, hcb.symm⟩
  · intro ho
    simp only [Net.outstanding, hm₀, hl, List.any_append, List.any_cons, Bool.not_true, Bool.and_false,
      Bool.false_or, Bool.or_eq_true] at ho ⊢
    exact ho.imp_right Or.inr
  · intro hcb
    simp [Net.outstanding, hm₀, hl, hcb]

theorem pdu_spec (h : BaseInv w) (hka : KaOk w) (ctx session : ℕ) (received : CoapPdu) :
    Stepped w (w.step cfg (.pdu ctx session received)) (regOp cfg w (.pdu ctx session received)) := by
  unfold regOp
  simp only
  cases hf : w.net.reqEntry.find? (CoapReq.at ctx session) with
  | none =>
    rw [pdu_unknown cfg received hf]
    exact ((Quiet.refl w).done h hka).stepped
  | some ent =>
    simp only
    by_cases hv : validateToken cfg.endian received ent.token = true
    · rw [if_pos hv, pdu_eq cfg hf hv]
      obtain ⟨hb₀, hk₀, hmem, hle, hsame⟩ := markDirty_spec h hka hf
      set w₀ := w.mapNet (markDirty ctx session)
      have hd := coapCallback_spec cfg hb₀ hk₀ hmem ent.uri received.response.1 received.response.2
      -- marking the entry of a register request is all that the view sees of it
      refine ⟨hd.base, hd.ka, hd.keeps.os, hd.step.before (o := w₀.net.outstanding) rfl hle ?_⟩
      intro hno
      refine hsame fun hreg => ?_
      exact hno (decide (received.response.1 = .ok)) (by simp [completion, hreg])
    · rw [if_neg hv, pdu_stale hf hv]
      exact ((Quiet.refl w).done h hka).stepped

/-! ### Alarms -/

/-- **An alarm that has run goes**, when it runs once and no request owns it. -/
theorem fired_spec (h : BaseInv w) (hka : KaOk w) {id : ℤ} {cb : AlarmCb AppAlarm} (hid : id ∈ w.net.idsOf cb)
    (honce : runsOnce cb = true) (hreq : ∀ r ∈ w.net.reqEntry, r.alarmId ≠ id) :
    let w' := w.mapNet (atlasAlarmCancel id)
    BaseInv w' ∧ KaOk w' ∧ w'.net.os = w.net.os ∧
      regView w' = { regView w with retries := (regView w).retries.filter (· ≠ id) } := by
  have hnot : ∀ cb', runsOnce cb' = false → id ∉ w.net.idsOf cb' := by
    intro cb' hcb' hm
    rw [h.net.callback_unique hm hid, honce] at hcb'
    cases hcb'
  have hkeep : (atlasAlarmCancel id w.net).idsOf keepaliveCb = w.net.idsOf keepaliveCb :=
    idsOf_cancel_notMem h.net (hnot _ rfl)
  refine ⟨h.cancel hreq (hnot _ rfl) (hnot _ rfl), hka.congr rfl hkeep ?_, cancel_os _ _, ?_⟩
  · intro r hr
    exact ⟨r, by simpa [World.mapNet] using hr, rfl⟩
  · simp only [regView, World.mapNet, hkeep, idsOf_cancel h.net id retryCb, Net.outstanding, cancel_reqEntry]

theorem filter_retries (h : BaseInv w) {id : ℤ} {cb : AlarmCb AppAlarm} (hid : id ∈ w.net.idsOf cb)
    (hcb : cb ≠ retryCb) : (regView w).retries.filter (· ≠ id) = (regView w).retries := by
  rw [List.filter_eq_self]
  intro x hx
  have hne : x ≠ id := fun heq => hcb (h.net.callback_unique hid (heq ▸ hx))
  simpa using hne

/-- An alarm that runs once, after a callback that only issued requests. -/
theorem Grows.fired {S : AppCb → Prop} (g : Grows S w w') (h : BaseInv w) (hka : KaOk w') {id : ℤ} {cb : AppAlarm}
    (hid : id ∈ w.net.idsOf (.app cb)) (honce : runsOnce (.app cb) = true) :
    let w'' := w'.mapNet (atlasAlarmCancel id)
    BaseInv w'' ∧ KaOk w'' ∧ w.net.os.Follows w''.net.os ∧
      regView w'' = { regView w' with retries := (regView w').retries.filter (· ≠ id) } := by
  have hb := h.grows g
  have hid' : id ∈ w'.net.idsOf (.app cb) := g.idsOf_subset _ id hid
  obtain ⟨h1, h2, h3, h4⟩ := fired_spec hb hka hid' honce (hb.net.not_own hid')
  exact ⟨h1, h2, by rw [h3]; exact g.os, h4⟩

/-- **A request times out**: its callback, then the entry and the alarm go. -/
theorem timeout_split (cfg : Cfg) (h : BaseInv w) (hka : KaOk w) {fd : ℤ} {p : CoapReq AppCb}
    (hf : w.net.reqEntry.find? (fun p => p.alarmId = fd) = some p) :
    let w₁ := coapCallback cfg p.callback p.uri .timeout [] w
    p.alarmId = fd ∧ ∃ pre post, w₁.net.reqEntry = pre ++ p :: post ∧
      (requestAlarmCb (client cfg) fd w).mapNet (atlasAlarmCancel fd) = w₁.mapNet fun n => atlasAlarmCancel p.alarmId
        { n with reqEntry := pre ++ post, schedEntry := atlasSchedDelEntry p.coapFd n.schedEntry } := by
  obtain ⟨pre, post, hl, hpre, hp⟩ := find?_split hf
  have hpid : p.alarmId = fd := by simpa using hp
  have hd := coapCallback_spec cfg h hka (r := p) (by rw [hl]; simp) p.uri .timeout []
  -- the entry is still the first of its alarm: the callback only appends
  obtain ⟨new, hnew⟩ := hd.keeps.reqs
  rw [hl, List.append_assoc, List.cons_append] at hnew
  refine ⟨hpid, pre, post ++ new, hnew, ?_⟩
  simp only [requestAlarmCb, hf, client, World.mapNet, unlinkTimedOut, hnew, eraseP_split hpre hp, hpid]

theorem timeout_spec (h : BaseInv w) (hka : KaOk w) {fd : ℤ} (hid : fd ∈ w.net.idsOf .requestAlarmCb) :
    Stepped w ((requestAlarmCb (client cfg) fd w).mapNet (atlasAlarmCancel fd))
      (match w.net.reqEntry.find? fun p => p.alarmId = fd with
        | none => .quiet
        | some p => completion cfg w .timeout [] p.callback) := by
  cases hf : w.net.reqEntry.find? fun p => p.alarmId = fd with
  | none =>
    have hno : ∀ r ∈ w.net.reqEntry, r.alarmId ≠ fd := by simpa using hf
    have hsame : requestAlarmCb (client cfg) fd w = w := by simp [requestAlarmCb, hf]
    obtain ⟨h1, h2, h3, h4⟩ := fired_spec h hka hid rfl hno
    rw [hsame]
    refine ⟨h1, h2, by simp only [h3]; exact Os.Follows.refl _, ?_⟩
    show regView _ = regView w
    rw [h4, filter_retries h hid (by decide)]
  | some p =>
    obtain ⟨-, pre, post, hl₁, heq⟩ := timeout_split cfg h hka hf
    have hd := coapCallback_spec cfg h hka (List.mem_of_find?_eq_some hf) p.uri .timeout []
    set w₁ := coapCallback cfg p.callback p.uri .timeout [] w
    obtain ⟨h1, h2, h3, o, h4, h5, h6⟩ := unlink_spec hd.base hd.ka hl₁ (atlasSchedDelEntry p.coapFd w₁.net.schedEntry)
    have hos : w.net.os.Follows w₁.net.os := hd.keeps.os
    rw [← h3] at hos
    rw [heq]
    refine ⟨h1, h2, hos, hd.step.after h4 h5 ?_⟩
    intro hno
    refine h6 (Or.inl fun hcb => ?_)
    exact hno (decide (AtlasCoapResponse.timeout = .ok)) (by simp [completion, hcb])

theorem alarm_spec (h : BaseInv w) (hka : KaOk w) (fd : ℤ) :
    Stepped w (w.step cfg (.alarm fd)) (regOp cfg w (.alarm fd)) := by
  unfold regOp
  simp only
  cases hf : w.net.alarmEntry.find? fun p => p.alarmId = fd with
  | none =>
    rw [alarm_unknown cfg hf]
    exact ((Quiet.refl w).done h hka).stepped
  | some a =>
    have ha := List.mem_of_find?_eq_some hf
    have hfd : a.alarmId = fd := by simpa using List.find?_some hf
    have hid : fd ∈ w.net.idsOf a.callback := mem_idsOf.2 ⟨a, ha, rfl, hfd⟩
    rw [alarm_eq cfg hf, h.kinds a ha]
    simp only
    cases hcb : a.callback with
    | requestAlarmCb =>
      rw [hcb] at hid
      exact timeout_spec h hka hid
    | app cb =>
      rw [hcb] at hid
      cases cb with
      | keepaliveAlarmCallback =>
        obtain ⟨w', hok, hg, h1, h2, h3, -⟩ := sendKeepalive_spec cfg w
        have hka' : KaOwned w := hka.resolve_right fun hn => by rw [hn.alarms] at hid; cases hid
        simp only [Program.runAlarm, client, alarmCallback, hok, orStay]
        exact ⟨h.grows hg, Or.inl ((hg.kaOwned h3).2 hka'), hg.os,
          hg.view (fun cb (heq : cb = .keepaliveCallback) => by rw [heq]; decide) h1 h2 h3⟩
      | regAlarmCallback =>
        obtain ⟨w', hok, hg, happ, hview⟩ := sendRegister_spec cfg w
        have hk' : KaOk w' := hka.grows hg (fun cb (heq : cb = .regCallback) => by rw [heq]; decide)
          (by rw [happ]) (by rw [happ])
        obtain ⟨h1, h2, h3, h4⟩ := hg.fired h hk' hid rfl
        simp only [Program.runAlarm, client, alarmCallback, hok, orStay, runsOnce, if_true]
        refine ⟨h1, h2, h3, ?_⟩
        show regView _ = _
        rw [h4, hview]; rfl
      | policyAlarmCallback =>
        obtain ⟨w', hok⟩ := sendPolicy_ok cfg w
        have hq := sendPolicy_quiet hok
        obtain ⟨h1, h2, h3, h4⟩ := hq.grows.fired h (hq.kaOk hka) hid rfl
        simp only [Program.runAlarm, client, alarmCallback, hok, orStay, runsOnce, if_true]
        refine ⟨h1, h2, h3, ?_⟩
        show regView _ = regView w
        rw [h4, hq.view, filter_retries h hid (by decide)]
      | pushAlertAlarmCb => exact ((pushAlert_quiet fd w).done h hka).stepped
      | thresholdAlertAlarmCb => exact ((thresholdAlert_quiet fd w).done h hka).stepped

/-! ### Calls of the application -/

theorem Aside.stepped (a : Aside w w') (h : BaseInv w') (hka : KaOk w) : Stepped w w' .quiet :=
  ⟨h, a.kaOk hka, a.os, a.view⟩

theorem mapFeatures_spec (h : BaseInv w) (hka : KaOk w) {f : List Telemetry → List Telemetry}
    (hpush : Owned w.net pushCb ((f w.app.features).map Telemetry.pushId))
    (hthr : Owned w.net thresholdCb ((f w.app.features).map Telemetry.thresholdId)) :
    Stepped w (mapFeatures f w) .quiet :=
  Aside.stepped ⟨rfl, rfl, rfl, Os.Follows.refl _, rfl, rfl⟩ ⟨h.net, h.kinds, hpush, hthr⟩ hka

theorem telemetryAdd_spec (h : BaseInv w) (hka : KaOk w) (uriPath : Option String) (payloadCb : Option ℕ) :
    Stepped w (atlasTelemetryAdd uriPath payloadCb w) .quiet := by
  unfold atlasTelemetryAdd
  split
  · refine mapFeatures_spec h hka ?_ ?_
    · rw [List.map_append]; exact h.push.append_none
    · rw [List.map_append]; exact h.threshold.append_none
  · exact ((Quiet.refl w).done h hka).stepped

theorem telemetryDel_spec (h : BaseInv w) (hka : KaOk w) (uriPath : Option String) :
    Stepped w (atlasTelemetryDel uriPath w) .quiet := by
  unfold atlasTelemetryDel
  split
  · exact ((Quiet.refl w).done h hka).stepped
  · exact mapFeatures_spec h hka (h.push.sublist (List.eraseP_sublist.map _))
      (h.threshold.sublist (List.eraseP_sublist.map _))

theorem pushSet_spec (h : BaseInv w) (hka : KaOk w) (uriPath : Option String) (pushRate : UInt16) :
    Stepped w (atlasTelemetryPushSet cfg uriPath pushRate w) .quiet := by
  unfold atlasTelemetryPushSet
  split
  · exact ((Quiet.refl w).done h hka).stepped
  split
  · exact ((Quiet.refl w).done h hka).stepped
  · rename_i p hf
    split
    · exact ((push_quiet p false w).done h hka).stepped
    · obtain ⟨hb, ha⟩ := resetPush h hf (pushRate.toNat * 1000)
      exact ha.stepped hb hka

theorem thresholdSet_spec (h : BaseInv w) (hka : KaOk w) (uriPath : Option String) (scanRate : UInt16) :
    Stepped w (atlasTelemetryThresholdSet uriPath scanRate w) .quiet := by
  unfold atlasTelemetryThresholdSet
  split
  · exact ((Quiet.refl w).done h hka).stepped
  split
  · exact ((Quiet.refl w).done h hka).stepped
  split
  · exact ((Quiet.refl w).done h hka).stepped
  · rename_i p hf
    obtain ⟨hb, ha⟩ := resetThreshold h hf (scanRate.toNat * 1000)
    exact ha.stepped hb hka

/-- **Every event keeps the invariants and takes the view one step.** -/
theorem client_step (cfg : Cfg) (h : BaseInv w) (hka : KaOk w) (e : Event) :
    Stepped w (w.step cfg e) (regOp cfg w e) := by
  cases e with
  | start =>
    obtain ⟨w', hok, hg, happ, hview⟩ := sendRegister_spec cfg w
    simp only [Client.step, atlasRegisterStart, hok, orStay]
    exact ⟨h.grows hg, hka.grows hg (fun cb (heq : cb = .regCallback) => by rw [heq]; decide) (by rw [happ])
      (by rw [happ]), hg.os, hview⟩
  | pdu ctx session received => exact pdu_spec h hka ctx session received
  | ioDone fd => exact ioDone_spec h hka fd
  | alarm fd => exact alarm_spec h hka fd
  | telemetryAdd uriPath payloadCb => exact telemetryAdd_spec h hka uriPath payloadCb
  | telemetryDel uriPath => exact telemetryDel_spec h hka uriPath
  | pushSet uriPath pushRate => exact pushSet_spec h hka uriPath pushRate
  | thresholdSet uriPath scanRate => exact thresholdSet_spec h hka uriPath scanRate
  | dataPlaneRead fd received => exact ((orStay_quiet fun _ => readCb_quiet).done h hka).stepped
  | dataPlaneAccept accepted => exact ((acceptCb_quiet accepted w).done h hka).stepped

/-- So does a run. -/
theorem run_inv (cfg : Cfg) {es : List Event} (h : BaseInv w) (hka : KaOk w) :
    BaseInv (run (Client.step cfg) w es) ∧ KaOk (run (Client.step cfg) w es) := by
  refine run_keeps (fun w e (hinv : BaseInv w ∧ KaOk w) => ?_) es ⟨h, hka⟩
  have hs := client_step cfg hinv.1 hinv.2 e
  exact ⟨hs.base, hs.ka⟩

end AtlasClient
