import AtlasClient.Proof.Chains
import AtlasClient.Proof.Keepalive
import AtlasClient.Proof.Policy

/-!
# Policy updates

A policy request is made when the data plane brings a policy, when a retry alarm fires, and when
the client registers. `Ledger` is the client with what its policy requests carried, and with the
knowledge whether the stored values have been acknowledged.

* `message_run`: a message of the data plane is a run of its commands.
* `Act.untouched`: the primitives that leave the policy, its requests and its retry alarms alone.
* `Sends.pending_iff`: what a policy request, accepted or refused, leaves pending.
* `updates_iff`: **no update is lost** exactly as long as no request that is needed is refused.
-/

namespace AtlasClient

open FirstMatch Framing Loop Machine

variable {cfg : Cfg} {w w₁ w' : Client} {k : Kind}

abbrev policyRetryCb : AlarmCb AppAlarm := .app .policyAlarmCallback

/-! ## The ledger -/

/-- A message of the data plane. -/
def Event.isMessage : Event → Bool
  | .dataPlaneRead _ (some _) => true
  | _ => false

/-- One command of a message, or an event that is no message. -/
inductive PolicyEvent
  | command (cmd : AtlasCmd)
  | client (e : Event) (h : e.isMessage = false)

def Client.policyStep (cfg : Cfg) (w : Client) : PolicyEvent → Client
  | .command cmd => orStay w ((dataPlaneHandle cfg cmd w).map (Sum.elim id id))
  | .client e _ => w.step cfg e

structure Ledger where
  client : Client
  /-- what the policy request with a given context carried -/
  carried : ℕ → Bytes
  /-- since the values were stored, an `OK` has answered a request that carried them -/
  acked : Bool

def Ledger.init (os : Os) : Ledger := ⟨Client.init os, fun _ => [], false⟩

/-- The policy requests whose callbacks have not been invoked. -/
def Client.unanswered (w : Client) : List (CoapReq AppCb) :=
  w.net.reqEntry.filter fun r => r.callback = .policyCallback && !r.dirty

/-- The policy request that a step has made. -/
def policyCall (w w' : Client) : Option (CoapCall AppCb) :=
  (w'.calls.drop w.calls.length).find? fun c => c.callback = .policyCallback

/-- An `OK` answers a request that carried the stored values. -/
def Ledger.acks (cfg : Cfg) (s : Ledger) : PolicyEvent → Bool
  | .client (.pdu ctx session received) _ =>
    match s.client.net.reqEntry.find? (CoapReq.at ctx session) with
    | none => false
    | some ent => validateToken cfg.endian received ent.token && received.response.1 = .ok &&
        ent.callback = .policyCallback && s.carried ent.ctx = policyPayload s.client.app.conn
  | _ => false

/-- A context that was free belongs to the request of the step. -/
def Ledger.step (cfg : Cfg) (s : Ledger) (e : PolicyEvent) : Ledger :=
  let w := s.client.policyStep cfg e
  { client := w
    carried := fun ctx =>
      match policyCall s.client w with
      | none => s.carried ctx
      | some c => if ctx ∈ s.client.net.reqEntry.map CoapReq.ctx then s.carried ctx else c.reqPayload
    acked := w.app.conn.policy = s.client.app.conn.policy && (s.acked || s.acks cfg e) }

/-- A request that carries the payload is outstanding. -/
def Ledger.Outstanding (s : Ledger) (payload : Bytes) : Prop :=
  ∃ r ∈ s.client.unanswered, s.carried r.ctx = payload

instance (s : Ledger) (payload : Bytes) : Decidable (s.Outstanding payload) := by
  unfold Ledger.Outstanding; infer_instance

/-- **The stored values are on their way**, if they are not acknowledged. -/
def Ledger.Pending (s : Ledger) : Prop :=
  s.client.app.conn.activePolicy = true → s.acked = false →
    s.Outstanding (policyPayload s.client.app.conn) ∨ s.client.net.alarmsOf policyRetryCb ≠ [] ∨
      s.client.app.reg.registered = false

instance (s : Ledger) : Decidable s.Pending := by unfold Ledger.Pending; infer_instance

/-! ## Requests that are refused -/

/-- The connector with the values of a policy command, unless the command is rejected. -/
def storedBy (cfg : Cfg) (cmd : AtlasCmd) (w : Client) : Option Connector :=
  if cmd.value = [] ∨ cmd.length = 0 then none
  else
    match atlasCmdBatchSetRaw cfg.endian atlasCmdBatchNew cmd.value cmd.length with
    | .error _ => none
    | .ok (status, batch) =>
      if status ≠ .ok then none
      else
        match cmdLoop cfg.endian (policyHandle cfg) batch w with
        | .error _ => none
        | .ok (_, w) => some { w.app.conn with activePolicy := true }

/-- A call of `send_policy_command`: the values, and what else there is after the step. -/
structure Sending where
  conn : Connector
  retries : List (AlarmEntry AppAlarm)
  registered : Bool

/-- The call that an event makes. -/
def Ledger.sending (cfg : Cfg) (s : Ledger) : PolicyEvent → Option Sending
  | .command cmd =>
    if cmd.type = AtlasCmdType.dataPlanePolicy then
      (storedBy cfg cmd s.client).map fun conn =>
        ⟨conn, s.client.net.alarmsOf policyRetryCb, s.client.app.reg.registered⟩
    else none
  | .client (.alarm fd) _ =>
    match s.client.net.alarmEntry.find? fun p => p.alarmId = fd with
    | none => none
    | some a =>
      if a.callback = policyRetryCb then
        some ⟨s.client.app.conn, (s.client.net.alarmsOf policyRetryCb).filter fun p => p.alarmId ≠ fd,
          s.client.app.reg.registered⟩
      else none
  | .client (.pdu ctx session received) _ =>
    match s.client.net.reqEntry.find? (CoapReq.at ctx session) with
    | none => none
    | some ent =>
      if validateToken cfg.endian received ent.token = true ∧ received.response.1 = .ok ∧
          ent.callback = .regCallback ∧ s.client.app.reg.registered = false then
        some ⟨s.client.app.conn, s.client.net.alarmsOf policyRetryCb, true⟩
      else none
  | _ => none

/-- The request is not needed. -/
def Ledger.Covers (s : Ledger) (send : Sending) : Prop :=
  send.conn.activePolicy = false ∨ (s.acked = true ∧ send.conn.policy = s.client.app.conn.policy) ∨
    s.Outstanding (policyPayload send.conn) ∨ send.retries ≠ [] ∨ send.registered = false

instance (s : Ledger) (send : Sending) : Decidable (s.Covers send) := by
  unfold Ledger.Covers; infer_instance

/-- **No request that is needed is refused.** -/
def Ledger.Spares (cfg : Cfg) (s : Ledger) (e : PolicyEvent) : Prop :=
  match s.sending cfg e with
  | none => True
  | some send => s.client.net.os.requests.head.Accepts ∨ s.Covers send

instance Ledger.decidableSpares (cfg : Cfg) (s : Ledger) (e : PolicyEvent) : Decidable (s.Spares cfg e) := by
  unfold Ledger.Spares; split <;> infer_instance

/-! ## A message is a run of its commands -/

/-- The commands of a message, each with the memory behind it. -/
def commandEvents : List Cmd → List PolicyEvent
  | [] => []
  | c :: cs => .command ⟨c.type, c.length, c.value ++ encode cs⟩ :: commandEvents cs

theorem foldCmds_run : ∀ {cmds : List Cmd} {w w' : Client}, foldCmds (dataPlaneHandle cfg) cmds w = .ok w' →
    run (Client.policyStep cfg) w (commandEvents cmds) = w' := by
  intro cmds
  induction cmds with
  | nil =>
    intro w w' h
    cases h; rfl
  | cons c cs ih =>
    intro w w' h
    simp only [foldCmds, bind] at h
    obtain ⟨x, hx, h⟩ := bind_ok.1 h
    obtain ⟨w₁, rfl⟩ := dataPlaneHandle_inl hx
    have hstep : w.policyStep cfg (.command ⟨c.type, c.length, c.value ++ encode cs⟩) = w₁ := by
      simp only [Client.policyStep, hx]; rfl
    show run (Client.policyStep cfg) (w.policyStep cfg _) (commandEvents cs) = w'
    rw [hstep]
    exact ih h

theorem ledger_client (cfg : Cfg) (es : List PolicyEvent) (s : Ledger) :
    (run (Ledger.step cfg) s es).client = run (Client.policyStep cfg) s.client es := by
  induction es generalizing s with
  | nil => rfl
  | cons e es ih => exact ih (s.step cfg e)

/-- **A message of the data plane** is a run of its commands. -/
theorem message_run (fd : ℤ) {cmds : List Cmd} (hne : cmds ≠ []) (hfit : (encode cmds).length ≤ 2048) {s : Ledger}
    (h : atlasDataPlaneReadCb cfg fd (some (encode cmds)) s.client = .ok w') :
    (run (Ledger.step cfg) s (commandEvents cmds)).client = w' := by
  rw [readCb_eq cfg fd hne hfit] at h
  rw [ledger_client]
  exact foldCmds_run h

/-! ## What leaves the policy alone -/

structure Untouched (w w' : Client) : Prop where
  policy : w'.app.conn.policy = w.app.conn.policy
  unanswered : w'.unanswered = w.unanswered
  retries : w'.net.alarmsOf policyRetryCb = w.net.alarmsOf policyRetryCb
  calls : ∃ new, w'.calls = w.calls ++ new ∧ ∀ c ∈ new, c.callback ≠ .policyCallback

theorem Untouched.refl (w : Client) : Untouched w w := ⟨rfl, rfl, rfl, [], by simp, by simp⟩

theorem Untouched.trans (h : Untouched w w₁) (h' : Untouched w₁ w') : Untouched w w' :=
  ⟨h'.policy.trans h.policy, h'.unanswered.trans h.unanswered, h'.retries.trans h.retries,
    appended_trans h.calls h'.calls⟩

/-- The kinds that have nothing to do with the policy. -/
def Kind.untouched : Kind → Bool
  | .request cb => cb ≠ .policyCallback
  | .retry cb => cb ≠ .policyAlarmCallback
  | .fired _ cb => cb ≠ policyRetryCb
  | .marked cb => cb ≠ .policyCallback
  | .unlinked _ _ cb dirty => cb ≠ .policyCallback || dirty
  | .policy => false
  | _ => true

theorem unanswered_append {new : List (CoapReq AppCb)} (hr : w'.net.reqEntry = w.net.reqEntry ++ new)
    (hnew : ∀ r ∈ new, r.callback ≠ .policyCallback) : w'.unanswered = w.unanswered := by
  have hnil : (new.filter fun r => r.callback = .policyCallback && !r.dirty) = [] :=
    List.filter_eq_nil_iff.2 fun r hm => by simp [hnew r hm]
  unfold Client.unanswered
  rw [hr, List.filter_append, hnil, List.append_nil]

theorem unanswered_congr (hr : w'.net.reqEntry = w.net.reqEntry) : w'.unanswered = w.unanswered := by
  unfold Client.unanswered
  rw [hr]

theorem Act.unanswered (h : Act k w w') (hb : BaseInv w) (hk : k.untouched = true) : w'.unanswered = w.unanswered := by
  cases h with
  | request uri m pl t cb hpl =>
    obtain ⟨new, hr, hnew⟩ := (request_grows uri m pl t cb w).reqs
    refine unanswered_append hr fun r hm => ?_
    rw [hnew r hm]
    simpa [Kind.untouched] using hk
  | unregistered hr => exact unanswered_congr (cancel_reqEntry _ _)
  | keepalive _ ms => exact unanswered_congr (alarmSet_reqs w.net ms keepaliveCb false).1
  | @retry _ ms cb hcb => exact unanswered_congr (alarmSet_reqs w.net ms (.app cb) true).1
  | fired hid honce hreq => exact unanswered_congr (cancel_reqEntry _ _)
  | @marked _ ctx session ent hf =>
    obtain ⟨pre, post, hl, hm⟩ := markDirty_split hf
    have hcb : ent.callback ≠ .policyCallback := by simpa [Kind.untouched] using hk
    have hm' : (w.mapNet (markDirty ctx session)).net.reqEntry = pre ++ { ent with dirty := true } :: post := hm
    unfold Client.unanswered
    rw [hm', hl]
    simp [List.filter_append, hcb]
  | @unlinked _ pre post p hl =>
    have hcb : p.callback ≠ .policyCallback ∨ p.dirty = true := by simpa [Kind.untouched] using hk
    unfold Client.unanswered
    simp only [World.mapNet, cancel_reqEntry]
    rw [hl, List.filter_append, List.filter_append]
    rcases hcb with hcb | hd
    · simp [hcb]
    · simp [hd]
  | accepted _ acc => exact unanswered_congr (acceptCb_same acc w).2.1
  | resetPush hf ms => exact unanswered_congr (AtlasClient.resetPush hb hf ms).2.reqs
  | resetThreshold hf ms => exact unanswered_congr (AtlasClient.resetThreshold hb hf ms).2.reqs
  | _ => rfl

/-- **A primitive of another kind** leaves the policy alone. -/
theorem Act.untouched (h : Act k w w') (hb : BaseInv w) (hka : KaSafe w) (hk : k.untouched = true) :
    Untouched w w' := by
  obtain ⟨new, hcalls, hnew⟩ := (h.acts (K := (· = k)) rfl).calls
  refine ⟨(h.policyKept fun heq => ?_).policy, h.unanswered hb hk, ?_, new, hcalls, fun c hc heq => ?_⟩
  · rw [heq] at hk; cases hk
  · by_cases hcb : k.alarmCb = some policyRetryCb
    · exfalso
      cases h <;> simp [Kind.alarmCb, Kind.untouched, keepaliveCb] at hcb hk <;> contradiction
    · exact h.alarmsOf hb hka hcb
  · have hreq := hnew c hc
    rw [heq] at hreq
    rw [← hreq] at hk
    simp [Kind.untouched] at hk

theorem Act.registered_le (h : Act k w w') (hk : k ≠ .registered) (hreg : w'.app.reg.registered = true) :
    w.app.reg.registered = true := by
  cases h with
  | counters f hf =>
    rw [← (hf w.app.reg).1]
    exact hreg
  | registered => exact absurd rfl hk
  | unregistered hr => cases hreg
  | accepted _ acc => rwa [(acceptCb_quiet acc w).reg] at hreg
  | _ => exact hreg

/-- **A chain of such primitives.** -/
theorem Acts.untouched {K : Kind → Prop} (h : Acts K w w') (hb : BaseInv w) (hka : KaOk w)
    (hK : ∀ k, K k → k.untouched = true) (hno : ¬ K (.request .keepaliveCallback)) : Untouched w w' := by
  refine h.rel_inv Untouched.refl (fun _ _ _ => Untouched.trans) ?_ hb (hka.imp_right fun hn => ⟨hn.reqs, hno⟩)
  intro k a b hk hb hka ha
  exact ha.untouched hb hka (hK k hk)

/-! ## The ledger after a step -/

variable {s : Ledger} {e : PolicyEvent} {send : Sending}

structure LedgerInv (s : Ledger) : Prop where
  base : BaseInv s.client
  ka : KaOk s.client
  timers : s.client.net.os.TimersOk
  pending : s.Pending

theorem ledgerInv_init {os : Os} (h : os.TimersOk) : LedgerInv (Ledger.init os) :=
  ⟨baseInv_init os, kaOk_init os, h, fun hact => by cases hact⟩

theorem command_quiet (cfg : Cfg) (cmd : AtlasCmd) (w : Client) : Quiet w (w.policyStep cfg (.command cmd)) := by
  refine orStay_quiet fun w' hw => ?_
  cases hx : dataPlaneHandle cfg cmd w with
  | error f => rw [hx] at hw; cases hw
  | ok x =>
    rw [hx] at hw
    cases hw
    exact dataPlaneHandle_quiet cmd w x hx

theorem LedgerInv.step (h : LedgerInv s) (e : PolicyEvent) (hp : (s.step cfg e).Pending) :
    LedgerInv (s.step cfg e) := by
  cases e with
  | command cmd =>
    have hq := command_quiet cfg cmd s.client
    exact ⟨h.base.grows hq.grows, hq.kaOk h.ka, hq.grows.os.timersOk h.timers, hp⟩
  | client e he =>
    have hs := client_step cfg h.base h.ka e
    exact ⟨hs.base, hs.ka, hs.os.timersOk h.timers, hp⟩

/-- A step without a policy request. -/
theorem carried_step (h : ∃ new, (s.step cfg e).client.calls = s.client.calls ++ new ∧
    ∀ c ∈ new, c.callback ≠ .policyCallback) :
    (s.step cfg e).carried = s.carried := by
  obtain ⟨new, hcalls, hnew⟩ := h
  have hcall : policyCall s.client (s.step cfg e).client = none := by
    rw [policyCall, hcalls, List.drop_left, List.find?_eq_none]
    intro c hc
    simpa using hnew c hc
  funext ctx
  show (match policyCall s.client (s.step cfg e).client with
    | none => s.carried ctx
    | some c => _) = s.carried ctx
  rw [hcall]

/-- The values are the same, and are not acknowledged by the step. -/
theorem acked_step (hpol : (s.step cfg e).client.app.conn.policy = s.client.app.conn.policy)
    (hack : (s.step cfg e).acked = false) : s.acked = false ∧ s.acks cfg e = false := by
  have hack : (decide ((s.step cfg e).client.app.conn.policy = s.client.app.conn.policy) &&
    (s.acked || s.acks cfg e)) = false := hack
  simpa only [hpol, decide_true, Bool.true_and, Bool.or_eq_false_iff] using hack

/-- **A step that leaves the policy alone** leaves it pending. -/
theorem Untouched.pending (h : s.Pending) (hu : Untouched s.client (s.step cfg e).client)
    (hreg : (s.step cfg e).client.app.reg.registered = true → s.client.app.reg.registered = true) :
    (s.step cfg e).Pending := by
  have hpol : policyPayload (s.step cfg e).client.app.conn = policyPayload s.client.app.conn :=
    congrArg Prod.snd hu.policy
  have hactive : (s.step cfg e).client.app.conn.activePolicy = s.client.app.conn.activePolicy :=
    congrArg Prod.fst hu.policy
  intro hact hack
  unfold Ledger.Outstanding
  rw [carried_step hu.calls, hu.unanswered, hu.retries, hpol]
  rcases h (hactive ▸ hact) (acked_step hu.policy hack).1 with h | h | h
  · exact Or.inl h
  · exact Or.inr (Or.inl h)
  · refine Or.inr (Or.inr ?_)
    by_contra hr
    rw [Bool.not_eq_false] at hr
    rw [hreg hr] at h
    cases h

/-- A step with a call of `send_policy_command`. -/
structure Sends (w w' : Client) (send : Sending) : Prop where
  policy : w'.app.conn.policy = send.conn.policy
  retries : w'.net.alarmsOf policyRetryCb = send.retries
  registered : w'.app.reg.registered = send.registered
  call : send.conn.activePolicy = true →
    ∃ c new, w'.calls = w.calls ++ c :: new ∧ c.callback = .policyCallback ∧ c.reqPayload = policyPayload send.conn
  unanswered : if send.conn.activePolicy = true ∧ w.net.os.requests.head.Accepts then
      ∃ r, w'.unanswered = w.unanswered ++ [r] ∧ r.ctx ∉ w.net.reqEntry.map CoapReq.ctx
    else w'.unanswered = w.unanswered

/-- **What a policy request leaves pending.** -/
theorem Sends.pending_iff (h : Sends s.client (s.step cfg e).client send) (hacks : s.acks cfg e = false) :
    (s.step cfg e).Pending ↔ s.client.net.os.requests.head.Accepts ∨ s.Covers send := by
  have hactive : (s.step cfg e).client.app.conn.activePolicy = send.conn.activePolicy := congrArg Prod.fst h.policy
  have hpol : policyPayload (s.step cfg e).client.app.conn = policyPayload send.conn := congrArg Prod.snd h.policy
  have hacked : (s.step cfg e).acked = (decide (send.conn.policy = s.client.app.conn.policy) && s.acked) := by
    show (decide ((s.step cfg e).client.app.conn.policy = s.client.app.conn.policy) && (s.acked || s.acks cfg e)) = _
    rw [h.policy, hacks, Bool.or_false]
  unfold Ledger.Pending Ledger.Covers
  rw [hactive, hpol, hacked, h.retries, h.registered]
  cases hact : send.conn.activePolicy with
  | false => simp
  | true =>
    -- the request of the step carries the values, the others carry what they did
    obtain ⟨c, new, hcalls, hcb, hpl⟩ := h.call hact
    have hcall : policyCall s.client (s.step cfg e).client = some c := by
      rw [policyCall, hcalls, List.drop_left, List.find?_cons_of_pos (by simpa using hcb)]
    have hcarried : ∀ ctx, (s.step cfg e).carried ctx =
        if ctx ∈ s.client.net.reqEntry.map CoapReq.ctx then s.carried ctx else policyPayload send.conn := by
      intro ctx
      show (match policyCall s.client (s.step cfg e).client with
        | none => s.carried ctx
        | some c => if ctx ∈ s.client.net.reqEntry.map CoapReq.ctx then s.carried ctx else c.reqPayload) = _
      rw [hcall, ← hpl]
    have hsame : ∀ r ∈ s.client.unanswered, (s.step cfg e).carried r.ctx = s.carried r.ctx := by
      intro r hr
      rw [hcarried, if_pos (List.mem_map_of_mem (List.mem_of_mem_filter hr))]
    have hout : (s.step cfg e).Outstanding (policyPayload send.conn) ↔
        s.client.net.os.requests.head.Accepts ∨ s.Outstanding (policyPayload send.conn) := by
      have hun := h.unanswered
      unfold Ledger.Outstanding
      by_cases hacc : s.client.net.os.requests.head.Accepts
      · rw [if_pos ⟨hact, hacc⟩] at hun
        obtain ⟨r, hun, hnew⟩ := hun
        refine iff_of_true ⟨r, by rw [hun]; simp, ?_⟩ (Or.inl hacc)
        rw [hcarried, if_neg hnew]
      · rw [if_neg fun hc => hacc hc.2] at hun
        rw [hun]
        constructor
        · rintro ⟨r, hr, heq⟩
          exact Or.inr ⟨r, hr, (hsame r hr).symm.trans heq⟩
        · rintro (hacc' | ⟨r, hr, heq⟩)
          · exact absurd hacc' hacc
          · exact ⟨r, hr, (hsame r hr).trans heq⟩
    rw [hout]
    by_cases hold : s.acked = true ∧ send.conn.policy = s.client.app.conn.policy
    · simp [hold.1, hold.2]
    · have hfalse : (decide (send.conn.policy = s.client.app.conn.policy) && s.acked) = false := by
        rw [Bool.and_eq_false_iff]
        by_cases hpeq : send.conn.policy = s.client.app.conn.policy
        · exact Or.inr (Bool.eq_false_iff.2 fun ha => hold ⟨ha, hpeq⟩)
        · exact Or.inl (by simpa using hpeq)
      simp only [hfalse, hold, forall_const, false_or, or_assoc]
      simp

/-! ## The three senders -/

/-- **`send_policy_command`**, after the part of a step that makes no policy request. -/
theorem sendPolicy_sends {u v : Client} (hok : sendPolicyCommand cfg u = .ok v) (ht : u.net.os.TimersOk)
    (hun : u.unanswered = w.unanswered) (hctx : u.net.reqEntry.map CoapReq.ctx = w.net.reqEntry.map CoapReq.ctx)
    (hcalls : u.calls = w.calls) (hos : u.net.os = w.net.os) :
    Sends w v ⟨u.app.conn, u.net.alarmsOf policyRetryCb, u.app.reg.registered⟩ := by
  rw [sendPolicy_eq] at hok
  by_cases ha : u.app.conn.activePolicy = true
  swap
  · rw [if_neg ha] at hok
    cases hok
    refine ⟨rfl, rfl, rfl, fun hact => absurd hact ha, ?_⟩
    rw [if_neg fun hc => ha hc.1]
    exact hun
  rw [if_pos ha] at hok
  cases hok
  set uri := cfg.coapGetUri "gateway/policy"
  have hg := request_grows uri .put (policyPayload u.app.conn) 5000 .policyCallback u
  obtain ⟨new, hal, hnew⟩ := hg.alarms
  refine ⟨rfl, alarmsOf_append hal fun a hm heq => ?_, rfl, fun _ => ?_, ?_⟩
  · rw [(hnew a hm).1] at heq; cases heq
  · exact ⟨_, [], by rw [← hcalls]; rfl, rfl, rfl⟩
  · rcases request_cases uri 5000 AppCb.policyCallback u.net with ⟨-, hno, -, hr, -⟩ | ⟨-, hgr, -, r, hacc⟩
    · -- with every alarm set, a request is refused for its own reasons
      have hrefused : ¬ w.net.os.requests.head.Accepts := fun hacc => hno ⟨hos ▸ hacc, ht 0⟩
      rw [if_neg fun hc => hrefused hc.2, ← hun]
      exact unanswered_congr hr
    · rw [if_pos ⟨ha, hos ▸ hgr.1⟩]
      refine ⟨r, ?_, hctx ▸ hacc.ctx_new⟩
      rw [← hun]
      unfold Client.unanswered
      rw [request_net, hacc.reqs, List.filter_append]
      simp [hacc.callback, hacc.clean]

/-- The rest of a step. -/
theorem Sends.after {send' : Sending} (h : Sends w w₁ send) (hp : w'.app.conn.policy = w₁.app.conn.policy)
    (hu : w'.unanswered = w₁.unanswered) (hc : ∃ new, w'.calls = w₁.calls ++ new) (hconn : send'.conn = send.conn)
    (hr : w'.net.alarmsOf policyRetryCb = send'.retries) (hreg : w'.app.reg.registered = send'.registered) :
    Sends w w' send' := by
  refine ⟨by rw [hp, hconn, h.policy], hr, hreg, fun hact => ?_, ?_⟩
  · rw [hconn] at hact ⊢
    obtain ⟨c, new, hcalls, hcb, hpl⟩ := h.call hact
    obtain ⟨new', hnew'⟩ := hc
    exact ⟨c, new ++ new', by rw [hnew', hcalls]; simp, hcb, hpl⟩
  · rw [hu, hconn]
    exact h.unanswered

/-- **A retry alarm** sends the stored values, and goes. -/
theorem retry_sends (h : LedgerInv s) {fd : ℤ} {a : AlarmEntry AppAlarm}
    (hf : s.client.net.alarmEntry.find? (fun p => p.alarmId = fd) = some a) (hcb : a.callback = policyRetryCb) :
    Sends s.client (s.client.step cfg (.alarm fd)) ⟨s.client.app.conn,
      (s.client.net.alarmsOf policyRetryCb).filter fun p => p.alarmId ≠ fd, s.client.app.reg.registered⟩ := by
  obtain ⟨v, hok⟩ := sendPolicy_ok cfg s.client
  have hq := sendPolicy_quiet hok
  have hsend := sendPolicy_sends (w := s.client) hok h.timers rfl rfl rfl rfl
  rw [alarm_eq cfg hf, h.base.kinds a (List.mem_of_find?_eq_some hf), hcb]
  simp only [runsOnce, if_true, Program.runAlarm, client, alarmCallback, hok, orStay]
  refine hsend.after rfl (unanswered_congr (cancel_reqEntry _ _)) ⟨[], by simp [World.mapNet]⟩ rfl ?_ hsend.registered
  have hsame : v.net.alarmsOf policyRetryCb = s.client.net.alarmsOf policyRetryCb := hsend.retries
  show (atlasAlarmCancel fd v.net).alarmsOf policyRetryCb =
    (s.client.net.alarmsOf policyRetryCb).filter fun p => p.alarmId ≠ fd
  rw [← hsame]
  unfold Net.alarmsOf
  rw [cancel_alarms (h.base.grows hq.grows).net, List.filter_filter, List.filter_filter]
  exact List.filter_congr fun a _ => Bool.and_comm _ _

/-- **A registration** sends the stored values. -/
theorem registration_sends (h : LedgerInv s) {ctx session : ℕ} {received : CoapPdu} {ent : CoapReq AppCb}
    (hf : s.client.net.reqEntry.find? (CoapReq.at ctx session) = some ent)
    (hv : validateToken cfg.endian received ent.token = true) (hok : received.response.1 = .ok)
    (hcb : ent.callback = .regCallback) (hreg : s.client.app.reg.registered = false) :
    Sends s.client (s.client.step cfg (.pdu ctx session received))
      ⟨s.client.app.conn, s.client.net.alarmsOf policyRetryCb, true⟩ := by
  obtain ⟨hb₀, hk₀, -⟩ := markDirty_spec h.base h.ka hf
  obtain ⟨pre, post, hl, hm⟩ := markDirty_split hf
  have hun := (Act.marked hf).unanswered h.base (by simp [Kind.untouched, hcb])
  set u := s.client.mapNet (markDirty ctx session) with hu
  obtain ⟨v, hv'⟩ := sendPolicy_ok cfg u
  have hq := sendPolicy_quiet hv'
  have hctx : u.net.reqEntry.map CoapReq.ctx = s.client.net.reqEntry.map CoapReq.ctx := by
    simp [hu, World.mapNet, hm, hl]
  have hsend := sendPolicy_sends (w := s.client) hv' h.timers hun hctx rfl rfl
  have hstep : s.client.step cfg (.pdu ctx session received) = regCompleted cfg v := by
    have hreg' : u.app.reg.registered = false := hreg
    rw [pdu_eq cfg hf hv, hcb, ← hu]
    simp only [coapCallback, regCallback, hok, ne_eq, not_true, if_false, hreg', Bool.not_false, if_true, hv',
      Except.map, orStay]
  -- what follows the request has nothing to do with the policy
  have hrest : Untouched v (regCompleted cfg v) :=
    (regCompleted_acts cfg v).untouched (hb₀.grows hq.grows) (hq.kaOk hk₀) (by decide) (by decide)
  obtain ⟨new, hnew, -⟩ := hrest.calls
  rw [hstep]
  refine hsend.after hrest.policy hrest.unanswered ⟨new, hnew⟩ rfl (hrest.retries.trans hsend.retries) ?_
  exact congrArg Register.registered (pushAll_quiet cfg _).reg

/-- The setters change the connector only. -/
theorem policyLoop_conn {e : Endian} {b b' : AtlasCmdBatch} (h : cmdLoop e (policyHandle cfg) b w = .ok (b', w')) :
    w' = mapConn (fun _ => w'.app.conn) w := by
  have hinv : ∃ conn, w' = mapConn (fun _ => conn) w := by
    refine cmdLoop_inv (I := fun a : Client => ∃ conn, a = mapConn (fun _ => conn) w) ?_ ⟨w.app.conn, rfl⟩ h
    rintro cmd a x ⟨conn, rfl⟩ hx
    have hset : ∀ {f : Connector → Except Fault Connector} {y : Client ⊕ Client},
        Sum.inl <$> withConn f (mapConn (fun _ => conn) w) = .ok y →
          ∃ conn, y.elim id id = mapConn (fun _ => conn) w := by
      intro f y hy
      cases hf : f (mapConn (fun _ => conn) w).app.conn with
      | error fault => simp only [withConn, hf] at hy; cases hy
      | ok conn' =>
        rw [withConn_ok hf] at hy
        cases hy
        exact ⟨conn', rfl⟩
    unfold policyHandle at hx
    split at hx
    · exact hset hx
    split at hx
    · exact hset hx
    split at hx
    · exact hset hx
    · cases hx; exact ⟨conn, rfl⟩
  obtain ⟨conn, rfl⟩ := hinv
  rfl

/-- **A policy command** stores the values and sends them, or does nothing. -/
theorem command_stored (cfg : Cfg) {cmd : AtlasCmd} (ht : cmd.type = AtlasCmdType.dataPlanePolicy) (w : Client) :
    match storedBy cfg cmd w with
    | none => w.policyStep cfg (.command cmd) = w
    | some conn => sendPolicyCommand cfg (mapConn (fun _ => conn) w) = .ok (w.policyStep cfg (.command cmd)) := by
  have hstep : w.policyStep cfg (.command cmd) = orStay w (atlasDataPlaneParsePolicy cfg cmd.value cmd.length w) := by
    simp only [Client.policyStep, dataPlaneHandle, if_pos ht]
    cases atlasDataPlaneParsePolicy cfg cmd.value cmd.length w <;> rfl
  rw [hstep]
  unfold storedBy atlasDataPlaneParsePolicy
  by_cases hbuf : cmd.value = [] ∨ cmd.length = 0
  · simp only [if_pos hbuf]
    rfl
  simp only [if_neg hbuf]
  cases hraw : atlasCmdBatchSetRaw cfg.endian atlasCmdBatchNew cmd.value cmd.length with
  | error f => rfl
  | ok res =>
    obtain ⟨status, batch⟩ := res
    by_cases hst : status ≠ .ok
    · simp only [bind, Except.bind, if_pos hst]
      rfl
    simp only [if_neg hst]
    cases hl : cmdLoop cfg.endian (policyHandle cfg) batch w with
    | error f => simp only [bind, Except.bind, if_neg hst, hl]; rfl
    | ok res =>
      obtain ⟨b', w₁⟩ := res
      have hw₁ := policyLoop_conn hl
      simp only [bind, Except.bind, if_neg hst, hl]
      have hsame : mapConn (fun _ => { w₁.app.conn with activePolicy := true }) w =
          mapConn (fun c => { c with activePolicy := true }) w₁ := by
        rw [hw₁]; rfl
      rw [hsame]
      obtain ⟨v, hv⟩ := sendPolicy_ok cfg (mapConn (fun c => { c with activePolicy := true }) w₁)
      rw [hv]
      rfl

/-! ## The events -/

theorem Origin.untouched {e : Event} (ho : Origin w e k) (he : e.isMessage = false) (hreg : ¬ w.Reaches .regCallback e)
    (hpol : ¬ w.Reaches .policyCallback e)
    (hretry : ∀ fd a, e = .alarm fd → w.net.alarmEntry.find? (fun p => p.alarmId = fd) = some a →
      a.callback ≠ policyRetryCb) : k.untouched = true ∧ k ≠ .registered := by
  cases ho with
  | start hk => exact (by decide : ∀ k ∈ [.answers, .request .regCallback], k.untouched = true ∧ k ≠ .registered) k hk
  | @marked ctx session ent hf received =>
    have hcb : ent.callback ≠ .policyCallback := fun hcb => hpol ⟨ent, hf, hcb⟩
    exact ⟨by simp [Kind.untouched, hcb], by simp⟩
  | @callback _ cb _ hreach hk =>
    cases cb with
    | regCallback => exact absurd hreach hreg
    | policyCallback => exact absurd hreach hpol
    | _ =>
      simp only [AppCb.kinds, telemetryKinds, List.mem_cons, List.not_mem_nil, or_false] at hk
      all_goals rcases hk with rfl | rfl | rfl | rfl <;> exact ⟨rfl, by simp⟩
  | unlinked hf => exact ⟨by simp [Kind.untouched], by simp⟩
  | unowned hf hcb => exact ⟨rfl, by simp⟩
  | @timedOut fd a p hf hcb hp =>
    have hne : p.callback ≠ .policyCallback := fun hcb => hpol ⟨p, hp, hcb⟩
    exact ⟨by simp [Kind.untouched, hne], by simp⟩
  | @alarm fd a cb _ hf hcb hk =>
    cases cb with
    | policyAlarmCallback => exact absurd hcb (hretry fd a rfl hf)
    | _ =>
      simp only [AppAlarm.kinds, telemetryKinds, List.mem_cons, List.not_mem_nil, or_false] at hk
      all_goals rcases hk with rfl | rfl | rfl <;> exact ⟨rfl, by simp⟩
  | pushed _ _ hk => exact (by decide : ∀ k ∈ telemetryKinds, k.untouched = true ∧ k ≠ .registered) k hk
  | message => cases he
  | _ => exact ⟨rfl, by simp⟩

/-- **An event that does not reach the policy** leaves it pending. -/
theorem other_pending (h : LedgerInv s) {e : Event} (he : e.isMessage = false)
    (hreg : ¬ s.client.Reaches .regCallback e) (hpol : ¬ s.client.Reaches .policyCallback e)
    (hretry : ∀ fd a, e = .alarm fd → s.client.net.alarmEntry.find? (fun p => p.alarmId = fd) = some a →
      a.callback ≠ policyRetryCb) : (s.step cfg (.client e he)).Pending := by
  have hrel := client_rel cfg (e := e) (R := fun a b => Untouched a b ∧
      (b.app.reg.registered = true → a.app.reg.registered = true))
    (fun a => ⟨Untouched.refl a, fun h => h⟩)
    (fun _ _ _ hab hbc => ⟨hab.1.trans hbc.1, fun h => hab.2 (hbc.2 h)⟩) ?_ h.base h.ka
  · exact hrel.1.pending h.pending hrel.2
  · intro k a b hk hb hka hact
    obtain ⟨h1, h2⟩ := (may_origin hk).untouched he hreg hpol hretry
    exact ⟨hact.untouched hb hka h1, hact.registered_le h2⟩

/-- A retry alarm is set. -/
theorem alarmSet_retries {n : Net AppAlarm AppCb} (ht : n.os.TimersOk) (ms : ℕ) (cb : AlarmCb AppAlarm) (once : Bool) :
    (atlasAlarmSet ms cb once n).2.alarmsOf cb ≠ [] := by
  rcases alarmSet_cases ms cb once n with ⟨hnone, -⟩ | ⟨fd, l, -, -, -, heq⟩
  · exact absurd ht (Os.not_timersOk hnone)
  · rw [heq]
    simp [Net.alarmsOf]

/-- **An `OK` to a policy request** acknowledges the values that it carried. -/
theorem answered_pending (h : LedgerInv s) {ctx session : ℕ} {received : CoapPdu} {ent : CoapReq AppCb}
    (hf : s.client.net.reqEntry.find? (CoapReq.at ctx session) = some ent)
    (hv : validateToken cfg.endian received ent.token = true) (hok : received.response.1 = .ok)
    (hcb : ent.callback = .policyCallback) : (s.step cfg (.client (.pdu ctx session received) rfl)).Pending := by
  obtain ⟨pre, post, hl, hm⟩ := markDirty_split hf
  have hstep : (s.step cfg (.client (.pdu ctx session received) rfl)).client =
      s.client.mapNet (markDirty ctx session) := by
    show s.client.step cfg (.pdu ctx session received) = _
    rw [pdu_eq cfg hf hv, hcb]
    simp only [coapCallback, policyCallback, hok, ne_eq, not_true, if_false]
  have hcarried : (s.step cfg (.client (.pdu ctx session received) rfl)).carried = s.carried :=
    carried_step ⟨[], by rw [hstep]; simp [World.mapNet], by simp⟩
  intro hact hack
  obtain ⟨hold, hacks⟩ := acked_step (by rw [hstep]; rfl) hack
  rw [hstep] at hact ⊢
  -- the request that is answered carried other values, if these are not acknowledged
  have hother : s.carried ent.ctx ≠ policyPayload s.client.app.conn := by
    simpa [Ledger.acks, hf, hv, hok, hcb] using hacks
  unfold Ledger.Outstanding
  rw [hcarried, hstep]
  refine (h.pending hact hold).imp_left ?_
  rintro ⟨r, hr, heq⟩
  obtain ⟨hr, hclean⟩ := List.mem_filter.1 hr
  refine ⟨r, List.mem_filter.2 ⟨?_, hclean⟩, heq⟩
  show r ∈ (markDirty ctx session s.client.net).reqEntry
  rw [hl] at hr
  rw [hm]
  rcases List.mem_append.1 hr with hr | hr
  · exact List.mem_append_left _ hr
  rcases List.mem_cons.1 hr with rfl | hr
  · exact absurd heq hother
  · exact List.mem_append_right _ (List.mem_cons_of_mem _ hr)

/-- A retry alarm that is set in the step. -/
theorem pending_of_retry (h : (s.step cfg e).client.net.alarmsOf policyRetryCb ≠ []) : (s.step cfg e).Pending :=
  fun _ _ => Or.inr (Or.inl h)

/-- **A policy request fails.** -/
theorem failed_pending (h : LedgerInv s) {ctx session : ℕ} {received : CoapPdu} {ent : CoapReq AppCb}
    (hf : s.client.net.reqEntry.find? (CoapReq.at ctx session) = some ent)
    (hv : validateToken cfg.endian received ent.token = true) (hno : received.response.1 ≠ .ok)
    (hcb : ent.callback = .policyCallback) : (s.step cfg (.client (.pdu ctx session received) rfl)).Pending := by
  refine pending_of_retry ?_
  show (s.client.step cfg (.pdu ctx session received)).net.alarmsOf policyRetryCb ≠ []
  rw [pdu_eq cfg hf hv, hcb]
  simp only [coapCallback, policyCallback, if_pos hno]
  exact alarmSet_retries (n := markDirty ctx session s.client.net) h.timers 5000 policyRetryCb true

/-- **A registration that sends nothing.** -/
theorem regCallback_pending (h : LedgerInv s) {ctx session : ℕ} {received : CoapPdu} {ent : CoapReq AppCb}
    (hf : s.client.net.reqEntry.find? (CoapReq.at ctx session) = some ent)
    (hv : validateToken cfg.endian received ent.token = true) (hcb : ent.callback = .regCallback)
    (hno : ¬ (received.response.1 = .ok ∧ s.client.app.reg.registered = false)) :
    (s.step cfg (.client (.pdu ctx session received) rfl)).Pending := by
  obtain ⟨hb₀, hk₀, -⟩ := markDirty_spec h.base h.ka hf
  have hmarked := (Act.marked hf).untouched h.base h.ka.safe (by simp [Kind.untouched, hcb])
  have hstep : (s.step cfg (.client (.pdu ctx session received) rfl)).client =
      coapCallback cfg .regCallback ent.uri received.response.1 received.response.2
        (s.client.mapNet (markDirty ctx session)) := by
    rw [← hcb]
    exact pdu_eq cfg hf hv
  set w₀ := s.client.mapNet (markDirty ctx session) with hw₀
  have hreg₀ : w₀.app.reg = s.client.app.reg := rfl
  by_cases hok : received.response.1 = .ok
  · -- the client is registered, and registers again
    have hreg : s.client.app.reg.registered = true := by
      rw [← Bool.not_eq_false]
      exact fun hr => hno ⟨hok, hr⟩
    simp only [coapCallback, regCallback, hok, ne_eq, not_true, if_false, hreg₀, hreg, Bool.not_true,
      Bool.false_eq_true, Except.map, orStay] at hstep
    refine Untouched.pending h.pending ?_ fun _ => hreg
    rw [hstep]
    exact hmarked.trans ((regCompleted_acts cfg w₀).untouched hb₀ hk₀ (by decide) (by decide))
  · simp only [coapCallback, regCallback, ne_eq, hok, not_false_eq_true, if_true, orStay] at hstep
    refine Untouched.pending h.pending ?_ ?_ <;> rw [hstep]
    · exact hmarked.trans ((Act.retry w₀ 5000 (Or.inl rfl)).untouched hb₀ hk₀.safe rfl)
    · exact fun h => h

/-- **A response.** -/
theorem pdu_pending (h : LedgerInv s) (ctx session : ℕ) (received : CoapPdu) :
    (s.step cfg (.client (.pdu ctx session received) rfl)).Pending ↔
      s.Spares cfg (.client (.pdu ctx session received) rfl) := by
  cases hf : s.client.net.reqEntry.find? (CoapReq.at ctx session) with
  | none =>
    refine iff_of_true (other_pending h rfl ?_ ?_ fun _ _ heq => by cases heq)
      (by simp [Ledger.Spares, Ledger.sending, hf])
    all_goals
      rintro ⟨r, hr, -⟩
      rw [hf] at hr; cases hr
  | some ent =>
    by_cases hv : validateToken cfg.endian received ent.token = true
    swap
    · -- a token that does not match
      have hsame : (s.step cfg (.client (.pdu ctx session received) rfl)).client = s.client := pdu_stale hf hv
      refine iff_of_true (Untouched.pending h.pending ?_ ?_) (by simp [Ledger.Spares, Ledger.sending, hf, hv])
      · rw [hsame]; exact Untouched.refl _
      · rw [hsame]; exact fun h => h
    have hreach : ∀ cb, s.client.Reaches cb (.pdu ctx session received) → ent.callback = cb := by
      rintro cb ⟨r, hr, hcb⟩
      rw [hf] at hr
      cases hr
      exact hcb
    cases hcb : ent.callback with
    | regCallback =>
      by_cases hsend : received.response.1 = .ok ∧ s.client.app.reg.registered = false
      · have hsends := registration_sends h hf hv hsend.1 hcb hsend.2
        have hsome : s.sending cfg (.client (.pdu ctx session received) rfl) =
            some ⟨s.client.app.conn, s.client.net.alarmsOf policyRetryCb, true⟩ := by
          simp only [Ledger.sending, hf]
          exact if_pos ⟨hv, hsend.1, hcb, hsend.2⟩
        rw [Ledger.Spares, hsome]
        exact Sends.pending_iff hsends (by simp [Ledger.acks, hf, hcb])
      · have hnone : s.sending cfg (.client (.pdu ctx session received) rfl) = none := by
          simp only [Ledger.sending, hf]
          exact if_neg fun hc => hsend ⟨hc.2.1, hc.2.2.2⟩
        rw [Ledger.Spares, hnone]
        exact iff_of_true (regCallback_pending h hf hv hcb hsend) trivial
    | policyCallback =>
      refine iff_of_true ?_ (by simp [Ledger.Spares, Ledger.sending, hf, hcb])
      by_cases hok : received.response.1 = .ok
      · exact answered_pending h hf hv hok hcb
      · exact failed_pending h hf hv hok hcb
    | _ =>
      refine iff_of_true (other_pending h rfl ?_ ?_ fun _ _ heq => by cases heq) ?_
      · intro hr
        rw [hreach _ hr] at hcb; cases hcb
      · intro hr
        rw [hreach _ hr] at hcb; cases hcb
      · simp [Ledger.Spares, Ledger.sending, hf, hcb]

/-- **A policy request times out.** -/
theorem timeout_pending (h : LedgerInv s) {fd : ℤ} {a : AlarmEntry AppAlarm} {p : CoapReq AppCb}
    (hf : s.client.net.alarmEntry.find? (fun p => p.alarmId = fd) = some a) (ha : a.callback = .requestAlarmCb)
    (hp : s.client.net.reqEntry.find? (fun p => p.alarmId = fd) = some p)
    (hcb : p.callback = .policyCallback ∨ p.callback = .regCallback) :
    (s.step cfg (.client (.alarm fd) rfl)).Pending := by
  have hact := timeout_act cfg h.base h.ka hp
  have hstep : (s.step cfg (.client (.alarm fd) rfl)).client =
      (requestAlarmCb (client cfg) fd s.client).mapNet (atlasAlarmCancel fd) := by
    show s.client.step cfg (.alarm fd) = _
    rw [alarm_eq cfg hf, h.base.kinds a (List.mem_of_find?_eq_some hf), ha]
    rfl
  have hmem := List.mem_of_find?_eq_some hp
  have hd := coapCallback_spec cfg h.base h.ka hmem p.uri .timeout []
  rcases hcb with hcb | hcb
  · -- the retry alarm stays when the request goes
    refine pending_of_retry ?_
    rw [hstep, hact.alarmsOf hd.base hd.ka.safe (by simp [Kind.alarmCb]), hcb]
    exact alarmSet_retries h.timers 5000 policyRetryCb true
  · have hretry := (Act.retry s.client 5000
      (Or.inl rfl : AppAlarm.regAlarmCallback = _ ∨ _)).untouched h.base h.ka.safe rfl
    have hun := hact.untouched hd.base hd.ka.safe (by simp [Kind.untouched, hcb])
    have hreg := hact.registered_le (by simp)
    rw [hcb] at hun hreg
    refine Untouched.pending h.pending ?_ ?_ <;> rw [hstep]
    · exact hretry.trans hun
    · exact hreg

/-- **An alarm.** -/
theorem alarm_pending (h : LedgerInv s) (fd : ℤ) :
    (s.step cfg (.client (.alarm fd) rfl)).Pending ↔ s.Spares cfg (.client (.alarm fd) rfl) := by
  cases hf : s.client.net.alarmEntry.find? fun p => p.alarmId = fd with
  | none =>
    have hsame : (s.step cfg (.client (.alarm fd) rfl)).client = s.client := alarm_unknown cfg hf
    refine iff_of_true (Untouched.pending h.pending ?_ ?_) (by simp [Ledger.Spares, Ledger.sending, hf])
    · rw [hsame]; exact Untouched.refl _
    · rw [hsame]; exact fun h => h
  | some a =>
    by_cases hcb : a.callback = policyRetryCb
    · have hsome : s.sending cfg (.client (.alarm fd) rfl) = some ⟨s.client.app.conn,
          (s.client.net.alarmsOf policyRetryCb).filter fun p => p.alarmId ≠ fd, s.client.app.reg.registered⟩ := by
        simp only [Ledger.sending, hf]
        exact if_pos hcb
      rw [Ledger.Spares, hsome]
      exact Sends.pending_iff (retry_sends h hf hcb) rfl
    refine iff_of_true ?_ (by simp [Ledger.Spares, Ledger.sending, hf, hcb])
    have hretry : ∀ fd' a', Event.alarm fd = .alarm fd' →
        s.client.net.alarmEntry.find? (fun p => p.alarmId = fd') = some a' → a'.callback ≠ policyRetryCb := by
      intro fd' a' heq hf'
      cases heq
      rw [hf] at hf'
      cases hf'
      exact hcb
    by_cases hreach : s.client.Reaches .regCallback (.alarm fd) ∨ s.client.Reaches .policyCallback (.alarm fd)
    swap
    · exact other_pending h rfl (fun hr => hreach (Or.inl hr)) (fun hr => hreach (Or.inr hr)) hretry
    -- a request with the callback owns the alarm
    obtain ⟨p, hp, hpcb⟩ : ∃ p, s.client.net.reqEntry.find? (fun p => p.alarmId = fd) = some p ∧
        (p.callback = .policyCallback ∨ p.callback = .regCallback) := by
      rcases hreach with ⟨p, hp, h⟩ | ⟨p, hp, h⟩
      · exact ⟨p, hp, Or.inr h⟩
      · exact ⟨p, hp, Or.inl h⟩
    have ha : a.callback = .requestAlarmCb := by
      have hfd : a.alarmId = fd := by simpa using List.find?_some hf
      have hpid : p.alarmId = fd := by simpa using List.find?_some hp
      exact h.base.net.callback_unique (mem_idsOf.2 ⟨a, List.mem_of_find?_eq_some hf, rfl, hfd⟩)
        (hpid ▸ h.base.net.own p (List.mem_of_find?_eq_some hp))
    exact timeout_pending h hf ha hp hpcb

/-- **A command of the data plane.** -/
theorem command_pending (h : LedgerInv s) (cmd : AtlasCmd) :
    (s.step cfg (.command cmd)).Pending ↔ s.Spares cfg (.command cmd) := by
  have hq := command_quiet cfg cmd s.client
  have hreg : (s.step cfg (.command cmd)).client.app.reg = s.client.app.reg := hq.reg
  by_cases ht : cmd.type = AtlasCmdType.dataPlanePolicy
  swap
  · refine iff_of_true (Untouched.pending h.pending ?_ (by rw [hreg]; exact fun h => h))
      (by simp [Ledger.Spares, Ledger.sending, ht])
    have hacts : ActsOf otherKinds s.client (s.client.policyStep cfg (.command cmd)) := by
      refine orStay_acts fun w' hw => ?_
      cases hx : dataPlaneHandle cfg cmd s.client with
      | error f => rw [hx] at hw; cases hw
      | ok x =>
        rw [hx] at hw
        cases hw
        have hx' := dataPlaneHandle_acts cmd _ x hx
        rw [if_neg ht] at hx'
        exact hx'
    exact hacts.untouched h.base h.ka (by decide) (by decide)
  have hstored := command_stored cfg ht s.client
  cases hs : storedBy cfg cmd s.client with
  | none =>
    rw [hs] at hstored
    have hsame : (s.step cfg (.command cmd)).client = s.client := hstored
    refine iff_of_true (Untouched.pending h.pending ?_ (by rw [hreg]; exact fun h => h))
      (by simp [Ledger.Spares, Ledger.sending, ht, hs])
    rw [hsame]
    exact Untouched.refl _
  | some conn =>
    rw [hs] at hstored
    have hsome : s.sending cfg (.command cmd) =
        some ⟨conn, s.client.net.alarmsOf policyRetryCb, s.client.app.reg.registered⟩ := by
      simp only [Ledger.sending, if_pos ht, hs, Option.map_some]
    rw [Ledger.Spares, hsome]
    exact Sends.pending_iff (sendPolicy_sends hstored h.timers rfl rfl rfl rfl) rfl

/-- **One step**, and exactly when it keeps the stored values on their way. -/
theorem pending_step (h : LedgerInv s) (e : PolicyEvent) : (s.step cfg e).Pending ↔ s.Spares cfg e := by
  cases e with
  | command cmd => exact command_pending h cmd
  | client e he =>
    cases e with
    | pdu ctx session received => exact pdu_pending h ctx session received
    | alarm fd => exact alarm_pending h fd
    | _ => exact iff_of_true (other_pending h he (fun h => h) (fun h => h) fun _ _ heq => by cases heq) trivial

/-- **No policy update is lost, and exactly when.** In every run of commands of the data plane,
responses, timeouts, alarms, registrations and any other events of the client, with requests accepted
or refused and every alarm set: after every step, when a policy is active and its values are not
acknowledged, a request that carries them is outstanding, a retry alarm is pending, or the client
is not registered; if and only if every policy request that is refused (for a command, a retry
alarm or a registration) is not needed: the values are acknowledged already, an outstanding request
carries them, another retry alarm is pending, or the client stays unregistered. -/
theorem updates_iff (cfg : Cfg) {os : Os} (ht : os.TimersOk) (es : List PolicyEvent) :
    Along (Ledger.step cfg) (fun s e => (s.step cfg e).Pending) (Ledger.init os) es ↔
      Along (Ledger.step cfg) (Ledger.Spares cfg) (Ledger.init os) es := by
  refine along_exact_all LedgerInv ?_ ?_ (ledgerInv_init ht)
  · intro s e h hspares
    have hp := (pending_step h e).2 hspares
    exact ⟨hp, h.step e hp⟩
  · intro s e h hp
    exact (pending_step h e).1 hp

/-- The client registers, and the data plane brings a policy. -/
def registerAndPolicy : List PolicyEvent :=
  [.client .start rfl, .client (.pdu 1 1 ⟨.ack, 69, [0, 0, 0, 0], []⟩) rfl, .client (.ioDone 2) rfl,
    .command ⟨AtlasCmdType.dataPlanePolicy, 6, [4, 76, 0, 2, 5, 0]⟩]

/-- The gateway rejects the request, the retry alarm fires, and the second request is answered. -/
theorem updates_iff_retry :
    Along (Ledger.step Cfg.plain) (fun s e => (s.step Cfg.plain e).Pending) (Ledger.init Os.calm)
      (registerAndPolicy ++ [.client (.pdu 1 1 ⟨.ack, 132, [1, 0, 0, 0], []⟩) rfl, .client (.ioDone 5) rfl,
        .client (.alarm 6) rfl, .client (.pdu 1 1 ⟨.ack, 69, [2, 0, 0, 0], []⟩) rfl, .client (.ioDone 8) rfl]) :=
  (updates_iff Cfg.plain Os.calm_timersOk _).2 (by decide +kernel)

/-- The system resolves the gateway's name once. -/
def Os.resolvedOnce : Os :=
  { Os.calm with requests := Stream'.cons default (Stream'.const { (default : CoapAnswer) with resolved := false }) }

/-- **A refused policy request**: the status is only logged, and the update is lost. -/
theorem refused_update_lost :
    ¬ ∀ (cfg : Cfg) (os : Os) (es : List PolicyEvent), os.TimersOk →
      Along (Ledger.step cfg) (fun s e => (s.step cfg e).Pending) (Ledger.init os) es := by
  intro h
  have hrun := h Cfg.plain Os.resolvedOnce registerAndPolicy fun _ => rfl
  revert hrun
  decide +kernel

end AtlasClient
