import AtlasClient.Proof.Acts
import AtlasClient.Proof.Codec
import AtlasClient.Proof.Reputation
import AtlasClient.Spec.DataPlane

/-!
# The firewall policy

The library sends the three values in the host's byte order, in a batch inside a command;
the connector copies them into its variables and puts them into network order for each
request to the gateway.

* `Act.policyKept`: only a policy command changes the stored policy, and every policy
  request carries it.
* `policy_arrives`: **a policy reaches the gateway unchanged**, with the first request and
  with every later one.
-/

namespace AtlasClient

open Framing Loop Machine

variable {cfg : Cfg} {w w₁ w' : Client}

/-! ## The stored policy -/

/-- The stored policy is as in `w`, and every policy request made since carries it. -/
structure PolicyKept (w w' : Client) : Prop where
  policy : w'.app.conn.policy = w.app.conn.policy
  calls : ∃ new, w'.calls = w.calls ++ new ∧
    ∀ c ∈ new, c.callback = .policyCallback → w.app.conn.policy = (true, c.reqPayload)

theorem PolicyKept.of_eq (hc : w'.app.conn.policy = w.app.conn.policy) (h : w'.calls = w.calls) : PolicyKept w w' :=
  ⟨hc, [], by simp [h], by simp⟩

theorem PolicyKept.refl (w : Client) : PolicyKept w w := PolicyKept.of_eq rfl rfl

theorem PolicyKept.trans (h : PolicyKept w w₁) (h' : PolicyKept w₁ w') : PolicyKept w w' := by
  obtain ⟨a, ha, hpa⟩ := h.calls
  obtain ⟨b, hb, hpb⟩ := h'.calls
  rw [h.policy] at hpb
  exact ⟨h'.policy.trans h.policy, a ++ b, by rw [hb, ha, List.append_assoc], List.forall_mem_append.2 ⟨hpa, hpb⟩⟩

/-- **Only a policy command changes the policy**, and every policy request carries it. -/
theorem Act.policyKept {k : Kind} (h : Act k w w') (hk : k ≠ .policy) : PolicyKept w w' := by
  cases h with
  | answers | counters | registered | keepalive | retry | marked | closed | added | deleted =>
    exact PolicyKept.of_eq rfl rfl
  | unregistered | fired | unlinked | resetPush | resetThreshold => exact PolicyKept.of_eq rfl rfl
  | connector f h => exact PolicyKept.of_eq h.2 rfl
  | policy => exact absurd rfl hk
  | accepted _ accepted =>
    refine PolicyKept.of_eq ?_ (acceptCb_same accepted w).2.2
    unfold atlasDataPlaneAcceptCb
    simp only
    split <;> split <;> rfl
  | request uri m pl t cb h =>
    refine ⟨rfl, _, rfl, ?_⟩
    intro c hc hcb
    rw [List.mem_singleton] at hc
    subst hc
    exact h hcb

theorem Acts.policyKept {K : Kind → Prop} (h : Acts K w w') (hK : ∀ k, K k → k ≠ .policy) : PolicyKept w w' :=
  h.rel PolicyKept.refl (fun _ _ _ => PolicyKept.trans) fun k _ _ hk ha => ha.policyKept (hK k hk)

/-- An event in which a policy is received. -/
def Event.BringsPolicy : Event → Prop
  | .dataPlaneRead _ (some buf) => HasPolicy buf
  | _ => False

theorem may_policy (w : Client) (e : Event) (he : ∀ fd buf, e ≠ .dataPlaneRead fd (some buf)) : .policy ∉ w.may e := by
  have hkinds : ∀ (ka : ℤ) (cb : AppCb), .policy ∉ cb.kinds ka := by
    intro ka cb
    cases cb <;> simp [AppCb.kinds]
  cases e with
  | dataPlaneRead fd received =>
    cases received with
    | none => simp [Client.may]
    | some buf => exact absurd rfl (he fd buf)
  | pdu ctx session received =>
    simp only [Client.may]
    split
    · simp
    · simp [hkinds]
  | ioDone fd =>
    simp only [Client.may]
    split <;> simp
  | alarm fd =>
    simp only [Client.may]
    split
    · simp
    split
    · split
      · simp
      · simp [hkinds]
    all_goals simp
  | pushSet uriPath pushRate =>
    cases uriPath with
    | none => simp [Client.may]
    | some uriPath =>
      simp only [Client.may]
      split <;> simp
  | thresholdSet uriPath scanRate =>
    cases uriPath with
    | none => simp [Client.may]
    | some uriPath =>
      simp only [Client.may]
      split <;> simp
  | _ => simp [Client.may]

/-- **An event without a policy** keeps the one that is stored. -/
theorem client_policyKept (cfg : Cfg) (h : BaseInv w) (hka : KaOk w) {e : Event} (he : ¬ e.BringsPolicy) :
    PolicyKept w (w.step cfg e) := by
  by_cases hread : ∃ fd buf, e = .dataPlaneRead fd (some buf)
  · obtain ⟨fd, buf, rfl⟩ := hread
    have hacts : ActsOf otherKinds w (w.step cfg (.dataPlaneRead fd (some buf))) :=
      orStay_acts fun w' hw => (readCb_acts hw).2 he
    exact hacts.policyKept fun k hk => by rintro rfl; simp at hk
  · refine (client_acts cfg h hka e).policyKept fun k hk => ?_
    rintro rfl
    exact may_policy w e (fun fd buf heq => hread ⟨fd, buf, heq⟩) hk

theorem run_policyKept (cfg : Cfg) {es : List Event} (hes : ∀ e ∈ es, ¬ e.BringsPolicy) :
    ∀ {w : Client}, BaseInv w → KaOk w → PolicyKept w (run (Client.step cfg) w es) := by
  induction es with
  | nil =>
    intro w _ _
    exact PolicyKept.refl w
  | cons e es ih =>
    intro w h hka
    have hs := client_step cfg h hka e
    exact (client_policyKept cfg h hka (hes e (by simp))).trans
      (ih (fun e' he' => hes e' (by simp [he'])) hs.base hs.ka)

/-! ## The registration of the library -/

/-- The three commands of the inner batch, in the host's byte order. -/
def ClientInfo.cmds (e : Endian) (client : ClientInfo) : List Cmd :=
  [Cmd.of AtlasCmdType.dataPlanePolicyQos (hostBytes e client.qos) (by simp),
    Cmd.of AtlasCmdType.dataPlanePolicyPacketsPerMinute (hostBytes e client.packetsPerMin) (by simp),
    Cmd.of AtlasCmdType.dataPlanePolicyPacketsMaxlen (hostBytes e client.packetsMaxlen) (by simp)]

theorem ClientInfo.cmds_length (e : Endian) (client : ClientInfo) : (encode (client.cmds e)).length = 18 := by
  simp [ClientInfo.cmds, Frame.bytes_length, Cmd.size_eq]

/-- The command of the library's message. -/
def ClientInfo.cmd (e : Endian) (client : ClientInfo) : Cmd :=
  Cmd.of AtlasCmdType.dataPlanePolicy (encode (client.cmds e)) (by rw [client.cmds_length]; decide)

theorem sendRegistration_eq (e : Endian) (client : ClientInfo) :
    sendRegistrationCommand e client = .ok (encode [client.cmd e]) := by
  have hinner := cmdBatchBytes_ok e (client.cmds e) (by rw [client.cmds_length]; decide)
  have houter := cmdBatchBytes_ok e [client.cmd e] (by
    rw [encode_cons, encode_nil, List.append_nil, Frame.bytes_length, Cmd.size_eq, ClientInfo.cmd, Cmd.of_value,
      client.cmds_length]
    decide)
  have hargs : [(AtlasCmdType.dataPlanePolicyQos, (2 : UInt16), hostBytes e client.qos),
      (AtlasCmdType.dataPlanePolicyPacketsPerMinute, 2, hostBytes e client.packetsPerMin),
      (AtlasCmdType.dataPlanePolicyPacketsMaxlen, 2, hostBytes e client.packetsMaxlen)] =
      (client.cmds e).map Cmd.args := by
    simp only [hostCmd_eq]
    rfl
  simp only [sendRegistrationCommand, hargs, hinner, bind, Except.bind]
  exact houter

/-! ## The connector -/

/-- The connector with the policy stored. -/
def Connector.withPolicy (client : ClientInfo) (c : Connector) : Connector :=
  { c with
    policyQos := client.qos
    policyPacketsPerMin := client.packetsPerMin
    policyPacketsMaxlen := client.packetsMaxlen
    activePolicy := true }

/-- A setter reads the word of its command, whatever follows it. -/
theorem withConn_word (e : Endian) (f : Connector → UInt16 → Connector) (v : UInt16) (post : Bytes) (w : Client) :
    withConn (fun c => do return f c (← read16 e (hostBytes e v ++ post) 0)) w = .ok (mapConn (fun c => f c v) w) := by
  have hread : read16 e (hostBytes e v ++ post) 0 = .ok v := read16_host e [] v post
  refine withConn_ok ?_
  rw [hread]; rfl

theorem policyHandle_qos (len v : UInt16) (post : Bytes) (w : Client) :
    policyHandle cfg ⟨AtlasCmdType.dataPlanePolicyQos, len, hostBytes cfg.endian v ++ post⟩ w =
      .ok (.inl (mapConn (fun c => { c with policyQos := v }) w)) := by
  have hset := withConn_word cfg.endian (fun c v => { c with policyQos := v }) v post w
  unfold policyHandle Connector.setPolicyQos
  rw [if_pos rfl, hset]
  rfl

theorem policyHandle_ppm (len v : UInt16) (post : Bytes) (w : Client) :
    policyHandle cfg ⟨AtlasCmdType.dataPlanePolicyPacketsPerMinute, len, hostBytes cfg.endian v ++ post⟩ w =
      .ok (.inl (mapConn (fun c => { c with policyPacketsPerMin := v }) w)) := by
  have hset := withConn_word cfg.endian (fun c v => { c with policyPacketsPerMin := v }) v post w
  unfold policyHandle Connector.setPolicyPacketsPerMin
  rw [if_neg (show ¬ AtlasCmdType.dataPlanePolicyPacketsPerMinute = AtlasCmdType.dataPlanePolicyQos by decide),
    if_pos rfl, hset]
  rfl

theorem policyHandle_maxlen (len v : UInt16) (post : Bytes) (w : Client) :
    policyHandle cfg ⟨AtlasCmdType.dataPlanePolicyPacketsMaxlen, len, hostBytes cfg.endian v ++ post⟩ w =
      .ok (.inl (mapConn (fun c => { c with policyPacketsMaxlen := v }) w)) := by
  have hset := withConn_word cfg.endian (fun c v => { c with policyPacketsMaxlen := v }) v post w
  unfold policyHandle Connector.setPolicyPacketsMaxlen
  rw [if_neg (show ¬ AtlasCmdType.dataPlanePolicyPacketsMaxlen = AtlasCmdType.dataPlanePolicyQos by decide),
    if_neg (show ¬ AtlasCmdType.dataPlanePolicyPacketsMaxlen = AtlasCmdType.dataPlanePolicyPacketsPerMinute by decide),
    if_pos rfl, hset]
  rfl

/-- **The policy is stored and sent**, whatever follows it in memory. -/
theorem parsePolicy_eq (cfg : Cfg) (client : ClientInfo) (post : Bytes) (w : Client) :
    atlasDataPlaneParsePolicy cfg (encode (client.cmds cfg.endian) ++ post) (client.cmd cfg.endian).length w =
      sendPolicyCommand cfg (mapConn (Connector.withPolicy client) w) := by
  have hlen : (client.cmd cfg.endian).length.toNat = (encode (client.cmds cfg.endian)).length :=
    ((client.cmd cfg.endian).value_length).symm
  have hne : encode (client.cmds cfg.endian) ≠ [] := by
    intro h
    have h18 := client.cmds_length cfg.endian
    rw [h] at h18; simp at h18
  have hbuf : ¬ (encode (client.cmds cfg.endian) ++ post = [] ∨ (client.cmd cfg.endian).length = 0) := by
    rintro (h | h)
    · exact hne (List.append_eq_nil_iff.1 h).1
    · rw [h, client.cmds_length] at hlen; simp at hlen
  have hraw := setRaw_accepts cfg.endian atlasCmdBatchNew hlen hne ⟨_, rfl⟩ post
  have hh : Holds ⟨(client.cmd cfg.endian).length, encode (client.cmds cfg.endian)⟩ (client.cmds cfg.endian) :=
    ⟨rfl, hlen⟩
  -- the three setters, one command after the other
  have hfold : ∃ w₁, foldCmds (policyHandle cfg) (client.cmds cfg.endian) w = .ok w₁ ∧
      mapConn (fun c => { c with activePolicy := true }) w₁ = mapConn (Connector.withPolicy client) w :=
    ⟨_, (foldCmds_cons (policyHandle_qos _ _ _ _)).trans ((foldCmds_cons (policyHandle_ppm _ _ _ _)).trans
      (foldCmds_cons (policyHandle_maxlen _ _ _ _))), rfl⟩
  obtain ⟨w₁, hfold, hstored⟩ := hfold
  obtain ⟨b', hl⟩ := cmdLoop_ok (e := cfg.endian) hh (by simp [ClientInfo.cmds]) hfold
  unfold atlasDataPlaneParsePolicy
  rw [if_neg hbuf]
  simp only [hraw, hl, bind, Except.bind, hstored]
  rfl

/-- **The policy command** stores the policy, and sends it. -/
theorem handle_policy (cfg : Cfg) (client : ClientInfo) (post : Bytes) (w : Client) :
    dataPlaneHandle cfg ⟨(client.cmd cfg.endian).type, (client.cmd cfg.endian).length,
      (client.cmd cfg.endian).value ++ post⟩ w = .ok (.inl ((mapConn (Connector.withPolicy client) w).request
        (cfg.coapGetUri "gateway/policy") .put (policyPayload (w.app.conn.withPolicy client)) 5000
          .policyCallback)) := by
  have hparse := parsePolicy_eq cfg client post w
  rw [sendPolicy_eq, if_pos (by rfl)] at hparse
  have htype : (client.cmd cfg.endian).type = AtlasCmdType.dataPlanePolicy := rfl
  unfold dataPlaneHandle
  rw [if_pos htype]
  exact congrArg (fun x => Sum.inl <$> x) hparse

/-! ## The message -/

/-- A command that a fixed-width setter reads has a value of two bytes at least. -/
def Cmd.HasWord (c : Cmd) : Prop :=
  c.type = AtlasCmdType.dataPlanePacketsPerMinute ∨ c.type = AtlasCmdType.dataPlanePacketsAvg → 2 ≤ c.value.length

theorem identity_ok (cfg : Cfg) (w : Client) : ∃ w', atlasDataPlaneIdentity cfg w = .ok w' := by
  have hbuf := cmdBatchBytes_ok cfg.endian [Cmd.of AtlasCmdType.dataPlaneIdentity cfg.identity cfg.identity_lt] (by
    have := cfg.identity_length
    simp only [encode_cons, encode_nil, List.append_nil, Frame.bytes_length, Cmd.size_eq, Cmd.of_value]
    omega)
  refine ⟨writeDataPlane (encode [Cmd.of AtlasCmdType.dataPlaneIdentity cfg.identity cfg.identity_lt]) w, ?_⟩
  simp only [atlasDataPlaneIdentity, bind, stringCmd_eq _ _ cfg.identity_lt]
  exact bind_of_ok hbuf _

theorem forward_ok (cfg : Cfg) {c : Cmd} (hc : c.size ≤ 2048) (path : String) (cb : AppCb) (post : Bytes) (w : Client) :
    ∃ w', forwardToGateway cfg c.type path cb (c.value ++ post) c.length w = .ok w' := by
  by_cases hne : c.value = []
  · have h0 : c.length = 0 := UInt16.toNat_inj.1 (by rw [← c.value_length, hne]; rfl)
    exact ⟨w, by rw [forwardToGateway, if_pos h0]⟩
  · exact ⟨_, forward_request cfg hne hc path cb post w⟩

/-- **A command that is no policy** is handled. -/
theorem handle_other (cfg : Cfg) {c : Cmd} (ht : c.type ≠ AtlasCmdType.dataPlanePolicy) (hw : c.HasWord)
    (hc : c.size ≤ 2048) (post : Bytes) (w : Client) :
    ∃ w', dataPlaneHandle cfg ⟨c.type, c.length, c.value ++ post⟩ w = .ok (.inl w') := by
  have hword : ∀ f : Connector → UInt16 → Connector, 2 ≤ c.value.length →
      ∃ w', withConn (fun a => do return f a (← read16 cfg.endian (c.value ++ post) 0)) w = .ok w' := by
    intro f h2
    obtain ⟨v, hv⟩ := read16_ok cfg.endian (show 0 + 2 ≤ (c.value ++ post).length by rw [List.length_append]; omega)
    exact ⟨_, withConn_ok (by rw [hv]; rfl)⟩
  have hinl : ∀ {x : Except Fault Client}, (∃ w', x = .ok w') →
      ∃ w', Sum.inl <$> x = (.ok (.inl w') : Except Fault (Client ⊕ Client)) := by
    rintro x ⟨w', rfl⟩
    exact ⟨w', rfl⟩
  unfold dataPlaneHandle
  rw [if_neg ht]
  split
  · exact hinl (hword (fun a v => { a with packetsPerMin := v }) (hw (Or.inl ‹_›)))
  split
  · exact hinl (hword (fun a v => { a with packetsAvg := v }) (hw (Or.inr ‹_›)))
  split
  · rename_i hrep
    have hf := forward_ok cfg hc "gateway/reputation/feature" .featureReputationCallback post w
    simp only at hrep
    rw [hrep] at hf
    exact hinl hf
  split
  · rename_i hfb
    have hf := forward_ok cfg hc "gateway/reputation/feedback" .feedbackCallback post w
    simp only at hfb
    rw [hfb] at hf
    exact hinl hf
  split
  · exact hinl (identity_ok cfg w)
  · exact ⟨w, rfl⟩

theorem dataPlaneHandle_inl {cmd : AtlasCmd} {x : Client ⊕ Client} (h : dataPlaneHandle cfg cmd w = .ok x) :
    ∃ w', x = .inl w' := by
  have hinl : ∀ {y : Except Fault Client}, Sum.inl <$> y = .ok x → ∃ w', x = .inl w' := by
    intro y hy
    cases y with
    | error f => cases hy
    | ok w' => cases hy; exact ⟨w', rfl⟩
  unfold dataPlaneHandle at h
  repeat' split at h
  all_goals first | exact hinl h | (cases h; exact ⟨w, rfl⟩)

/-- **The commands in front** of a message, when none of them is a policy. -/
theorem foldCmds_front {rest : List Cmd} : ∀ {pre : List Cmd} {w : Client},
    (∀ d ∈ pre, d.type ≠ AtlasCmdType.dataPlanePolicy) → foldCmds (dataPlaneHandle cfg) (pre ++ rest) w = .ok w' →
      ∃ w₁, ActsOf otherKinds w w₁ ∧ foldCmds (dataPlaneHandle cfg) rest w₁ = .ok w' := by
  intro pre
  induction pre with
  | nil =>
    intro w _ h
    exact ⟨w, Acts.refl w, h⟩
  | cons d pre ih =>
    intro w hpre h
    rw [List.cons_append] at h
    simp only [foldCmds, bind] at h
    obtain ⟨x, hx, h⟩ := bind_ok.1 h
    obtain ⟨w₂, rfl⟩ := dataPlaneHandle_inl hx
    have hacts := dataPlaneHandle_acts _ _ _ hx
    rw [if_neg (hpre d (by simp))] at hacts
    obtain ⟨w₁, h₁, hrest⟩ := ih (fun e he => hpre e (by simp [he])) h
    exact ⟨w₁, hacts.trans h₁, hrest⟩

theorem foldCmds_ok {handle : AtlasCmd → Client → Except Fault (Client ⊕ Client)} : ∀ {cmds : List Cmd} (w : Client),
    (∀ c ∈ cmds, ∀ post w, ∃ w', handle ⟨c.type, c.length, c.value ++ post⟩ w = .ok (.inl w')) →
      ∃ w', foldCmds handle cmds w = .ok w' := by
  intro cmds
  induction cmds with
  | nil => exact fun w _ => ⟨w, rfl⟩
  | cons c cs ih =>
    intro w h
    obtain ⟨w₁, h₁⟩ := h c (by simp) (encode cs) w
    rw [foldCmds_cons h₁]
    exact ih w₁ fun d hd => h d (by simp [hd])

/-! ## Across the socket -/

/-- The requests made between two states. -/
def callsSince (w w' : Client) : List (CoapCall AppCb) := w'.calls.drop w.calls.length

/-- The three values, as the gateway is to read them. -/
def ClientInfo.values (client : ClientInfo) : List (UInt16 × Bytes) :=
  [(AtlasCmdType.dataPlanePolicyQos, netBytes client.qos),
    (AtlasCmdType.dataPlanePolicyPacketsPerMinute, netBytes client.packetsPerMin),
    (AtlasCmdType.dataPlanePolicyPacketsMaxlen, netBytes client.packetsMaxlen)]

theorem isBatch_policyPayload (client : ClientInfo) (c : Connector) :
    IsBatch (policyPayload (c.withPolicy client)) client.values := ⟨_, rfl, rfl⟩

/-- No command of the message faults. -/
theorem policyMessage_ok (cfg : Cfg) (client : ClientInfo) {pre post : List Cmd}
    (hother : ∀ c ∈ pre ++ post, c.type ≠ AtlasCmdType.dataPlanePolicy) (hword : ∀ d ∈ pre ++ post, d.HasWord)
    (hfit : (encode (pre ++ client.cmd cfg.endian :: post)).length ≤ 2048) (w : Client) :
    ∃ w', foldCmds (dataPlaneHandle cfg) (pre ++ client.cmd cfg.endian :: post) w = .ok w' := by
  refine foldCmds_ok w fun d hd mem a => ?_
  by_cases hd' : d ∈ pre ++ post
  · refine handle_other cfg (hother d hd') (hword d hd') ?_ mem a
    have hsize : d.bytes.length ≤ (encode (pre ++ client.cmd cfg.endian :: post)).length := by
      obtain ⟨l, r, hl⟩ := List.append_of_mem hd
      rw [hl, encode_append, encode_cons]
      simp only [List.length_append]
      omega
    rw [Frame.bytes_length] at hsize
    omega
  · have heq : d = client.cmd cfg.endian := by
      simp only [List.mem_append, List.mem_cons, not_or] at hd hd'
      tauto
    rw [heq]
    exact ⟨_, handle_policy cfg client mem a⟩

/-- **The message makes a policy request**, and every policy request since, as long as the policy
is kept, carries the three values. -/
theorem policyMessage_sent (client : ClientInfo) {pre post : List Cmd}
    (hother : ∀ c ∈ pre ++ post, c.type ≠ AtlasCmdType.dataPlanePolicy)
    (h : foldCmds (dataPlaneHandle cfg) (pre ++ client.cmd cfg.endian :: post) w = .ok w') {v : Client}
    (hv : PolicyKept w' v) : (∃ q ∈ callsSince w v, q.callback = .policyCallback) ∧
      ∀ q ∈ callsSince w v, q.callback = .policyCallback → IsBatch q.reqPayload client.values := by
  -- the commands in front, the policy, the commands behind
  obtain ⟨w₁, h₁, hrest⟩ := foldCmds_front (fun d hd => hother d (List.mem_append_left _ hd)) h
  rw [foldCmds_cons (handle_policy cfg client (encode post) w₁)] at hrest
  set w₂ := (mapConn (Connector.withPolicy client) w₁).request (cfg.coapGetUri "gateway/policy") .put
    (policyPayload (w₁.app.conn.withPolicy client)) 5000 .policyCallback
  have h₂ : ActsOf otherKinds w₂ w' := foldCmds_acts (fun d hd mem a x hx => by
    have hacts := dataPlaneHandle_acts _ _ _ hx
    rwa [if_neg (hother d (List.mem_append_right _ hd))] at hacts) hrest
  have hkept : PolicyKept w₂ v := (h₂.policyKept fun k hk => by rintro rfl; simp at hk).trans hv
  -- none of the first requests is one of the policy, and each of the last ones carries it
  obtain ⟨new₁, hcalls₁, hnew₁⟩ := h₁.calls
  obtain ⟨q₀, hq₀, hcb₀, hpl₀⟩ : ∃ q, w₂.calls = w₁.calls ++ [q] ∧ q.callback = .policyCallback ∧
      q.reqPayload = policyPayload (w₁.app.conn.withPolicy client) := ⟨_, rfl, rfl, rfl⟩
  obtain ⟨new, hnew, hpl⟩ := hkept.calls
  have hpolicy : w₂.app.conn.policy = (true, policyPayload (w₁.app.conn.withPolicy client)) := rfl
  have hsince : callsSince w v = new₁ ++ (q₀ :: new) := by
    rw [callsSince, hnew, hq₀, hcalls₁]
    simp
  rw [hsince]
  refine ⟨⟨q₀, by simp, hcb₀⟩, fun q hq hcb => ?_⟩
  rcases List.mem_append.1 hq with hq | hq
  · have hk := hnew₁ q hq
    rw [hcb] at hk; simp at hk
  rcases List.mem_cons.1 hq with rfl | hq
  · rw [hpl₀]
    exact isBatch_policyPayload client _
  · have hsame : q.reqPayload = policyPayload (w₁.app.conn.withPolicy client) :=
      congrArg Prod.snd ((hpl q hq hcb).symm.trans hpolicy)
    rw [hsame]
    exact isBatch_policyPayload client _

/-- **A policy reaches the gateway unchanged.** For all values given to `atlas_init`, both byte orders,
every state that the client can be in, and any commands of other types around the command of
`send_registration_command` in its message: the message can be handled if the two fixed-width
commands among the others have their two bytes; when it has been handled, a policy request has
been made, and every policy request from then on, over any events that bring no policy, has a
payload that is a batch of exactly the three values in network order. -/
theorem policy_arrives (cfg : Cfg) (os : Os) (es₀ : List Event) (client : ClientInfo) {pre post : List Cmd}
    (hother : ∀ c ∈ pre ++ post, c.type ≠ AtlasCmdType.dataPlanePolicy) (fd : ℤ) :
    ∃ c : Cmd, sendRegistrationCommand cfg.endian client = .ok (encode [c]) ∧
      let w := run (Client.step cfg) (Client.init os) es₀
      ((encode (pre ++ c :: post)).length ≤ 2048 →
        ((∀ d ∈ pre ++ post, d.HasWord) →
          ∃ w', atlasDataPlaneReadCb cfg fd (some (encode (pre ++ c :: post))) w = .ok w') ∧
        ∀ w', atlasDataPlaneReadCb cfg fd (some (encode (pre ++ c :: post))) w = .ok w' →
          (∃ q ∈ callsSince w w', q.callback = .policyCallback) ∧
          ∀ es : List Event, (∀ e ∈ es, ¬ e.BringsPolicy) →
            ∀ q ∈ callsSince w (run (Client.step cfg) w' es), q.callback = .policyCallback →
              IsBatch q.reqPayload client.values) := by
  refine ⟨client.cmd cfg.endian, sendRegistration_eq cfg.endian client, ?_⟩
  intro w hfit
  have hne : pre ++ client.cmd cfg.endian :: post ≠ [] := by simp
  rw [readCb_eq cfg fd hne hfit w]
  refine ⟨fun hword => policyMessage_ok cfg client hother hword hfit w, fun w' hw' => ⟨?_, fun es hes => ?_⟩⟩
  · exact (policyMessage_sent client hother hw' (PolicyKept.refl w')).1
  · have hinv : BaseInv w ∧ KaOk w := run_inv cfg (baseInv_init os) (kaOk_init os)
    have hread := client_step cfg hinv.1 hinv.2
        (.dataPlaneRead fd (some (encode (pre ++ client.cmd cfg.endian :: post))))
    have hstep : w.step cfg (.dataPlaneRead fd (some (encode (pre ++ client.cmd cfg.endian :: post)))) = w' := by
      rw [Client.step, readCb_eq cfg fd hne hfit w, hw']
      rfl
    have hb : BaseInv w' := by rw [← hstep]; exact hread.base
    have hka : KaOk w' := by rw [← hstep]; exact hread.ka
    exact (policyMessage_sent client hother hw' (run_policyKept cfg hes hb hka)).2

/-- A question for the identity, in front of the policy. -/
def askIdentity : Cmd := Cmd.of AtlasCmdType.dataPlaneGetIdentity [] (by decide)

/-- A policy behind another command, handled in the initial state: the request that it makes. -/
theorem policy_arrives_initial :
    ∃ (c : Cmd) (w' : Client), sendRegistrationCommand .little ⟨2, 60, 512⟩ = .ok (encode [c]) ∧
      atlasDataPlaneReadCb Cfg.plain 7 (some (encode ([askIdentity] ++ c :: []))) (Client.init Os.calm) = .ok w' ∧
      ∃ q ∈ callsSince (Client.init Os.calm) w', q.callback = .policyCallback ∧
        IsBatch q.reqPayload (ClientInfo.values ⟨2, 60, 512⟩) := by
  have hother : ∀ c ∈ [askIdentity] ++ [], c.type ≠ AtlasCmdType.dataPlanePolicy := by simp [askIdentity]; decide
  obtain ⟨c, hc, h⟩ := policy_arrives Cfg.plain Os.calm [] ⟨2, 60, 512⟩ hother 7
  have heq : encode [c] = encode [ClientInfo.cmd .little ⟨2, 60, 512⟩] :=
    Except.ok.inj (hc.symm.trans (sendRegistration_eq .little ⟨2, 60, 512⟩))
  have hlen : (encode ([askIdentity] ++ c :: [])).length ≤ 2048 := by
    rw [encode_append, heq, List.length_append]
    decide
  obtain ⟨hok, hpl⟩ := h hlen
  obtain ⟨w', hw'⟩ := hok (by simp [askIdentity, Cmd.HasWord]; decide)
  obtain ⟨⟨q, hq, hcb⟩, hrun⟩ := hpl w' hw'
  exact ⟨c, w', hc, hw', q, hq, hcb, hrun [] (by simp) q hq hcb⟩

end AtlasClient
