import AtlasClient.Proof.Retry

/-!
# The replies to a reputation request

A reputation command of the data plane becomes a request to the gateway, and its callback
writes what it finds in the answer: one message for each reputation, or one error.

* `oneReply_iff`: **exactly one reply** exactly when the request is accepted and the answer
  is a failure or carries exactly one reputation.
-/

namespace AtlasClient

open Framing Loop

variable {cfg : Cfg} {w w' : Client}

/-! ## The request -/

/-- What stands behind a value is not read. -/
theorem add_value (e : Endian) (b : AtlasCmdBatch) (c : Cmd) (post : Bytes) :
    atlasCmdBatchAdd e b c.type c.length (c.value ++ post) = atlasCmdBatchAdd e b c.type c.length c.value := by
  simp only [atlasCmdBatchAdd, c.read_value post, c.read_value_alone]

/-- A payload of commands, each with what stands behind its value in memory. -/
theorem cmdBatchBytes_behind (e : Endian) (cmds : List (Cmd × Bytes))
    (hfit : (encode (cmds.map Prod.fst)).length < 65536) :
    cmdBatchBytes e (cmds.map fun p => (p.1.type, p.1.length, p.1.value ++ p.2)) =
      .ok (encode (cmds.map Prod.fst)) := by
  have hadd : ∀ b, addCmds e b (cmds.map fun p => (p.1.type, p.1.length, p.1.value ++ p.2)) =
      addCmds e b ((cmds.map Prod.fst).map Cmd.args) := by
    unfold addCmds
    induction cmds with
    | nil => exact fun _ => rfl
    | cons p cmds ih =>
      have hlt : (encode (cmds.map Prod.fst)).length < 65536 := by
        rw [List.map_cons, encode_cons, List.length_append] at hfit
        omega
      intro b
      simp only [List.map_cons, List.foldlM_cons, add_value, Cmd.args]
      exact congrArg _ (funext fun b' => ih hlt b')
  rw [← cmdBatchBytes_ok e _ hfit]
  unfold cmdBatchBytes
  rw [hadd]

/-- A payload whose last command is passed on. -/
theorem cmdBatchBytes_pass (e : Endian) (cmds : List Cmd) {c : Cmd} (post : Bytes)
    (hfit : (encode (cmds ++ [c])).length < 65536) :
    cmdBatchBytes e (cmds.map Cmd.args ++ [(c.type, c.length, c.value ++ post)]) = .ok (encode (cmds ++ [c])) := by
  have hcmds : (cmds.map (fun d => (d, ([] : Bytes))) ++ [(c, post)]).map Prod.fst = cmds ++ [c] := by
    simp [Function.comp_def]
  have hbuf := cmdBatchBytes_behind e (cmds.map (fun d => (d, ([] : Bytes))) ++ [(c, post)]) (by rw [hcmds]; exact hfit)
  rw [hcmds] at hbuf
  rw [← hbuf, List.map_append, List.map_map]
  simp only [Function.comp_def, List.append_nil]
  rfl

/-- The identity and a passed-on command fit. -/
theorem forward_fits (cfg : Cfg) {c : Cmd} (hc : c.size ≤ 2048) (h : cfg.identity.length < 65536) :
    (encode ([Cmd.of AtlasCmdType.identity cfg.identity h] ++ [c])).length < 65536 := by
  have hid := cfg.identity_length
  simp only [encode_append, encode_cons, encode_nil, List.append_nil, List.length_append, Frame.bytes_length,
    Cmd.size_eq,
    Cmd.of_value] at hc ⊢
  omega

theorem Cfg.identity_lt (cfg : Cfg) : cfg.identity.length < 65536 := by
  have := cfg.identity_length
  omega

/-- **A command that is passed on** makes one request to the gateway: the identity and the command. -/
theorem forward_request (cfg : Cfg) {c : Cmd} (hne : c.value ≠ []) (hc : c.size ≤ 2048) (path : String) (cb : AppCb)
    (post : Bytes) (w : Client) :
    forwardToGateway cfg c.type path cb (c.value ++ post) c.length w = .ok (w.request (cfg.coapGetUri path) .put
      (encode ([Cmd.of AtlasCmdType.identity cfg.identity cfg.identity_lt] ++ [c])) 5000 cb) := by
  have hbuf := cmdBatchBytes_pass cfg.endian [Cmd.of AtlasCmdType.identity cfg.identity cfg.identity_lt] post
    (forward_fits cfg hc cfg.identity_lt)
  have hlen : c.length ≠ 0 := by
    intro h0
    have hv := c.value_length
    rw [h0] at hv
    exact hne (List.length_eq_zero_iff.1 hv)
  have hcmd : [stringCmd AtlasCmdType.identity cfg.identity, (c.type, c.length, c.value ++ post)] =
      [Cmd.of AtlasCmdType.identity cfg.identity cfg.identity_lt].map Cmd.args ++
        [(c.type, c.length, c.value ++ post)] := rfl
  simp only [forwardToGateway, if_neg hlen, hcmd, hbuf, bind, Except.bind]
  rfl

/-- **A reputation command** with a value makes one request to the gateway, and writes nothing. -/
theorem reputation_request (cfg : Cfg) {c : Cmd} (ht : c.type = AtlasCmdType.dataPlaneFeatureReputation)
    (hne : c.value ≠ []) (hc : c.size ≤ 2048) (post : Bytes) (w : Client) : ∃ buf,
    dataPlaneHandle cfg ⟨c.type, c.length, c.value ++ post⟩ w = .ok (.inl
      (w.request (cfg.coapGetUri "gateway/reputation/feature") .put buf 5000 .featureReputationCallback)) := by
  have hreq := forward_request cfg hne hc "gateway/reputation/feature" .featureReputationCallback post w
  refine ⟨encode ([Cmd.of AtlasCmdType.identity cfg.identity cfg.identity_lt] ++ [c]), ?_⟩
  rw [ht] at hreq ⊢
  simp only [dataPlaneHandle, atlasFeatureReputationHandle, hreq]
  rfl

/-! ## The callback -/

/-- What the callback writes of a batch. -/
def reputations (cmds : List Cmd) : List Cmd := cmds.filter fun c => c.type = AtlasCmdType.dataPlaneFeatureReputation

/-- The connector after the messages `l` have been written. -/
def Connector.wrote (l : List Bytes) (c : Connector) : Connector :=
  { c with written := c.written ++ l.map fun bs => (c.connectedSocket, bs) }

/-- The connector is as in `w` but for the messages `l` that have been written. -/
def Writes (l : List Bytes) (w w' : Client) : Prop := w'.app.conn = w.app.conn.wrote l

theorem error_fits : (encode [Cmd.of AtlasCmdType.dataPlaneFeatureError [] (by decide)]).length < 65536 := by decide

/-- **A failed request** is answered with an error. -/
theorem callback_failed (cfg : Cfg) {status : AtlasCoapResponse} (hs : status ≠ .ok) (payload : Bytes) (w : Client) :
    ∃ w', featureReputationCallback cfg status payload w = .ok w' ∧
      Writes [encode [Cmd.of AtlasCmdType.dataPlaneFeatureError [] (by decide)]] w w' := by
  have hbuf := cmdBatchBytes_ok cfg.endian _ error_fits
  refine ⟨writeDataPlane (encode [Cmd.of AtlasCmdType.dataPlaneFeatureError [] (by decide)]) w, ?_, rfl⟩
  simp only [featureReputationCallback, if_pos hs]
  rw [show [(AtlasCmdType.dataPlaneFeatureError, (0 : UInt16), ([] : Bytes))] =
    [Cmd.of AtlasCmdType.dataPlaneFeatureError [] (by decide)].map Cmd.args from rfl, hbuf]
  rfl

/-- One round of the loop over the answer. -/
def writeReputation (c : Cmd) (w : Client) : Client :=
  if c.type = AtlasCmdType.dataPlaneFeatureReputation then writeDataPlane (encode [c]) w else w

theorem reputationHandle_eq (cfg : Cfg) {c : Cmd} (hfit : (encode [c]).length < 65536) (post : Bytes) (w : Client) :
    reputationHandle cfg ⟨c.type, c.length, c.value ++ post⟩ w = .ok (.inl (writeReputation c w)) := by
  unfold reputationHandle writeReputation
  by_cases ht : c.type = AtlasCmdType.dataPlaneFeatureReputation
  · have hbuf := cmdBatchBytes_pass cfg.endian [] post hfit
    simp only [List.map_nil, List.nil_append, ht] at hbuf
    simp only [ht, if_true, hbuf, bind, Except.bind]
    rfl
  · simp only [if_neg ht]

theorem writes_fold (cmds : List Cmd) (w : Client) :
    Writes ((reputations cmds).map fun c => encode [c]) w (cmds.foldl (fun w c => writeReputation c w) w) := by
  induction cmds generalizing w with
  | nil => simp [Writes, Connector.wrote, reputations]
  | cons c cs ih =>
    have hrest := ih (writeReputation c w)
    unfold Writes Connector.wrote at hrest ⊢
    rw [List.foldl_cons, hrest]
    by_cases ht : c.type = AtlasCmdType.dataPlaneFeatureReputation
    · simp [writeReputation, writeDataPlane, mapConn, World.mapApp, reputations, ht]
    · simp [writeReputation, reputations, ht]

/-- A command of a batch fits into a batch of its own. -/
theorem fits_of_mem {cmds : List Cmd} {c : Cmd} (hc : c ∈ cmds) (h : (encode cmds).length < 65536) :
    (encode [c]).length < 65536 := by
  obtain ⟨pre, post, rfl⟩ := List.append_of_mem hc
  simp only [encode_append, encode_cons, encode_nil, List.append_nil, List.length_append] at h ⊢
  omega

/-- **An answer that is a batch** is answered with each of its reputations. -/
theorem callback_batch (cfg : Cfg) {payload : Bytes} {cmds : List Cmd}
    (hp : payload.take (payload.length % 65536) = encode cmds) (w : Client) :
    ∃ w', featureReputationCallback cfg .ok payload w = .ok w' ∧
      Writes ((reputations cmds).map fun c => encode [c]) w w' := by
  obtain ⟨post, hsplit, hlen⟩ := take_append_rest payload
  rw [hp] at hsplit hlen
  simp only [featureReputationCallback, ne_eq, not_true, if_false, atlasReputationRespParse]
  by_cases hnil : cmds = []
  · -- the parser is given no bytes
    rw [hnil] at hlen
    have h0 : UInt16.ofNat payload.length = 0 := UInt16.toNat_inj.1 hlen
    exact ⟨w, by rw [if_pos (Or.inr h0)], by simp [Writes, Connector.wrote, hnil, reputations]⟩
  · have hne : encode cmds ≠ [] := fun h => hnil (encode_eq_nil.1 h)
    have h0 : ¬ (payload = [] ∨ UInt16.ofNat payload.length = 0) := by
      rintro (h | h)
      · rw [h] at hp; exact hne (by simpa using hp.symm)
      · rw [h] at hlen; exact hne (List.length_eq_zero_iff.1 hlen.symm)
    have hfit : (encode cmds).length < 65536 := by
      rw [← hlen]; exact (UInt16.ofNat payload.length).toNat_lt
    have hraw := setRaw_accepts cfg.endian atlasCmdBatchNew hlen hne ⟨cmds, rfl⟩ post
    rw [← hsplit] at hraw
    have hh : Holds ⟨UInt16.ofNat payload.length, encode cmds⟩ cmds := ⟨rfl, hlen⟩
    have hfold := foldCmds_total cmds w fun c hc post a =>
      reputationHandle_eq cfg (fits_of_mem hc hfit) post a
    refine ⟨cmds.foldl (fun w c => writeReputation c w) w, ?_, writes_fold cmds w⟩
    rw [← hfold, ← loop_raw (e := cfg.endian) hh hnil w, if_neg h0]
    simp only [hraw, bind, Except.bind]
    rfl

/-- **An answer that is no batch** is not answered. -/
theorem callback_corrupted (cfg : Cfg) {payload : Bytes}
    (hp : ¬ IsEncoding cmdHeader (payload.take (payload.length % 65536))) (w : Client) :
    featureReputationCallback cfg .ok payload w = .ok w := by
  obtain ⟨post, hsplit, hlen⟩ := take_append_rest payload
  set s := payload.take (payload.length % 65536)
  have hne : s ≠ [] := fun h => hp (by rw [h]; exact isEncoding_nil)
  have h0 : ¬ (payload = [] ∨ UInt16.ofNat payload.length = 0) := by
    rintro (h | h)
    · rw [h] at hsplit; exact hne (List.append_eq_nil_iff.1 hsplit.symm).1
    · rw [h] at hlen; exact hne (List.length_eq_zero_iff.1 hlen.symm)
  have hraw := setRaw_rejects cfg.endian atlasCmdBatchNew hlen hne hp post
  rw [← hsplit] at hraw
  simp only [featureReputationCallback, ne_eq, not_true, if_false, atlasReputationRespParse, if_neg h0]
  simp only [hraw, bind, Except.bind]
  rfl

/-! ## Handling a request -/

theorem messagesSince_eq_nil (h : w'.app = w.app) : messagesSince w w' = [] := by
  unfold messagesSince
  rw [h, List.drop_length]
  rfl

theorem Writes.messages {l : List Bytes} (h : Writes l w w') :
    messagesSince w w' = if w.app.conn.connectedSocket = -1 then [] else l := by
  unfold messagesSince
  rw [h, Connector.wrote, List.drop_left]
  by_cases hs : w.app.conn.connectedSocket = -1
  · rw [if_pos hs, List.map_eq_nil_iff, List.filter_eq_nil_iff]
    intro m hm
    obtain ⟨bs, -, rfl⟩ := List.mem_map.1 hm
    simp [hs]
  · rw [if_neg hs, List.filter_eq_self.2, List.map_map]
    · exact List.map_id l
    · intro m hm
      obtain ⟨bs, -, rfl⟩ := List.mem_map.1 hm
      simpa using hs

/-- The messages that the handling of a reputation command writes: `atlas_data_plane_read_cb`
comes to the command in the state `w`, and if the request to the gateway is accepted then it
ends in the state `w'`, with a status and a payload: in a run, the states of `replies_run`. -/
def reputationReplies (cfg : Cfg) (cmd : AtlasCmd) (w w' : Client) (status : AtlasCoapResponse) (payload : Bytes) :
    Except Fault (List Bytes) := do
  let x ← dataPlaneHandle cfg cmd w
  let w₁ := x.elim id id
  if (w₁.calls.drop w.calls.length).all (fun c => c.status ≠ .ok) then return messagesSince w w₁
  else
    let w₂ ← featureReputationCallback cfg status payload w'
    return messagesSince w w₁ ++ messagesSince w' w₂

/-- One message that carries a reputation or an error. -/
def IsReply (bs : Bytes) : Prop :=
  ∃ c : Cmd, bs = encode [c] ∧
    (c.type = AtlasCmdType.dataPlaneFeatureReputation ∨ c.type = AtlasCmdType.dataPlaneFeatureError)

/-- The first bytes of the payload, as many as the 16-bit length of the parser says, are a
batch with exactly one reputation. -/
def OneReputation (payload : Bytes) : Prop :=
  ∃ cmds : List Cmd, payload.take (payload.length % 65536) = encode cmds ∧ (reputations cmds).length = 1

/-- The reply of a command is the reply of the callback, if the request is accepted. -/
theorem replies_eq (cfg : Cfg) {c : Cmd} (ht : c.type = AtlasCmdType.dataPlaneFeatureReputation)
    (hne : c.value ≠ []) (hc : c.size ≤ 2048) (post : Bytes) (w w' : Client) (status : AtlasCoapResponse)
    (payload : Bytes) :
    reputationReplies cfg ⟨c.type, c.length, c.value ++ post⟩ w w' status payload =
      if w.net.Grants then (featureReputationCallback cfg status payload w').map (messagesSince w')
      else .ok [] := by
  obtain ⟨buf, hreq⟩ := reputation_request cfg ht hne hc post w
  simp only [reputationReplies, hreq, bind, Except.bind, Sum.elim_inl, id]
  have hnone : messagesSince w (w.request (cfg.coapGetUri "gateway/reputation/feature") .put buf 5000
      .featureReputationCallback) = [] := messagesSince_eq_nil rfl
  rw [hnone]
  simp only [World.request, List.drop_left, List.all_cons, List.all_nil, Bool.and_true, decide_eq_true_eq]
  rcases request_cases (cfg.coapGetUri "gateway/reputation/feature") 5000 AppCb.featureReputationCallback w.net with
    ⟨hs, hno, -⟩ | ⟨hs, hyes, -⟩
  · rw [if_pos hs, if_neg hno]; rfl
  · rw [if_neg (fun h => h hs), if_pos hyes]
    cases featureReputationCallback cfg status payload w' <;> rfl

theorem not_reply_nil : ¬ ∃ r, (Except.ok [] : Except Fault (List Bytes)) = .ok [r] ∧ IsReply r := by
  rintro ⟨r, h, -⟩
  cases h

/-- **Exactly one reply, and exactly when.** For every reputation command with a value that
`atlas_data_plane_read_cb` comes to, in any state, and every way the request to the gateway
ends: exactly one message is written to the data plane socket, a reputation or an error, if and
only if the request is accepted, the data plane is connected when it ends, and it ends with a
failure or with a payload that is a batch with exactly one reputation. -/
theorem oneReply_iff (cfg : Cfg) {c : Cmd} (ht : c.type = AtlasCmdType.dataPlaneFeatureReputation)
    (hne : c.value ≠ []) (hc : c.size ≤ 2048) (post : Bytes) (w w' : Client) (status : AtlasCoapResponse)
    (payload : Bytes) :
    (∃ r, reputationReplies cfg ⟨c.type, c.length, c.value ++ post⟩ w w' status payload = .ok [r] ∧ IsReply r) ↔
      w.net.Grants ∧ w'.app.conn.connectedSocket ≠ -1 ∧ (status ≠ .ok ∨ OneReputation payload) := by
  rw [replies_eq cfg ht hne hc]
  by_cases hg : w.net.Grants
  swap
  · -- refused: the error is only logged
    rw [if_neg hg]
    exact iff_of_false not_reply_nil fun h => hg h.1
  rw [if_pos hg]
  by_cases hs : status = .ok
  swap
  · obtain ⟨w₂, hok, hw⟩ := callback_failed cfg hs payload w'
    rw [hok]
    simp only [Except.map, hw.messages, hg, hs, true_and, ne_eq, not_false_eq_true, true_or, and_true]
    by_cases hconn : w'.app.conn.connectedSocket = -1
    · rw [if_pos hconn]
      exact iff_of_false not_reply_nil fun h => h hconn
    · rw [if_neg hconn]
      exact iff_of_true ⟨_, rfl, _, rfl, Or.inr rfl⟩ hconn
  subst hs
  simp only [hg, true_and, ne_eq, not_true, false_or]
  by_cases hp : IsEncoding cmdHeader (payload.take (payload.length % 65536))
  swap
  · rw [callback_corrupted cfg hp]
    simp only [Except.map, messagesSince_eq_nil rfl]
    refine iff_of_false not_reply_nil ?_
    rintro ⟨-, cmds, h, -⟩
    exact hp ⟨cmds, h⟩
  obtain ⟨cmds, hp⟩ := hp
  obtain ⟨w₂, hok, hw⟩ := callback_batch cfg hp w'
  rw [hok]
  simp only [Except.map, hw.messages]
  by_cases hconn : w'.app.conn.connectedSocket = -1
  · rw [if_pos hconn]
    exact iff_of_false not_reply_nil fun h => h.1 hconn
  rw [if_neg hconn]
  constructor
  · rintro ⟨r, hr, -⟩
    refine ⟨hconn, cmds, hp, ?_⟩
    have hlen := congrArg List.length (Except.ok.inj hr)
    simpa using hlen
  · rintro ⟨-, cmds', hp', hone⟩
    -- the bytes are the encoding of one list of commands only
    obtain rfl : cmds' = cmds := encode_injective (hp'.symm.trans hp)
    obtain ⟨d, hd⟩ := List.length_eq_one_iff.1 hone
    have hmem : d ∈ reputations cmds' := by rw [hd]; simp
    refine ⟨encode [d], by rw [hd]; rfl, d, rfl, Or.inl ?_⟩
    simpa [reputations] using (List.mem_filter.1 hmem).2

/-- The request for the sensor type 101. -/
def temperatureRequest : Cmd := Cmd.of AtlasCmdType.dataPlaneFeatureReputation [0, 101] (by decide)

/-- A client that the data plane is connected to. -/
def Client.connected (os : Os) : Client := mapConn (fun c => { c with connectedSocket := 7 }) (Client.init os)

/-- A request that times out is answered with one error. -/
theorem oneReply_iff_timeout : ∃ r, reputationReplies Cfg.plain
    ⟨temperatureRequest.type, temperatureRequest.length, temperatureRequest.value ++ []⟩ (Client.connected Os.calm)
    (Client.connected Os.calm) .timeout [] = .ok [r] ∧ IsReply r :=
  (oneReply_iff Cfg.plain (c := temperatureRequest) rfl (by decide) (by decide) [] _ _ .timeout []).2
    ⟨by decide, by decide, Or.inl (by decide)⟩

/-- **A request that cannot be sent** is not answered. -/
theorem refused_request_unanswered :
    ¬ ∀ (cfg : Cfg) (c : Cmd) (post : Bytes) (w w' : Client) (status : AtlasCoapResponse) (payload : Bytes),
      c.type = AtlasCmdType.dataPlaneFeatureReputation → c.value ≠ [] → c.size ≤ 2048 →
      w'.app.conn.connectedSocket ≠ -1 →
      ∃ r, reputationReplies cfg ⟨c.type, c.length, c.value ++ post⟩ w w' status payload = .ok [r] ∧ IsReply r := by
  intro h
  obtain ⟨r, hr, -⟩ := h Cfg.plain temperatureRequest [] (Client.connected Os.unresolved)
    (Client.connected Os.unresolved) .ok [] rfl (by decide) (by decide) (by decide)
  have hnone : reputationReplies Cfg.plain
      ⟨temperatureRequest.type, temperatureRequest.length, temperatureRequest.value ++ []⟩
      (Client.connected Os.unresolved) (Client.connected Os.unresolved) .ok [] = .ok [] := by decide +kernel
  rw [hnone] at hr
  cases hr

end AtlasClient
