import AtlasClient.Proof.Acts
import AtlasClient.Spec.Requests

/-!
# The list of requests in memory

The functions that walk the list of requests keep pointers into it while callbacks of the application run, which make
new requests. Every node that they come back to is still there: a callback puts nodes behind the last one, and changes
no more of the others than their mark.

* `Program.OnlyAsks`: what the callbacks do to the list.
* `RequestHeap.Shows`: the nodes of a heap are the entries of a list.
* `requests_refine`: **the nodes and the list are one** in every run.
-/

namespace AtlasClient

open FirstMatch LinkedList Loop Machine

section general

variable {α κ σ : Type} {prog : Program α κ σ} {w w' : World α κ σ} {m m' : RequestHeap α κ σ}
  {l l' pre post : List (ℕ × CoapReq κ)} {a : ℕ} {ent : CoapReq κ} {q : CoapReq κ → Bool}

/-- The entries stay in front, as they are. -/
def Requesting (w w' : World α κ σ) : Prop := w.net.reqEntry <+: w'.net.reqEntry

/-- A program whose callbacks do no more to the list than to make requests. -/
structure Program.OnlyAsks (prog : Program α κ σ) : Prop where
  coapCb : ∀ (w : World α κ σ), ∀ r ∈ w.net.reqEntry, ∀ uri status payload,
    Requesting w (prog.coapCb r.callback uri status payload w)
  alarmCb : ∀ cb id w, Requesting w (prog.alarmCb cb id w)

/-- What no response changes of an entry. -/
def CoapReq.clean (req : CoapReq κ) : CoapReq κ := { req with dirty := false }

namespace RequestHeap

/-- The nodes are at the addresses of `l` and have the entries of `w`, and the rest is that of `w`. -/
structure Shows (m : RequestHeap α κ σ) (w : World α κ σ) (l : List (ℕ × CoapReq κ)) : Prop where
  nodes : m.requests.Represents l
  entries : l.map Prod.snd = w.net.reqEntry
  world : m.world = w.withRequests []

theorem init_shows (h : w.net.reqEntry = []) : Shows (init w) w [] := ⟨ListHeap.init_represents, h.symm, rfl⟩

theorem Shows.view (h : Shows m w l) : m.view = .ok w := by
  have hview : m.view = .ok (m.world.withRequests (l.map Prod.snd)) := bind_of_ok (h.nodes.values _ _) _
  rw [hview, h.world, h.entries]
  rfl

/-! ## Callbacks -/

/-- **Another module** does to the nodes what it does to the list. -/
theorem Shows.perform (h : Shows m w l) {f : World α κ σ → World α κ σ} (hasks : Requesting w (f w)) :
    ∃ m' l', m.perform f = .ok m' ∧ Shows m' (f w) l' ∧ ListHeap.Extends CoapReq.clean l l' := by
  obtain ⟨added, hadded⟩ := hasks
  have hdrop : (f w).net.reqEntry.drop w.net.reqEntry.length = added := by rw [← hadded, List.drop_left]
  obtain ⟨s, new, hcall, hrep, hnew⟩ := h.nodes.appendAll Fault.badAccess Fault.diverges added
  refine ⟨⟨s, (f w).withRequests []⟩, l ++ new, ?_, ⟨hrep, ?_, rfl⟩, ListHeap.extends_append l new⟩
  · refine (bind_of_ok h.view _).trans ?_
    simp only [hdrop]
    exact bind_of_ok hcall _
  · rw [List.map_append, h.entries, hnew, hadded]

/-! ## Finding a node -/

theorem Shows.find_none (h : Shows m w l) (hf : w.net.reqEntry.find? q = none) :
    m.requests.find Fault.badAccess Fault.diverges q = .ok none := by
  refine h.nodes.find_none _ _ fun x hx => ?_
  have hmem : x.2 ∈ w.net.reqEntry := h.entries ▸ List.mem_map_of_mem hx
  simpa using List.find?_eq_none.1 hf x.2 hmem

theorem Shows.find_some (h : Shows m w l) (hf : w.net.reqEntry.find? q = some ent) :
    ∃ pre a post, l = pre ++ (a, ent) :: post ∧ (∀ x ∈ pre, q x.2 = false) ∧ q ent = true ∧
      m.requests.find Fault.badAccess Fault.diverges q = .ok (some (a, Memory.before pre)) := by
  rw [← h.entries, List.find?_map, Option.map_eq_some_iff] at hf
  obtain ⟨⟨a, ent⟩, hx, rfl⟩ := hf
  obtain ⟨pre, post, rfl, hpre, hent⟩ := find?_split hx
  exact ⟨pre, a, post, rfl, hpre, hent, h.nodes.find_some _ _ hpre hent⟩

/-- The entries, at a node. -/
theorem Shows.entries_split (h : Shows m w (pre ++ (a, ent) :: post)) :
    w.net.reqEntry = pre.map Prod.snd ++ ent :: post.map Prod.snd := by
  rw [← h.entries, List.map_append, List.map_cons]

theorem find_at (hpre : ∀ x ∈ pre, q x.2 = false) (hent : q ent = true) :
    (pre.map Prod.snd ++ ent :: post.map Prod.snd).find? q = some ent := by
  have hnone : (pre.map Prod.snd).find? q = none := by
    rw [List.find?_map, Option.map_eq_none_iff, List.find?_eq_none]
    exact fun x hx => by simpa using hpre x hx
  rw [List.find?_append, hnone, Option.none_or, List.find?_cons_of_pos hent]

theorem eraseP_at (hpre : ∀ x ∈ pre, q x.2 = false) (hent : q ent = true) :
    (pre.map Prod.snd ++ ent :: post.map Prod.snd).eraseP q = (pre ++ post).map Prod.snd := by
  rw [List.map_append]
  refine eraseP_split (fun x hx => ?_) hent
  obtain ⟨y, hy, rfl⟩ := List.mem_map.1 hx
  exact hpre y hy

/-- **The node is still the first one**, after callbacks have run, for a property that does not look at the mark. -/
theorem found_again (hq : ∀ req : CoapReq κ, q req.clean = q req) (hpre : ∀ x ∈ pre, q x.2 = false)
    (hent : q ent = true) (h : ListHeap.Extends CoapReq.clean (pre ++ (a, ent) :: post) l') :
    ∃ pre' ent' post', l' = pre' ++ (a, ent') :: post' ∧ ent'.clean = ent.clean ∧
      Memory.before pre' = Memory.before pre ∧ (∀ x ∈ pre', q x.2 = false) ∧ q ent' = true := by
  obtain ⟨pre', ent', post', rfl, hclean, hbefore, hkeys⟩ := h.split
  refine ⟨pre', ent', post', rfl, hclean, hbefore, fun x hx => ?_, ?_⟩
  · have hmem : x.2.clean ∈ pre.map fun x => x.2.clean := hkeys ▸ List.mem_map_of_mem hx
    obtain ⟨y, hy, heq⟩ := List.mem_map.1 hmem
    rw [← hq, ← heq, hq]
    exact hpre y hy
  · rw [← hq, hclean, hq]
    exact hent

/-! ## Responses -/

/-- **A PDU.** -/
theorem Shows.messageHandler (hprog : prog.OnlyAsks) (h : Shows m w l) (ctx session : ℕ) (received : CoapPdu) :
    ∃ m' l', m.messageHandler prog ctx session received = .ok m' ∧
      Shows m' (AtlasClient.messageHandler prog ctx session received w) l' ∧ ListHeap.Extends CoapReq.clean l l' := by
  cases hf : w.net.reqEntry.find? (CoapReq.at ctx session) with
  | none =>
    have hsame : AtlasClient.messageHandler prog ctx session received w = w := by
      simp only [AtlasClient.messageHandler, hf]
    exact ⟨m, l, bind_of_ok (h.find_none hf) _, hsame.symm ▸ h, ListHeap.Extends.refl l⟩
  | some ent =>
    obtain ⟨pre, a, post, rfl, hpre, hent, hfind⟩ := h.find_some hf
    have hcall : m.messageHandler prog ctx session received =
        if !validateToken prog.endian received ent.token then .ok m
        else (m.requests.modify Fault.badAccess a fun req => { req with dirty := true }).bind fun requests =>
          RequestHeap.perform (prog.coapCb ent.callback ent.uri received.response.1 received.response.2)
            ⟨requests, m.world⟩ :=
      (bind_of_ok hfind _).trans (bind_of_ok (h.nodes.read _) _)
    by_cases hv : validateToken prog.endian received ent.token = true
    · obtain ⟨s, hmodify, hrep⟩ := h.nodes.modify Fault.badAccess fun req => { req with dirty := true }
      have hmarked : Shows ⟨s, m.world⟩ (w.mapNet (markDirty ctx session))
          (pre ++ (a, { ent with dirty := true }) :: post) := by
        refine ⟨hrep, ?_, h.world⟩
        have hfirst : updFirst (CoapReq.at ctx session) (fun ent => { ent with dirty := true }) w.net.reqEntry =
            pre.map Prod.snd ++ { ent with dirty := true } :: post.map Prod.snd := by
          rw [h.entries_split]
          refine updFirst_split (fun x hx => ?_) hent
          obtain ⟨y, hy, rfl⟩ := List.mem_map.1 hx
          exact hpre y hy
        rw [List.map_append, List.map_cons]
        exact hfirst.symm
      have hmem : { ent with dirty := true } ∈ (w.mapNet (markDirty ctx session)).net.reqEntry := by
        rw [hmarked.entries_split]
        simp
      -- the callback runs while the node is in the list
      obtain ⟨m', l', hperform, hshows, hext⟩ := hmarked.perform
        (hprog.coapCb _ _ hmem ent.uri received.response.1 received.response.2)
      have hstep : AtlasClient.messageHandler prog ctx session received w =
          prog.coapCb ent.callback ent.uri received.response.1 received.response.2
            (w.mapNet (markDirty ctx session)) := by
        simp only [AtlasClient.messageHandler, hf, hv, Bool.not_true, Bool.false_eq_true, if_false]
      have hmark : ListHeap.Extends CoapReq.clean (pre ++ (a, ent) :: post)
          (pre ++ (a, { ent with dirty := true }) :: post) :=
        ListHeap.extends_setValue rfl
      refine ⟨m', l', hcall.trans ?_, hstep.symm ▸ hshows, hmark.trans hext⟩
      refine (if_neg (by simp [hv])).trans ?_
      exact (bind_of_ok hmodify _).trans hperform
    · have hsame : AtlasClient.messageHandler prog ctx session received w = w := by
        simp only [AtlasClient.messageHandler, hf, hv]
        rfl
      refine ⟨m, _, hcall.trans ?_, hsame.symm ▸ h, ListHeap.Extends.refl _⟩
      exact if_pos (by simp [hv])

/-- What `coap_io_process` hands over. -/
theorem Shows.pdus (hprog : prog.OnlyAsks) (ctx session : ℕ) (pdus : List CoapPdu) : ∀ {m : RequestHeap α κ σ} {w l},
    Shows m w l → ∃ m' l',
      pdus.foldlM (fun m received => RequestHeap.messageHandler prog ctx session received m) m = .ok m' ∧
      Shows m' (pdus.foldl (fun w received => AtlasClient.messageHandler prog ctx session received w) w) l' ∧
      ListHeap.Extends CoapReq.clean l l' := by
  induction pdus with
  | nil => exact fun {m w l} h => ⟨m, l, rfl, h, ListHeap.Extends.refl l⟩
  | cons received pdus ih =>
    intro m w l h
    obtain ⟨m₁, l₁, hcall, h₁, hext₁⟩ := h.messageHandler hprog ctx session received
    obtain ⟨m', l', hrest, h', hext'⟩ := ih h₁
    refine ⟨m', l', ?_, h', hext₁.trans hext'⟩
    rw [List.foldlM_cons]
    exact (bind_of_ok hcall _).trans hrest

/-- **An entry goes**, with what `goes` takes away elsewhere. -/
theorem Shows.deleteRequest (h : Shows m w (pre ++ (a, ent) :: post)) (goes : CoapReq κ → Net α κ → Net α κ)
    (hgoes : ∀ n reqEntry, goes ent { n with reqEntry := reqEntry } = { goes ent n with reqEntry := reqEntry }) :
    ∃ m', m.deleteRequest a (Memory.before pre) goes = .ok m' ∧
      Shows m' (w.mapNet fun n => goes ent { n with reqEntry := (pre ++ post).map Prod.snd }) (pre ++ post) := by
  obtain ⟨s₁, hunlink, hread, s, hfree, hrep⟩ := h.nodes.unlink Fault.badAccess
  refine ⟨⟨s, m.world.mapNet (goes ent)⟩, ?_, hrep, ?_, ?_⟩
  · exact (bind_of_ok hunlink _).trans ((bind_of_ok hread _).trans (bind_of_ok hfree _))
  · exact (congrArg Net.reqEntry (hgoes w.net _)).symm
  · have hempty := hgoes w.net []
    have hleft := hgoes w.net ((pre ++ post).map Prod.snd)
    simp only [h.world, World.mapNet, World.withRequests, hempty, hleft]

theorem cancel_withRequests (id : ℤ) (n : Net α κ) (reqEntry : List (CoapReq κ)) :
    atlasAlarmCancel id { n with reqEntry := reqEntry } = { atlasAlarmCancel id n with reqEntry := reqEntry } := by
  unfold atlasAlarmCancel
  simp only
  split <;> rfl

/-- **A response**: the PDUs, then the entry goes if it is marked. -/
theorem Shows.coapClientSchedCallback (hprog : prog.OnlyAsks) (h : Shows m w l) (fd : ℤ) (pdus : List CoapPdu) :
    ∃ m' l', m.coapClientSchedCallback prog fd pdus = .ok m' ∧
      Shows m' (AtlasClient.coapClientSchedCallback prog fd pdus w) l' := by
  cases hf : w.net.reqEntry.find? fun req => req.coapFd = fd with
  | none =>
    have hsame : AtlasClient.coapClientSchedCallback prog fd pdus w = w := by
      simp only [AtlasClient.coapClientSchedCallback, hf]
    exact ⟨m, l, bind_of_ok (h.find_none hf) _, hsame.symm ▸ h⟩
  | some ent =>
    obtain ⟨pre, a, post, rfl, hpre, hent, hfind⟩ := h.find_some hf
    obtain ⟨m₁, l₁, hpdus, h₁, hext⟩ := h.pdus hprog ent.ctx ent.session pdus
    generalize hw₁ :
      pdus.foldl (fun w received => AtlasClient.messageHandler prog ent.ctx ent.session received w) w = w₁ at h₁
    -- the node that `p` points to, and the one in front of it
    obtain ⟨pre', ent', post', rfl, -, hbefore, hpre', hent'⟩ :=
      found_again (q := fun req => req.coapFd = fd) (fun _ => rfl) hpre hent hext
    have hcall : m.coapClientSchedCallback prog fd pdus =
        if ent'.dirty then m₁.deleteRequest a (Memory.before pre) fun req n =>
          atlasAlarmCancel req.alarmId { n with schedEntry := atlasSchedDelEntry req.coapFd n.schedEntry }
        else .ok m₁ :=
      (bind_of_ok hfind _).trans ((bind_of_ok (h.nodes.read _) _).trans
        ((bind_of_ok hpdus _).trans (bind_of_ok (h₁.nodes.read _) _)))
    have hf' : w₁.net.reqEntry.find? (fun req => req.coapFd = fd) = some ent' := by
      rw [h₁.entries_split]
      exact find_at hpre' hent'
    have herase : w₁.net.reqEntry.eraseP (fun req => req.coapFd = fd) = (pre' ++ post').map Prod.snd := by
      rw [h₁.entries_split]
      exact eraseP_at hpre' hent'
    have hstep : AtlasClient.coapClientSchedCallback prog fd pdus w = w₁.mapNet (unlinkIfDirty fd) := by
      simp only [AtlasClient.coapClientSchedCallback, hf, hw₁]
    cases hd : ent'.dirty with
    | true =>
      have hgoes (n : Net α κ) (reqEntry : List (CoapReq κ)) := cancel_withRequests ent'.alarmId
        { n with schedEntry := atlasSchedDelEntry ent'.coapFd n.schedEntry } reqEntry
      obtain ⟨m', hdelete, h'⟩ := h₁.deleteRequest (fun req n =>
        atlasAlarmCancel req.alarmId { n with schedEntry := atlasSchedDelEntry req.coapFd n.schedEntry }) hgoes
      rw [hbefore] at hdelete
      have hunlinked : w₁.mapNet (unlinkIfDirty fd) = w₁.mapNet fun n => atlasAlarmCancel ent'.alarmId
          { n with
            reqEntry := (pre' ++ post').map Prod.snd
            schedEntry := atlasSchedDelEntry ent'.coapFd n.schedEntry } := by
        simp only [World.mapNet, unlinkIfDirty, hf', hd, if_true, herase]
      refine ⟨m', pre' ++ post', hcall.trans ?_, ?_⟩
      · exact (if_pos hd).trans hdelete
      · rw [hstep, hunlinked]
        exact h'
    | false =>
      have hkept : w₁.mapNet (unlinkIfDirty fd) = w₁ := by
        simp only [World.mapNet, unlinkIfDirty, hf', hd, Bool.false_eq_true, if_false]
      refine ⟨m₁, pre' ++ (a, ent') :: post', hcall.trans ?_, ?_⟩
      · exact if_neg (by simp [hd])
      · rw [hstep, hkept]
        exact h₁

/-! ## Timeouts -/

/-- **A timeout**: the callback, then the entry goes. -/
theorem Shows.requestAlarmCb (hprog : prog.OnlyAsks) (h : Shows m w l) (alarmId : ℤ) :
    ∃ m' l', m.requestAlarmCb prog alarmId = .ok m' ∧ Shows m' (AtlasClient.requestAlarmCb prog alarmId w) l' := by
  cases hf : w.net.reqEntry.find? fun req => req.alarmId = alarmId with
  | none =>
    have hsame : AtlasClient.requestAlarmCb prog alarmId w = w := by
      simp only [AtlasClient.requestAlarmCb, hf]
    exact ⟨m, l, bind_of_ok (h.find_none hf) _, hsame.symm ▸ h⟩
  | some ent =>
    obtain ⟨pre, a, post, rfl, hpre, hent, hfind⟩ := h.find_some hf
    obtain ⟨m₁, l₁, hperform, h₁, hext⟩ := h.perform
      (hprog.coapCb w ent (List.mem_of_find?_eq_some hf) ent.uri .timeout [])
    generalize hw₁ : prog.coapCb ent.callback ent.uri .timeout [] w = w₁ at h₁
    obtain ⟨pre', ent', post', rfl, hclean, hbefore, hpre', hent'⟩ :=
      found_again (q := fun req => req.alarmId = alarmId) (fun _ => rfl) hpre hent hext
    have hfd : ent'.coapFd = ent.coapFd := by
      have hsame := congrArg CoapReq.coapFd hclean
      exact hsame
    have herase : w₁.net.reqEntry.eraseP (fun req => req.alarmId = alarmId) = (pre' ++ post').map Prod.snd := by
      rw [h₁.entries_split]
      exact eraseP_at hpre' hent'
    obtain ⟨m', hdelete, h'⟩ := h₁.deleteRequest (fun req n =>
      { n with schedEntry := atlasSchedDelEntry req.coapFd n.schedEntry }) fun _ _ => rfl
    rw [hbefore] at hdelete
    have hstep : AtlasClient.requestAlarmCb prog alarmId w = w₁.mapNet fun n =>
        { n with
          reqEntry := (pre' ++ post').map Prod.snd
          schedEntry := atlasSchedDelEntry ent'.coapFd n.schedEntry } := by
      simp only [AtlasClient.requestAlarmCb, hf, hw₁, World.mapNet, unlinkTimedOut, herase, hfd]
    refine ⟨m', pre' ++ post', ?_, ?_⟩
    · exact (bind_of_ok hfind _).trans ((bind_of_ok (h.nodes.read _) _).trans ((bind_of_ok hperform _).trans hdelete))
    · rw [hstep]
      exact h'

/-- **An alarm.** -/
theorem Shows.fire (hprog : prog.OnlyAsks) (h : Shows m w l) (fd : ℤ) :
    ∃ m' l', m.fire prog fd = .ok m' ∧ Shows m' (prog.fire fd w) l' := by
  have halarms : m.world.net.alarmEntry = w.net.alarmEntry := by
    rw [h.world]
    rfl
  cases hf : w.net.alarmEntry.find? fun p => p.alarmId = fd with
  | none =>
    have hsame : prog.fire fd w = w := by simp only [Program.fire, atlasAlarmTrigger, hf]
    refine ⟨m, l, ?_, hsame.symm ▸ h⟩
    simp only [RequestHeap.fire, halarms, hf]
  | some p =>
    have hrun : ∃ m₁ l₁, RequestHeap.runAlarm prog p.callback p.alarmId m = .ok m₁ ∧
        Shows m₁ (prog.runAlarm p.callback p.alarmId w) l₁ := by
      cases p.callback with
      | requestAlarmCb => exact h.requestAlarmCb hprog p.alarmId
      | app cb =>
        obtain ⟨m₁, l₁, hperform, h₁, -⟩ := h.perform (hprog.alarmCb cb p.alarmId w)
        exact ⟨m₁, l₁, hperform, h₁⟩
    obtain ⟨m₁, l₁, hcall, h₁⟩ := hrun
    have hfire : m.fire prog fd = .ok (if p.runOnce then m₁.mapWorld
        (World.mapNet (atlasAlarmCancel p.alarmId)) else m₁) := by
      simp only [RequestHeap.fire, halarms, hf]
      exact bind_of_ok hcall _
    have hstep : prog.fire fd w =
        if p.runOnce then (prog.runAlarm p.callback p.alarmId w).mapNet (atlasAlarmCancel p.alarmId)
        else prog.runAlarm p.callback p.alarmId w := by
      simp only [Program.fire, atlasAlarmTrigger, hf]
    rw [hstep]
    cases hr : p.runOnce with
    | false =>
      rw [hr] at hfire
      exact ⟨m₁, l₁, hfire, h₁⟩
    | true =>
      rw [hr] at hfire
      refine ⟨_, l₁, hfire, h₁.nodes, ?_, ?_⟩
      · exact h₁.entries.trans (cancel_reqEntry _ _).symm
      · simp only [if_true, mapWorld, h₁.world, World.mapNet, World.withRequests, cancel_withRequests]

end RequestHeap

end general

/-! ## The client -/

section client

variable {cfg : Cfg} {w w' : Client} {m : RequestHeap AppAlarm AppCb App} {l : List (ℕ × CoapReq AppCb)}

/-- A primitive that is neither a response nor a deletion. -/
def Kind.Asks : Kind → Prop
  | .marked _ => False
  | .unlinked _ _ _ _ => False
  | _ => True

theorem alarmSet_requests (ms : ℕ) (cb : AlarmCb AppAlarm) (once : Bool) (n : Net AppAlarm AppCb) :
    (atlasAlarmSet ms cb once n).2.reqEntry = n.reqEntry := by
  unfold atlasAlarmSet
  split <;> rfl

theorem resetAlarm_requests (uriPath : String) (old : ℤ) (ms : ℕ) (cb : AppAlarm) (store : ℤ → Telemetry → Telemetry)
    (w : Client) : (resetAlarm uriPath old ms cb store w).net.reqEntry = w.net.reqEntry := by
  have hset := alarmSet_requests ms (.app cb) false (if 0 ≤ old then atlasAlarmCancel old w.net else w.net)
  refine hset.trans ?_
  split
  · exact cancel_reqEntry _ _
  · rfl

theorem Requesting.of_eq (h : w'.net.reqEntry = w.net.reqEntry) : Requesting w w' := ⟨[], by rw [List.append_nil, h]⟩

theorem Act.asks {k : Kind} (h : Act k w w') (hk : k.Asks) : Requesting w w' := by
  cases h with
  | request uri method pl t cb _ =>
    obtain ⟨new, hnew, -⟩ := (request_grows uri method pl t cb w).reqs
    exact ⟨new, hnew.symm⟩
  | unregistered _ => exact .of_eq (cancel_reqEntry _ _)
  | keepalive _ ms => exact .of_eq (alarmSet_requests ms _ _ _)
  | retry _ ms _ => exact .of_eq (alarmSet_requests ms _ _ _)
  | fired _ _ _ => exact .of_eq (cancel_reqEntry _ _)
  | marked _ => exact absurd hk id
  | unlinked _ => exact absurd hk id
  | accepted _ accepted => exact .of_eq (acceptCb_same accepted w).2.1
  | resetPush _ ms => exact .of_eq (resetAlarm_requests _ _ ms _ _ w)
  | resetThreshold _ ms => exact .of_eq (resetAlarm_requests _ _ ms _ _ w)
  | _ => exact .of_eq rfl

theorem ActsOf.asks {kinds : List Kind} (h : ActsOf kinds w w') (hk : ∀ k ∈ kinds, k.Asks) : Requesting w w' :=
  h.rel (fun _ => List.prefix_rfl) (fun _ _ _ hab hbc => List.IsPrefix.trans hab hbc)
    fun k _ _ hmem hact => hact.asks (hk k hmem)

/-- **The callbacks of the client** do no more to the list than to make requests. -/
theorem client_onlyAsks (cfg : Cfg) : (client cfg).OnlyAsks where
  coapCb w r hr uri status payload := by
    refine ActsOf.asks (coapCallback_acts cfg hr uri status payload) ?_
    cases r.callback <;> simp [AppCb.kinds, Kind.Asks]
  alarmCb cb id w := by
    cases cb with
    | keepaliveAlarmCallback => exact ActsOf.asks (orStay_acts fun _ => sendKeepalive_acts) (by simp [Kind.Asks])
    | regAlarmCallback => exact ActsOf.asks (orStay_acts fun _ => sendRegister_acts) (by simp [Kind.Asks])
    | policyAlarmCallback => exact ActsOf.asks (orStay_acts fun _ => sendPolicy_acts) (by simp [Kind.Asks])
    | pushAlertAlarmCb => exact ActsOf.asks (pushAlert_acts id w) (by simp [Kind.Asks])
    | thresholdAlertAlarmCb => exact ActsOf.asks (thresholdAlert_acts id w) (by simp [Kind.Asks])

/-- So do the other events. -/
theorem outside_asks (cfg : Cfg) (w : Client) {e : Event} (he : e.outside) : Requesting w (w.step cfg e) := by
  cases e with
  | pdu _ _ _ => exact absurd he Bool.false_ne_true
  | ioDone _ => exact absurd he Bool.false_ne_true
  | alarm _ => exact absurd he Bool.false_ne_true
  | start => exact ActsOf.asks (orStay_acts fun _ => sendRegister_acts) (by simp [Kind.Asks])
  | telemetryAdd uriPath payloadCb =>
    simp only [Client.step, atlasTelemetryAdd]
    split <;> exact .of_eq rfl
  | telemetryDel uriPath =>
    simp only [Client.step, atlasTelemetryDel]
    split <;> exact .of_eq rfl
  | pushSet uriPath pushRate =>
    simp only [Client.step, atlasTelemetryPushSet]
    split
    · exact .of_eq rfl
    split
    · exact .of_eq rfl
    split
    · exact ActsOf.asks (push_acts _ false w) (by simp [Kind.Asks])
    · exact .of_eq (resetAlarm_requests _ _ _ _ _ w)
  | thresholdSet uriPath scanRate =>
    simp only [Client.step, atlasTelemetryThresholdSet]
    split
    · exact .of_eq rfl
    split
    · exact .of_eq rfl
    split
    · exact .of_eq rfl
    · exact .of_eq (resetAlarm_requests _ _ _ _ _ w)
  | dataPlaneRead fd received =>
    cases received with
    | none => exact .of_eq rfl
    | some buf =>
      exact ActsOf.asks (orStay_acts fun _ hw => (readCb_acts hw).1) (by simp [Kind.Asks])
  | dataPlaneAccept accepted => exact .of_eq (acceptCb_same accepted w).2.1

/-! ## Runs -/

/-- A callback of the main loop is a run of events. -/
theorem turn_eq_run (cfg : Cfg) (w : Client) (t : Turn) : ∃ es, w.turn cfg t = run (Client.step cfg) w es := by
  cases t with
  | alarm fd => exact ⟨[.alarm fd], rfl⟩
  | other e => exact ⟨[e.1], rfl⟩
  | response fd pdus =>
    cases hf : w.net.reqEntry.find? fun p => p.coapFd = fd with
    | none =>
      refine ⟨[], ?_⟩
      simp only [Client.turn, coapClientSchedCallback, hf]
      rfl
    | some p => exact ⟨_, sched_eq_run cfg fd pdus hf⟩

theorem turns_eq_run (cfg : Cfg) (turns : List Turn) : ∀ w : Client, ∃ es,
    run (Client.turn cfg) w turns = run (Client.step cfg) w es := by
  induction turns with
  | nil => exact fun w => ⟨[], rfl⟩
  | cons t turns ih =>
    intro w
    obtain ⟨es, hes⟩ := turn_eq_run cfg w t
    obtain ⟨fs, hfs⟩ := ih (w.turn cfg t)
    refine ⟨es ++ fs, ?_⟩
    rw [run_append, ← hes, ← hfs]
    rfl

/-- **One callback of the main loop.** -/
theorem RequestHeap.Shows.turn (h : m.Shows w l) (t : Turn) :
    ∃ m' l', m.turn cfg t = .ok m' ∧ m'.Shows (w.turn cfg t) l' := by
  cases t with
  | response fd pdus => exact h.coapClientSchedCallback (client_onlyAsks cfg) fd pdus
  | alarm fd => exact h.fire (client_onlyAsks cfg) fd
  | other e =>
    obtain ⟨m', l', hcall, h', -⟩ := h.perform (f := fun w => Client.step cfg w e.1) (outside_asks cfg w e.2)
    exact ⟨m', l', hcall, h'⟩

theorem RequestHeap.Shows.turns (cfg : Cfg) (turns : List Turn) :
    ∀ {m : RequestHeap AppAlarm AppCb App} {w l}, m.Shows w l →
    ∃ m' l', turns.foldlM (RequestHeap.turn cfg) m = .ok m' ∧ m'.Shows (run (Client.turn cfg) w turns) l' := by
  induction turns with
  | nil => exact fun {m w l} h => ⟨m, l, rfl, h⟩
  | cons t turns ih =>
    intro m w l h
    obtain ⟨m₁, l₁, hcall, h₁⟩ := h.turn t
    obtain ⟨m', l', hrest, h'⟩ := ih h₁
    refine ⟨m', l', ?_, h'⟩
    rw [List.foldlM_cons]
    exact (bind_of_ok hcall _).trans hrest

/-- **The nodes and the list are one.** In every run of the main loop's callbacks and of the other modules, with any
responses, timeouts and answers of the system, no function reads, writes or releases a node that is not there, although
the callbacks of the application make requests while the list is walked. The nodes have the entries of the list, the
rest of the program is in the same state, and as many nodes are allocated as there are requests. -/
theorem requests_refine (cfg : Cfg) (os : Os) (turns : List Turn) :
    ∃ m es, turns.foldlM (RequestHeap.turn cfg) (RequestHeap.init (Client.init os)) = .ok m ∧
      m.view = .ok (run (Client.turn cfg) (Client.init os) turns) ∧
      run (Client.turn cfg) (Client.init os) turns = run (Client.step cfg) (Client.init os) es ∧
      ∃ places : List ℕ, places.Nodup ∧ (∀ a, m.requests.heap a ≠ none ↔ a ∈ places) ∧
        places.length = (run (Client.turn cfg) (Client.init os) turns).net.reqEntry.length := by
  obtain ⟨m, l, hrun, h⟩ := RequestHeap.Shows.turns cfg turns (RequestHeap.init_shows (w := Client.init os) rfl)
  obtain ⟨es, hes⟩ := turns_eq_run cfg turns (Client.init os)
  refine ⟨m, es, hrun, h.view, hes, l.map Prod.fst, h.nodes.holds.chain.nodup, fun a => h.nodes.allocated, ?_⟩
  rw [← h.entries, List.length_map, List.length_map]

end client

end AtlasClient
