import AtlasClient.Proof.Acts

/-!
# What chains of primitives keep

The invariants of the client hold between its primitives, too, but for one thing: before the first
registration the id of the keep-alive is not an alarm. It is cancelled only for a keep-alive
request, so it is enough that there is none (`KaSafe`).

* `Act.baseInv`, `Act.kaOwned`, `Act.noKeepalive`: what every primitive keeps.
* `may_origin`: what an event has found, for each kind that it may use.
* `Act.alarmsOf`: the alarms of a callback are changed by its own kinds only.
* `client_rel`: **a relation that the primitives of an event keep, the event keeps.**
-/

namespace AtlasClient

open FirstMatch

variable {cfg : Cfg} {w w₁ w' : Client} {k : Kind}

/-! ## The invariants -/

def NoKeepalive (w : Client) : Prop := ∀ r ∈ w.net.reqEntry, r.callback ≠ .keepaliveCallback

/-- If the keep-alive alarm is cancelled, it is its own. -/
def KaSafe (w : Client) : Prop := KaOwned w ∨ NoKeepalive w

theorem KaOk.safe (h : KaOk w) : KaSafe w := h.imp_right fun hn => hn.reqs

theorem KaSafe.owned (h : KaSafe w) (hr : ∃ r ∈ w.net.reqEntry, r.callback = .keepaliveCallback) : KaOwned w := by
  obtain ⟨r, hm, hcb⟩ := hr
  exact h.resolve_right fun hno => hno r hm hcb

theorem KaOwned.mono (h : KaOwned w) (hka : w'.app.reg.kaAlarmId = w.app.reg.kaAlarmId)
    (hids : ∀ id ∈ w.net.idsOf keepaliveCb, id ∈ w'.net.idsOf keepaliveCb) : KaOwned w' := by
  unfold KaOwned
  rw [hka]
  exact h.imp_right (hids _)

theorem alarmSet_idsOf_subset (n : Net AppAlarm AppCb) (ms : ℕ) (cb cb' : AlarmCb AppAlarm) (once : Bool) :
    ∀ id ∈ n.idsOf cb', id ∈ (atlasAlarmSet ms cb once n).2.idsOf cb' := by
  obtain ⟨ids, hids, -⟩ := alarmSet_ids n ms cb once
  intro id hid
  rw [hids]
  exact List.mem_append_left _ hid

/-- An alarm that is no keep-alive alarm goes. -/
theorem KaOwned.cancel (h : KaOwned w) (hn : NetOk w.net) {id : ℤ} {cb : AlarmCb AppAlarm} (hid : id ∈ w.net.idsOf cb)
    (hcb : cb ≠ keepaliveCb) : KaOwned (w.mapNet (atlasAlarmCancel id)) := by
  refine h.mono rfl fun x hx => ?_
  show x ∈ (atlasAlarmCancel id w.net).idsOf keepaliveCb
  rw [idsOf_cancel_other hn hid hcb.symm]
  exact hx

/-- An alarm that runs once is none of those that repeat. -/
theorem notMem_of_once (hb : BaseInv w) {id : ℤ} {cb cb' : AlarmCb AppAlarm} (hid : id ∈ w.net.idsOf cb)
    (honce : runsOnce cb = true) (hcb' : runsOnce cb' = false) : cb ≠ cb' ∧ id ∉ w.net.idsOf cb' := by
  have hne : cb ≠ cb' := by
    rintro rfl
    rw [honce] at hcb'; cases hcb'
  exact ⟨hne, fun hm => hne (hb.net.callback_unique hid hm)⟩

/-- The entry is out, and its alarm is not yet cancelled. -/
theorem unlinked_base (hb : BaseInv w) {pre post : List (CoapReq AppCb)} {p : CoapReq AppCb}
    (hl : w.net.reqEntry = pre ++ p :: post) :
    let w₁ : Client := w.mapNet fun n =>
      { n with reqEntry := pre ++ post, schedEntry := atlasSchedDelEntry p.coapFd n.schedEntry }
    BaseInv w₁ ∧ (∀ r ∈ w₁.net.reqEntry, r.alarmId ≠ p.alarmId) ∧ p.alarmId ∈ w₁.net.idsOf .requestAlarmCb := by
  obtain ⟨hn, hreq⟩ := hb.net.unlink (s := atlasSchedDelEntry p.coapFd w.net.schedEntry) hl
  exact ⟨⟨hn, hb.kinds, hb.push.mono fun _ h => h, hb.threshold.mono fun _ h => h⟩, hreq,
    hb.net.own p (by rw [hl]; simp)⟩

theorem Act.baseInv (h : Act k w w') (hb : BaseInv w) (hka : KaSafe w) : BaseInv w' := by
  cases h with
  | answers _ os ho => exact hb.grows (S := fun _ => True) (Grows.of_eq rfl rfl rfl rfl ho)
  | request uri m pl t cb hpl => exact hb.grows (request_grows uri m pl t cb w)
  | counters f hf => exact hb.congr rfl rfl
  | registered => exact hb.congr rfl rfl
  | unregistered hr => exact (cancelKa hb (hka.owned hr)).1.congr rfl rfl
  | keepalive _ ms =>
    have hb' : BaseInv (w.mapNet fun n => (atlasAlarmSet ms keepaliveCb false n).2) := hb.alarmSet ms rfl
    exact hb'.congr rfl rfl
  | retry _ ms hcb => exact hb.alarmSet ms (by rcases hcb with rfl | rfl <;> rfl)
  | fired hid honce hreq =>
    exact hb.cancel hreq (notMem_of_once hb hid honce rfl).2 (notMem_of_once hb hid honce rfl).2
  | marked hf => exact ⟨hb.net.markDirty hf, hb.kinds, hb.push.mono fun _ h => h, hb.threshold.mono fun _ h => h⟩
  | @unlinked _ pre post p hl =>
    obtain ⟨hb₁, hreq, hown⟩ := unlinked_base hb hl
    exact hb₁.cancel hreq (notMem_of_once hb₁ hown rfl rfl).2 (notMem_of_once hb₁ hown rfl rfl).2
  | connector f hf => exact hb.congr rfl rfl
  | policy f hf => exact hb.congr rfl rfl
  | closed _ fd => exact hb.grows (sched_quiet (atlasSchedDelEntry fd) w).grows
  | accepted _ acc => exact hb.grows (acceptCb_quiet acc w).grows
  | added _ uriPath payloadCb =>
    refine ⟨hb.net, hb.kinds, ?_, ?_⟩
    · simpa [mapFeatures, World.mapApp] using hb.push.append_none
    · simpa [mapFeatures, World.mapApp] using hb.threshold.append_none
  | deleted _ uriPath =>
    exact ⟨hb.net, hb.kinds, hb.push.sublist (List.eraseP_sublist.map _),
      hb.threshold.sublist (List.eraseP_sublist.map _)⟩
  | resetPush hf ms => exact (AtlasClient.resetPush hb hf ms).1
  | resetThreshold hf ms => exact (AtlasClient.resetThreshold hb hf ms).1

theorem Act.kaOwned (h : Act k w w') (hb : BaseInv w) (hka : KaOwned w) : KaOwned w' := by
  cases h with
  | request uri m pl t cb hpl => exact hka.mono rfl ((request_grows uri m pl t cb w).idsOf_subset _)
  | counters f hf => exact hka.mono (hf _).2 fun _ hid => hid
  | unregistered hr => exact Or.inl rfl
  | keepalive _ ms =>
    obtain ⟨ids, hids, hid⟩ := alarmSet_ids w.net ms keepaliveCb false
    rcases hid with ⟨-, h1, -⟩ | ⟨fd, rfl, h1, -⟩
    · exact Or.inl h1
    · right
      show (atlasAlarmSet ms keepaliveCb false w.net).1 ∈ (atlasAlarmSet ms keepaliveCb false w.net).2.idsOf keepaliveCb
      rw [hids, h1]; simp
  | retry _ ms hcb => exact hka.mono rfl (alarmSet_idsOf_subset _ _ _ _ _)
  | fired hid honce hreq => exact hka.cancel hb.net hid (notMem_of_once hb hid honce rfl).1
  | @unlinked _ pre post p hl =>
    obtain ⟨hb₁, -, hown⟩ := unlinked_base hb hl
    exact KaOwned.cancel (w := w.mapNet fun n =>
      { n with reqEntry := pre ++ post, schedEntry := atlasSchedDelEntry p.coapFd n.schedEntry }) hka hb₁.net hown
        (by decide)
  | accepted _ acc =>
    have hq := acceptCb_quiet acc w
    exact hka.mono (by rw [hq.reg]) (hq.grows.idsOf_subset _)
  | resetPush hf ms =>
    obtain ⟨-, ha⟩ := AtlasClient.resetPush hb hf ms
    exact hka.mono (by rw [ha.reg]) fun id hid => by rw [ha.keepalives]; exact hid
  | resetThreshold hf ms =>
    obtain ⟨-, ha⟩ := AtlasClient.resetThreshold hb hf ms
    exact hka.mono (by rw [ha.reg]) fun id hid => by rw [ha.keepalives]; exact hid
  | _ => exact hka

theorem Act.noKeepalive (h : Act k w w') (hb : BaseInv w) (hk : k ≠ .request .keepaliveCallback) (hno : NoKeepalive w) :
    NoKeepalive w' := by
  -- no entry is new, but for that of a request
  have hsub : (∀ r ∈ w'.net.reqEntry, ∃ q ∈ w.net.reqEntry, q.callback = r.callback) → NoKeepalive w' := by
    intro hsub r hr hcb
    obtain ⟨q, hq, heq⟩ := hsub r hr
    exact hno q hq (heq.trans hcb)
  cases h with
  | request uri m pl t cb hpl =>
    obtain ⟨new, hr, hnew⟩ := (request_grows uri m pl t cb w).reqs
    intro r hm
    rw [hr] at hm
    rcases List.mem_append.1 hm with hm | hm
    · exact hno r hm
    · rw [hnew r hm]
      rintro rfl
      exact hk rfl
  | unregistered hr => exact hsub fun r hr => ⟨r, cancel_reqEntry _ _ ▸ hr, rfl⟩
  | keepalive _ ms => exact hsub fun r hr => ⟨r, (alarmSet_reqs w.net ms keepaliveCb false).1 ▸ hr, rfl⟩
  | @retry _ ms cb hcb => exact hsub fun r hr => ⟨r, (alarmSet_reqs w.net ms (.app cb) true).1 ▸ hr, rfl⟩
  | fired hid honce hreq => exact hsub fun r hr => ⟨r, cancel_reqEntry _ _ ▸ hr, rfl⟩
  | marked hf =>
    refine hsub fun r hr => ?_
    obtain ⟨q, hq, hcb, -⟩ := mem_markDirty hf hr
    exact ⟨q, hq, hcb⟩
  | @unlinked _ pre post p hl =>
    refine hsub fun r hr => ⟨r, ?_, rfl⟩
    rw [hl]
    exact sublist_split.subset (by simpa [World.mapNet] using hr)
  | accepted _ acc =>
    obtain ⟨new, hr, hnew⟩ := (acceptCb_quiet acc w).grows.reqs
    intro r hm
    rw [hr] at hm
    rcases List.mem_append.1 hm with hm | hm
    · exact hno r hm
    · exact (hnew r hm).2
  | resetPush hf ms => exact hsub fun r hr => ⟨r, (AtlasClient.resetPush hb hf ms).2.reqs ▸ hr, rfl⟩
  | resetThreshold hf ms => exact hsub fun r hr => ⟨r, (AtlasClient.resetThreshold hb hf ms).2.reqs ▸ hr, rfl⟩
  | _ => exact hno

/-! ## Where the primitives come from -/

/-- The event reaches a request with the callback `cb`. -/
def Client.Reaches (w : Client) (cb : AppCb) : Event → Prop
  | .pdu ctx session _ => ∃ r, w.net.reqEntry.find? (CoapReq.at ctx session) = some r ∧ r.callback = cb
  | .alarm fd => ∃ r, w.net.reqEntry.find? (fun p => p.alarmId = fd) = some r ∧ r.callback = cb
  | _ => False

/-- What the alarm `fd` of a module may use. -/
def AppAlarm.kinds (fd : ℤ) : AppAlarm → List Kind
  | .keepaliveAlarmCallback => [.counters, .answers, .request .keepaliveCallback]
  | .regAlarmCallback => [.answers, .request .regCallback, .fired fd retryCb]
  | .policyAlarmCallback => [.request .policyCallback, .fired fd (.app .policyAlarmCallback)]
  | .pushAlertAlarmCb => telemetryKinds
  | .thresholdAlertAlarmCb => telemetryKinds

/-- What an event finds, and the kinds that it may use then. -/
inductive Origin (w : Client) : Event → Kind → Prop
  | start {k : Kind} (hk : k ∈ [.answers, .request .regCallback]) : Origin w .start k
  | marked {ctx session : ℕ} {ent : CoapReq AppCb} (hf : w.net.reqEntry.find? (CoapReq.at ctx session) = some ent)
    (received : CoapPdu) : Origin w (.pdu ctx session received) (.marked ent.callback)
  | callback {e : Event} {cb : AppCb} {k : Kind} (h : w.Reaches cb e) (hk : k ∈ cb.kinds w.app.reg.kaAlarmId) :
    Origin w e k
  | unlinked {fd : ℤ} {p : CoapReq AppCb} (hf : w.net.reqEntry.find? (fun p => p.coapFd = fd) = some p) :
    Origin w (.ioDone fd) (.unlinked p.alarmId p.coapFd p.callback true)
  | unowned {fd : ℤ} {a : AlarmEntry AppAlarm} (hf : w.net.alarmEntry.find? (fun p => p.alarmId = fd) = some a)
    (hcb : a.callback = .requestAlarmCb) : Origin w (.alarm fd) (.fired fd .requestAlarmCb)
  | timedOut {fd : ℤ} {a : AlarmEntry AppAlarm} {p : CoapReq AppCb}
    (hf : w.net.alarmEntry.find? (fun p => p.alarmId = fd) = some a) (hcb : a.callback = .requestAlarmCb)
    (hp : w.net.reqEntry.find? (fun p => p.alarmId = fd) = some p) :
    Origin w (.alarm fd) (.unlinked fd p.coapFd p.callback p.dirty)
  | alarm {fd : ℤ} {a : AlarmEntry AppAlarm} {cb : AppAlarm} {k : Kind}
    (hf : w.net.alarmEntry.find? (fun p => p.alarmId = fd) = some a) (hcb : a.callback = .app cb)
    (hk : k ∈ cb.kinds fd) :
    Origin w (.alarm fd) k
  | added (uriPath : Option String) (payloadCb : Option ℕ) : Origin w (.telemetryAdd uriPath payloadCb) .features
  | deleted (uriPath : Option String) : Origin w (.telemetryDel uriPath) .features
  | pushed (uriPath : String) (pushRate : UInt16) {k : Kind} (hk : k ∈ telemetryKinds) :
    Origin w (.pushSet (some uriPath) pushRate) k
  | resetPush {uriPath : String} {p : Telemetry} (hf : w.app.features.find? (fun p => p.uriPath = uriPath) = some p)
    (pushRate : UInt16) : Origin w (.pushSet (some uriPath) pushRate) (.reset .pushAlertAlarmCb uriPath p.pushId)
  | resetThreshold {uriPath : String} {p : Telemetry}
    (hf : w.app.features.find? (fun p => p.uriPath = uriPath) = some p) (scanRate : UInt16) :
    Origin w (.thresholdSet (some uriPath) scanRate) (.reset .thresholdAlertAlarmCb uriPath p.thresholdId)
  | message (fd : ℤ) (buf : Bytes) {k : Kind} (hk : k ∈ policyKinds ++ otherKinds) :
    Origin w (.dataPlaneRead fd (some buf)) k
  | closed (fd : ℤ) : Origin w (.dataPlaneRead fd none) .socket
  | accepted (accepted : Option Fresh) : Origin w (.dataPlaneAccept accepted) .socket

/-- **Every kind has its origin.** -/
theorem may_origin {e : Event} (hk : k ∈ w.may e) : Origin w e k := by
  cases e with
  | start => exact .start hk
  | pdu ctx session received =>
    simp only [Client.may] at hk
    split at hk
    · cases hk
    · rename_i ent hf
      rcases List.mem_cons.1 hk with rfl | hk
      · exact .marked hf received
      · exact .callback ⟨ent, hf, rfl⟩ hk
  | ioDone fd =>
    simp only [Client.may] at hk
    split at hk
    · cases hk
    · rename_i p hf
      rw [List.mem_singleton.1 hk]
      exact .unlinked hf
  | alarm fd =>
    simp only [Client.may] at hk
    split at hk
    · cases hk
    · rename_i a hf
      split at hk
      · rename_i hcb
        split at hk
        · rw [List.mem_singleton.1 hk]
          exact .unowned hf hcb
        · rename_i p hp
          rcases List.mem_cons.1 hk with rfl | hk
          · exact .timedOut hf hcb hp
          · exact .callback ⟨p, hp, rfl⟩ hk
      all_goals
        rename_i hcb
        exact .alarm hf hcb hk
  | telemetryAdd uriPath payloadCb => rw [List.mem_singleton.1 hk]; exact .added uriPath payloadCb
  | telemetryDel uriPath => rw [List.mem_singleton.1 hk]; exact .deleted uriPath
  | pushSet uriPath pushRate =>
    cases uriPath with
    | none => cases hk
    | some uriPath =>
      simp only [Client.may] at hk
      split at hk
      · cases hk
      · rename_i p hf
        have hk : k ∈ telemetryKinds ++ [.reset .pushAlertAlarmCb uriPath p.pushId] := hk
        rcases List.mem_append.1 hk with hk | hk
        · exact .pushed uriPath pushRate hk
        · rw [List.mem_singleton.1 hk]
          exact .resetPush hf pushRate
  | thresholdSet uriPath scanRate =>
    cases uriPath with
    | none => cases hk
    | some uriPath =>
      simp only [Client.may] at hk
      split at hk
      · cases hk
      · rename_i p hf
        rw [List.mem_singleton.1 hk]
        exact .resetThreshold hf scanRate
  | dataPlaneRead fd received =>
    cases received with
    | none => rw [List.mem_singleton.1 hk]; exact .closed fd
    | some buf => exact .message fd buf hk
  | dataPlaneAccept accepted => rw [List.mem_singleton.1 hk]; exact .accepted accepted

/-! ## Relations -/

/-- **A relation that the primitives keep**, from states in which the invariants hold. -/
theorem Acts.rel_inv {K : Kind → Prop} {R : Client → Client → Prop} (hrefl : ∀ a, R a a)
    (htrans : ∀ a b c, R a b → R b c → R a c)
    (hact : ∀ k a b, K k → BaseInv a → KaSafe a → Act k a b → R a b) (h : Acts K w w') (hb : BaseInv w)
    (hka : KaOwned w ∨ NoKeepalive w ∧ ¬ K (.request .keepaliveCallback)) : R w w' := by
  -- the invariants go along the chain
  have hrel : BaseInv w → (KaOwned w ∨ NoKeepalive w ∧ ¬ K (.request .keepaliveCallback)) → R w w' ∧ BaseInv w' ∧
      (KaOwned w' ∨ NoKeepalive w' ∧ ¬ K (.request .keepaliveCallback)) := by
    refine h.rel (R := fun a b => BaseInv a → (KaOwned a ∨ NoKeepalive a ∧ ¬ K (.request .keepaliveCallback)) →
      R a b ∧ BaseInv b ∧ (KaOwned b ∨ NoKeepalive b ∧ ¬ K (.request .keepaliveCallback))) ?_ ?_ ?_
    · exact fun a hb hka => ⟨hrefl a, hb, hka⟩
    · intro a b c hab hbc hb hka
      obtain ⟨h₁, hb₁, hka₁⟩ := hab hb hka
      obtain ⟨h₂, hb₂, hka₂⟩ := hbc hb₁ hka₁
      exact ⟨htrans a b c h₁ h₂, hb₂, hka₂⟩
    · intro k a b hk hab hb hka
      have hsafe : KaSafe a := hka.imp_right And.left
      refine ⟨hact k a b hk hb hsafe hab, hab.baseInv hb hsafe, ?_⟩
      rcases hka with hka | ⟨hno, hk'⟩
      · exact Or.inl (hab.kaOwned hb hka)
      · exact Or.inr ⟨hab.noKeepalive hb (fun heq => hk' (heq ▸ hk)) hno, hk'⟩
  exact (hrel hb hka).1

/-- A keep-alive is requested when the keep-alive alarm fires. -/
theorem may_keepalive {e : Event} (hk : .request .keepaliveCallback ∈ w.may e) : w.net.idsOf keepaliveCb ≠ [] := by
  generalize hkind : Kind.request .keepaliveCallback = k at hk
  cases may_origin hk with
  | start hk => subst hkind; simp at hk
  | @callback _ cb _ _ hk => subst hkind; cases cb <;> simp [AppCb.kinds] at hk
  | @alarm fd a cb _ hf hcb hk =>
    subst hkind
    cases cb <;> simp [AppAlarm.kinds] at hk
    exact List.ne_nil_of_mem (mem_idsOf.2 ⟨a, List.mem_of_find?_eq_some hf, hcb, rfl⟩)
  | pushed _ _ hk => subst hkind; simp at hk
  | message _ _ hk => subst hkind; simp at hk
  | _ => cases hkind

/-- **A relation that the primitives of an event keep**, the event keeps. -/
theorem client_rel (cfg : Cfg) {R : Client → Client → Prop} (hrefl : ∀ a, R a a)
    (htrans : ∀ a b c, R a b → R b c → R a c) {e : Event}
    (hact : ∀ k a b, k ∈ w.may e → BaseInv a → KaSafe a → Act k a b → R a b) (h : BaseInv w) (hka : KaOk w) :
    R w (w.step cfg e) := by
  refine (client_acts cfg h hka e).rel_inv hrefl htrans hact h ?_
  rcases hka with hka | hn
  · exact Or.inl hka
  · exact Or.inr ⟨hn.reqs, fun hk => may_keepalive hk hn.alarms⟩

/-! ## The alarms of a callback -/

def Net.alarmsOf (n : Net AppAlarm AppCb) (cb : AlarmCb AppAlarm) : List (AlarmEntry AppAlarm) :=
  n.alarmEntry.filter fun a => a.callback = cb

/-- The callback of the alarms that a primitive sets and cancels. -/
def Kind.alarmCb : Kind → Option (AlarmCb AppAlarm)
  | .request _ => some .requestAlarmCb
  | .unregistered _ => some keepaliveCb
  | .keepalive => some keepaliveCb
  | .retry cb => some (.app cb)
  | .fired _ cb => some cb
  | .unlinked _ _ _ _ => some .requestAlarmCb
  | .reset cb _ _ => some (.app cb)
  | _ => none

theorem alarmsOf_append {n n' : Net AppAlarm AppCb} {new : List (AlarmEntry AppAlarm)} {cb : AlarmCb AppAlarm}
    (ha : n'.alarmEntry = n.alarmEntry ++ new) (hnew : ∀ a ∈ new, a.callback ≠ cb) :
    n'.alarmsOf cb = n.alarmsOf cb := by
  unfold Net.alarmsOf
  have hnil : (new.filter fun a => a.callback = cb) = [] :=
    List.filter_eq_nil_iff.2 fun a hm => by simpa using hnew a hm
  rw [ha, List.filter_append, hnil, List.append_nil]

theorem alarmsOf_cancel {n : Net AppAlarm AppCb} (hn : NetOk n) {id : ℤ} {cb : AlarmCb AppAlarm}
    (hid : id ∉ n.idsOf cb) : (atlasAlarmCancel id n).alarmsOf cb = n.alarmsOf cb := by
  unfold Net.alarmsOf
  rw [cancel_alarms hn, List.filter_filter]
  refine List.filter_congr fun a ha => ?_
  by_cases hcb : a.callback = cb
  · have hne : a.alarmId ≠ id := fun heq => hid (mem_idsOf.2 ⟨a, ha, hcb, heq⟩)
    simp [hcb, hne]
  · simp [hcb]

theorem alarmsOf_set {n : Net AppAlarm AppCb} {ms : ℕ} {cb cb' : AlarmCb AppAlarm} {once : Bool} (hne : cb ≠ cb') :
    (atlasAlarmSet ms cb once n).2.alarmsOf cb' = n.alarmsOf cb' := by
  rcases alarmSet_cases ms cb once n with ⟨-, heq⟩ | ⟨fd, s, -, -, -, heq⟩
  · rw [heq]; rfl
  · rw [heq]
    refine alarmsOf_append (n := n) rfl fun a ha => ?_
    rw [List.mem_singleton.1 ha]
    exact hne

/-- **`swapAlarm`** takes the old alarm out and sets the new one, unless that fails. -/
theorem swapAlarm_alarms {n : Net AppAlarm AppCb} (hn : NetOk n) (old : ℤ) (ms : ℕ) (cb : AppAlarm) :
    let res := swapAlarm old ms cb n
    ∃ new, res.2.alarmEntry = (n.alarmEntry.filter fun a => a.alarmId ≠ old) ++ new ∧
      (new = [] ∧ res.1 = -1 ∨ new = [⟨res.1, .app cb, false, ms⟩]) := by
  unfold swapAlarm
  set n₁ := if 0 ≤ old then atlasAlarmCancel old n else n with hn₁
  have hal : n₁.alarmEntry = n.alarmEntry.filter fun a => a.alarmId ≠ old := by
    rw [hn₁]
    split
    · exact cancel_alarms hn old
    · rw [eq_comm, List.filter_eq_self]
      intro a ha
      have := hn.nonneg _ (List.mem_append_left _ (List.mem_map_of_mem ha))
      have hne : a.alarmId ≠ old := by omega
      simpa using hne
  rcases alarmSet_cases ms (.app cb) false n₁ with ⟨-, heq⟩ | ⟨fd, s, -, -, -, heq⟩
  · exact ⟨[], by simp [heq, hal], Or.inl ⟨rfl, by rw [heq]⟩⟩
  · exact ⟨[⟨fd, .app cb, false, ms⟩], by simp [heq, hal], Or.inr (by rw [heq])⟩

/-- The feature whose alarm is replaced, among the others. -/
theorem resetAlarm_split {uriPath : String} {p : Telemetry} (old : ℤ) (ms : ℕ) (cb : AppAlarm)
    (store : ℤ → Telemetry → Telemetry) (hf : w.app.features.find? (fun p => p.uriPath = uriPath) = some p) :
    ∃ pre post, w.app.features = pre ++ p :: post ∧
      (resetAlarm uriPath old ms cb store w).app.features = pre ++ store (swapAlarm old ms cb w.net).1 p :: post ∧
      p.uriPath = uriPath := by
  obtain ⟨pre, post, hl, hpre, hp⟩ := find?_split hf
  refine ⟨pre, post, hl, ?_, by simpa using hp⟩
  simp only [resetAlarm, mapFeatures, World.mapApp, hl, updFirst_split hpre hp]

theorem swapAlarm_other {n : Net AppAlarm AppCb} (hn : NetOk n) {old : ℤ} {ms : ℕ} {cb : AppAlarm}
    {cb' : AlarmCb AppAlarm} (hne : .app cb ≠ cb') (hold : old = -1 ∨ old ∈ n.idsOf (.app cb)) :
    (swapAlarm old ms cb n).2.alarmsOf cb' = n.alarmsOf cb' := by
  unfold swapAlarm
  rw [alarmsOf_set hne]
  split
  · rename_i h0
    have hlive := hold.resolve_left (by omega)
    exact alarmsOf_cancel hn fun hm => hne (hn.callback_unique hlive hm)
  · rfl

/-- **The alarms of a callback** are changed by its own kinds only. -/
theorem Act.alarmsOf (h : Act k w w') (hb : BaseInv w) (hka : KaSafe w) {cb : AlarmCb AppAlarm}
    (hcb : k.alarmCb ≠ some cb) : w'.net.alarmsOf cb = w.net.alarmsOf cb := by
  cases h with
  | request uri m pl t cb' hpl =>
    obtain ⟨new, ha, hnew⟩ := (request_grows uri m pl t cb' w).alarms
    exact alarmsOf_append ha fun a hm heq => hcb (by rw [← heq, (hnew a hm).1]; rfl)
  | unregistered hr =>
    refine alarmsOf_cancel hb.net fun hm => ?_
    rcases hka.owned hr with h | h
    · exact hb.net.neg_notMem cb (h ▸ hm)
    · exact hcb (by rw [hb.net.callback_unique hm h]; rfl)
  | keepalive _ ms => exact alarmsOf_set fun heq => hcb (by rw [← heq]; rfl)
  | retry _ ms h => exact alarmsOf_set fun heq => hcb (by rw [← heq]; rfl)
  | fired hid honce hreq =>
    exact alarmsOf_cancel hb.net fun hm => hcb (by rw [hb.net.callback_unique hm hid]; rfl)
  | @unlinked _ pre post p hl =>
    obtain ⟨hb₁, -, hown⟩ := unlinked_base hb hl
    exact alarmsOf_cancel hb₁.net fun hm => hcb (by rw [hb₁.net.callback_unique hm hown]; rfl)
  | accepted _ acc =>
    unfold Net.alarmsOf
    rw [(acceptCb_same acc w).1]
  | @resetPush _ uriPath p hf ms =>
    refine swapAlarm_other hb.net (fun heq => hcb (by rw [← heq]; rfl)) (hb.push.live _ ?_)
    exact List.mem_map_of_mem (List.mem_of_find?_eq_some hf)
  | @resetThreshold _ uriPath p hf ms =>
    refine swapAlarm_other hb.net (fun heq => hcb (by rw [← heq]; rfl)) (hb.threshold.live _ ?_)
    exact List.mem_map_of_mem (List.mem_of_find?_eq_some hf)
  | _ => rfl

end AtlasClient
