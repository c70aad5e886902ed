import AtlasClient.Proof.Chains
import AtlasClient.Proof.Keepalive
import Mathlib.Data.List.Pairwise

/-!
# Stored alarm ids

An alarm id is kept by whoever set the alarm: the registration module, a feature, a request.

* `OwnInv`: the invariant from the first registration on; every primitive keeps it.
* `Handover`: what a step does to the alarms and to the ids stored.
* `alarms_owned`: **every stored id is the owner's own live alarm**, in every state, and every step
  takes away only alarms of those that it works for.
-/

namespace AtlasClient

open FirstMatch Machine

variable {cfg : Cfg} {w w₁ w' : Client}

/-! ## Owners -/

inductive Owner
  | keepalive
  | push (uriPath : String)
  | threshold (uriPath : String)
  | request (ctx : ℕ)
  deriving DecidableEq

/-- The callback of an owner's alarm. -/
def Owner.callback : Owner → AlarmCb AppAlarm
  | .keepalive => keepaliveCb
  | .push _ => pushCb
  | .threshold _ => thresholdCb
  | .request _ => .requestAlarmCb

/-- Every stored id, with its owner. -/
def Client.slots (w : Client) : List (Owner × ℤ) :=
  (.keepalive, w.app.reg.kaAlarmId) ::
    ((w.app.features.map fun p => (.push p.uriPath, p.pushId)) ++
      ((w.app.features.map fun p => (.threshold p.uriPath, p.thresholdId)) ++
        w.net.reqEntry.map fun r => (.request r.ctx, r.alarmId)))

/-- Each id is `-1`, or that of a live alarm with the owner's callback; no two are the same alarm. -/
structure OwnAlarms (w : Client) : Prop where
  live : ∀ s ∈ w.slots, s.2 = -1 ∨
    ∃ a, w.net.alarmEntry.find? (fun p => p.alarmId = s.2) = some a ∧ a.callback = s.1.callback
  alone : w.slots.Pairwise fun s t => s.2 = t.2 → s.2 = -1

/-- The invariant from the first registration on. Every primitive keeps it. -/
def OwnInv (w : Client) : Prop := BaseInv w ∧ KaOwned w

theorem OwnInv.mem_idsOf (h : OwnInv w) : ∀ s ∈ w.slots, s.2 = -1 ∨ s.2 ∈ w.net.idsOf s.1.callback := by
  intro s hs
  simp only [Client.slots, List.mem_cons, List.mem_append, List.mem_map] at hs
  rcases hs with rfl | ⟨p, hp, rfl⟩ | ⟨p, hp, rfl⟩ | ⟨r, hr, rfl⟩
  · exact h.2
  · exact h.1.push.live _ (List.mem_map_of_mem hp)
  · exact h.1.threshold.live _ (List.mem_map_of_mem hp)
  · exact Or.inr (h.1.net.own r hr)

/-- Alarms of different callbacks are different alarms. -/
theorem OwnInv.callback_eq (h : OwnInv w) {s t : Owner × ℤ} (hs : s ∈ w.slots) (ht : t ∈ w.slots)
    (heq : s.2 = t.2) (hne : s.1.callback ≠ t.1.callback) : s.2 = -1 := by
  rcases h.mem_idsOf s hs with h1 | h1
  · exact h1
  rcases h.mem_idsOf t ht with h2 | h2
  · exact heq.trans h2
  · exact absurd (h.1.net.callback_unique h1 (heq ▸ h2)) hne

theorem OwnInv.ownAlarms (h : OwnInv w) : OwnAlarms w := by
  refine ⟨fun s hs => (h.mem_idsOf s hs).imp_right fun hid => ?_, ?_⟩
  · obtain ⟨a, ha, hcb, hid⟩ := AtlasClient.mem_idsOf.1 hid
    exact ⟨a, by rw [← hid]; exact find?_key h.1.net.ids_nodup ha, hcb⟩
  · have hother := fun s hs t ht => h.callback_eq (s := s) (t := t) hs ht
    -- one list for each callback; across the lists the callbacks differ
    have hpush : (w.app.features.map fun p => ((.push p.uriPath, p.pushId) : Owner × ℤ)).Pairwise
        fun s t => s.2 = t.2 → s.2 = -1 := List.pairwise_map.2 (List.pairwise_map.1 h.1.push.alone)
    have hthr : (w.app.features.map fun p => ((.threshold p.uriPath, p.thresholdId) : Owner × ℤ)).Pairwise
        fun s t => s.2 = t.2 → s.2 = -1 := List.pairwise_map.2 (List.pairwise_map.1 h.1.threshold.alone)
    have hreq : (w.net.reqEntry.map fun r => ((.request r.ctx, r.alarmId) : Owner × ℤ)).Pairwise
        fun s t => s.2 = t.2 → s.2 = -1 :=
      List.pairwise_map.2 ((List.pairwise_map.1 h.1.net.alone).imp fun hne heq => absurd heq hne)
    unfold Client.slots at hother ⊢
    rw [List.pairwise_cons, List.pairwise_append, List.pairwise_append]
    refine ⟨?_, hpush, ⟨hthr, hreq, ?_⟩, ?_⟩
    · intro t ht heq
      refine hother _ (by simp) t (List.mem_cons_of_mem _ ht) heq ?_
      simp only [List.mem_append, List.mem_map] at ht
      rcases ht with ⟨p, -, rfl⟩ | ⟨p, -, rfl⟩ | ⟨r, -, rfl⟩ <;> simp [Owner.callback]
    · intro s hs t ht heq
      refine hother s (by simp [List.mem_map.1 hs]) t (by simp [List.mem_map.1 ht]) heq ?_
      obtain ⟨p, -, rfl⟩ := List.mem_map.1 hs
      obtain ⟨r, -, rfl⟩ := List.mem_map.1 ht
      simp [Owner.callback]
    · intro s hs t ht heq
      refine hother s (by simp [List.mem_map.1 hs]) t (List.mem_cons_of_mem _ (List.mem_append_right _ ht)) heq ?_
      obtain ⟨p, -, rfl⟩ := List.mem_map.1 hs
      simp only [List.mem_append, List.mem_map] at ht
      rcases ht with ⟨p, -, rfl⟩ | ⟨r, -, rfl⟩ <;> simp [Owner.callback]

/-! ## What a step does to the alarms -/

/-- The id of the alarm that a primitive cancels. -/
def Kind.cancels : Kind → Option ℤ
  | .unregistered id => some id
  | .fired id _ => some id
  | .unlinked id _ _ _ => some id
  | .reset _ _ old => some old
  | _ => none

/-- The owners for whom it sets one. -/
def Kind.Sets : Kind → Owner → Prop
  | .request _, .request _ => True
  | .keepalive, .keepalive => True
  | .reset .pushAlertAlarmCb uriPath _, .push u => u = uriPath
  | .reset .thresholdAlertAlarmCb uriPath _, .threshold u => u = uriPath
  | _, _ => False

/-- The alarms `gone` are cancelled, each of which `C` allows, and the alarms `new` are set. An id stored
afterwards was stored before, and its alarm is not among those that went, or it is that of a new
alarm, set for an owner in `S`. -/
structure HandsOver (C : AlarmEntry AppAlarm → Prop) (S : Owner → Prop) (gone : List ℤ)
    (new : List (AlarmEntry AppAlarm)) (w w' : Client) : Prop where
  alarms : w'.net.alarmEntry = (w.net.alarmEntry.filter fun a => a.alarmId ∉ gone) ++ new
  cancelled : ∀ a ∈ w.net.alarmEntry, a.alarmId ∈ gone → C a
  ids : ∀ s ∈ w'.slots, s.2 ≠ -1 → (s ∈ w.slots ∧ s.2 ∉ gone) ∨
    S s.1 ∧ ∃ a ∈ new, a.alarmId = s.2 ∧ a.callback = s.1.callback

def Handover (C : AlarmEntry AppAlarm → Prop) (S : Owner → Prop) (w w' : Client) : Prop :=
  ∃ gone new, HandsOver C S gone new w w'

variable {C D : AlarmEntry AppAlarm → Prop} {S T : Owner → Prop}

theorem Handover.refl (w : Client) : Handover C S w w :=
  ⟨[], [], by simp, by simp, fun s hs _ => Or.inl ⟨hs, by simp⟩⟩

theorem Handover.mono (hC : ∀ a ∈ w.net.alarmEntry, C a → D a) (hS : ∀ o, S o → T o) (h : Handover C S w w') :
    Handover D T w w' := by
  obtain ⟨gone, new, h⟩ := h
  exact ⟨gone, new, h.alarms, fun a ha hid => hC a ha (h.cancelled a ha hid), fun s hsm hne =>
    (h.ids s hsm hne).imp_right fun hset => ⟨hS _ hset.1, hset.2⟩⟩

theorem Handover.trans (h : Handover C S w w₁) (h' : Handover C S w₁ w') : Handover C S w w' := by
  obtain ⟨g, n, h⟩ := h
  obtain ⟨g', n', h'⟩ := h'
  refine ⟨g ++ g', (n.filter fun a => a.alarmId ∉ g') ++ n', ?_, ?_, ?_⟩
  · rw [h'.alarms, h.alarms, List.filter_append, List.filter_filter, List.append_assoc]
    congr 1
    refine List.filter_congr fun a _ => ?_
    simp [Bool.and_comm]
  · intro a ha hid
    by_cases hg : a.alarmId ∈ g
    · exact h.cancelled a ha hg
    -- the second step finds the alarm that the first has left
    · refine h'.cancelled a ?_ ((List.mem_append.1 hid).resolve_left hg)
      rw [h.alarms]
      exact List.mem_append_left _ (List.mem_filter.2 ⟨ha, by simpa using hg⟩)
  · intro s hsm hne
    rcases h'.ids s hsm hne with ⟨hsm₁, hno'⟩ | ⟨hset, a, ham, hid, hcb⟩
    · rcases h.ids s hsm₁ hne with ⟨hsm₀, hno⟩ | ⟨hset, a, ham, hid, hcb⟩
      · exact Or.inl ⟨hsm₀, by simp [hno, hno']⟩
      · refine Or.inr ⟨hset, a, List.mem_append_left _ ?_, hid, hcb⟩
        exact List.mem_filter.2 ⟨ham, by simpa [hid] using hno'⟩
    · exact Or.inr ⟨hset, a, List.mem_append_right _ ham, hid, hcb⟩

/-! ### The shapes of a primitive -/

/-- Nothing is cancelled. -/
theorem handover_append {new : List (AlarmEntry AppAlarm)} (ha : w'.net.alarmEntry = w.net.alarmEntry ++ new)
    (hs : ∀ s ∈ w'.slots, s.2 ≠ -1 → s ∈ w.slots ∨ S s.1 ∧ ∃ a ∈ new, a.alarmId = s.2 ∧ a.callback = s.1.callback) :
    Handover C S w w' :=
  ⟨[], new, by simp [ha], by simp, fun s hsm hne => (hs s hsm hne).imp_left fun h => ⟨h, by simp⟩⟩

/-- The alarms stay, and no id is new. -/
theorem handover_same (ha : w'.net.alarmEntry = w.net.alarmEntry)
    (hs : ∀ s ∈ w'.slots, s.2 ≠ -1 → s ∈ w.slots) : Handover C S w w' := by
  have ha' : w'.net.alarmEntry = w.net.alarmEntry ++ [] := by simp [ha]
  exact handover_append ha' fun s hsm hne => Or.inl (hs s hsm hne)

/-- One alarm is cancelled, and none is set. -/
theorem handover_cancel (h : OwnInv w') {id : ℤ} (hC : ∀ a ∈ w.net.alarmEntry, a.alarmId = id → C a)
    (ha : w'.net.alarmEntry = w.net.alarmEntry.filter fun a => a.alarmId ≠ id)
    (hs : ∀ s ∈ w'.slots, s.2 ≠ -1 → s ∈ w.slots) : Handover C S w w' := by
  refine ⟨[id], [], by simpa using ha, by simpa using hC, fun s hsm hne => Or.inl ⟨hs s hsm hne, ?_⟩⟩
  obtain ⟨a, ham, -, hid⟩ := AtlasClient.mem_idsOf.1 ((h.mem_idsOf s hsm).resolve_left hne)
  rw [ha, List.mem_filter, hid] at ham
  simpa using ham.2

/-- **One alarm is replaced**: no other id is that of the new one. -/
theorem handover_swap (h : OwnInv w') {old id : ℤ} {o : Owner} {new : List (AlarmEntry AppAlarm)}
    (hC : ∀ a ∈ w.net.alarmEntry, a.alarmId = old → C a) (hS : S o)
    (ha : w'.net.alarmEntry = (w.net.alarmEntry.filter fun a => a.alarmId ≠ old) ++ new)
    (hnew : new = [] ∧ id = -1 ∨ ∃ ms, new = [⟨id, o.callback, false, ms⟩]) (hid : (o, id) ∈ w'.slots)
    (hs : ∀ s ∈ w'.slots, s ∈ w.slots ∨ s = (o, id)) : Handover C S w w' := by
  refine ⟨[old], new, by simpa using ha, by simpa using hC, fun s hsm hne => ?_⟩
  by_cases hso : s = (o, id)
  · right
    subst hso
    obtain ⟨ms, rfl⟩ := hnew.resolve_left fun hn => hne hn.2
    exact ⟨hS, _, List.mem_singleton_self _, rfl, rfl⟩
  · left
    refine ⟨(hs s hsm).resolve_right hso, ?_⟩
    obtain ⟨a, ham, -, haid⟩ := AtlasClient.mem_idsOf.1 ((h.mem_idsOf s hsm).resolve_left hne)
    rw [ha, List.mem_append, List.mem_filter, haid] at ham
    rcases ham with ham | ham
    · simpa using ham.2
    · -- two ids of one alarm
      have heq : s.2 = id := by
        rcases hnew with ⟨rfl, -⟩ | ⟨ms, rfl⟩
        · cases ham
        · rw [List.mem_singleton.1 ham] at haid; exact haid.symm
      have : Std.Symm fun s t : Owner × ℤ => s.2 = t.2 → s.2 = -1 := ⟨fun s t hst hts => hts.trans (hst hts.symm)⟩
      exact absurd (h.ownAlarms.alone.forall hsm hid hso heq) hne

theorem slots_congr (hka : w'.app.reg.kaAlarmId = w.app.reg.kaAlarmId) (hf : w'.app.features = w.app.features)
    (hr : w'.net.reqEntry = w.net.reqEntry) : w'.slots = w.slots := by
  unfold Client.slots
  rw [hka, hf, hr]

/-! ### The primitives -/

/-- What a kind cancels, and for whom it sets an alarm. -/
abbrev Kind.Handover (k : Kind) : Client → Client → Prop :=
  AtlasClient.Handover (fun a => k.cancels = some a.alarmId) k.Sets

theorem mem_slots {s : Owner × ℤ} : s ∈ w.slots ↔ s = (.keepalive, w.app.reg.kaAlarmId) ∨
    (∃ p ∈ w.app.features, s = (.push p.uriPath, p.pushId)) ∨
    (∃ p ∈ w.app.features, s = (.threshold p.uriPath, p.thresholdId)) ∨
    ∃ r ∈ w.net.reqEntry, s = (.request r.ctx, r.alarmId) := by
  simp only [Client.slots, List.mem_cons, List.mem_append, List.mem_map, eq_comm]

/-- Fewer features and fewer requests have fewer ids. -/
theorem slots_subset (hka : w'.app.reg.kaAlarmId = w.app.reg.kaAlarmId)
    (hf : ∀ p ∈ w'.app.features, p ∈ w.app.features ∨ p.pushId = -1 ∧ p.thresholdId = -1)
    (hr : ∀ r ∈ w'.net.reqEntry, ∃ q ∈ w.net.reqEntry, q.ctx = r.ctx ∧ q.alarmId = r.alarmId) :
    ∀ s ∈ w'.slots, s.2 ≠ -1 → s ∈ w.slots := by
  intro s hs hne
  rw [mem_slots] at hs ⊢
  rcases hs with rfl | ⟨p, hp, rfl⟩ | ⟨p, hp, rfl⟩ | ⟨r, hm, rfl⟩
  · exact Or.inl (by rw [hka])
  · rcases hf p hp with hp | hp
    · exact Or.inr (Or.inl ⟨p, hp, rfl⟩)
    · exact absurd hp.1 hne
  · rcases hf p hp with hp | hp
    · exact Or.inr (Or.inr (Or.inl ⟨p, hp, rfl⟩))
    · exact absurd hp.2 hne
  · obtain ⟨q, hq, h1, h2⟩ := hr r hm
    exact Or.inr (Or.inr (Or.inr ⟨q, hq, by rw [h1, h2]⟩))

/-- One feature is replaced. -/
theorem slots_replaced {pre post : List Telemetry} {p q : Telemetry} (hl : w.app.features = pre ++ p :: post)
    (hl' : w'.app.features = pre ++ q :: post) (hr : w'.net.reqEntry = w.net.reqEntry) (hg : w'.app.reg = w.app.reg) :
    (.push q.uriPath, q.pushId) ∈ w'.slots ∧ (.threshold q.uriPath, q.thresholdId) ∈ w'.slots ∧
      ∀ s ∈ w'.slots, s ∈ w.slots ∨ s = (.push q.uriPath, q.pushId) ∨ s = (.threshold q.uriPath, q.thresholdId) := by
  have hq : q ∈ w'.app.features := by rw [hl']; simp
  have hother : ∀ x ∈ w'.app.features, x = q ∨ x ∈ w.app.features := by
    intro x hx
    rw [hl', List.mem_append, List.mem_cons] at hx
    rw [hl, List.mem_append, List.mem_cons]
    tauto
  refine ⟨mem_slots.2 (Or.inr (Or.inl ⟨q, hq, rfl⟩)), mem_slots.2 (Or.inr (Or.inr (Or.inl ⟨q, hq, rfl⟩))),
    fun s hs => ?_⟩
  rw [mem_slots, hr, hg] at hs
  rw [mem_slots]
  rcases hs with h | ⟨x, hx, rfl⟩ | ⟨x, hx, rfl⟩ | h
  · exact Or.inl (Or.inl h)
  · rcases hother x hx with rfl | hx
    · exact Or.inr (Or.inl rfl)
    · exact Or.inl (Or.inr (Or.inl ⟨x, hx, rfl⟩))
  · rcases hother x hx with rfl | hx
    · exact Or.inr (Or.inr rfl)
    · exact Or.inl (Or.inr (Or.inr (Or.inl ⟨x, hx, rfl⟩)))
  · exact Or.inl (Or.inr (Or.inr (Or.inr h)))

theorem Act.ownInv {k : Kind} (h : Act k w w') (hinv : OwnInv w) : OwnInv w' :=
  ⟨h.baseInv hinv.1 (Or.inl hinv.2), h.kaOwned hinv.1 hinv.2⟩

/-- Where features and requests stay, only the id of the registration can be new. -/
theorem slots_keepalive {s : Owner × ℤ} (hs : s ∈ w'.slots) (hf : w'.app.features = w.app.features)
    (hr : w'.net.reqEntry = w.net.reqEntry) : s = (.keepalive, w'.app.reg.kaAlarmId) ∨ s ∈ w.slots := by
  rw [mem_slots, hf, hr] at hs
  rw [mem_slots]
  exact hs.imp_right Or.inr

/-- A request more has one id more. -/
theorem slots_request {s : Owner × ℤ} {r : CoapReq AppCb} (hs : s ∈ w'.slots)
    (hka : w'.app.reg.kaAlarmId = w.app.reg.kaAlarmId) (hf : w'.app.features = w.app.features)
    (hr : w'.net.reqEntry = w.net.reqEntry ++ [r]) : s ∈ w.slots ∨ s = (.request r.ctx, r.alarmId) := by
  rw [mem_slots, hka, hf, hr] at hs
  rw [mem_slots]
  rcases hs with h | h | h | ⟨q, hq, rfl⟩
  · exact Or.inl (Or.inl h)
  · exact Or.inl (Or.inr (Or.inl h))
  · exact Or.inl (Or.inr (Or.inr (Or.inl h)))
  · rcases List.mem_append.1 hq with hq | hq
    · exact Or.inl (Or.inr (Or.inr (Or.inr ⟨q, hq, rfl⟩)))
    · rw [List.mem_singleton.1 hq]
      exact Or.inr rfl

theorem handover_request (uri : String) (m : AtlasCoapMethod) (pl : Bytes) (t : ℕ) (cb : AppCb) :
    (Kind.request cb).Handover w (w.request uri m pl t cb) := by
  rcases request_cases uri t cb w.net with ⟨-, -, ha, hr, -⟩ | ⟨-, -, -, r, hacc⟩
  · have hslots : Client.slots (w.request uri m pl t cb) = w.slots := by
      apply slots_congr
      · rfl
      · rfl
      · exact hr
    exact handover_same ha fun s hs _ => hslots ▸ hs
  · refine handover_append hacc.alarms fun s hs _ => ?_
    refine (slots_request (w := w) hs rfl rfl hacc.reqs).imp_right fun h => ?_
    rw [h]
    exact ⟨trivial, _, List.mem_singleton_self _, rfl, rfl⟩

theorem handover_keepalive (w : Client) (ms : ℕ) :
    Kind.keepalive.Handover w (mapReg (fun r => { r with kaAlarmId := (atlasAlarmSet ms keepaliveCb false w.net).1 })
      { w with net := (atlasAlarmSet ms keepaliveCb false w.net).2 }) := by
  rcases alarmSet_cases ms keepaliveCb false w.net with ⟨-, heq⟩ | ⟨fd, s, -, -, -, heq⟩
  · rw [heq]
    refine handover_same rfl fun s hs hne => (slots_keepalive (w := w) hs rfl rfl).resolve_left ?_
    rintro rfl
    exact hne rfl
  · rw [heq]
    refine handover_append rfl fun s hs _ => (slots_keepalive (w := w) hs rfl rfl).symm.imp_right fun h => ?_
    rw [h]
    exact ⟨trivial, _, List.mem_singleton_self _, rfl, rfl⟩

/-- **What each primitive does.** -/
theorem Act.handover {k : Kind} (h : Act k w w') (hinv : OwnInv w) : k.Handover w w' := by
  have hinv' := h.ownInv hinv
  have hsame : ∀ {v : Client}, v.app.reg.kaAlarmId = w.app.reg.kaAlarmId → v.app.features = w.app.features →
      v.net.reqEntry = w.net.reqEntry → ∀ s ∈ v.slots, s.2 ≠ -1 → s ∈ w.slots := by
    intro v hka hf hr s hs _
    rwa [slots_congr hka hf hr] at hs
  cases h with
  | answers _ os ho => exact handover_same rfl (hsame rfl rfl rfl)
  | request uri m pl t cb hpl => exact handover_request uri m pl t cb
  | counters f hf => exact handover_same rfl (hsame (hf _).2 rfl rfl)
  | registered => exact handover_same rfl (hsame rfl rfl rfl)
  | unregistered hr =>
    refine handover_cancel hinv' (fun a _ hid => by rw [hid]; rfl) (cancel_alarms hinv.1.net _) fun s hs hne => ?_
    refine (slots_keepalive (w := w) hs rfl (cancel_reqEntry _ _)).resolve_left ?_
    rintro rfl
    exact hne rfl
  | keepalive _ ms => exact handover_keepalive w ms
  | @retry _ ms cb hcb =>
    have hs := hsame (v := w.mapNet fun n => (atlasAlarmSet ms (.app cb) true n).2) rfl rfl (alarmSet_reqs _ _ _ _).1
    rcases alarmSet_cases ms (.app cb) true w.net with ⟨-, heq⟩ | ⟨fd, s, -, -, -, heq⟩
    · exact handover_same (by simp only [World.mapNet, heq]) hs
    · have ha : (w.mapNet fun n => (atlasAlarmSet ms (.app cb) true n).2).net.alarmEntry =
          w.net.alarmEntry ++ [⟨fd, .app cb, true, ms⟩] := by simp only [World.mapNet, heq]
      exact handover_append ha fun s hsm hne => Or.inl (hs s hsm hne)
  | @fired _ id cb hid honce hreq =>
    exact handover_cancel hinv' (fun a _ hid => by rw [hid]; rfl) (cancel_alarms hinv.1.net _)
      (hsame rfl rfl (cancel_reqEntry _ _))
  | marked hf =>
    refine handover_same rfl (slots_subset rfl (fun p hp => Or.inl hp) fun r hr => ?_)
    obtain ⟨q, hq, -, h1, h2⟩ := mem_markDirty hf hr
    exact ⟨q, hq, h1, h2⟩
  | @unlinked _ pre post p hl =>
    obtain ⟨hn, -⟩ := hinv.1.net.unlink (s := atlasSchedDelEntry p.coapFd w.net.schedEntry) hl
    refine handover_cancel hinv' (fun a _ hid => by rw [hid]; rfl) (cancel_alarms hn _)
      (slots_subset rfl (fun p hp => Or.inl hp) fun r hr => ⟨r, ?_, rfl, rfl⟩)
    have hr : r ∈ pre ++ post := by simpa [World.mapNet] using hr
    rw [hl]
    exact sublist_split.subset hr
  | connector f hf => exact handover_same rfl (hsame rfl rfl rfl)
  | policy f hf => exact handover_same rfl (hsame rfl rfl rfl)
  | closed _ fd => exact handover_same rfl (hsame rfl rfl rfl)
  | accepted _ acc =>
    have hq := acceptCb_quiet acc w
    obtain ⟨hal, hr, -⟩ := acceptCb_same acc w
    exact handover_same hal (hsame (by rw [hq.reg]) hq.grows.features hr)
  | added _ uriPath payloadCb =>
    refine handover_same rfl (slots_subset rfl (fun p hp => ?_) fun r hr => ⟨r, hr, rfl, rfl⟩)
    refine (List.mem_append.1 hp).imp_right fun hp => ?_
    rw [List.mem_singleton.1 hp]
    exact ⟨rfl, rfl⟩
  | deleted _ uriPath =>
    exact handover_same rfl (slots_subset rfl (fun p hp => Or.inl (List.mem_of_mem_eraseP hp))
      fun r hr => ⟨r, hr, rfl, rfl⟩)
  | @resetPush _ uriPath p hf ms =>
    obtain ⟨-, ha⟩ := AtlasClient.resetPush hinv.1 hf ms
    obtain ⟨new, hal, hnew⟩ := swapAlarm_alarms hinv.1.net p.pushId ms .pushAlertAlarmCb
    obtain ⟨pre, post, hl, hl', rfl⟩ := resetAlarm_split p.pushId ms .pushAlertAlarmCb
      (fun id p => { p with pushId := id }) hf
    obtain ⟨hpush, -, hslots⟩ := slots_replaced hl hl' ha.reqs ha.reg
    refine handover_swap (o := .push p.uriPath) hinv' (fun a _ hid => by rw [hid]; rfl) rfl hal
      (hnew.imp_right fun h => ⟨ms, h⟩) hpush fun s hs => ?_
    rcases hslots s hs with h | rfl | rfl
    · exact Or.inl h
    · exact Or.inr rfl
    · exact Or.inl (mem_slots.2 (Or.inr (Or.inr (Or.inl ⟨p, by rw [hl]; simp, rfl⟩))))
  | @resetThreshold _ uriPath p hf ms =>
    obtain ⟨-, ha⟩ := AtlasClient.resetThreshold hinv.1 hf ms
    obtain ⟨new, hal, hnew⟩ := swapAlarm_alarms hinv.1.net p.thresholdId ms .thresholdAlertAlarmCb
    obtain ⟨pre, post, hl, hl', rfl⟩ := resetAlarm_split p.thresholdId ms .thresholdAlertAlarmCb
      (fun id p => { p with thresholdId := id }) hf
    obtain ⟨-, hthr, hslots⟩ := slots_replaced hl hl' ha.reqs ha.reg
    refine handover_swap (o := .threshold p.uriPath) hinv' (fun a _ hid => by rw [hid]; rfl) rfl hal
      (hnew.imp_right fun h => ⟨ms, h⟩) hthr fun s hs => ?_
    rcases hslots s hs with h | rfl | rfl
    · exact Or.inl h
    · exact Or.inl (mem_slots.2 (Or.inr (Or.inl ⟨p, by rw [hl]; simp, rfl⟩)))
    · exact Or.inr rfl

/-- **A chain of primitives** cancels and sets what its kinds do. -/
theorem Acts.handover {K : Kind → Prop} (h : Acts K w w') : OwnInv w → OwnInv w' ∧
    Handover (fun a => ∃ k, K k ∧ k.cancels = some a.alarmId) (fun o => ∃ k, K k ∧ k.Sets o) w w' := by
  refine h.rel (R := fun a b => OwnInv a → OwnInv b ∧ Handover _ _ a b) (fun a ha => ⟨ha, Handover.refl a⟩) ?_ ?_
  · intro a b c hab hbc ha
    obtain ⟨hb, h₁⟩ := hab ha
    obtain ⟨hc, h₂⟩ := hbc hb
    exact ⟨hc, h₁.trans h₂⟩
  · intro k a b hk hab ha
    exact ⟨hab.ownInv ha, (hab.handover ha).mono (fun _ _ h => ⟨k, hk, h⟩) fun _ h => ⟨k, hk, h⟩⟩

/-! ## The events -/

/-- The event may cancel the alarm of an owner: it is the owner's own event. -/
def Client.WorksFor (w : Client) (e : Event) : Owner → Prop
  | .keepalive => w.Reaches .keepaliveCallback e
  | .push uriPath => ∃ pushRate, e = .pushSet (some uriPath) pushRate
  | .threshold uriPath => ∃ scanRate, e = .thresholdSet (some uriPath) scanRate
  | .request ctx => ∃ r ∈ w.net.reqEntry, r.ctx = ctx ∧ e = .ioDone r.coapFd

/-- An alarm that runs once goes when it has fired, any other with the owner that has its id. -/
def Client.MayCancel (w : Client) (e : Event) (a : AlarmEntry AppAlarm) : Prop :=
  (a.runOnce = true ∧ e = .alarm a.alarmId) ∨ ∃ o, (o, a.alarmId) ∈ w.slots ∧ w.WorksFor e o

/-- The event may set an alarm for an owner. -/
def Client.MaySet (w : Client) (e : Event) : Owner → Prop
  | .keepalive => w.Reaches .regCallback e
  | .push uriPath => ∃ pushRate, e = .pushSet (some uriPath) pushRate
  | .threshold uriPath => ∃ scanRate, e = .thresholdSet (some uriPath) scanRate
  | .request _ => True

/-- Of the callbacks only that of the keep-alive cancels an alarm, -/
theorem AppCb.kinds_cancels {ka id : ℤ} {cb : AppCb} {k : Kind} (hk : k ∈ cb.kinds ka) (hid : k.cancels = some id) :
    cb = .keepaliveCallback ∧ id = ka := by
  cases cb <;> simp only [AppCb.kinds, telemetryKinds, List.mem_cons, List.not_mem_nil, or_false] at hk
  all_goals rcases hk with rfl | rfl | rfl | rfl | rfl | rfl <;> simp_all [Kind.cancels]

/-- and only that of the registration sets the one of the keep-alive. -/
theorem AppCb.kinds_sets {ka : ℤ} {cb : AppCb} {k : Kind} {o : Owner} (hk : k ∈ cb.kinds ka) (hset : k.Sets o) :
    (∃ ctx, o = .request ctx) ∨ o = .keepalive ∧ cb = .regCallback := by
  cases cb <;> simp only [AppCb.kinds, telemetryKinds, List.mem_cons, List.not_mem_nil, or_false] at hk
  all_goals rcases hk with rfl | rfl | rfl | rfl | rfl | rfl <;> cases o <;> simp_all [Kind.Sets]

/-- An alarm of a module cancels itself, if it runs once, and sets none. -/
theorem AppAlarm.kinds_cancels {fd : ℤ} {cb : AppAlarm} {k : Kind} (hk : k ∈ cb.kinds fd) :
    (∀ id, k.cancels = some id → id = fd ∧ runsOnce (.app cb) = true) ∧ ∀ o, k.Sets o → ∃ ctx, o = .request ctx := by
  cases cb <;> simp only [AppAlarm.kinds, telemetryKinds, List.mem_cons, List.not_mem_nil, or_false] at hk
  all_goals
    rcases hk with rfl | rfl | rfl
  all_goals
    refine ⟨fun id hid => ?_, fun o ho => ?_⟩
    · first | exact ⟨(Option.some.inj hid).symm, rfl⟩ | cases hid
    · cases o <;> first | exact ⟨_, rfl⟩ | cases ho

/-- **An event cancels alarms of those that it works for**, -/
theorem Origin.mayCancel {e : Event} {k : Kind} (ho : Origin w e k) (h : OwnInv w) {a : AlarmEntry AppAlarm}
    (ha : a ∈ w.net.alarmEntry) (hid : k.cancels = some a.alarmId) : w.MayCancel e a := by
  -- the alarm that fires
  have hfired : ∀ {fd : ℤ} {b : AlarmEntry AppAlarm}, w.net.alarmEntry.find? (fun p => p.alarmId = fd) = some b →
      runsOnce b.callback = true → a.alarmId = fd → w.MayCancel (.alarm fd) a := by
    rintro fd b hf honce rfl
    have hab : b = a := h.1.net.id_inj (List.mem_of_find?_eq_some hf) ha (by simpa using List.find?_some hf)
    exact Or.inl ⟨by rw [h.1.kinds a ha, ← hab, honce], rfl⟩
  cases ho with
  | start hk =>
    rw [(by decide : ∀ k ∈ [.answers, .request .regCallback], Kind.cancels k = none) k hk] at hid
    cases hid
  | callback hreach hk =>
    obtain ⟨rfl, hka⟩ := AppCb.kinds_cancels hk hid
    exact Or.inr ⟨.keepalive, mem_slots.2 (Or.inl (by rw [hka])), hreach⟩
  | @unlinked fd p hf =>
    have hp := List.mem_of_find?_eq_some hf
    have hfd : p.coapFd = fd := by simpa using List.find?_some hf
    refine Or.inr ⟨.request p.ctx, mem_slots.2 (Or.inr (Or.inr (Or.inr ⟨p, hp, ?_⟩))), p, hp, rfl, by rw [hfd]⟩
    rw [Option.some.inj hid]
  | unowned hf hcb => exact hfired hf (by rw [hcb]; rfl) (Option.some.inj hid).symm
  | timedOut hf hcb hp => exact hfired hf (by rw [hcb]; rfl) (Option.some.inj hid).symm
  | alarm hf hcb hk =>
    obtain ⟨hfd, honce⟩ := (AppAlarm.kinds_cancels hk).1 _ hid
    exact hfired hf (by rw [hcb]; exact honce) hfd
  | pushed _ _ hk =>
    rw [(by decide : ∀ k ∈ telemetryKinds, k.cancels = none) k hk] at hid
    cases hid
  | @resetPush uriPath p hf pushRate =>
    have hu : p.uriPath = uriPath := by simpa using List.find?_some hf
    refine Or.inr ⟨.push uriPath, mem_slots.2 (Or.inr (Or.inl ⟨p, List.mem_of_find?_eq_some hf, ?_⟩)), pushRate, rfl⟩
    rw [hu, ← Option.some.inj hid]
  | @resetThreshold uriPath p hf scanRate =>
    have hu : p.uriPath = uriPath := by simpa using List.find?_some hf
    refine Or.inr ⟨.threshold uriPath, mem_slots.2 (Or.inr (Or.inr (Or.inl ⟨p, List.mem_of_find?_eq_some hf, ?_⟩))),
      scanRate, rfl⟩
    rw [hu, ← Option.some.inj hid]
  | message _ _ hk =>
    rw [(by decide : ∀ k ∈ policyKinds ++ otherKinds, k.cancels = none) k hk] at hid
    cases hid
  | _ => cases hid

/-- and sets alarms for those that it works for. -/
theorem Origin.maySet {e : Event} {k : Kind} {o : Owner} (ho : Origin w e k) (hset : k.Sets o) : w.MaySet e o := by
  -- a request may have any origin
  have hrequest : (∃ ctx, o = .request ctx) → w.MaySet e o := by
    rintro ⟨ctx, rfl⟩
    trivial
  cases ho with
  | start hk =>
    simp only [List.mem_cons, List.not_mem_nil, or_false] at hk
    rcases hk with rfl | rfl <;> cases o <;> trivial
  | callback hreach hk =>
    rcases AppCb.kinds_sets hk hset with h | ⟨rfl, rfl⟩
    · exact hrequest h
    · exact hreach
  | alarm hf hcb hk => exact hrequest ((AppAlarm.kinds_cancels hk).2 o hset)
  | pushed _ _ hk =>
    simp only [telemetryKinds, List.mem_cons, List.not_mem_nil, or_false] at hk
    rcases hk with rfl | rfl <;> cases o <;> trivial
  | resetPush hf pushRate =>
    cases o with
    | push u => cases hset; exact ⟨pushRate, rfl⟩
    | _ => cases hset
  | resetThreshold hf scanRate =>
    cases o with
    | threshold u => cases hset; exact ⟨scanRate, rfl⟩
    | _ => cases hset
  | message _ _ hk =>
    simp only [policyKinds, otherKinds, List.cons_append, List.nil_append, List.mem_cons, List.not_mem_nil,
      or_false] at hk
    rcases hk with rfl | rfl | rfl | rfl | rfl <;> cases o <;> trivial
  | _ => cases o <;> cases hset

/-- **One event.** -/
theorem step_handover (cfg : Cfg) (h : OwnInv w) (e : Event) :
    OwnInv (w.step cfg e) ∧ Handover (w.MayCancel e) (w.MaySet e) w (w.step cfg e) := by
  obtain ⟨h', hh⟩ := (client_acts cfg h.1 (Or.inl h.2) e).handover h
  refine ⟨h', hh.mono ?_ ?_⟩
  · rintro a ha ⟨k, hk, hid⟩
    exact (may_origin hk).mayCancel h ha hid
  · rintro o ⟨k, hk, hset⟩
    exact (may_origin hk).maySet hset

/-- **Every stored alarm id is the owner's own live alarm.** In every run that has registered the
client, whatever the outcome of each `atlas_alarm_set` and whichever closed descriptors come again:
each stored id is `-1` or that of a live alarm with the owner's callback, the one that a firing
finds, and no two are the same alarm. Whatever comes next takes away only the alarm that has fired,
if it runs once, and alarms of those that it works for; and an id stored then is one that was
stored before, with its alarm, or that of an alarm set for its owner. -/
theorem alarms_owned (cfg : Cfg) (os : Os) {es₁ : List Event}
    (hreg : (run (Client.step cfg) (Client.init os) es₁).app.reg.registered = true) (es₂ : List Event) :
    let w := run (Client.step cfg) (Client.init os) (es₁ ++ es₂)
    OwnAlarms w ∧ ∀ e, Handover (w.MayCancel e) (w.MaySet e) w (w.step cfg e) := by
  intro w
  have hinv : BaseInv (run (Client.step cfg) (Client.init os) es₁) ∧
      KaOk (run (Client.step cfg) (Client.init os) es₁) :=
    run_inv cfg (baseInv_init os) (kaOk_init os)
  have hka := hinv.2.resolve_right fun hn => by rw [hn.registered] at hreg; cases hreg
  have h : OwnInv w := by
    rw [show w = _ from run_append _ _ _ _]
    exact run_keeps (fun w e (h : OwnInv w) => (step_handover cfg h e).1) es₂ ⟨hinv.1, hka⟩
  exact ⟨h.ownAlarms, fun e => (step_handover cfg h e).2⟩

/-- A feature with two alarms, after the registration. -/
theorem alarms_owned_feature : OwnAlarms (run (Client.step Cfg.plain) (Client.init Os.calm)
    (registerOk ++ [.telemetryAdd (some "temperature") (some 0), .pushSet (some "temperature") 5,
      .thresholdSet (some "temperature") 7])) :=
  (alarms_owned Cfg.plain Os.calm (by decide +kernel) _).1

end AtlasClient
