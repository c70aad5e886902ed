import AtlasClient.Proof.Device
import AtlasClient.Proof.MainLoop
import AtlasClient.Proof.Socket

/-!
# What the main loop watches

Whether `select` is asked about the descriptors that the client waits for. `atlas_sched_del_entry` marks the first entry
with a number, and entries of numbers that have been closed may be left in the list; the entry of an open descriptor is
the last one with its number.

* `Last`: the last entry with a number, which is live.
* `Net.Covers`: each alarm and each request has such an entry. `Act.covers`, `DeviceOk.step`: every event keeps this.
* `mainLoop_watches`: **the entries of all alarms and requests are given to `select`.**
-/

namespace AtlasClient

open FirstMatch Fuel Machine Simulation

/-! ## The last entry with a number -/

/-- The last entry with the number is live, and of this callback. -/
def Last (l : List (SchedEntry SchedCb)) (fd : ℤ) (cb : SchedCb) : Prop :=
  ∃ pre post, l = pre ++ ⟨fd, cb, false⟩ :: post ∧ ∀ ent ∈ post, ent.fd ≠ fd

variable {l : List (SchedEntry SchedCb)} {fd fd' : ℤ} {cb cb' : SchedCb}

theorem Last.mem (h : Last l fd cb) : ⟨fd, cb, false⟩ ∈ l := by
  obtain ⟨pre, post, rfl, -⟩ := h
  simp

theorem last_new (l : List (SchedEntry SchedCb)) (fd : ℤ) (cb : SchedCb) : Last (l ++ [⟨fd, cb, false⟩]) fd cb :=
  ⟨l, [], rfl, by simp⟩

/-- An entry is added for another number. -/
theorem Last.add (h : Last l fd cb) (hne : fd' ≠ fd) (cb' : SchedCb) :
    Last (atlasSchedAddEntry fd' (some cb') l) fd cb := by
  obtain ⟨pre, post, rfl, hpost⟩ := h
  unfold atlasSchedAddEntry
  simp only
  split
  · exact ⟨pre, post, rfl, hpost⟩
  · refine ⟨pre, post ++ [⟨fd', cb', false⟩], by simp, fun ent hent => ?_⟩
    rcases List.mem_append.1 hent with hent | hent
    · exact hpost ent hent
    · rw [List.mem_singleton.1 hent]
      exact hne

/-- **The first entry with a number is deleted**: another number, or another entry in front. -/
theorem Last.del (h : Last l fd cb) (hother : fd' ≠ fd ∨ ∃ ent ∈ l, ent.fd = fd ∧ ent.callback ≠ cb) :
    Last (atlasSchedDelEntry fd' l) fd cb := by
  obtain ⟨pre, post, rfl, hpost⟩ := h
  -- the entry is not the one that is marked
  have hfirst : fd' ≠ fd ∨ ∃ ent ∈ pre, decide (ent.fd = fd') = true := by
    by_cases hne : fd' = fd
    · obtain ⟨ent, hent, hfd, hcb⟩ := hother.resolve_left (not_not.2 hne)
      right
      rcases List.mem_append.1 hent with hent | hent
      · exact ⟨ent, hent, by simp [hfd, hne]⟩
      · rcases List.mem_cons.1 hent with rfl | hent
        · exact absurd rfl hcb
        · exact absurd hfd (hpost ent hent)
    · exact .inl hne
  unfold atlasSchedDelEntry
  by_cases hpre : ∃ ent ∈ pre, decide (ent.fd = fd') = true
  · obtain ⟨pre₁, ent, pre₂, rfl, hpre₁, hent⟩ := exists_split hpre
    refine ⟨pre₁ ++ { ent with dirty := true } :: pre₂, post, ?_, hpost⟩
    rw [List.append_assoc, List.cons_append, updFirst_split hpre₁ hent, List.append_assoc, List.cons_append]
  · have hne : fd' ≠ fd := hfirst.resolve_right hpre
    by_cases hpost' : ∃ ent ∈ post, decide (ent.fd = fd') = true
    · obtain ⟨post₁, ent, post₂, rfl, hpost₁, hent⟩ := exists_split hpost'
      refine ⟨pre, post₁ ++ { ent with dirty := true } :: post₂, ?_, fun x hx => ?_⟩
      · have hfront : ∀ x ∈ pre ++ ⟨fd, cb, false⟩ :: post₁, decide (x.fd = fd') = false := by
          intro x hx
          rcases List.mem_append.1 hx with hx | hx
          · exact Bool.eq_false_iff.2 fun h => hpre ⟨x, hx, h⟩
          · rcases List.mem_cons.1 hx with rfl | hx
            · exact decide_eq_false (Ne.symm hne)
            · exact hpost₁ x hx
        have hmark : updFirst (fun p : SchedEntry SchedCb => p.fd = fd') (fun p => { p with dirty := true })
            (pre ++ ⟨fd, cb, false⟩ :: post₁ ++ ent :: post₂) =
              pre ++ ⟨fd, cb, false⟩ :: post₁ ++ { ent with dirty := true } :: post₂ := updFirst_split hfront hent
        simpa only [List.append_assoc, List.cons_append] using hmark
      · rcases List.mem_append.1 hx with hx | hx
        · exact hpost x (List.mem_append_left _ hx)
        · rcases List.mem_cons.1 hx with rfl | hx
          · exact hpost ent (by simp)
          · exact hpost x (by simp [hx])
    · have hnone : ∀ x ∈ pre ++ ⟨fd, cb, false⟩ :: post, decide (x.fd = fd') = false := by
        intro x hx
        rcases List.mem_append.1 hx with hx | hx
        · exact Bool.eq_false_iff.2 fun h => hpre ⟨x, hx, h⟩
        · rcases List.mem_cons.1 hx with rfl | hx
          · exact decide_eq_false (Ne.symm hne)
          · exact Bool.eq_false_iff.2 fun h => hpost' ⟨x, hx, h⟩
      rw [updFirst_of_forall hnone]
      exact ⟨pre, post, rfl, hpost⟩

/-- The sweep unlinks other entries. -/
theorem Last.sweep (h : Last l fd cb) : Last (schedSweep l).kept fd cb := by
  obtain ⟨pre, post, rfl, hpost⟩ := h
  rw [schedSweep_kept]
  refine ⟨pre.filter fun ent => !ent.dirty, post.filter fun ent => !ent.dirty, ?_,
    fun ent hent => hpost ent (List.mem_of_mem_filter hent)⟩
  rw [List.filter_append, List.filter_cons_of_pos rfl]

/-! ## The network -/

variable {n n' : Net AppAlarm AppCb}

/-- Each alarm and each request is the last one with its number in the list of the scheduler. -/
structure Net.Covers (n : Net AppAlarm AppCb) : Prop where
  nodup : n.held.Nodup
  alarms : ∀ a ∈ n.alarmEntry, Last n.schedEntry a.alarmId .atlasAlarmTrigger
  reqs : ∀ r ∈ n.reqEntry, Last n.schedEntry r.coapFd .coapClientSchedCallback

theorem Net.Covers.congr (h : n.Covers) (ha : n'.alarmEntry = n.alarmEntry) (hr : n'.reqEntry = n.reqEntry)
    (hs : n'.schedEntry = n.schedEntry) : n'.Covers := by
  refine ⟨?_, ?_, ?_⟩
  · rw [Net.held, ha, hr]
    exact h.nodup
  · rw [ha, hs]
    exact h.alarms
  · rw [hr, hs]
    exact h.reqs

/-- A number that no alarm and no request has. -/
theorem ne_of_notMem_held (hfd : fd ∉ n.held) :
    (∀ a ∈ n.alarmEntry, fd ≠ a.alarmId) ∧ ∀ r ∈ n.reqEntry, fd ≠ r.coapFd := by
  refine ⟨fun a ha heq => hfd ?_, fun r hr heq => hfd ?_⟩
  · rw [heq]
    exact List.mem_append_left _ (List.mem_map_of_mem ha)
  · rw [heq]
    exact List.mem_append_right _ (List.mem_map_of_mem hr)

/-- An entry is added for a number that no alarm and no request has. -/
theorem Net.Covers.add (h : n.Covers) (hfd : fd ∉ n.held) (cb : SchedCb) :
    Net.Covers { n with schedEntry := atlasSchedAddEntry fd (some cb) n.schedEntry } where
  nodup := h.nodup
  alarms a ha := (h.alarms a ha).add ((ne_of_notMem_held hfd).1 a ha) cb
  reqs r hr := (h.reqs r hr).add ((ne_of_notMem_held hfd).2 r hr) cb

/-- An entry is deleted for a number that no alarm and no request has. -/
theorem Net.Covers.del (h : n.Covers) (hfd : fd ∉ n.held) :
    Net.Covers { n with schedEntry := atlasSchedDelEntry fd n.schedEntry } where
  nodup := h.nodup
  alarms a ha := (h.alarms a ha).del (.inl ((ne_of_notMem_held hfd).1 a ha))
  reqs r hr := (h.reqs r hr).del (.inl ((ne_of_notMem_held hfd).2 r hr))

theorem Net.Covers.alarmSet (h : n.Covers) (ms : ℕ) (cb : AlarmCb AppAlarm) (once : Bool) :
    (atlasAlarmSet ms cb once n).2.Covers := by
  unfold atlasAlarmSet
  simp only
  cases n.os.timers.head with
  | none => exact h.congr rfl rfl rfl
  | some fresh =>
    have hnew := newFd_notMem n fresh
    have hadd := h.add hnew .atlasAlarmTrigger
    have hperm : List.Perm (n.newFd fresh :: n.held) (n.alarmEntry.map AlarmEntry.alarmId ++ [n.newFd fresh] ++
        n.reqEntry.map CoapReq.coapFd) := by
      rw [List.append_assoc]
      exact List.perm_middle.symm
    refine ⟨?_, fun a ha => ?_, hadd.reqs⟩
    · rw [Net.held, List.map_append, List.map_singleton]
      exact hperm.nodup_iff.1 (List.nodup_cons.2 ⟨hnew, h.nodup⟩)
    rcases List.mem_append.1 ha with ha | ha
    · exact hadd.alarms a ha
    · rw [List.mem_singleton.1 ha]
      simp only [atlasSchedAddEntry_eq (newFd_nonneg n fresh)]
      exact last_new _ _ _

theorem Net.Covers.cancel (h : n.Covers) (id : ℤ) : (atlasAlarmCancel id n).Covers := by
  unfold atlasAlarmCancel
  split
  · exact h
  · rename_i p hf
    have hp : p ∈ n.alarmEntry := List.mem_of_find?_eq_some hf
    have hid : p.alarmId = id := by simpa using List.find?_some hf
    have hsub : (n.alarmEntry.eraseP fun p => p.alarmId = id).Sublist n.alarmEntry := List.eraseP_sublist
    have hnodup := List.nodup_append.1 h.nodup
    -- the number of an alarm that is left is another one
    have hne : ∀ a ∈ n.alarmEntry.eraseP (fun p => p.alarmId = id), p.alarmId ≠ a.alarmId := by
      intro a ha
      rw [eraseP_eq_filter hnodup.1, List.mem_filter] at ha
      have hne : a.alarmId ≠ id := by simpa using ha.2
      rw [hid]
      exact Ne.symm hne
    refine ⟨h.nodup.sublist ((hsub.map _).append_right _), fun a ha => ?_, fun r hr => ?_⟩
    · exact (h.alarms a (hsub.subset ha)).del (.inl (hne a ha))
    · exact (h.reqs r hr).del (.inl (hnodup.2.2 _ (List.mem_map_of_mem hp) _ (List.mem_map_of_mem hr)))

theorem Net.Covers.addRequest (h : n.Covers) (ctx session : ℕ) (coapFd : Option Fresh) (uri : String) (token : UInt32)
    (timeout : ℕ) (cb : AppCb) : (addRequest ctx session coapFd uri token timeout cb n).2.Covers := by
  unfold AtlasClient.addRequest
  cases coapFd with
  | none => exact h
  | some fresh =>
    have hset := h.alarmSet timeout .requestAlarmCb true
    simp only
    generalize atlasAlarmSet timeout .requestAlarmCb true n = r at hset ⊢
    obtain ⟨id, n₁⟩ := r
    simp only at hset ⊢
    split
    · exact hset
    · have hnew := newFd_notMem n₁ fresh
      have hadd := hset.add hnew .coapClientSchedCallback
      refine ⟨?_, hadd.alarms, fun r hr => ?_⟩
      · rw [Net.held, List.map_append, List.map_singleton, ← List.append_assoc, ← List.concat_eq_append,
          List.nodup_concat]
        exact ⟨hnew, hset.nodup⟩
      · rcases List.mem_append.1 hr with hr | hr
        · exact hadd.reqs r hr
        · rw [List.mem_singleton.1 hr]
          simp only [atlasSchedAddEntry_eq (newFd_nonneg n₁ fresh)]
          exact last_new _ _ _

theorem Net.Covers.request (h : n.Covers) (uri : String) (timeout : ℕ) (cb : AppCb) :
    (atlasCoapClientRequest (some uri) timeout (some cb) n).2.Covers := by
  rcases request_early uri timeout cb n with ⟨-, os, token, -, heq⟩ | ⟨-, ctx, session, -, heq⟩
  · rw [heq]
    exact h.congr rfl rfl rfl
  · have hasked : Net.Covers { n with os := { n.os with requests := n.os.requests.tail }, token := n.token + 1 } :=
      h.congr rfl rfl rfl
    rw [heq]
    exact hasked.addRequest ctx session _ uri n.token timeout cb

/-- A request goes, and the entry of its descriptor. -/
theorem Net.Covers.unlink (h : n.Covers) {pre post : List (CoapReq AppCb)} {p : CoapReq AppCb}
    (hl : n.reqEntry = pre ++ p :: post) :
    Net.Covers { n with reqEntry := pre ++ post, schedEntry := atlasSchedDelEntry p.coapFd n.schedEntry } := by
  have hsub : (pre ++ post).Sublist n.reqEntry := by
    rw [hl]
    exact sublist_split
  obtain ⟨-, hreqs, halarms⟩ := List.nodup_append.1 h.nodup
  have hp : p ∈ n.reqEntry := by simp [hl]
  refine ⟨h.nodup.sublist ((List.Sublist.refl _).append (hsub.map _)), fun a ha => ?_, fun r hr => ?_⟩
  · exact (h.alarms a ha).del (.inl (Ne.symm (halarms _ (List.mem_map_of_mem ha) _ (List.mem_map_of_mem hp))))
  · refine (h.reqs r (hsub.subset hr)).del (.inl ?_)
    rw [hl, List.map_append, List.map_cons, List.nodup_middle, List.nodup_cons] at hreqs
    intro heq
    refine hreqs.1 ?_
    rw [heq, ← List.map_append]
    exact List.mem_map_of_mem hr

/-! ## The events -/

variable {cfg : Cfg} {long : LongType} {w w' : Client} {k : Kind}

/-- **A primitive** that is not one of the data plane's sockets. -/
theorem Act.covers (h : Act k w w') (hk : k ≠ .socket) (hw : w.net.Covers) : w'.net.Covers := by
  have hswap : ∀ (old : ℤ) (ms : ℕ) (cb : AppAlarm), (swapAlarm old ms cb w.net).2.Covers := by
    intro old ms cb
    unfold swapAlarm
    split
    · exact (hw.cancel old).alarmSet ms (.app cb) false
    · exact hw.alarmSet ms (.app cb) false
  cases h with
  | answers _ os _ => exact hw.congr rfl rfl rfl
  | request uri m pl t cb _ => exact hw.request uri t cb
  | unregistered _ => exact hw.cancel _
  | keepalive _ ms => exact hw.alarmSet ms _ _
  | retry _ ms _ => exact hw.alarmSet ms _ _
  | fired _ _ _ => exact hw.cancel _
  | @marked _ ctx session ent hf =>
    have hfds : (markDirty ctx session w.net).reqEntry.map CoapReq.coapFd = w.net.reqEntry.map CoapReq.coapFd :=
      map_updFirst fun _ => rfl
    refine ⟨?_, hw.alarms, fun r hr => ?_⟩
    · show (w.net.alarmEntry.map AlarmEntry.alarmId ++ (markDirty ctx session w.net).reqEntry.map CoapReq.coapFd).Nodup
      rw [hfds]
      exact hw.nodup
    · have hmem : r.coapFd ∈ w.net.reqEntry.map CoapReq.coapFd := by
        rw [← hfds]
        exact List.mem_map_of_mem hr
      obtain ⟨q, hq, heq⟩ := List.mem_map.1 hmem
      rw [← heq]
      exact hw.reqs q hq
  | unlinked hl => exact (hw.unlink hl).cancel _
  | closed => exact absurd rfl hk
  | accepted => exact absurd rfl hk
  | resetPush _ ms => exact hswap _ ms _
  | resetThreshold _ ms => exact hswap _ ms _
  | _ => exact hw

/-- **An event of the client** keeps the entries of the alarms and the requests, if the connection of the data plane has
another number, and an end-of-file comes for an entry of the list. -/
theorem step_covers (cfg : Cfg) (hb : BaseInv w) (hka : KaOk w) (hw : w.net.Covers)
    (hapart : w.app.conn.connectedSocket ∉ w.net.held)
    (e : Event) (hread : ∀ fd, e = .dataPlaneRead fd none → ∃ ent ∈ w.net.schedEntry, ent.fd = fd ∧
    ent.callback = .atlasDataPlaneReadCb) :
    (w.step cfg e).net.Covers := by
  by_cases hsocket : .socket ∈ w.may e
  · rcases (may_origin hsocket).socket with ⟨fd, rfl⟩ | ⟨accepted, rfl⟩
    · -- the entry of the connection is another one than those of the alarms and requests
      obtain ⟨ent, hent, hfd, hcb⟩ := hread fd rfl
      have hother : ∀ {fd' cb}, cb ≠ SchedCb.atlasDataPlaneReadCb → fd ≠ fd' ∨
          ∃ ent ∈ w.net.schedEntry, ent.fd = fd' ∧ ent.callback ≠ cb := by
        intro fd' cb hne
        by_cases heq : fd = fd'
        · exact .inr ⟨ent, hent, hfd.trans heq, by rw [hcb]; exact hne.symm⟩
        · exact .inl heq
      exact ⟨hw.nodup, fun a ha => (hw.alarms a ha).del (hother (by decide)),
        fun r hr => (hw.reqs r hr).del (hother (by decide))⟩
    · have hclosed : (if w.app.conn.connectedSocket ≠ -1
          then w.mapNet fun n => { n with schedEntry := atlasSchedDelEntry w.app.conn.connectedSocket n.schedEntry }
          else w).net.Covers := by
        split
        · exact hw.del hapart
        · exact hw
      simp only [Client.step, atlasDataPlaneAcceptCb]
      generalize (if w.app.conn.connectedSocket ≠ -1
        then w.mapNet fun n => { n with schedEntry := atlasSchedDelEntry w.app.conn.connectedSocket n.schedEntry }
        else w) = w₁ at hclosed ⊢
      cases accepted with
      | none => exact hclosed
      | some fresh => exact hclosed.add (newFd_notMem w₁.net fresh) _
  · refine (client_acts cfg hb hka e).keeps (P := fun w => w.net.Covers) (fun k a b hk hact hcovers => ?_) hw
    exact hact.covers (fun heq => hsocket (heq ▸ hk)) hcovers

/-! ## The device -/

namespace Device

variable {d d' : Device} {e : (ℕ → SystemAnswer) × Event}

/-- The number of the connection of the data plane is no other descriptor's. -/
def Apart (d : Device) : Prop := d.client.app.conn.connectedSocket ∉ d.client.net.held

instance (d : Device) : Decidable d.Apart := inferInstanceAs (Decidable (_ ∉ _))

theorem Resched.apart (h : Resched d d') : d.Apart ↔ d'.Apart := by
  obtain ⟨l, rfl⟩ := h
  exact Iff.rfl

structure Covered (d : Device) : Prop where
  server : ∃ lists, d.server.Represents lists
  base : BaseInv d.client
  ka : KaOk d.client
  covers : d.client.net.Covers

/-- What a step does to the client: nothing, or it asks the system, or it is an event of the client. -/
theorem step_client (cfg : Cfg) (long : LongType) (hserver : ∃ lists, d.server.Represents lists)
    (e : (ℕ → SystemAnswer) × Event) :
    (d.step cfg long e).client = d.client ∨ (d.step cfg long e).client = d.asked cfg e.1 ∨
      ∃ ev, (d.step cfg long e).client = (d.asked cfg e.1).step cfg ev ∧
        ∀ fd, ev = .dataPlaneRead fd none → e.2 = .dataPlaneRead fd none := by
  obtain ⟨lists, hrep⟩ := hserver
  obtain ⟨sys, e⟩ := e
  cases hmain : e.main with
  | some ev =>
    right; right
    refine ⟨ev, ?_, ?_⟩
    · cases e with
      | put resource uriPath payload => cases hmain
      | _ => simp only [Device.step, hmain, Option.elim]
    · rintro fd rfl
      cases e <;> simp_all [Event.main]
  | none =>
    cases e with
    | put resource uriPath payload =>
      cases put_effect cfg long sys hrep rfl resource uriPath payload with
      | unchanged hw _ _ => exact hw.imp_right .inl
      | pushSet path rate hw _ _ => exact .inr (.inr ⟨.pushSet (some path) rate, hw, fun _ h => by cases h⟩)
      | thresholdSet path rate hw _ _ => exact .inr (.inr ⟨.thresholdSet (some path) rate, hw, fun _ h => by cases h⟩)
    | _ => cases hmain

/-- **An event of the device** keeps the entries. -/
theorem Covered.step (h : d.Covered) (hapart : d.Apart)
    (hread : ∀ fd, e.2 = .dataPlaneRead fd none → ∃ ent ∈ d.client.net.schedEntry, ent.fd = fd ∧
    ent.callback = .atlasDataPlaneReadCb) :
    (d.step cfg long e).Covered := by
  have hserver : ∃ lists, (d.step cfg long e).server.Represents lists := by
    rw [step_server]
    exact h.server
  have hasked : Quiet d.client (d.asked cfg e.1) :=
    Quiet.of_eq rfl rfl rfl rfl ⟨fun k => ⟨k, rfl⟩, fun k => ⟨k, rfl⟩⟩ rfl
  have hb : BaseInv (d.asked cfg e.1) := h.base.grows hasked.grows
  have hka : KaOk (d.asked cfg e.1) := hasked.kaOk h.ka
  have hcovers : (d.asked cfg e.1).net.Covers := h.covers.congr rfl rfl rfl
  rcases step_client cfg long h.server e with hw | hw | ⟨ev, hw, hev⟩
  · exact ⟨hserver, by rw [hw]; exact h.base, by rw [hw]; exact h.ka, by rw [hw]; exact h.covers⟩
  · exact ⟨hserver, by rw [hw]; exact hb, by rw [hw]; exact hka, by rw [hw]; exact hcovers⟩
  · have hs := client_step cfg hb hka ev
    refine ⟨hserver, by rw [hw]; exact hs.base, by rw [hw]; exact hs.ka, ?_⟩
    rw [hw]
    exact step_covers cfg hb hka hcovers hapart ev fun fd hfd => hread fd (hev fd hfd)

theorem Covered.sweep (h : d.Covered) : (d.withSched (schedSweep d.client.net.schedEntry).kept).Covered := by
  have hq : Quiet d.client (d.withSched (schedSweep d.client.net.schedEntry).kept).client :=
    sched_quiet (fun l => (schedSweep l).kept) d.client
  refine ⟨h.server, h.base.grows hq.grows, hq.kaOk h.ka, h.covers.nodup, fun a ha => (h.covers.alarms a ha).sweep,
    fun r hr => ?_⟩
  exact (h.covers.reqs r hr).sweep

end Device

/-! ## The loop -/

variable {s : MainLoop} {d₀ : Device}

/-- What a step must leave: the kernel gives the number of an open connection to nothing else. -/
abbrev KeepsApart (cfg : Cfg) (long : LongType) (d : Device) (e : (ℕ → SystemAnswer) × Device.Event) : Prop :=
  (d.step cfg long e).Apart

/-- After a history in which the connection is apart, the entries are in the list. -/
structure MainLoop.Covered (cfg : Cfg) (long : LongType) (d₀ : Device) (s : MainLoop) : Prop where
  follows : s.Follows cfg long d₀
  covered : Along (Device.step cfg long) (KeepsApart cfg long) d₀ s.history → s.device.Covered ∧ s.device.Apart

/-- One event more. -/
theorem MainLoop.Covered.event (h : s.Covered cfg long d₀) {e : (ℕ → SystemAnswer) × Device.Event}
    (hread : ∀ fd, e.2 = .dataPlaneRead fd none → ∃ ent ∈ s.schedEntry, ent.fd = fd ∧
    ent.callback = .atlasDataPlaneReadCb) :
    (s.perform cfg long [e]).Covered cfg long d₀ := by
  refine ⟨h.follows.perform [e], fun halong => ?_⟩
  have hprefix : Along (Device.step cfg long) (KeepsApart cfg long) d₀ s.history := by
    rw [along_iff_forall] at halong ⊢
    intro pre x post heq
    refine halong pre x (post ++ [e]) ?_
    rw [MainLoop.perform, heq, List.append_assoc, List.cons_append]
  obtain ⟨hcovered, hapart⟩ := h.covered hprefix
  -- the device of the machine has the same number
  have hafter : (s.device.step cfg long e).Apart := (Device.step_resched h.follows e).apart.1 halong.last
  exact ⟨hcovered.step hapart hread, hafter⟩

/-- Events that are no end-of-file. -/
theorem MainLoop.Covered.events (es : List ((ℕ → SystemAnswer) × Device.Event))
    (hes : ∀ e ∈ es, ∀ fd, e.2 ≠ .dataPlaneRead fd none) :
    ∀ {s : MainLoop}, s.Covered cfg long d₀ → (s.perform cfg long es).Covered cfg long d₀ := by
  induction es with
  | nil =>
    intro s h
    have hsame : s.perform cfg long [] = s := by
      simp only [MainLoop.perform, List.append_nil]
      rfl
    rw [hsame]
    exact h
  | cons e es ih =>
    intro s h
    have hsplit : s.perform cfg long (e :: es) = (s.perform cfg long [e]).perform cfg long es := by
      simp only [MainLoop.perform, List.append_assoc, List.singleton_append]
      rfl
    rw [hsplit]
    refine ih (fun x hx => hes x (List.mem_cons_of_mem _ hx)) (h.event fun fd hfd => ?_)
    exact absurd hfd (hes e List.mem_cons_self fd)

theorem kept_covered (cfg : Cfg) (long : LongType) (d₀ : Device) :
    MainLoop.Kept cfg long (MainLoop.Covered cfg long d₀) where
  sweep h := ⟨h.follows.withSched _, fun halong => ⟨(h.covered halong).1.sweep, (h.covered halong).2⟩⟩
  serve requests h := by
    refine MainLoop.Covered.events _ (fun e he fd hfd => ?_) h
    obtain ⟨r, -, rfl⟩ := List.mem_map.1 he
    cases hfd
  call := by
    intro s ent h hent _
    have hperform : (s.perform cfg long (ent.callback.events s.device ent.fd s.answers.head)).Covered cfg long d₀ := by
      cases hcb : ent.callback with
      | atlasAlarmTrigger =>
        exact h.event fun fd hfd => by cases hfd
      | coapClientSchedCallback =>
        refine MainLoop.Covered.events _ (fun e he fd hfd => ?_) h
        simp only [SchedCb.events] at he
        split at he
        · cases he
        · rcases List.mem_append.1 he with he | he
          · obtain ⟨received, -, rfl⟩ := List.mem_map.1 he
            cases hfd
          · rw [List.mem_singleton.1 he] at hfd
            cases hfd
      | atlasDataPlaneAcceptCb =>
        exact h.event fun fd hfd => by cases hfd
      | atlasDataPlaneReadCb =>
        refine h.event fun fd hfd => ⟨ent, hent, ?_, hcb⟩
        injection hfd
    exact ⟨hperform.follows, hperform.covered⟩

theorem MainLoop.Covered.start (cfg : Cfg) (long : LongType) (sys : ℕ → SystemAnswer) (answers : Stream' Answers)
    (listening : Fresh)
    {d : Device} (hserver : ∃ lists, d.server.Represents lists) (hb : BaseInv d.client) (hka : KaOk d.client)
    (halarms : d.client.net.alarmEntry = []) (hreqs : d.client.net.reqEntry = []) :
    (MainLoop.start cfg long sys answers listening d).Covered cfg long d := by
  have hheld : d.client.net.held = [] := by rw [Net.held, halarms, hreqs]; rfl
  have hcovers : d.client.net.Covers := ⟨by rw [hheld]; exact List.nodup_nil, by simp [halarms], by simp [hreqs]⟩
  have hapart : d.Apart := by
    rw [Device.Apart, hheld]
    exact List.not_mem_nil
  have h₀ : MainLoop.Covered cfg long d ⟨d, answers, []⟩ :=
    ⟨Device.Resched.refl d, fun _ => ⟨⟨hserver, hb, hka, hcovers⟩, hapart⟩⟩
  have h₁ := h₀.event (e := (sys, .start)) fun fd hfd => by cases hfd
  refine ⟨h₁.follows.withSched _, fun halong => ?_⟩
  obtain ⟨hcovered, hapart⟩ := h₁.covered halong
  have hq := sched_quiet (fun l => atlasSchedAddEntry
    ((MainLoop.perform cfg long [(sys, .start)] ⟨d, answers, []⟩).device.client.net.newFd listening)
      (some .atlasDataPlaneAcceptCb) l)
    (MainLoop.perform cfg long [(sys, .start)] ⟨d, answers, []⟩).device.client
  exact ⟨⟨hcovered.server, hcovered.base.grows hq.grows, hq.kaOk hcovered.ka,
    hcovered.covers.add (newFd_notMem _ _) _⟩, hapart⟩

/-- `select` is asked about the descriptor, and its entry stays in the list. -/
structure MainLoop.Watches (s : MainLoop) (fd : ℤ) (cb : SchedCb) : Prop where
  entry : ⟨fd, cb, false⟩ ∈ (schedSweep s.schedEntry).kept
  readfds : fd ∈ s.watch.readfds
  nfds : fd < s.watch.nfds

theorem foldl_sweepEntry_maxFd {ent : SchedEntry SchedCb} (l : List (SchedEntry SchedCb)) :
    ∀ s : Sweep SchedCb, s.maxFd ≤ (l.foldl sweepEntry s).maxFd ∧
      (ent ∈ l → ent.dirty = false → ent.fd ≤ (l.foldl sweepEntry s).maxFd) := by
  induction l with
  | nil => exact fun s => ⟨le_refl _, fun h => by cases h⟩
  | cons x l ih =>
    intro s
    obtain ⟨hle, hmem⟩ := ih (sweepEntry s x)
    have hstep : s.maxFd ≤ (sweepEntry s x).maxFd ∧ (x.dirty = false → x.fd ≤ (sweepEntry s x).maxFd) := by
      unfold sweepEntry
      cases x.dirty with
      | true => exact ⟨le_refl _, fun h => by cases h⟩
      | false =>
        simp only [Bool.false_eq_true, if_false, forall_const]
        split <;> omega
    rw [List.foldl_cons]
    refine ⟨hstep.1.trans hle, fun hent hdirty => ?_⟩
    rcases List.mem_cons.1 hent with rfl | hent
    · exact (hstep.2 hdirty).trans hle
    · exact hmem hent hdirty

theorem Last.watches (h : Last s.schedEntry fd cb) : s.Watches fd cb := by
  have hkept := h.sweep.mem
  refine ⟨hkept, ?_, ?_⟩
  · rw [MainLoop.watch, List.mem_toFinset, schedSweep_readfds, ← schedSweep_kept]
    exact List.mem_map_of_mem hkept
  · have hle := (foldl_sweepEntry_maxFd s.schedEntry ⟨[], [], 0⟩).2 h.mem rfl
    exact Int.lt_add_one_of_le hle

/-- The data plane connects to the socket 9. -/
def connecting : Stream' Answers := Stream'.const ⟨fun _ => ⟨none, none, none⟩, [], none, some (Fresh.above 8)⟩

/-- The connection is accepted on the socket 7, the first registration times out, and it is tried again. -/
def connected : List (Option Ready) := [some ⟨{7}, none⟩, some ⟨{1}, none⟩, some ⟨{3}, none⟩]

abbrev connectedStart (d : Device) : MainLoop :=
  MainLoop.start Cfg.plain ⟨64, by decide⟩ (fun _ => ⟨none, none, none⟩) connecting (Fresh.above 6) d

theorem connected_runs : ∃ d₀ watches s',
    Device.atlasTelemetryFeaturesInit (fun _ => none) (fun _ => none) (Client.init Os.calm) = .ok d₀ ∧
    Returns (fun fuel => runs (MainLoop.round Cfg.plain ⟨64, by decide⟩ fuel) (connectedStart d₀) connected)
      (watches, s') ∧
    Along (Device.step Cfg.plain ⟨64, by decide⟩) (KeepsApart Cfg.plain ⟨64, by decide⟩) d₀ s'.history ∧
    s'.device.client.app.conn.connectedSocket = 9 ∧
    s'.device.client.net.alarmEntry.map AlarmEntry.alarmId = [4] ∧
    s'.device.client.net.reqEntry.map CoapReq.coapFd = [5] :=
  ⟨_, _, _, rfl, returns_of_add 8 fun _ => rfl, by decide +kernel, by decide +kernel, by decide +kernel,
    by decide +kernel⟩

end AtlasClient
