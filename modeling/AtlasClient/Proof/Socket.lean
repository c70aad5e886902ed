import AtlasClient.Lib.Run
import AtlasClient.Proof.Alarms
import AtlasClient.Proof.Scheduler

/-!
# The data plane socket

Three facts belong to a connection: `connected_socket`, the open descriptor, and the live entry in
the scheduler list (`readers`). `Sockets` is the client with the connections that are open.

* `Origin.deletes_held`: other modules delete entries of their own descriptors only.
* `single_iff`: **the three facts agree** exactly as long as no end-of-file or error reaches the
  entry of the connection, and no stale entry hides it from the next accept.
-/

namespace AtlasClient

open FirstMatch Machine

variable {cfg : Cfg} {w w₁ w' : Client} {k : Kind}

/-! ## Live entries -/

/-- The live entries of `atlas_data_plane_read_cb`. -/
def readers (l : List (SchedEntry SchedCb)) : List (SchedEntry SchedCb) :=
  l.filter fun ent => ent.callback = .atlasDataPlaneReadCb && !ent.dirty

/-- The entry of a connection. -/
def readEntry (fd : ℤ) : SchedEntry SchedCb := ⟨fd, .atlasDataPlaneReadCb, false⟩

variable {l : List (SchedEntry SchedCb)} {fd : ℤ}

theorem mem_readers {ent : SchedEntry SchedCb} : ent ∈ readers l ↔ ent ∈ l ∧ ent = readEntry ent.fd := by
  rw [readers, List.mem_filter]
  refine and_congr_right fun _ => ?_
  rcases ent with ⟨fd, cb, dirty⟩
  simp [readEntry]

theorem readers_append (l new : List (SchedEntry SchedCb)) : readers (l ++ new) = readers l ++ readers new :=
  List.filter_append _ _

/-- An entry with another callback. -/
theorem readers_add (cb : SchedCb) (hcb : cb ≠ .atlasDataPlaneReadCb) :
    readers (atlasSchedAddEntry fd (some cb) l) = readers l := by
  unfold atlasSchedAddEntry
  simp only
  split
  · rfl
  · rw [readers_append]
    simp [readers, hcb]

/-- **Deleting a descriptor** takes the live entry of the connection, if it is the first one, -/
theorem readers_del (hf : l.find? (fun ent => ent.fd = fd) = some (readEntry fd)) :
    ∃ a b, readers l = a ++ readEntry fd :: b ∧ readers (atlasSchedDelEntry fd l) = a ++ b := by
  obtain ⟨pre, post, hl, hpre, hp⟩ := find?_split hf
  refine ⟨readers pre, readers post, ?_, ?_⟩
  · rw [hl, readers_append]
    simp [readers, readEntry]
  · rw [atlasSchedDelEntry, hl, updFirst_split hpre hp, readers_append]
    simp [readers]

/-- and nothing otherwise. -/
theorem readers_del_other (hf : l.find? (fun ent => ent.fd = fd) ≠ some (readEntry fd)) :
    readers (atlasSchedDelEntry fd l) = readers l := by
  cases h : l.find? fun ent => ent.fd = fd with
  | none =>
    rw [List.find?_eq_none] at h
    rw [atlasSchedDelEntry, updFirst_of_forall fun x hx => by simpa using h x hx]
  | some ent =>
    obtain ⟨pre, post, hl, hpre, hp⟩ := find?_split h
    have hfd : ent.fd = fd := by simpa using hp
    have hne : ent ≠ readEntry ent.fd := fun heq => hf (by rw [h, heq, hfd])
    have hno : readers [ent] = [] := by
      rw [List.eq_nil_iff_forall_not_mem]
      intro x hx
      obtain ⟨hx, heq⟩ := mem_readers.1 hx
      rw [List.mem_singleton.1 hx] at heq
      exact hne heq
    rw [atlasSchedDelEntry, hl, updFirst_split hpre hp, readers_append, readers_append, ← List.singleton_append,
      readers_append, ← List.singleton_append (l := post) (x := ent), readers_append, hno]
    simp [readers]

/-- No connection has the number. -/
theorem readers_del_apart (h : ∀ ent ∈ readers l, ent.fd ≠ fd) : readers (atlasSchedDelEntry fd l) = readers l := by
  refine readers_del_other fun hf => ?_
  exact h (readEntry fd) (mem_readers.2 ⟨List.mem_of_find?_eq_some hf, rfl⟩) rfl

theorem readers_sweep (l : List (SchedEntry SchedCb)) : readers (schedSweep l).kept = readers l := by
  unfold readers
  rw [schedSweep_kept, List.filter_filter]
  refine List.filter_congr fun ent _ => ?_
  cases ent.dirty <;> simp

/-! ## Other modules -/

theorem alarmSet_readers (ms : ℕ) (cb : AlarmCb AppAlarm) (once : Bool) (n : Net AppAlarm AppCb) :
    readers (atlasAlarmSet ms cb once n).2.schedEntry = readers n.schedEntry := by
  unfold atlasAlarmSet
  simp only
  split
  · rfl
  · dsimp only
    exact readers_add .atlasAlarmTrigger (by decide)

theorem request_readers (uri : Option String) (timeout : ℕ) (cb : Option AppCb) (n : Net AppAlarm AppCb) :
    readers (atlasCoapClientRequest uri timeout cb n).2.schedEntry = readers n.schedEntry := by
  have hadd : ∀ (ctx session : ℕ) (coapFd : Option Fresh) (uri : String) (token : UInt32) (cb : AppCb)
      (n : Net AppAlarm AppCb),
      readers (addRequest ctx session coapFd uri token timeout cb n).2.schedEntry = readers n.schedEntry := by
    intro ctx session coapFd uri token cb n
    unfold addRequest
    split
    · rfl
    · simp only
      split
      · exact alarmSet_readers _ _ _ _
      · dsimp only
        rw [readers_add .coapClientSchedCallback (by decide), alarmSet_readers]
  unfold atlasCoapClientRequest
  simp only
  repeat' split
  all_goals first | rfl | exact hadd _ _ _ _ _ _ _

theorem cancel_readers {id : ℤ} {n : Net AppAlarm AppCb} (h : ∀ ent ∈ readers n.schedEntry, ent.fd ≠ id) :
    readers (atlasAlarmCancel id n).schedEntry = readers n.schedEntry := by
  unfold atlasAlarmCancel
  split
  · rfl
  · rename_i p hf
    have hid : p.alarmId = id := by simpa using List.find?_some hf
    exact readers_del_apart (by rw [hid]; exact h)

/-- The descriptors whose entries a primitive deletes. -/
def Kind.deletes : Kind → List ℤ
  | .unregistered id => [id]
  | .fired id _ => [id]
  | .unlinked id coapFd _ _ => [id, coapFd]
  | .reset _ _ old => [old]
  | _ => []

/-- **A primitive of another module** leaves the entries alone, unless it deletes one. -/
theorem Act.readers (h : Act k w w') (hk : k ≠ .socket)
    (hapart : ∀ ent ∈ readers w.net.schedEntry, ent.fd ∉ k.deletes) :
    readers w'.net.schedEntry = readers w.net.schedEntry := by
  have hswap : ∀ (old : ℤ) (ms : ℕ) (cb : AppAlarm), (∀ ent ∈ AtlasClient.readers w.net.schedEntry, ent.fd ≠ old) →
      AtlasClient.readers (swapAlarm old ms cb w.net).2.schedEntry = AtlasClient.readers w.net.schedEntry := by
    intro old ms cb hne
    unfold swapAlarm
    rw [alarmSet_readers]
    split
    · exact cancel_readers hne
    · rfl
  cases h with
  | request uri m pl t cb hpl => exact request_readers (some uri) t (some cb) w.net
  | unregistered hr => exact cancel_readers fun ent hent heq => hapart ent hent (by simp [Kind.deletes, heq])
  | keepalive _ ms => exact alarmSet_readers _ _ _ _
  | retry _ ms hcb => exact alarmSet_readers _ _ _ _
  | fired hid honce hreq => exact cancel_readers fun ent hent heq => hapart ent hent (by simp [Kind.deletes, heq])
  | @unlinked _ pre post p hl =>
    have hdel : readers (atlasSchedDelEntry p.coapFd w.net.schedEntry) = readers w.net.schedEntry :=
      readers_del_apart fun ent hent heq => hapart ent hent (by simp [Kind.deletes, heq])
    refine (cancel_readers fun ent hent heq => hapart ent ?_ (by simp [Kind.deletes, heq])).trans hdel
    rw [← hdel]
    exact hent
  | closed => exact absurd rfl hk
  | accepted => exact absurd rfl hk
  | resetPush hf ms => exact hswap _ _ _ fun ent hent heq => hapart ent hent (by simp [Kind.deletes, heq])
  | resetThreshold hf ms => exact hswap _ _ _ fun ent hent heq => hapart ent hent (by simp [Kind.deletes, heq])
  | _ => rfl

theorem Act.connected (h : Act k w w') (hk : k ≠ .socket) :
    w'.app.conn.connectedSocket = w.app.conn.connectedSocket := by
  cases h with
  | connector f hf => exact hf.1
  | policy f hf => exact hf
  | closed => exact absurd rfl hk
  | accepted => exact absurd rfl hk
  | _ => rfl

/-- **Modules delete the entries of their own descriptors.** -/
theorem Origin.deletes_held {e : Event} (ho : Origin w e k) (hb : BaseInv w) (hka : KaOk w) {x : ℤ}
    (hx : x ∈ k.deletes) :
    x = -1 ∨ x ∈ w.net.held := by
  have halarm : ∀ {a : AlarmEntry AppAlarm} {fd : ℤ}, w.net.alarmEntry.find? (fun p => p.alarmId = fd) = some a →
      fd ∈ w.net.held := by
    intro a fd hf
    have hfd : a.alarmId = fd := by simpa using List.find?_some hf
    exact List.mem_append_left _ (hfd ▸ List.mem_map_of_mem (List.mem_of_find?_eq_some hf))
  have hreq : ∀ {p : CoapReq AppCb}, p ∈ w.net.reqEntry → p.alarmId ∈ w.net.held ∧ p.coapFd ∈ w.net.held := fun hp =>
    ⟨mem_held_of_idsOf (hb.net.own _ hp), List.mem_append_right _ (List.mem_map_of_mem hp)⟩
  cases ho with
  | start hk =>
    rw [(by decide : ∀ k ∈ [.answers, .request .regCallback], Kind.deletes k = []) k hk] at hx
    cases hx
  | @callback e cb _ hreach hk =>
    cases cb <;> simp only [AppCb.kinds, telemetryKinds, List.mem_cons, List.not_mem_nil, or_false] at hk
    case keepaliveCallback =>
      rcases hk with rfl | rfl | rfl | rfl <;> try cases hx
      · -- only the callback of a keep-alive cancels an alarm, the one of the keep-alive
        have hm : ∃ r ∈ w.net.reqEntry, r.callback = .keepaliveCallback := by
          cases e with
          | pdu ctx session received => obtain ⟨r, hr, hcb⟩ := hreach; exact ⟨r, List.mem_of_find?_eq_some hr, hcb⟩
          | alarm fd => obtain ⟨r, hr, hcb⟩ := hreach; exact ⟨r, List.mem_of_find?_eq_some hr, hcb⟩
          | _ => cases hreach
        exact (hka.safe.owned hm).imp_right mem_held_of_idsOf
      · contradiction
    all_goals rcases hk with rfl | rfl | rfl | rfl | rfl | rfl <;> cases hx
  | @unlinked fd p hf =>
    obtain ⟨h1, h2⟩ := hreq (List.mem_of_find?_eq_some hf)
    simp only [Kind.deletes, List.mem_cons, List.not_mem_nil, or_false] at hx
    rcases hx with rfl | rfl
    · exact Or.inr h1
    · exact Or.inr h2
  | unowned hf hcb => exact Or.inr (List.mem_singleton.1 hx ▸ halarm hf)
  | @timedOut fd a p hf hcb hp =>
    simp only [Kind.deletes, List.mem_cons, List.not_mem_nil, or_false] at hx
    rcases hx with rfl | rfl
    · exact Or.inr (halarm hf)
    · exact Or.inr (hreq (List.mem_of_find?_eq_some hp)).2
  | @alarm fd a cb _ hf hcb hk =>
    cases cb <;> simp only [AppAlarm.kinds, telemetryKinds, List.mem_cons, List.not_mem_nil, or_false] at hk
    all_goals
      rcases hk with rfl | rfl | rfl <;>
        first | exact Or.inr (List.mem_singleton.1 hx ▸ halarm hf) | cases hx
  | pushed _ _ hk =>
    rw [(by decide : ∀ k ∈ telemetryKinds, k.deletes = []) k hk] at hx
    cases hx
  | @resetPush uriPath p hf pushRate =>
    rw [List.mem_singleton.1 hx]
    exact (hb.push.live _ (List.mem_map_of_mem (List.mem_of_find?_eq_some hf))).imp_right mem_held_of_idsOf
  | @resetThreshold uriPath p hf scanRate =>
    rw [List.mem_singleton.1 hx]
    exact (hb.threshold.live _ (List.mem_map_of_mem (List.mem_of_find?_eq_some hf))).imp_right mem_held_of_idsOf
  | message _ _ hk =>
    rw [(by decide : ∀ k ∈ policyKinds ++ otherKinds, k.deletes = []) k hk] at hx
    cases hx
  | _ => cases hx

/-! ## The machine -/

structure Sockets where
  client : Client
  /-- the connections that have been accepted and not closed -/
  opened : List ℤ

def Sockets.init (os : Os) : Sockets := ⟨Client.init os, []⟩

inductive SocketEvent
  /-- the clean-up at the start of a round of the scheduler -/
  | pass
  | client (e : Event)

/-- The connector closes its connection before it accepts another. -/
def Sockets.acceptOpens (s : Sockets) (accepted : Option Fresh) : List ℤ :=
  let left := if s.client.app.conn.connectedSocket ≠ -1 then
      s.opened.filter fun fd => fd ≠ s.client.app.conn.connectedSocket
    else s.opened
  match accepted with
  | none => left
  | some fresh => left ++ [s.client.net.newFd fresh]

def Sockets.step (cfg : Cfg) (s : Sockets) : SocketEvent → Sockets
  | .pass => { s with client := s.client.mapNet fun n => { n with schedEntry := (schedSweep n.schedEntry).kept } }
  | .client e =>
    { client := s.client.step cfg e
      opened :=
        match e with
        | .dataPlaneAccept accepted => s.acceptOpens accepted
        | _ => s.opened }

/-- `atlas_data_plane_read_cb` is called for a live entry. -/
def Sockets.Watched (s : Sockets) : SocketEvent → Prop
  | .client (.dataPlaneRead fd _) => readEntry fd ∈ s.client.net.schedEntry
  | _ => True

instance (s : Sockets) (e : SocketEvent) : Decidable (s.Watched e) := by
  unfold Sockets.Watched; split <;> infer_instance

/-- What the scheduler and the kernel do: open descriptors have different numbers. -/
def Sockets.Legal (cfg : Cfg) (s : Sockets) (e : SocketEvent) : Prop :=
  s.Watched e ∧ ∀ fd ∈ (s.step cfg e).opened, fd ∉ (s.step cfg e).client.net.held

instance (cfg : Cfg) (s : Sockets) (e : SocketEvent) : Decidable (s.Legal cfg e) := by
  unfold Sockets.Legal; infer_instance

/-- **The three facts agree.** -/
def Sockets.Single (s : Sockets) : Prop :=
  (s.client.app.conn.connectedSocket = -1 ∧ readers s.client.net.schedEntry = []) ∨
    ∃ ent, readers s.client.net.schedEntry = [ent] ∧ ent.fd = s.client.app.conn.connectedSocket ∧
      s.client.app.conn.connectedSocket ∈ s.opened

/-- The first entry with the number is the live one of the connection. -/
def Sockets.Fronts (s : Sockets) (fd : ℤ) : Prop :=
  s.client.net.schedEntry.find? (fun ent => ent.fd = fd) = some (readEntry fd)

instance (s : Sockets) (fd : ℤ) : Decidable (s.Fronts fd) := by unfold Sockets.Fronts; infer_instance

/-- An end-of-file or an error does not reach the live entry, and an accept does. -/
def Sockets.Spares (s : Sockets) : SocketEvent → Prop
  | .client (.dataPlaneRead fd none) => ¬ s.Fronts fd
  | .client (.dataPlaneAccept _) =>
    s.client.app.conn.connectedSocket = -1 ∨ s.Fronts s.client.app.conn.connectedSocket
  | _ => True

instance (s : Sockets) (e : SocketEvent) : Decidable (s.Spares e) := by
  unfold Sockets.Spares; split <;> infer_instance

/-! ## The invariant -/

structure SocketInv (s : Sockets) : Prop where
  base : BaseInv s.client
  ka : KaOk s.client
  single : s.Single
  apart : ∀ fd ∈ s.opened, fd ∉ s.client.net.held
  nonneg : ∀ fd ∈ s.opened, 0 ≤ fd

theorem socketInv_init (os : Os) : SocketInv (Sockets.init os) :=
  ⟨baseInv_init os, kaOk_init os, Or.inl ⟨rfl, rfl⟩, by simp [Sockets.init], by simp [Sockets.init]⟩

/-- The number of a live entry is that of an open connection. -/
theorem Sockets.Single.opened {s : Sockets} (h : s.Single) :
    ∀ ent ∈ readers s.client.net.schedEntry, ent.fd = s.client.app.conn.connectedSocket ∧ ent.fd ∈ s.opened := by
  rcases h with ⟨-, hnil⟩ | ⟨ent, hone, hfd, hopen⟩
  · rw [hnil]; simp
  · rw [hone]
    intro x hx
    rw [List.mem_singleton.1 hx]
    exact ⟨hfd, hfd ▸ hopen⟩

/-- **What accepting a connection does.** -/
theorem accept_spec (accepted : Option Fresh) (w : Client) :
    let l := if w.app.conn.connectedSocket ≠ -1 then atlasSchedDelEntry w.app.conn.connectedSocket w.net.schedEntry
      else w.net.schedEntry
    match accepted with
    | none => (atlasDataPlaneAcceptCb none w).app.conn.connectedSocket = -1 ∧
        (atlasDataPlaneAcceptCb none w).net.schedEntry = l
    | some fresh => (atlasDataPlaneAcceptCb (some fresh) w).app.conn.connectedSocket = w.net.newFd fresh ∧
        (atlasDataPlaneAcceptCb (some fresh) w).net.schedEntry = l ++ [readEntry (w.net.newFd fresh)] := by
  have hadd : ∀ (fresh : Fresh) (l : List (SchedEntry SchedCb)),
      atlasSchedAddEntry (w.net.newFd fresh) (some .atlasDataPlaneReadCb) l = l ++ [readEntry (w.net.newFd fresh)] := by
    intro fresh l
    have h0 := newFd_nonneg w.net fresh
    simp only [atlasSchedAddEntry, if_neg (not_lt.2 h0)]
    rfl
  by_cases hc : w.app.conn.connectedSocket = -1
  · simp only [hc, ne_eq, not_true, if_false]
    cases accepted with
    | none =>
      simp only [atlasDataPlaneAcceptCb, hc, ne_eq, not_true, if_false]
      exact ⟨rfl, rfl⟩
    | some fresh =>
      simp only [atlasDataPlaneAcceptCb, hc, ne_eq, not_true, if_false]
      exact ⟨rfl, hadd fresh _⟩
  · simp only [ne_eq, hc, not_false_eq_true, if_true]
    cases accepted with
    | none =>
      simp only [atlasDataPlaneAcceptCb, ne_eq, hc, not_false_eq_true, if_true]
      exact ⟨rfl, rfl⟩
    | some fresh =>
      simp only [atlasDataPlaneAcceptCb, ne_eq, hc, not_false_eq_true, if_true]
      exact ⟨rfl, hadd fresh _⟩

/-- **Another event of the client** leaves the connection alone. -/
theorem step_readers (cfg : Cfg) (h : BaseInv w) (hka : KaOk w) {e : Event} (he : ∀ k ∈ w.may e, k ≠ .socket)
    (hapart : ∀ ent ∈ readers w.net.schedEntry, 0 ≤ ent.fd ∧ ent.fd ∉ w.net.held) :
    readers (w.step cfg e).net.schedEntry = readers w.net.schedEntry ∧
      (w.step cfg e).app.conn.connectedSocket = w.app.conn.connectedSocket := by
  have hdel : ∀ k ∈ w.may e, ∀ ent ∈ readers w.net.schedEntry, ent.fd ∉ k.deletes := by
    intro k hk ent hent hm
    obtain ⟨h0, hno⟩ := hapart ent hent
    rcases (may_origin hk).deletes_held h hka hm with hneg | hheld
    · omega
    · exact hno hheld
  -- the entries are the same all along the chain
  have hrel := (client_acts cfg h hka e).rel (R := fun a b =>
    (readers a.net.schedEntry = readers w.net.schedEntry → readers b.net.schedEntry = readers w.net.schedEntry) ∧
      b.app.conn.connectedSocket = a.app.conn.connectedSocket) (fun _ => ⟨fun h => h, rfl⟩)
    (fun _ _ _ hab hbc => ⟨fun h => hbc.1 (hab.1 h), hbc.2.trans hab.2⟩)
    (fun k a b hk hact => ⟨fun heq => (hact.readers (he k hk) fun ent hent => hdel k hk ent (heq ▸ hent)).trans heq,
      hact.connected (he k hk)⟩)
  exact ⟨hrel.1 rfl, hrel.2⟩

theorem Origin.socket {e : Event} (ho : Origin w e .socket) :
    (∃ fd, e = .dataPlaneRead fd none) ∨ ∃ accepted, e = .dataPlaneAccept accepted := by
  generalize hk : Kind.socket = k at ho
  cases ho with
  | closed fd => exact Or.inl ⟨fd, rfl⟩
  | accepted acc => exact Or.inr ⟨acc, rfl⟩
  | start hk' => subst hk; simp at hk'
  | @callback _ cb _ _ hk' => subst hk; cases cb <;> simp [AppCb.kinds] at hk'
  | @alarm _ _ cb _ _ _ hk' => subst hk; cases cb <;> simp [AppAlarm.kinds] at hk'
  | pushed _ _ hk' => subst hk; simp at hk'
  | message _ _ hk' => subst hk; simp at hk'
  | _ => cases hk

variable {s s' : Sockets}

/-- The entries and the connection are as before. -/
theorem Sockets.Single.congr (h : s.Single) (hr : readers s'.client.net.schedEntry = readers s.client.net.schedEntry)
    (hc : s'.client.app.conn.connectedSocket = s.client.app.conn.connectedSocket) (ho : s'.opened = s.opened) :
    s'.Single := by
  unfold Sockets.Single
  rw [hr, hc, ho]
  exact h

/-- The lists of the modules are as before, and so is all that depends on them. -/
theorem pass_client (cfg : Cfg) (h : SocketInv s) :
    BaseInv (s.step cfg .pass).client ∧ KaOk (s.step cfg .pass).client := by
  have hq : Quiet s.client (s.step cfg .pass).client := sched_quiet (fun l => (schedSweep l).kept) s.client
  exact ⟨h.base.grows hq.grows, hq.kaOk h.ka⟩

/-- **An end-of-file** that finds the live entry leaves the connector with a dead connection. -/
theorem eof_iff (h : SocketInv s) {fd : ℤ} (hw : readEntry fd ∈ s.client.net.schedEntry) :
    (s.step cfg (.client (.dataPlaneRead fd none))).Single ↔ ¬ s.Fronts fd := by
  have hstep : (s.step cfg (.client (.dataPlaneRead fd none))).client.net.schedEntry =
      atlasSchedDelEntry fd s.client.net.schedEntry := rfl
  have hmem : readEntry fd ∈ readers s.client.net.schedEntry := mem_readers.2 ⟨hw, rfl⟩
  obtain ⟨hfd, hopen⟩ := h.single.opened _ hmem
  constructor
  · intro hsingle hfront
    obtain ⟨a, b, hr, hr'⟩ := readers_del hfront
    rcases h.single with ⟨-, hnil⟩ | ⟨ent, hone, -, -⟩
    · rw [hnil] at hmem; cases hmem
    have hnil : a ++ b = [] := by
      have hlen := congrArg List.length (hr.symm.trans hone)
      simp only [List.length_append, List.length_cons, List.length_nil] at hlen
      refine List.append_eq_nil_iff.2 ⟨List.length_eq_zero_iff.1 ?_, List.length_eq_zero_iff.1 ?_⟩ <;> omega
    have h0 : 0 ≤ (readEntry fd).fd := h.nonneg _ hopen
    rcases hsingle with ⟨hc, -⟩ | ⟨ent', hone', -, -⟩
    · have hc' : s.client.app.conn.connectedSocket = -1 := hc
      rw [hfd, hc'] at h0
      omega
    · rw [hstep, hr', hnil] at hone'
      cases hone'
  · intro hfront
    exact h.single.congr (by rw [hstep]; exact readers_del_other hfront) rfl rfl

/-- The entries when an accept has closed the old connection. -/
def Sockets.left (s : Sockets) : List (SchedEntry SchedCb) :=
  if s.client.app.conn.connectedSocket ≠ -1 then
    atlasSchedDelEntry s.client.app.conn.connectedSocket s.client.net.schedEntry
  else s.client.net.schedEntry

/-- The old entry is gone exactly when the accept has found it. -/
theorem left_nil_iff (h : SocketInv s) : readers s.left = [] ↔
    s.client.app.conn.connectedSocket = -1 ∨ s.Fronts s.client.app.conn.connectedSocket := by
  unfold Sockets.left
  rcases h.single with ⟨hc, hnil⟩ | ⟨ent, hone, hfd, hopen⟩
  · simp only [hc, ne_eq, not_true, if_false, hnil, true_or]
  have h0 := h.nonneg _ hopen
  have hne : s.client.app.conn.connectedSocket ≠ -1 := by omega
  rw [if_pos hne]
  constructor
  · intro hnil
    right
    by_contra hno
    rw [readers_del_other hno, hone] at hnil
    cases hnil
  · intro hfront
    obtain ⟨a, b, hr, hr'⟩ := readers_del (hfront.resolve_left hne)
    have hlen := congrArg List.length (hr.symm.trans hone)
    simp only [List.length_append, List.length_cons, List.length_nil] at hlen
    rw [hr', List.append_eq_nil_iff]
    exact ⟨List.length_eq_zero_iff.1 (by omega), List.length_eq_zero_iff.1 (by omega)⟩

theorem left_subset (s : Sockets) : ∀ ent ∈ readers s.left, ent ∈ readers s.client.net.schedEntry := by
  unfold Sockets.left
  intro ent hent
  split at hent
  · by_cases hfront : s.Fronts s.client.app.conn.connectedSocket
    · obtain ⟨a, b, hr, hr'⟩ := readers_del hfront
      rw [hr'] at hent
      rw [hr]
      exact sublist_split.subset hent
    · rwa [readers_del_other hfront] at hent
  · exact hent

/-- **An accept** replaces the connection, if it finds the live entry. -/
theorem accept_iff (h : SocketInv s) (accepted : Option Fresh) :
    (s.step cfg (.client (.dataPlaneAccept accepted))).Single ↔
      s.client.app.conn.connectedSocket = -1 ∨ s.Fronts s.client.app.conn.connectedSocket := by
  have hspec := accept_spec accepted s.client
  simp only [← Sockets.left.eq_def] at hspec
  rw [← left_nil_iff h]
  have hopened : ∀ ent ∈ readers s.left, 0 ≤ ent.fd := fun ent hent =>
    h.nonneg _ (h.single.opened ent (left_subset s ent hent)).2
  cases accepted with
  | none =>
    obtain ⟨hc, hs⟩ := hspec
    unfold Sockets.Single
    simp only [Sockets.step, Client.step, hc, hs]
    constructor
    · rintro (⟨-, hnil⟩ | ⟨ent, hone, hfd, -⟩)
      · exact hnil
      · have h0 := hopened ent (by rw [hone]; simp)
        omega
    · exact fun hnil => Or.inl ⟨trivial, hnil⟩
  | some fresh =>
    obtain ⟨hc, hs⟩ := hspec
    have hnew : readers [readEntry (s.client.net.newFd fresh)] = [readEntry (s.client.net.newFd fresh)] := by
      simp [readers, readEntry]
    have h0 := newFd_nonneg s.client.net fresh
    unfold Sockets.Single
    simp only [Sockets.step, Client.step, hc, hs, readers_append, hnew]
    constructor
    · rintro (⟨hneg, -⟩ | ⟨ent, hone, -, -⟩)
      · omega
      · have hlen := congrArg List.length hone
        simp only [List.length_append, List.length_cons, List.length_nil] at hlen
        exact List.length_eq_zero_iff.1 (by omega)
    · intro hnil
      refine Or.inr ⟨readEntry (s.client.net.newFd fresh), by rw [hnil]; rfl, rfl, ?_⟩
      simp [Sockets.acceptOpens]

/-- The numbers of open connections are those of the last accept. -/
theorem opened_nonneg (h : SocketInv s) (e : SocketEvent) : ∀ fd ∈ (s.step cfg e).opened, 0 ≤ fd := by
  cases e with
  | pass => exact h.nonneg
  | client e =>
    cases e with
    | dataPlaneAccept accepted =>
      have hleft : ∀ fd ∈ (if s.client.app.conn.connectedSocket ≠ -1 then
          s.opened.filter fun fd => fd ≠ s.client.app.conn.connectedSocket else s.opened), 0 ≤ fd := by
        intro fd hfd
        split at hfd
        · exact h.nonneg fd (List.mem_of_mem_filter hfd)
        · exact h.nonneg fd hfd
      cases accepted with
      | none => exact hleft
      | some fresh =>
        refine List.forall_mem_append.2 ⟨hleft, fun fd hfd => ?_⟩
        rw [List.mem_singleton.1 hfd]
        exact newFd_nonneg _ _
    | _ => exact h.nonneg

/-- **One step**, and exactly when it keeps the connection single. -/
theorem single_step (h : SocketInv s) {e : SocketEvent} (hw : s.Watched e) : (s.step cfg e).Single ↔ s.Spares e := by
  cases e with
  | pass =>
    refine iff_of_true (h.single.congr ?_ rfl rfl) trivial
    exact readers_sweep _
  | client e =>
    -- any event but those of the socket leaves the connection alone
    have hother : (∀ k ∈ s.client.may e, k ≠ .socket) → (s.step cfg (.client e)).opened = s.opened →
        (s.step cfg (.client e)).Single := by
      intro he ho
      obtain ⟨hr, hc⟩ := step_readers cfg h.base h.ka he fun ent hent => by
        obtain ⟨-, hopen⟩ := h.single.opened ent hent
        exact ⟨h.nonneg _ hopen, h.apart _ hopen⟩
      exact h.single.congr hr hc ho
    have hsocket : ∀ k ∈ s.client.may e, k = .socket →
        (∃ fd, e = .dataPlaneRead fd none) ∨ ∃ accepted, e = .dataPlaneAccept accepted := by
      rintro k hk rfl
      exact (may_origin hk).socket
    cases e with
    | dataPlaneRead fd received =>
      cases received with
      | none => exact eof_iff h hw
      | some buf =>
        exact iff_of_true (hother (fun k hk heq => by rcases hsocket k hk heq with ⟨_, h⟩ | ⟨_, h⟩ <;> cases h) rfl)
          trivial
    | dataPlaneAccept accepted => exact accept_iff h accepted
    | _ =>
      exact iff_of_true (hother (fun k hk heq => by rcases hsocket k hk heq with ⟨_, h⟩ | ⟨_, h⟩ <;> cases h) rfl)
        trivial

/-- **The connector's single connection, and exactly when.** In every run of accepts, reads, rounds of
the scheduler and any other events of the client, in any order, in which the kernel gives no number
of an open descriptor and the read callback is called for live entries: after every step either
nothing is connected and no live entry of the read callback exists, or exactly one does, and its
descriptor is `connected_socket`, an open connection; if and only if no end-of-file or read error
reaches the live entry of the connection, and every accept finds it. -/
theorem single_iff (cfg : Cfg) (os : Os) {es : List SocketEvent}
    (hlegal : Along (Sockets.step cfg) (Sockets.Legal cfg) (Sockets.init os) es) :
    Along (Sockets.step cfg) (fun s e => (s.step cfg e).Single) (Sockets.init os) es ↔
      Along (Sockets.step cfg) Sockets.Spares (Sockets.init os) es := by
  refine along_exact SocketInv (Sockets.Legal cfg) ?_ ?_ (socketInv_init os) hlegal
  · intro s e h hl hspare
    have hsingle : (s.step cfg e).Single := (single_step h hl.1).2 hspare
    refine ⟨hsingle, ?_⟩
    cases e with
    | pass =>
      obtain ⟨hb, hka⟩ := pass_client cfg h
      exact ⟨hb, hka, hsingle, hl.2, opened_nonneg h .pass⟩
    | client e =>
      have hs := client_step cfg h.base h.ka e
      exact ⟨hs.base, hs.ka, hsingle, hl.2, opened_nonneg h (.client e)⟩
  · intro s e h hl hsingle
    exact (single_step h hl.1).1 hsingle

/-- Data, a round of the scheduler, and a second connection in place of the first. -/
theorem single_iff_reconnect :
    Along (Sockets.step Cfg.plain) (fun s e => (s.step Cfg.plain e).Single) (Sockets.init Os.calm)
      [.client (.dataPlaneAccept (some default)), .client (.dataPlaneRead 1 (some [])), .pass,
        .client (.dataPlaneAccept (some default)), .pass] :=
  (single_iff Cfg.plain Os.calm (by decide +kernel)).2 (by decide +kernel)

/-- **The data plane closes its connection**: `connected_socket` stays, and no live entry has it. -/
theorem eof_leaves_socket :
    ¬ ∀ (cfg : Cfg) (os : Os) (es : List SocketEvent),
      Along (Sockets.step cfg) (Sockets.Legal cfg) (Sockets.init os) es →
      Along (Sockets.step cfg) (fun s e => (s.step cfg e).Single) (Sockets.init os) es := by
  intro h
  have hsingle := (h Cfg.plain Os.calm
    ([.client (.dataPlaneAccept (some default))] ++ [.client (.dataPlaneRead 1 none)]) (by decide +kernel)).last
  rcases hsingle with ⟨hc, -⟩ | ⟨ent, hone, -⟩
  · revert hc
    decide +kernel
  · have hnil : [ent] = [] := by
      rw [← hone]
      decide +kernel
    cases hnil

end AtlasClient
