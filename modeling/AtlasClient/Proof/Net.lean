import AtlasClient.Lib.FirstMatch
import AtlasClient.Spec.CoapClient
import Mathlib.Data.List.Nodup

/-!
# What one call does to the lists

* `alarmSet_cases`, `request_cases`: a call fails and leaves the lists alone, or it appends
  to them.
* `NetOk`: the descriptors held are distinct, and every request owns the alarm that its
  entry names. Each call keeps it.
-/

namespace AtlasClient

open FirstMatch

variable {α κ σ : Type}

/-! ## Descriptors -/

theorem newFd_nonneg (n : Net α κ) (f : Fresh) : 0 ≤ n.newFd f := Int.natCast_nonneg _

theorem newFd_notMem (n : Net α κ) (f : Fresh) : n.newFd f ∉ n.held := by
  intro h
  have hm : f.pick (n.held.map Int.toNat) ∈ n.held.map Int.toNat :=
    List.mem_map.2 ⟨n.newFd f, h, Int.toNat_natCast _⟩
  exact f.pick_notMem _ hm

/-! ## Setting an alarm -/

/-- **`atlas_alarm_set` fails, or appends an alarm with a new id.** -/
theorem alarmSet_cases (ms : ℕ) (cb : AlarmCb α) (once : Bool) (n : Net α κ) :
    (n.os.timers.head = none ∧ atlasAlarmSet ms cb once n =
      (-1, { n with os := { n.os with timers := n.os.timers.tail } })) ∨
    ∃ fd s, n.os.timers.head.isSome ∧ 0 ≤ fd ∧ fd ∉ n.held ∧ atlasAlarmSet ms cb once n =
      (fd, { n with
        os := { n.os with timers := n.os.timers.tail }
        schedEntry := s
        alarmEntry := n.alarmEntry ++ [⟨fd, cb, once, ms⟩] }) := by
  unfold atlasAlarmSet
  cases h : n.os.timers.head with
  | none => left; exact ⟨rfl, by simp⟩
  | some f =>
    right
    exact ⟨n.newFd f, _, rfl, newFd_nonneg n f, newFd_notMem n f, by simp; rfl⟩

/-! ## Requests -/

/-- What an accepted request does: the alarm and the entry are appended, with new numbers. -/
structure Accepted (uri : String) (timeout : ℕ) (cb : κ) (n n' : Net α κ) (r : CoapReq κ) : Prop where
  alarms : n'.alarmEntry = n.alarmEntry ++ [⟨r.alarmId, .requestAlarmCb, true, timeout⟩]
  reqs : n'.reqEntry = n.reqEntry ++ [r]
  callback : r.callback = cb
  uri : r.uri = uri
  clean : r.dirty = false
  alarm_nonneg : 0 ≤ r.alarmId
  alarm_new : r.alarmId ∉ n.held
  fd_nonneg : 0 ≤ r.coapFd
  fd_new : r.coapFd ∉ n.held
  fd_ne : r.coapFd ≠ r.alarmId
  ctx_new : r.ctx ∉ n.reqEntry.map CoapReq.ctx

theorem Accepted.ctx_nodup {uri : String} {timeout : ℕ} {cb : κ} {n n' : Net α κ} {r : CoapReq κ}
    (hacc : Accepted uri timeout cb n n' r) (h : (n.reqEntry.map CoapReq.ctx).Nodup) :
    (n'.reqEntry.map CoapReq.ctx).Nodup := by
  rw [hacc.reqs, List.map_append, List.map_singleton, ← List.concat_eq_append, List.nodup_concat]
  exact ⟨hacc.ctx_new, h⟩

/-- The system answers the next request without a failure. -/
def Net.Grants (n : Net α κ) : Prop := n.os.requests.head.Accepts ∧ n.os.timers.head.isSome

instance (n : Net α κ) : Decidable n.Grants := by unfold Net.Grants; infer_instance

/-- The answers of `os'` are among those of `os`. -/
structure Os.Follows (os os' : Os) : Prop where
  timers : ∀ k, ∃ j, os'.timers.get k = os.timers.get j
  requests : ∀ k, ∃ j, os'.requests.get k = os.requests.get j

theorem Os.Follows.refl (os : Os) : os.Follows os := ⟨fun k => ⟨k, rfl⟩, fun k => ⟨k, rfl⟩⟩

theorem Os.Follows.trans {a b c : Os} (h : a.Follows b) (h' : b.Follows c) : a.Follows c := by
  refine ⟨fun k => ?_, fun k => ?_⟩
  · obtain ⟨j, hj⟩ := h'.timers k
    obtain ⟨i, hi⟩ := h.timers j
    exact ⟨i, hj.trans hi⟩
  · obtain ⟨j, hj⟩ := h'.requests k
    obtain ⟨i, hi⟩ := h.requests j
    exact ⟨i, hj.trans hi⟩

theorem Os.follows_timers (os : Os) : os.Follows { os with timers := os.timers.tail } :=
  ⟨fun k => ⟨k + 1, rfl⟩, fun k => ⟨k, rfl⟩⟩

theorem Os.follows_requests (os : Os) : os.Follows { os with requests := os.requests.tail } :=
  ⟨fun k => ⟨k, rfl⟩, fun k => ⟨k + 1, rfl⟩⟩

theorem addRequest_cases (ctx session : ℕ) (coapFd : Option Fresh) (uri : String) (token : UInt32)
    (timeout : ℕ) (cb : κ) (n : Net α κ) (hctx : ctx ∉ n.reqEntry.map CoapReq.ctx) :
    let res := addRequest ctx session coapFd uri token timeout cb n
    (res.1 = .generalErr ∧ ¬ (coapFd.isSome ∧ n.os.timers.head.isSome) ∧
      res.2.alarmEntry = n.alarmEntry ∧ res.2.reqEntry = n.reqEntry ∧ n.os.Follows res.2.os) ∨
    (res.1 = .ok ∧ coapFd.isSome ∧ n.os.timers.head.isSome ∧ n.os.Follows res.2.os ∧
      ∃ r, Accepted uri timeout cb n res.2 r) := by
  unfold addRequest
  cases coapFd with
  | none => left; exact ⟨rfl, by simp, rfl, rfl, Os.Follows.refl _⟩
  | some fresh =>
    have hf := n.os.follows_timers
    rcases alarmSet_cases timeout .requestAlarmCb true n with ⟨h, heq⟩ | ⟨fd, s, h, h0, hnew, heq⟩
    · left
      simp [heq, h, hf]
    · right
      simp only [heq]
      rw [if_neg (by omega)]
      set n' : Net α κ := { n with
        os := { n.os with timers := n.os.timers.tail }
        schedEntry := s
        alarmEntry := n.alarmEntry ++ [⟨fd, .requestAlarmCb, true, timeout⟩] } with hn'
      have hheld : ∀ x, x ∈ n'.held ↔ x ∈ n.held ∨ x = fd := by
        intro x
        simp only [Net.held, hn', List.map_append, List.map_cons, List.map_nil, List.mem_append,
          List.mem_singleton]
        exact or_right_comm
      have hnot := newFd_notMem n' fresh
      rw [hheld, not_or] at hnot
      refine ⟨rfl, rfl, h, hf, ⟨n'.newFd fresh, fd, ctx, session, uri, token, cb, false⟩, ?_⟩
      exact ⟨rfl, rfl, rfl, rfl, rfl, h0, hnew, newFd_nonneg n' fresh, hnot.1, hnot.2, hctx⟩

/-- **A request fails before the lists are touched, or it reaches `add_request`**, with a new context. -/
theorem request_early (uri : String) (timeout : ℕ) (cb : κ) (n : Net α κ) :
    (¬ n.Grants ∧ ∃ os token, n.os.Follows os ∧
      atlasCoapClientRequest (some uri) timeout (some cb) n = (.generalErr, { n with os := os, token := token })) ∨
    ((n.Grants ↔ n.os.requests.head.coapFd.isSome ∧ n.os.timers.head.isSome) ∧ ∃ ctx session,
      ctx ∉ n.reqEntry.map CoapReq.ctx ∧ atlasCoapClientRequest (some uri) timeout (some cb) n =
        addRequest ctx session n.os.requests.head.coapFd uri n.token timeout cb
          { n with os := { n.os with requests := n.os.requests.tail }, token := n.token + 1 }) := by
  have hf := n.os.follows_requests
  unfold atlasCoapClientRequest Net.Grants CoapAnswer.Accepts
  simp only
  -- one early return after the other
  by_cases h1 : n.os.requests.head.splitUri = true
  swap
  · left; exact ⟨by simp [h1], _, n.token, hf, by simp [h1]⟩
  by_cases h2 : n.os.requests.head.resolved = true
  swap
  · left; exact ⟨by simp [h2], _, n.token, hf, by simp [h1, h2]⟩
  cases h3 : n.os.requests.head.ctx with
  | none => left; exact ⟨by simp, _, n.token, hf, by simp [h1, h2]⟩
  | some ctx =>
    cases h4 : n.os.requests.head.session with
    | none => left; exact ⟨by simp, _, n.token, hf, by simp [h1, h2]⟩
    | some session =>
      by_cases h5 : n.os.requests.head.pdu = true
      swap
      · left; exact ⟨by simp [h5], _, n.token, hf, by simp [h1, h2, h5]⟩
      by_cases h6 : n.os.requests.head.tokenAdded = true
      swap
      · left; exact ⟨by simp [h6], _, n.token + 1, hf, by simp [h1, h2, h5, h6]⟩
      right
      refine ⟨by simp [h1, h2, h5, h6], ctx.pick (n.reqEntry.map CoapReq.ctx),
        session.pick (n.reqEntry.map CoapReq.session), ctx.pick_notMem _, ?_⟩
      simp only [h1, h2, h5, h6, Bool.not_true, Bool.false_eq_true, if_false]

/-- **`atlas_coap_client_request` fails and leaves alarms and requests alone, or it accepts.** -/
theorem request_cases (uri : String) (timeout : ℕ) (cb : κ) (n : Net α κ) :
    let res := atlasCoapClientRequest (some uri) timeout (some cb) n
    (res.1 ≠ .ok ∧ ¬ n.Grants ∧ res.2.alarmEntry = n.alarmEntry ∧ res.2.reqEntry = n.reqEntry ∧
      n.os.Follows res.2.os) ∨
    (res.1 = .ok ∧ n.Grants ∧ n.os.Follows res.2.os ∧ ∃ r, Accepted uri timeout cb n res.2 r) := by
  rcases request_early uri timeout cb n with ⟨hno, os, token, ho, heq⟩ | ⟨hgrants, ctx, session, hctx, heq⟩
  · left
    rw [heq]
    exact ⟨by simp, hno, rfl, rfl, ho⟩
  · rw [heq, hgrants]
    have hf := n.os.follows_requests
    rcases addRequest_cases ctx session n.os.requests.head.coapFd uri n.token timeout cb
      { n with os := { n.os with requests := n.os.requests.tail }, token := n.token + 1 } hctx with
      ⟨hs, hno, ha, hr, ho⟩ | ⟨hs, hc, ht, ho, r, hacc⟩
    · left
      exact ⟨by rw [hs]; decide, hno, ha, hr, hf.trans ho⟩
    · right
      refine ⟨hs, ⟨hc, ht⟩, hf.trans ho, r, ?_⟩
      exact ⟨hacc.alarms, hacc.reqs, hacc.callback, hacc.uri, hacc.clean, hacc.alarm_nonneg, hacc.alarm_new,
        hacc.fd_nonneg, hacc.fd_new, hacc.fd_ne, hacc.ctx_new⟩

/-! ## Cancelling an alarm -/

@[simp] theorem cancel_reqEntry (id : ℤ) (n : Net α κ) : (atlasAlarmCancel id n).reqEntry = n.reqEntry := by
  unfold atlasAlarmCancel
  split <;> rfl

@[simp] theorem cancel_os (id : ℤ) (n : Net α κ) : (atlasAlarmCancel id n).os = n.os := by
  unfold atlasAlarmCancel
  split <;> rfl

/-! ## The invariant of the lists -/

/-- The ids of the live alarms that carry a callback. -/
def Net.idsOf [DecidableEq α] (n : Net α κ) (cb : AlarmCb α) : List ℤ :=
  (n.alarmEntry.filter fun a => a.callback = cb).map AlarmEntry.alarmId

variable [DecidableEq α]

@[simp] theorem mem_idsOf {n : Net α κ} {cb : AlarmCb α} {id : ℤ} :
    id ∈ n.idsOf cb ↔ ∃ a ∈ n.alarmEntry, a.callback = cb ∧ a.alarmId = id := by
  simp [Net.idsOf, and_assoc]

/-- **The lists are in order.** -/
structure NetOk (n : Net α κ) : Prop where
  nodup : n.held.Nodup
  nonneg : ∀ x ∈ n.held, 0 ≤ x
  /-- every request owns the live timeout alarm that its entry names -/
  own : ∀ r ∈ n.reqEntry, r.alarmId ∈ n.idsOf .requestAlarmCb
  alone : (n.reqEntry.map CoapReq.alarmId).Nodup
  ctx : (n.reqEntry.map CoapReq.ctx).Nodup

variable {n : Net α κ}

theorem netOk_init (os : Os) : NetOk (Net.init os : Net α κ) := by
  constructor <;> simp [Net.init, Net.held]

theorem NetOk.ids_nodup (h : NetOk n) : (n.alarmEntry.map AlarmEntry.alarmId).Nodup :=
  (List.nodup_append.1 h.nodup).1

theorem NetOk.id_inj (h : NetOk n) {a b : AlarmEntry α} (ha : a ∈ n.alarmEntry) (hb : b ∈ n.alarmEntry)
    (heq : a.alarmId = b.alarmId) : a = b :=
  List.inj_on_of_nodup_map h.ids_nodup ha hb heq

/-- A live id belongs to one callback. -/
theorem NetOk.callback_unique (h : NetOk n) {cb cb' : AlarmCb α} {id : ℤ} (h1 : id ∈ n.idsOf cb)
    (h2 : id ∈ n.idsOf cb') : cb = cb' := by
  obtain ⟨a, ha, rfl, rfl⟩ := mem_idsOf.1 h1
  obtain ⟨b, hb, rfl, heq⟩ := mem_idsOf.1 h2
  rw [h.id_inj ha hb heq.symm]

theorem NetOk.id_nonneg (h : NetOk n) {cb : AlarmCb α} {id : ℤ} (hid : id ∈ n.idsOf cb) : 0 ≤ id := by
  obtain ⟨a, ha, -, rfl⟩ := mem_idsOf.1 hid
  exact h.nonneg _ (List.mem_append_left _ (List.mem_map_of_mem ha))

theorem mem_held_of_idsOf {cb : AlarmCb α} {id : ℤ} (hid : id ∈ n.idsOf cb) : id ∈ n.held := by
  obtain ⟨a, ha, -, rfl⟩ := mem_idsOf.1 hid
  exact List.mem_append_left _ (List.mem_map_of_mem ha)

/-! ### Cancelling -/

theorem cancel_alarms (h : NetOk n) (id : ℤ) :
    (atlasAlarmCancel id n).alarmEntry = n.alarmEntry.filter fun a => a.alarmId ≠ id := by
  rw [← eraseP_eq_filter h.ids_nodup]
  unfold atlasAlarmCancel
  cases hf : n.alarmEntry.find? fun p => p.alarmId = id with
  | some p => rfl
  | none =>
    rw [List.find?_eq_none] at hf
    exact (List.eraseP_of_forall_not fun a ha => by simpa using hf a ha).symm

/-- **Cancelling takes one id out**, whichever callback the alarm carries. -/
theorem idsOf_cancel (h : NetOk n) (id : ℤ) (cb : AlarmCb α) :
    (atlasAlarmCancel id n).idsOf cb = (n.idsOf cb).filter (· ≠ id) := by
  unfold Net.idsOf
  rw [cancel_alarms h, List.filter_filter, List.filter_map, List.filter_filter]
  congr 1
  refine List.filter_congr fun a _ => ?_
  simp [Bool.and_comm]

/-- An alarm of another callback survives. -/
theorem idsOf_cancel_other (h : NetOk n) {id : ℤ} {cb cb' : AlarmCb α} (hid : id ∈ n.idsOf cb)
    (hne : cb' ≠ cb) : (atlasAlarmCancel id n).idsOf cb' = n.idsOf cb' := by
  rw [idsOf_cancel h, List.filter_eq_self]
  intro x hx
  have hx' : x ≠ id := by
    rintro rfl
    exact hne (h.callback_unique hx hid)
  simpa using hx'

theorem NetOk.sublist {n' : Net α κ} (h : NetOk n)
    (ha : (n'.alarmEntry.map AlarmEntry.alarmId).Sublist (n.alarmEntry.map AlarmEntry.alarmId))
    (hr : n'.reqEntry.Sublist n.reqEntry)
    (hown : ∀ r ∈ n'.reqEntry, r.alarmId ∈ n'.idsOf .requestAlarmCb) : NetOk n' where
  nodup := h.nodup.sublist (ha.append (hr.map _))
  nonneg x hx := h.nonneg x ((ha.append (hr.map _)).subset hx)
  own := hown
  alone := h.alone.sublist (hr.map _)
  ctx := h.ctx.sublist (hr.map _)

/-- An alarm that no request owns can be cancelled. -/
theorem NetOk.cancel (h : NetOk n) {id : ℤ} (hid : ∀ r ∈ n.reqEntry, r.alarmId ≠ id) :
    NetOk (atlasAlarmCancel id n) := by
  refine h.sublist ?_ (by simp) ?_
  · rw [cancel_alarms h]; exact List.filter_sublist.map _
  · intro r hr
    rw [cancel_reqEntry] at hr
    rw [idsOf_cancel h, List.mem_filter]
    exact ⟨h.own r hr, by simpa using hid r hr⟩

/-! ### Setting, requesting -/

theorem idsOf_append {n' : Net α κ} {new : List (AlarmEntry α)} (ha : n'.alarmEntry = n.alarmEntry ++ new)
    (cb : AlarmCb α) :
    n'.idsOf cb = n.idsOf cb ++ (new.filter fun a => a.callback = cb).map AlarmEntry.alarmId := by
  simp [Net.idsOf, ha]

theorem NetOk.alarmSet (h : NetOk n) (ms : ℕ) (cb : AlarmCb α) (once : Bool) :
    NetOk (atlasAlarmSet ms cb once n).2 := by
  rcases alarmSet_cases ms cb once n with ⟨-, heq⟩ | ⟨fd, s, -, h0, hnew, heq⟩
  · rw [heq]; exact ⟨h.nodup, h.nonneg, h.own, h.alone, h.ctx⟩
  · rw [heq]
    have hperm : List.Perm (fd :: n.held)
        (Net.held { n with
          os := { n.os with timers := n.os.timers.tail }
          schedEntry := s
          alarmEntry := n.alarmEntry ++ [⟨fd, cb, once, ms⟩] }) := by
      simp only [Net.held, List.map_append, List.map_cons, List.map_nil, List.append_assoc]
      exact List.perm_middle.symm
    refine ⟨hperm.nodup_iff.1 (List.nodup_cons.2 ⟨hnew, h.nodup⟩), ?_, ?_, h.alone, h.ctx⟩
    · intro x hx
      rcases List.mem_cons.1 (hperm.mem_iff.2 hx) with rfl | hx
      · exact h0
      · exact h.nonneg x hx
    · intro r hr
      obtain ⟨a, ha, hcb, hid⟩ := mem_idsOf.1 (h.own r hr)
      exact mem_idsOf.2 ⟨a, List.mem_append_left _ ha, hcb, hid⟩

theorem NetOk.accepted {uri : String} {timeout : ℕ} {cb : κ} {n' : Net α κ} {r : CoapReq κ} (h : NetOk n)
    (hacc : Accepted uri timeout cb n n' r) : NetOk n' := by
  have hperm : List.Perm (r.alarmId :: r.coapFd :: n.held) n'.held := by
    simp only [Net.held, hacc.alarms, hacc.reqs, List.map_append, List.map_cons, List.map_nil]
    have hfd : List.Perm (r.coapFd :: n.held) (n.held ++ [r.coapFd]) := (List.perm_append_singleton _ _).symm
    refine (hfd.cons _).trans ?_
    simp only [Net.held, List.append_assoc, List.cons_append, List.nil_append]
    exact List.perm_middle.symm
  have hids := idsOf_append hacc.alarms .requestAlarmCb
  -- the ids that requests own are live, so the new one is not among them
  have hne : ∀ q ∈ n.reqEntry, q.alarmId ≠ r.alarmId := by
    intro q hq heq
    exact hacc.alarm_new (heq ▸ mem_held_of_idsOf (h.own q hq))
  refine ⟨hperm.nodup_iff.1 ?_, ?_, ?_, ?_, hacc.ctx_nodup h.ctx⟩
  · rw [List.nodup_cons, List.nodup_cons]
    refine ⟨?_, hacc.fd_new, h.nodup⟩
    simp only [List.mem_cons, not_or]
    exact ⟨hacc.fd_ne.symm, hacc.alarm_new⟩
  · intro x hx
    rcases List.mem_cons.1 (hperm.mem_iff.2 hx) with rfl | hx
    · exact hacc.alarm_nonneg
    · rcases List.mem_cons.1 hx with rfl | hx
      · exact hacc.fd_nonneg
      · exact h.nonneg x hx
  · intro q hq
    rw [hids, List.mem_append]
    rw [hacc.reqs] at hq
    rcases List.mem_append.1 hq with hq | hq
    · exact Or.inl (h.own q hq)
    · rw [List.mem_singleton] at hq
      subst hq; right; simp
  · rw [hacc.reqs, List.map_append, List.map_singleton, ← List.concat_eq_append, List.nodup_concat]
    refine ⟨fun hm => ?_, h.alone⟩
    obtain ⟨q, hq, heq⟩ := List.mem_map.1 hm
    exact hne q hq heq

/-! ### Unlinking -/

omit [DecidableEq α] in
/-- The entry that is found is the one that is marked. -/
theorem markDirty_split {ctx session : ℕ} {ent : CoapReq κ}
    (hf : n.reqEntry.find? (CoapReq.at ctx session) = some ent) :
    ∃ pre post, n.reqEntry = pre ++ ent :: post ∧
      (markDirty ctx session n).reqEntry = pre ++ { ent with dirty := true } :: post := by
  obtain ⟨pre, post, hl, hpre, hp⟩ := find?_split hf
  refine ⟨pre, post, hl, ?_⟩
  show updFirst _ _ n.reqEntry = _
  rw [hl]; exact updFirst_split hpre hp

omit [DecidableEq α] in
/-- Marking changes nothing else of an entry. -/
theorem mem_markDirty {ctx session : ℕ} {ent r : CoapReq κ} (hf : n.reqEntry.find? (CoapReq.at ctx session) = some ent)
    (hr : r ∈ (markDirty ctx session n).reqEntry) :
    ∃ q ∈ n.reqEntry, q.callback = r.callback ∧ q.ctx = r.ctx ∧ q.alarmId = r.alarmId := by
  obtain ⟨pre, post, hl, hm⟩ := markDirty_split hf
  rw [hm] at hr
  rw [hl]
  rcases List.mem_append.1 hr with hr | hr
  · exact ⟨r, List.mem_append_left _ hr, rfl, rfl, rfl⟩
  · rcases List.mem_cons.1 hr with rfl | hr
    · exact ⟨ent, by simp, rfl, rfl, rfl⟩
    · exact ⟨r, by simp [hr], rfl, rfl, rfl⟩

theorem NetOk.markDirty (h : NetOk n) {ctx session : ℕ} {ent : CoapReq κ}
    (hf : n.reqEntry.find? (CoapReq.at ctx session) = some ent) : NetOk (markDirty ctx session n) := by
  obtain ⟨pre, post, hl, hm⟩ := markDirty_split hf
  have hmap : ∀ {β : Type} (f : CoapReq κ → β), f { ent with dirty := true } = f ent →
      (AtlasClient.markDirty ctx session n).reqEntry.map f = n.reqEntry.map f := by
    intro β f heq
    simp [hm, hl, heq]
  refine ⟨?_, ?_, ?_, ?_, ?_⟩
  · unfold Net.held; rw [hmap _ rfl]; exact h.nodup
  · unfold Net.held; rw [hmap _ rfl]; exact h.nonneg
  · intro r hr
    have hmem : r.alarmId ∈ n.reqEntry.map CoapReq.alarmId := by
      rw [← hmap CoapReq.alarmId rfl]; exact List.mem_map_of_mem hr
    obtain ⟨q, hq, heq⟩ := List.mem_map.1 hmem
    rw [← heq]; exact h.own q hq
  · rw [hmap _ rfl]; exact h.alone
  · rw [hmap _ rfl]; exact h.ctx

omit [DecidableEq α] in
/-- **After `coap_io_process`** nothing happens, or a dirty entry and its alarm go. -/
theorem unlinkIfDirty_cases (fd : ℤ) (n : Net α κ) :
    unlinkIfDirty fd n = n ∨ ∃ pre p post s, n.reqEntry = pre ++ p :: post ∧ p.dirty = true ∧
      unlinkIfDirty fd n = atlasAlarmCancel p.alarmId { n with reqEntry := pre ++ post, schedEntry := s } := by
  unfold unlinkIfDirty
  cases hf : n.reqEntry.find? fun p => p.coapFd = fd with
  | none => left; rfl
  | some p =>
    obtain ⟨pre, post, hl, hpre, hp⟩ := find?_split hf
    by_cases hd : p.dirty = true
    · right
      refine ⟨pre, p, post, atlasSchedDelEntry p.coapFd n.schedEntry, hl, hd, ?_⟩
      simp only [hd, if_true]
      rw [hl, eraseP_split hpre hp]
    · left; simp [hd]

/-- Taking an entry out leaves its alarm alone in the list. -/
theorem NetOk.unlink (h : NetOk n) {pre post : List (CoapReq κ)} {p : CoapReq κ} {s : List (SchedEntry SchedCb)}
    (hl : n.reqEntry = pre ++ p :: post) :
    NetOk { n with reqEntry := pre ++ post, schedEntry := s } ∧ ∀ r ∈ pre ++ post, r.alarmId ≠ p.alarmId := by
  have hsub : (pre ++ post).Sublist n.reqEntry := by
    rw [hl]; exact sublist_split
  refine ⟨h.sublist (List.Sublist.refl _) hsub ?_, ?_⟩
  · intro r hr; exact h.own r (hsub.subset hr)
  · have hal := h.alone
    rw [hl, List.map_append, List.map_cons, List.nodup_append, List.nodup_cons] at hal
    obtain ⟨-, ⟨hpost, -⟩, hcross⟩ := hal
    intro r hr
    rcases List.mem_append.1 hr with hr | hr
    · exact hcross _ (List.mem_map_of_mem hr) _ (by simp)
    · exact fun heq => hpost (by rw [← heq]; exact List.mem_map_of_mem hr)

end AtlasClient
