import AtlasClient.Lib.Run
import AtlasClient.Proof.Net

/-!
# Refused requests

`atlas_coap_client_request` can fail at ten places. `Watch` is a client whose callbacks issue any
requests, with a journal of the callbacks of requests that were invoked.

* `request_lists`: a request leaves the three lists alone, or it adds to each of them.
* `request_traceless`: **a refused request leaves no trace**, neither in the lists nor in any later
  run, and an accepted one adds one request with what belongs to it.
-/

namespace AtlasClient

open FirstMatch Machine

variable {α κ : Type}

/-! ## The lists -/

structure SameLists (n n' : Net α κ) : Prop where
  reqs : n'.reqEntry = n.reqEntry
  alarms : n'.alarmEntry = n.alarmEntry
  sched : n'.schedEntry = n.schedEntry

/-- One request, its timeout alarm, and the entries that watch the timer of the alarm and the
descriptor of the request, with new numbers. -/
structure AddsRequest (uri : String) (timeout : ℕ) (cb : κ) (n n' : Net α κ) (r : CoapReq κ) : Prop where
  reqs : n'.reqEntry = n.reqEntry ++ [r]
  alarms : n'.alarmEntry = n.alarmEntry ++ [⟨r.alarmId, .requestAlarmCb, true, timeout⟩]
  sched : n'.schedEntry = n.schedEntry ++
    [⟨r.alarmId, .atlasAlarmTrigger, false⟩, ⟨r.coapFd, .coapClientSchedCallback, false⟩]
  entry : r.uri = uri ∧ r.callback = cb ∧ r.dirty = false
  new : r.alarmId ∉ n.held ∧ r.coapFd ∉ n.held ∧ r.coapFd ≠ r.alarmId

theorem addRequest_lists (ctx session : ℕ) (coapFd : Option Fresh) (uri : String) (token : UInt32) (timeout : ℕ)
    (cb : κ) (n : Net α κ) :
    let res := addRequest ctx session coapFd uri token timeout cb n
    (res.1 ≠ .ok ∧ SameLists n res.2) ∨ (res.1 = .ok ∧ ∃ r, AddsRequest uri timeout cb n res.2 r) := by
  unfold addRequest atlasAlarmSet
  cases coapFd with
  | none => left; exact ⟨by simp, rfl, rfl, rfl⟩
  | some coapFresh =>
    cases n.os.timers.head with
    | none => left; exact ⟨by simp, rfl, rfl, rfl⟩
    | some fresh =>
      right
      have hfd := newFd_nonneg n fresh
      set n₁ : Net α κ := { n with
        os := { n.os with timers := n.os.timers.tail }
        schedEntry := atlasSchedAddEntry (n.newFd fresh) (some .atlasAlarmTrigger) n.schedEntry
        alarmEntry := n.alarmEntry ++ [⟨n.newFd fresh, .requestAlarmCb, true, timeout⟩] } with hn₁
      have hcoap := newFd_nonneg n₁ coapFresh
      have hnew := newFd_notMem n₁ coapFresh
      have hheld : ∀ x, x ∈ n₁.held ↔ x ∈ n.held ∨ x = n.newFd fresh := by
        intro x
        simp only [Net.held, hn₁, List.map_append, List.map_cons, List.map_nil, List.mem_append, List.mem_singleton]
        exact or_right_comm
      rw [hheld, not_or] at hnew
      have hsched : atlasSchedAddEntry (n₁.newFd coapFresh) (some .coapClientSchedCallback) n₁.schedEntry =
          n.schedEntry ++ [⟨n.newFd fresh, .atlasAlarmTrigger, false⟩,
            ⟨n₁.newFd coapFresh, .coapClientSchedCallback, false⟩] := by
        have h₁ : n₁.schedEntry = n.schedEntry ++ [⟨n.newFd fresh, .atlasAlarmTrigger, false⟩] :=
          atlasSchedAddEntry_eq hfd _ _
        rw [atlasSchedAddEntry_eq hcoap, h₁, List.append_assoc]
        rfl
      simp only
      rw [if_neg (by omega)]
      refine ⟨rfl, ⟨n₁.newFd coapFresh, n.newFd fresh, ctx, session, uri, token, cb, false⟩, rfl, rfl, ?_,
        ⟨rfl, rfl, rfl⟩, newFd_notMem n fresh, hnew.1, hnew.2⟩
      exact hsched

/-- **A request leaves the lists alone, or it adds to each of them.** -/
theorem request_lists (uri : Option String) (timeout : ℕ) (cb : Option κ) (n : Net α κ) :
    let res := atlasCoapClientRequest uri timeout cb n
    (res.1 ≠ .ok ∧ SameLists n res.2) ∨
      (res.1 = .ok ∧ ∃ uri' cb' r, uri = some uri' ∧ cb = some cb' ∧ AddsRequest uri' timeout cb' n res.2 r) := by
  cases uri with
  | none => left; exact ⟨by simp [atlasCoapClientRequest], rfl, rfl, rfl⟩
  | some uri =>
    cases cb with
    | none => left; exact ⟨by simp [atlasCoapClientRequest], rfl, rfl, rfl⟩
    | some cb =>
      rcases request_early uri timeout cb n with ⟨-, os, token, -, heq⟩ | ⟨-, ctx, session, -, heq⟩
      · left
        rw [heq]
        exact ⟨by simp, rfl, rfl, rfl⟩
      · rw [heq]
        rcases addRequest_lists ctx session n.os.requests.head.coapFd uri n.token timeout cb
          { n with os := { n.os with requests := n.os.requests.tail }, token := n.token + 1 } with
          ⟨hs, h⟩ | ⟨hs, r, h⟩
        · exact Or.inl ⟨hs, h.reqs, h.alarms, h.sched⟩
        · exact Or.inr ⟨hs, uri, cb, r, rfl, rfl, h.reqs, h.alarms, h.sched, h.entry, h.new⟩

/-! ## The machine -/

/-- The callbacks of requests that were invoked, and the requests that the `n`-th callback issues. -/
structure Watch (κ : Type) where
  invoked : List κ
  turn : ℕ
  plan : ℕ → List (String × ℕ × κ)

abbrev WatchRun (α κ : Type) := World α κ (Watch κ)

def WatchRun.request (w : WatchRun α κ) (q : String × ℕ × κ) : WatchRun α κ :=
  { w with net := (atlasCoapClientRequest (some q.1) q.2.1 (some q.2.2) w.net).2 }

/-- A callback issues its requests. -/
def WatchRun.act (w : WatchRun α κ) : WatchRun α κ :=
  (w.app.plan w.app.turn).foldl WatchRun.request (w.mapApp fun j => { j with turn := j.turn + 1 })

def watch (e : Endian) : Program α κ (Watch κ) where
  endian := e
  alarmCb _ _ w := WatchRun.act w
  coapCb cb _ _ _ w := WatchRun.act (w.mapApp fun j => { j with invoked := j.invoked ++ [cb] })

inductive WatchEvent (κ : Type)
  | request (q : String × ℕ × κ)
  | ready (fd : ℤ) (pdus : List CoapPdu)
  | alarm (fd : ℤ)

def WatchRun.step (e : Endian) (w : WatchRun α κ) : WatchEvent κ → WatchRun α κ
  | .request q => w.request q
  | .ready fd pdus => coapClientSchedCallback (watch e) fd pdus w
  | .alarm fd => (watch e).fire fd w

/-- No request with the callback is made from outside. -/
def WatchEvent.Avoids (cb : κ) : WatchEvent κ → Prop
  | .request q => q.2.2 ≠ cb
  | _ => True

/-- Whatever happens after `n`: if no other request carries the callback, it is not invoked. -/
def NeverInvoked (e : Endian) (cb : κ) (n : Net α κ) : Prop :=
  ∀ (plan : ℕ → List (String × ℕ × κ)) (es : List (WatchEvent κ)), (∀ i, ∀ q ∈ plan i, q.2.2 ≠ cb) →
    (∀ ev ∈ es, ev.Avoids cb) → cb ∉ (run (WatchRun.step e) ⟨n, [], ⟨[], 0, plan⟩⟩ es).app.invoked

/-! ## The invariant -/

variable {e : Endian} {cb : κ} {w : WatchRun α κ}

/-- Neither the table nor a plan has the callback, and it has not been invoked. -/
structure Unasked (cb : κ) (w : WatchRun α κ) : Prop where
  reqs : ∀ r ∈ w.net.reqEntry, r.callback ≠ cb
  plan : ∀ i, ∀ q ∈ w.app.plan i, q.2.2 ≠ cb
  invoked : cb ∉ w.app.invoked

/-- The lists may shrink. -/
theorem Unasked.mapNet (h : Unasked cb w) {f : Net α κ → Net α κ}
    (hf : ∀ r ∈ (f w.net).reqEntry, ∃ r' ∈ w.net.reqEntry, r'.callback = r.callback) : Unasked cb (w.mapNet f) := by
  refine ⟨fun r hr => ?_, h.plan, h.invoked⟩
  obtain ⟨r', hr', hcb⟩ := hf r hr
  rw [← hcb]
  exact h.reqs r' hr'

theorem Unasked.request (h : Unasked cb w) {q : String × ℕ × κ} (hq : q.2.2 ≠ cb) : Unasked cb (w.request q) := by
  refine ⟨?_, h.plan, h.invoked⟩
  rcases request_lists (some q.1) q.2.1 (some q.2.2) w.net with ⟨-, hsame⟩ | ⟨-, uri, cb', r, -, hcb, hadds⟩
  · exact fun r hr => h.reqs r (hsame.reqs ▸ hr)
  · intro r' hr'
    rw [WatchRun.request, hadds.reqs] at hr'
    rcases List.mem_append.1 hr' with hr' | hr'
    · exact h.reqs r' hr'
    · rw [List.mem_singleton.1 hr', hadds.entry.2.1, ← Option.some.inj hcb]
      exact hq

theorem Unasked.act (h : Unasked cb w) : Unasked cb w.act := by
  have hfold : ∀ (qs : List (String × ℕ × κ)) {w : WatchRun α κ}, Unasked cb w → (∀ q ∈ qs, q.2.2 ≠ cb) →
      Unasked cb (qs.foldl WatchRun.request w) := by
    intro qs
    induction qs with
    | nil => exact fun h _ => h
    | cons q qs ih =>
      intro w h hqs
      exact ih (h.request (hqs q List.mem_cons_self)) fun q' hq' => hqs q' (List.mem_cons_of_mem _ hq')
  exact hfold _ ⟨h.reqs, h.plan, h.invoked⟩ (h.plan w.app.turn)

/-- Another callback is invoked. -/
theorem Unasked.coapCb (h : Unasked cb w) {cb' : κ} (hne : cb' ≠ cb) (uri : String) (status : AtlasCoapResponse)
    (payload : Bytes) : Unasked cb ((watch e).coapCb cb' uri status payload w) := by
  have hlog : Unasked cb (w.mapApp fun j => { j with invoked := j.invoked ++ [cb'] }) := by
    refine ⟨h.reqs, h.plan, ?_⟩
    show cb ∉ w.app.invoked ++ [cb']
    rw [List.mem_append, List.mem_singleton, not_or]
    exact ⟨h.invoked, hne.symm⟩
  exact hlog.act

theorem mem_updFirst {p : CoapReq κ → Bool} {l : List (CoapReq κ)} {r : CoapReq κ}
    (hr : r ∈ updFirst p (fun ent => { ent with dirty := true }) l) : ∃ r' ∈ l, r'.callback = r.callback := by
  induction l with
  | nil => cases hr
  | cons a l ih =>
    unfold updFirst at hr
    split at hr
    · rcases List.mem_cons.1 hr with rfl | hr
      · exact ⟨a, List.mem_cons_self, rfl⟩
      · exact ⟨r, List.mem_cons_of_mem _ hr, rfl⟩
    · rcases List.mem_cons.1 hr with rfl | hr
      · exact ⟨r, List.mem_cons_self, rfl⟩
      · obtain ⟨r', hr', hcb⟩ := ih hr
        exact ⟨r', List.mem_cons_of_mem _ hr', hcb⟩

theorem Unasked.messageHandler (h : Unasked cb w) (ctx session : ℕ) (received : CoapPdu) :
    Unasked cb (messageHandler (watch e) ctx session received w) := by
  unfold AtlasClient.messageHandler
  split
  · exact h
  · rename_i ent hent
    split
    · exact h
    · exact (h.mapNet fun r hr => mem_updFirst hr).coapCb (h.reqs ent (List.mem_of_find?_eq_some hent)) _ _ _

theorem Unasked.ready (h : Unasked cb w) (fd : ℤ) (pdus : List CoapPdu) :
    Unasked cb (coapClientSchedCallback (watch e) fd pdus w) := by
  unfold coapClientSchedCallback
  split
  · exact h
  · rename_i p hp
    have hfold : ∀ (pdus : List CoapPdu) {w : WatchRun α κ}, Unasked cb w → Unasked cb
        (pdus.foldl (fun w received => AtlasClient.messageHandler (watch e) p.ctx p.session received w) w) := by
      intro pdus
      induction pdus with
      | nil => exact fun h => h
      | cons received pdus ih => exact fun h => ih (h.messageHandler p.ctx p.session received)
    refine (hfold pdus h).mapNet fun r hr => ⟨r, ?_, rfl⟩
    unfold unlinkIfDirty at hr
    split at hr
    · exact hr
    · split at hr
      · rw [cancel_reqEntry] at hr
        exact List.mem_of_mem_eraseP hr
      · exact hr

theorem Unasked.alarm (h : Unasked cb w) (fd : ℤ) : Unasked cb ((watch e).fire fd w) := by
  unfold Program.fire atlasAlarmTrigger
  split
  · exact h
  · rename_i a ha
    have hrun : Unasked cb ((watch e).runAlarm a.callback a.alarmId w) := by
      cases a.callback with
      | requestAlarmCb =>
        show Unasked cb (requestAlarmCb (watch e) a.alarmId w)
        unfold requestAlarmCb
        split
        · exact h
        · rename_i r hr
          refine (h.coapCb (h.reqs r (List.mem_of_find?_eq_some hr)) r.uri .timeout []).mapNet fun r' hr' => ?_
          exact ⟨r', List.mem_of_mem_eraseP hr', rfl⟩
      | app cb' => exact h.act
    simp only
    split
    · exact hrun.mapNet fun r hr => ⟨r, by rwa [cancel_reqEntry] at hr, rfl⟩
    · exact hrun

/-- **One event keeps the invariant.** -/
theorem Unasked.step (h : Unasked cb w) {ev : WatchEvent κ} (hev : ev.Avoids cb) : Unasked cb (w.step e ev) := by
  cases ev with
  | request q => exact h.request hev
  | ready fd pdus => exact h.ready fd pdus
  | alarm fd => exact h.alarm fd

theorem Unasked.run : ∀ {es : List (WatchEvent κ)} {w : WatchRun α κ}, Unasked cb w → (∀ ev ∈ es, ev.Avoids cb) →
    Unasked cb (run (WatchRun.step e) w es) := by
  intro es
  induction es with
  | nil => exact fun h _ => h
  | cons ev es ih =>
    intro w h hes
    exact ih (h.step (hes ev List.mem_cons_self)) fun ev' hev' => hes ev' (List.mem_cons_of_mem _ hev')

/-- A callback that is not in the table is not invoked later. -/
theorem neverInvoked_of (e : Endian) {n : Net α κ} (h : ∀ r ∈ n.reqEntry, r.callback ≠ cb) : NeverInvoked e cb n := by
  intro plan es hplan hes
  have hstart : Unasked cb (⟨n, [], ⟨[], 0, plan⟩⟩ : WatchRun α κ) := ⟨h, hplan, List.not_mem_nil⟩
  exact (hstart.run hes).invoked

/-! ## The result -/

/-- **A refused request leaves no trace.** For every URI, timeout and callback, and whatever the lists
are: with a status other than `ATLAS_OK` the three lists are as before the call, and the callback, if
no other request carries it, is not invoked in any later run. With `ATLAS_OK` there is one request
more at the end of the table, with a one-shot alarm and the two scheduler entries that watch the
timer of the alarm and the descriptor of the request. -/
theorem request_traceless (e : Endian) (uri : Option String) (timeout : ℕ) (cb : Option κ) (n : Net α κ) :
    let res := atlasCoapClientRequest uri timeout cb n
    (res.1 ≠ .ok → SameLists n res.2 ∧
      ∀ cb', cb = some cb' → (∀ r ∈ n.reqEntry, r.callback ≠ cb') → NeverInvoked e cb' res.2) ∧
    (res.1 = .ok → ∃ uri' cb' r, uri = some uri' ∧ cb = some cb' ∧ AddsRequest uri' timeout cb' n res.2 r) := by
  rcases request_lists uri timeout cb n with ⟨hs, hsame⟩ | ⟨hs, hadds⟩
  · refine ⟨fun _ => ⟨hsame, ?_⟩, fun h => absurd h hs⟩
    intro cb' _ hnew
    exact neverInvoked_of e (hsame.reqs.symm ▸ hnew)
  · exact ⟨fun h => absurd hs h, fun _ => hadds⟩

/-- A policy request of a client that has just started. -/
theorem request_traceless_policy : ∃ uri cb r, some "coaps://gw:10100/gateway/policy" = some uri ∧
    some 0 = some cb ∧ AddsRequest uri 5000 cb (Net.init Os.calm : Net Empty ℕ)
      (atlasCoapClientRequest (some "coaps://gw:10100/gateway/policy") 5000 (some 0) (Net.init Os.calm)).2 r :=
  (request_traceless .little (some "coaps://gw:10100/gateway/policy") 5000 (some 0) (Net.init Os.calm)).2 (by rfl)

/-- **An accepted request adds two scheduler entries**: its alarm has one of its own. -/
theorem request_adds_two : ¬ ∀ (uri : String) (timeout cb : ℕ) (n : Net Empty ℕ),
    (atlasCoapClientRequest (some uri) timeout (some cb) n).1 = .ok →
      ∃ ent, (atlasCoapClientRequest (some uri) timeout (some cb) n).2.schedEntry = n.schedEntry ++ [ent] := by
  intro h
  obtain ⟨ent, hent⟩ := h "coaps://gw:10100/gateway/policy" 5000 0 (Net.init Os.calm) (by rfl)
  have hlen := congrArg List.length hent
  rw [List.length_append, List.length_singleton] at hlen
  exact absurd hlen (by decide)

end AtlasClient
