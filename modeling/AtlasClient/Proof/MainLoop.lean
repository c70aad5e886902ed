import AtlasClient.Lib.Fuel
import AtlasClient.Proof.Endpoints
import AtlasClient.Proof.Unread

/-!
# The main loop and the machine

The events of `Device.step` come in any order, and nothing sweeps the list of the scheduler. The main loop runs the
callbacks in the order of the list, and sweeps it in every round.

* `Device.Resched`: two devices that differ in nothing but the list.
* `round_returns`: every round ends.
* `mainLoop_refines`: **what the main loop does, the machine does.**
-/

namespace AtlasClient

open Fuel Machine NodeWalk Simulation

variable {cfg : Cfg} {long : LongType}

/-! ## The device -/

namespace Device

/-- `d'` differs from `d` in nothing but the scheduler's list. -/
def Resched (d d' : Device) : Prop := ∃ l, d' = d.withSched l

variable {d d' : Device}

theorem Resched.refl (d : Device) : Resched d d := ⟨d.client.net.schedEntry, rfl⟩

theorem Resched.trans {d'' : Device} (h : Resched d d') (h' : Resched d' d'') : Resched d d'' := by
  obtain ⟨l, rfl⟩ := h
  obtain ⟨l', rfl⟩ := h'
  exact ⟨l', rfl⟩

theorem Resched.asked (h : Resched d d') (cfg : Cfg) (sys : ℕ → SystemAnswer) :
    OnlySched (d.asked cfg sys) (d'.asked cfg sys) := by
  obtain ⟨l, rfl⟩ := h
  exact ⟨l, rfl⟩

/-- What comes of a callback, up to the list. -/
def Answered (r r' : AtlasCoapResponse × Bytes × UInt16 × Client) : Prop :=
  r.1 = r'.1 ∧ r.2.1 = r'.2.1 ∧ r.2.2.1 = r'.2.2.1 ∧ OnlySched r.2.2.2 r'.2.2.2

theorem pushAlertCb_blind (paths : List (String × String)) (uriPath payload : Bytes) {w w' : Client}
    (hw : OnlySched w w') :
    Alike (fun r r' : AtlasCoapResponse × Client => r.1 = r'.1 ∧ OnlySched r.2 r'.2)
      (atlasPushAlertCb cfg paths uriPath payload w) (atlasPushAlertCb cfg paths uriPath payload w') := by
  refine Alike.after _ fun r => ?_
  by_cases hr : r.1 ≠ .ok
  · simp only [if_pos hr]
    exact .ok ⟨rfl, hw⟩
  · simp only [if_neg hr]
    cases paths.find? fun p => ascii p.1 = uriPath with
    | none => exact .ok ⟨rfl, hw⟩
    | some p =>
      have hset := blind_pushSet cfg (some p.2) (r.2.getD 0) hw
      exact .ok ⟨rfl, hset⟩

theorem thresholdCb_blind (payload : Bytes) (procs : UInt16) {w w' : Client} (hw : OnlySched w w') :
    Alike (fun r r' : AtlasCoapResponse × UInt16 × Client => r.1 = r'.1 ∧ r.2.1 = r'.2.1 ∧ OnlySched r.2.2 r'.2.2)
      (atlasThresholdAlertProcsCb cfg.endian long payload procs w)
        (atlasThresholdAlertProcsCb cfg.endian long payload procs w') := by
  refine Alike.after _ fun r => ?_
  obtain ⟨status, scanRate, threshold⟩ := r
  by_cases hr : status ≠ .ok
  · simp only [if_pos hr]
    exact .ok ⟨rfl, rfl, hw⟩
  · simp only [if_neg hr]
    split
    · rename_i rate _
      have hset := blind_thresholdSet (some "gateway/telemetry/sysinfo/procs") rate hw
      split
      · exact .ok ⟨rfl, rfl, hw⟩
      · exact .ok ⟨rfl, rfl, hset⟩
    · exact .error _

/-- No callback of an end-point looks at the list. -/
theorem callback_blind (cb : EndpointCb) (uriPath payload : Bytes) (procs : UInt16) {w w' : Client}
    (hw : OnlySched w w') :
    Alike Answered (callback cfg long cb uriPath payload (procs, w))
      (callback cfg long cb uriPath payload (procs, w')) := by
  cases cb with
  | sysinfoPushAlertCb => exact (pushAlertCb_blind _ _ _ hw).bind fun r r' hr => .ok ⟨hr.1, rfl, rfl, hr.2⟩
  | packetsPushAlertCb => exact (pushAlertCb_blind _ _ _ hw).bind fun r r' hr => .ok ⟨hr.1, rfl, rfl, hr.2⟩
  | thresholdAlertProcsCb => exact (thresholdCb_blind _ _ hw).bind fun r r' hr => .ok ⟨hr.1, rfl, hr.2⟩

theorem put_blind (cfg : Cfg) (long : LongType) (h : Resched d d') (sys : ℕ → SystemAnswer) (resource : ℕ)
    (uriPath : Option Bytes) (payload : Bytes) :
    Alike (fun r r' : Option CoapReply × UInt16 × Client => r.1 = r'.1 ∧ r.2.1 = r'.2.1 ∧ OnlySched r.2.2 r'.2.2)
      (d.put cfg long sys resource uriPath payload) (d'.put cfg long sys resource uriPath payload) := by
  have hasked := h.asked cfg sys
  obtain ⟨l, rfl⟩ := h
  unfold put CoapServer.handler CoapServer.processRequestHandler
  cases uriPath with
  | none => exact .ok ⟨rfl, rfl, hasked⟩
  | some uriPath =>
    refine Alike.after _ fun listener => ?_
    cases listener with
    | none => exact .ok ⟨rfl, rfl, hasked⟩
    | some listener =>
      refine Alike.after _ fun node => ?_
      refine (callback_blind node.value.callback _ payload d.procsThreshold hasked).bind fun r r' hr => ?_
      obtain ⟨status, body, procs, w⟩ := r
      obtain ⟨status', body', procs', w'⟩ := r'
      obtain ⟨rfl, rfl, rfl, hw⟩ : status = status' ∧ body = body' ∧ procs = procs' ∧ OnlySched w w' := hr
      exact .ok ⟨rfl, rfl, hw⟩

/-- **No event of the device looks at the list.** -/
theorem step_resched (h : Resched d d') (e : (ℕ → SystemAnswer) × Event) :
    Resched (d.step cfg long e) (d'.step cfg long e) := by
  obtain ⟨sys, e⟩ := e
  cases hmain : e.main with
  | some ev =>
    have hclient : ∀ d : Device, d.step cfg long (sys, e) = { d with client := (d.asked cfg sys).step cfg ev } := by
      intro d
      cases e with
      | put resource uriPath payload => cases hmain
      | _ => simp only [Device.step, hmain, Option.elim]
    obtain ⟨l', hl'⟩ := step_blind cfg ev (h.asked cfg sys)
    obtain ⟨l, rfl⟩ := h
    rw [hclient, hclient]
    exact ⟨l', congrArg (fun w => { d with client := w }) hl'⟩
  | none =>
    cases e with
    | put resource uriPath payload =>
      have hput := put_blind cfg long h sys resource uriPath payload
      obtain ⟨l, rfl⟩ := h
      unfold step
      simp only
      generalize d.put cfg long sys resource uriPath payload = a at hput ⊢
      generalize (d.withSched l).put cfg long sys resource uriPath payload = b at hput ⊢
      cases hput with
      | error f => exact ⟨l, rfl⟩
      | ok hr =>
        rename_i r r'
        obtain ⟨reply, procs, w⟩ := r
        obtain ⟨reply', procs', w'⟩ := r'
        obtain ⟨-, rfl, l', rfl⟩ := hr
        exact ⟨l', rfl⟩
    | _ => cases hmain

theorem run_resched (es : List ((ℕ → SystemAnswer) × Event)) :
    ∀ {d d' : Device}, Resched d d' → Resched (run (Device.step cfg long) d es) (run (Device.step cfg long) d' es) := by
  induction es with
  | nil => exact fun h => h
  | cons e es ih => exact fun h => ih (step_resched h e)

end Device

/-! ## A pass ends -/

variable {s : MainLoop} {p : MainPass}

/-- How many times the pass can still do something: once for each bit, and once for the server. -/
def MainPass.left (p : MainPass) : ℕ := p.ready.readfds.card + p.ready.requests.toList.length

theorem MainPass.serve_left (cfg : Cfg) (long : LongType) (i : ℕ) (p : MainPass) :
    p.serve cfg long i = p ∨ (p.serve cfg long i).left < p.left := by
  unfold MainPass.serve
  cases hr : p.ready.requests with
  | none => exact .inl rfl
  | some r =>
    obtain ⟨place, requests⟩ := r
    simp only
    split
    · right
      simp only [MainPass.left, hr, Option.toList_none, Option.toList_some, List.length_nil, List.length_singleton]
      omega
    · exact .inl rfl

theorem MainPass.call_left (cfg : Cfg) (long : LongType) (ent : SchedEntry SchedCb) (p : MainPass) :
    p.call cfg long ent = p ∨ (p.call cfg long ent).left < p.left := by
  unfold MainPass.call
  split
  · rename_i hcall
    right
    have hcard := Finset.card_erase_lt_of_mem hcall.2
    simp only [MainPass.left]
    omega
  · exact .inl rfl

theorem MainPass.visit_left (cfg : Cfg) (long : LongType) (i : ℕ) (ent : SchedEntry SchedCb) (p : MainPass) :
    p.visit cfg long i ent = p ∨ (p.visit cfg long i ent).left < p.left := by
  unfold MainPass.visit
  rcases MainPass.call_left cfg long ent p with hcall | hcall
  · rw [hcall]
    exact MainPass.serve_left cfg long (i + 1) p
  · right
    rcases MainPass.serve_left cfg long (i + 1) (p.call cfg long ent) with hserve | hserve
    · rw [hserve]
      exact hcall
    · omega

/-! ## What the loop keeps -/

/-- A property that the loop keeps: the sweep, the requests at the server, and the callback of a live entry of the
list. -/
structure MainLoop.Kept (cfg : Cfg) (long : LongType) (P : MainLoop → Prop) : Prop where
  sweep : ∀ {s}, P s → P (s.withSched (schedSweep s.schedEntry).kept)
  serve : ∀ {s} (requests : List GatewayRequest), P s → P (s.perform cfg long (requests.map GatewayRequest.event))
  call : ∀ {s ent}, P s → ent ∈ s.schedEntry → ent.dirty = false →
    P { s.perform cfg long (ent.callback.events s.device ent.fd s.answers.head) with answers := s.answers.tail }

variable {P : MainLoop → Prop}

theorem MainLoop.Kept.serve_keeps (hP : MainLoop.Kept cfg long P) (i : ℕ) (hp : P p.loop) :
    P (p.serve cfg long i).loop := by
  unfold MainPass.serve
  split
  · exact hp
  · split
    · exact hP.serve _ hp
    · exact hp

theorem MainLoop.Kept.visit_keeps (hP : MainLoop.Kept cfg long P) (i : ℕ) {ent : SchedEntry SchedCb}
    (hent : ent ∈ p.loop.schedEntry) (hp : P p.loop) :
    P (p.visit cfg long i ent).loop := by
  refine hP.serve_keeps (i + 1) ?_
  unfold MainPass.call
  split
  · rename_i hcall
    exact hP.call hp hent hcall.1
  · exact hp

/-- **A round ends**, and keeps what the loop keeps. -/
theorem MainLoop.Kept.round (hP : MainLoop.Kept cfg long P) (hs : P s) (result : Option Ready) :
    ∃ s', Returns (fun fuel => s.round cfg long fuel result) (s.watch, s') ∧ P s' := by
  cases result with
  | none => exact ⟨_, returns_const _, hP.sweep hs⟩
  | some ready =>
    have hstart : P (MainPass.serve cfg long 0 ⟨s.withSched (schedSweep s.schedEntry).kept, ready⟩).loop :=
      hP.serve_keeps 0 (hP.sweep hs)
    generalize hp : MainPass.serve cfg long 0 ⟨s.withSched (schedSweep s.schedEntry).kept, ready⟩ = p at hstart
    have hend : ∃ n, (stateAt MainPass.schedEntry (MainPass.visit cfg long) p n).schedEntry.length ≤ n :=
      exists_end MainPass.left (MainPass.visit_left cfg long) p
    obtain ⟨n, hn⟩ := hend
    refine ⟨(stateAt MainPass.schedEntry (MainPass.visit cfg long) p n).loop, ⟨n + 1, fun fuel hfuel => ?_⟩, ?_⟩
    · have hwalk : walk MainPass.schedEntry (MainPass.visit cfg long) Fault.diverges fuel p =
          .ok (stateAt MainPass.schedEntry (MainPass.visit cfg long) p n) := walk_eq hn hfuel
      simp only [MainLoop.round, hp, hwalk, bind, Except.bind]
    · refine stateAt_inv (fun _ (p : MainPass) => P p.loop) hstart (fun i p ent hp hi => ?_) (fun _ _ hp => hp) n
      exact hP.visit_keeps i (List.mem_of_getElem? hi) hp

theorem MainLoop.Kept.rounds (hP : MainLoop.Kept cfg long P) (results : List (Option Ready)) : ∀ {s}, P s →
    ∃ watches s', Returns (fun fuel => runs (MainLoop.round cfg long fuel) s results) (watches, s') ∧ P s' := by
  induction results with
  | nil => exact fun hs => ⟨[], _, returns_const _, hs⟩
  | cons result results ih =>
    intro s hs
    obtain ⟨s₁, hround, hs₁⟩ := hP.round hs result
    obtain ⟨watches, s', hrest, hs'⟩ := ih hs₁
    exact ⟨s.watch :: watches, s', hround.bind (hrest.bind (returns_const _)), hs'⟩

/-! ## The loop and the machine -/

/-- The device of the loop is, but for the list, the one that the machine has after the history. -/
def MainLoop.Follows (cfg : Cfg) (long : LongType) (d₀ : Device) (s : MainLoop) : Prop :=
  Device.Resched (run (Device.step cfg long) d₀ s.history) s.device

variable {d₀ : Device}

theorem MainLoop.Follows.perform (h : s.Follows cfg long d₀) (es : List ((ℕ → SystemAnswer) × Device.Event)) :
    (s.perform cfg long es).Follows cfg long d₀ := by
  unfold MainLoop.Follows MainLoop.perform
  rw [run_append]
  exact Device.run_resched es h

theorem MainLoop.Follows.withSched (h : s.Follows cfg long d₀) (l : List (SchedEntry SchedCb)) :
    (s.withSched l).Follows cfg long d₀ := Device.Resched.trans h ⟨l, rfl⟩

theorem MainLoop.Follows.start (cfg : Cfg) (long : LongType) (sys : ℕ → SystemAnswer) (answers : Stream' Answers)
    (listening : Fresh) (d : Device) : (MainLoop.start cfg long sys answers listening d).Follows cfg long d := by
  have h₀ : MainLoop.Follows cfg long d ⟨d, answers, []⟩ := Device.Resched.refl d
  exact (h₀.perform [(sys, .start)]).withSched _

theorem kept_follows (cfg : Cfg) (long : LongType) (d₀ : Device) :
    MainLoop.Kept cfg long (MainLoop.Follows cfg long d₀) where
  sweep h := h.withSched _
  serve _ h := h.perform _
  call h _ _ := h.perform _

/-- **What the main loop does, the machine does.** For every identity and configuration, whatever the system answers to
any call, any end-points that could not be installed, any descriptors and requests for the end-points of the telemetry
that `select` reports, and any PDUs, messages and connections that the callbacks get: every round of the main loop ends,
whatever the callbacks add to the list that is walked; and after any number of rounds the device is, but for the list of
the scheduler, the one that the machine has after the events that the loop has performed. So what holds of the device in
every run of the machine, its events in any order, holds in every round of the main loop. -/
theorem mainLoop_refines (cfg : Cfg) (long : LongType) (os : Os) (sysinfoResources packetsResources : ℕ → Option ℕ)
    (sys : ℕ → SystemAnswer) (answers : Stream' Answers) (listening : Fresh) (results : List (Option Ready)) :
    ∃ d₀ watches s', Device.atlasTelemetryFeaturesInit sysinfoResources packetsResources (Client.init os) = .ok d₀ ∧
      Returns (fun fuel => runs (MainLoop.round cfg long fuel) (MainLoop.start cfg long sys answers listening d₀)
        results) (watches, s') ∧
      Device.Resched (run (Device.step cfg long) d₀ s'.history) s'.device := by
  obtain ⟨d₀, -, hinit, -⟩ := Device.init_spec sysinfoResources packetsResources (Client.init os)
  obtain ⟨watches, s', hruns, hs'⟩ := (kept_follows cfg long d₀).rounds results
    (MainLoop.Follows.start cfg long sys answers listening d₀)
  exact ⟨d₀, watches, s', hinit, hruns, hs'⟩

end AtlasClient
