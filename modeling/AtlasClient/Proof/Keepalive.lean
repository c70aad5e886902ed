import AtlasClient.Proof.Completion
import AtlasClient.Proof.Registration

/-!
# The keep-alive counter and the keep-alive loop

`ka_count` is set by a keep-alive success and lowered by every failure, but a registration
does not set it. `KaMonitor` is what one has to remember of a run to tell what the counter
should do.

* `detects_iff`: **the third failure triggers the registration** exactly as long as the
  counter that the last registration found is good enough.
* `oneLoop_iff`: **one keep-alive alarm** exactly as long as no register response finds the
  client registered.
-/

namespace AtlasClient

open Machine

variable {cfg : Cfg} {os : Os} {g : Bool} {v v' : RegView} {op : RegOp}

/-! ## Failures -/

/-- The registration is started anew, and the keep-alive alarm is gone. -/
structure Triggered (v v' : RegView) : Prop where
  registered : v'.registered = false
  alarm : v.kaAlarmId ∉ v'.keepalives
  sent : v'.attempts = v.attempts + 1

/-- The loop goes on. -/
structure Kept (v v' : RegView) : Prop where
  registered : v'.registered = v.registered
  alarms : v'.keepalives = v.keepalives
  sent : v'.attempts = v.attempts

theorem sub_one_eq_zero {c : UInt8} : c - 1 = 0 ↔ c = 1 := UInt8.sub_eq_iff_eq_add

/-- **A failure with the counter at one** triggers the registration. -/
theorem fail_triggers (v : RegView) (g : Bool) : Triggered v (v.fail g 1) := by
  unfold RegView.fail
  rw [if_pos (sub_one_eq_zero.2 rfl)]
  exact ⟨rfl, by simp [RegView.sent], rfl⟩

/-- **A failure with another counter** only lowers it. -/
theorem fail_lowers {c : UInt8} (h : c ≠ 1) (v : RegView) (g : Bool) : v.fail g c = { v with kaCount := c - 1 } := by
  unfold RegView.fail
  rw [if_neg (fun h0 => h (sub_one_eq_zero.1 h0))]

theorem fail_kept {c : UInt8} (h : c ≠ 1) (v : RegView) (g : Bool) : Kept v (v.fail g c) := by
  rw [fail_lowers h]; exact ⟨rfl, rfl, rfl⟩

/-- A failure does not register the client. -/
theorem fail_unregistered {c : UInt8} (h : v.registered = false) (g : Bool) : (v.fail g c).registered = false := by
  by_cases hc : c = 1
  · rw [hc]; exact (fail_triggers v g).registered
  · exact (fail_kept hc v g).registered.trans h

theorem Triggered.not_kept (h : Triggered v v') (hreg : v.registered = true) : ¬ Kept v v' := by
  intro hk
  have h1 := hk.registered
  rw [h.registered, hreg] at h1
  cases h1

/-! ## Failure detection -/

/-- The failures since the last success, and the counter that this success left. A success is
a keep-alive answered with the right token, or a registration. -/
structure KaMonitor where
  fails : ℕ
  base : UInt8

def KaMonitor.next (v : RegView) (m : KaMonitor) : RegOp → KaMonitor
  | .response true => ⟨0, v.kaCount⟩
  | .keepalive .success => ⟨0, 3⟩
  | .keepalive .failure => { m with fails := m.fails + 1 }
  | .keepalive .forced => { m with fails := m.fails + 1 }
  | _ => m

/-- What a failure has to do: the third triggers the registration, a forcing one does so at
once, the first and the second of any other kind do not. -/
def Detects (m : KaMonitor) (v v' : RegView) : RegOp → Prop
  | .keepalive .forced => Triggered v v'
  | .keepalive .failure => if m.fails < 2 then Kept v v' else Triggered v v'
  | _ => True

/-- The counter was good enough for the failures so far. -/
def KaMonitor.CounterOk (m : KaMonitor) : RegOp → Prop
  | .keepalive .failure => (m.fails = 0 → m.base ≠ 1) ∧ (m.fails = 1 → m.base ≠ 2) ∧ (m.fails = 2 → m.base = 3)
  | _ => True

/-- While the client is registered, the counter is the base less the failures. -/
def KaMonitor.Tracks (m : KaMonitor) (v : RegView) : Prop :=
  v.registered = true → v.kaCount = m.base - UInt8.ofNat m.fails ∧ m.fails ≤ 2

theorem KaMonitor.tracks_unregistered {m : KaMonitor} (h : v.registered = false) : m.Tracks v := by
  intro h'
  rw [h] at h'; cases h'

/-- The counter is one exactly when the base is one more than the failures. -/
theorem KaMonitor.Tracks.eq_one {m : KaMonitor} (h : m.Tracks v) (hreg : v.registered = true) :
    v.kaCount = 1 ↔ m.base = UInt8.ofNat m.fails + 1 := by
  rw [(h hreg).1, UInt8.sub_eq_iff_eq_add, UInt8.add_comm]

/-- **A plain failure is right** exactly when the counter was good enough. -/
theorem detects_failure {m : KaMonitor} (h : m.Tracks v) (hreg : v.registered = true) (g : Bool) :
    Detects m v (v.fail g v.kaCount) (.keepalive .failure) ↔ m.CounterOk (.keepalive .failure) := by
  have h1 := h.eq_one hreg
  have hle := (h hreg).2
  have htrig : v.kaCount = 1 → Triggered v (v.fail g v.kaCount) := fun hc => by
    rw [hc]; exact fail_triggers v g
  have hkept : v.kaCount ≠ 1 → Kept v (v.fail g v.kaCount) := fun hc => fail_kept hc v g
  obtain hf | hf | hf : m.fails = 0 ∨ m.fails = 1 ∨ m.fails = 2 := by omega
  · -- the first failure: nothing may happen
    rw [hf] at h1
    have hk : Kept v (v.fail g v.kaCount) ↔ m.base ≠ 1 :=
      ⟨fun hk hb => (htrig (h1.2 hb)).not_kept hreg hk, fun hb => hkept fun hc => hb (h1.1 hc)⟩
    simp [Detects, KaMonitor.CounterOk, hf, hk]
  · rw [hf] at h1
    have hk : Kept v (v.fail g v.kaCount) ↔ m.base ≠ 2 :=
      ⟨fun hk hb => (htrig (h1.2 hb)).not_kept hreg hk, fun hb => hkept fun hc => hb (h1.1 hc)⟩
    simp [Detects, KaMonitor.CounterOk, hf, hk]
  · -- the third: the registration has to start
    rw [hf] at h1
    have ht : Triggered v (v.fail g v.kaCount) ↔ m.base = 3 := by
      refine ⟨fun ht => ?_, fun hb => htrig (h1.2 hb)⟩
      by_contra hb
      exact ht.not_kept hreg (hkept fun hc => hb (h1.1 hc))
    simp [Detects, KaMonitor.CounterOk, hf, ht]

/-- **One step of the view**: a good counter detects, and stays the base less the failures. -/
theorem detects_step {m : KaMonitor} (h : m.Tracks v) (hs : RegStep os g op v v')
    (hc : v.registered = true → m.CounterOk op) :
    (v.registered = true → Detects m v v' op) ∧ (m.next v op).Tracks v' := by
  cases op with
  | quiet => rw [show v' = v from hs]; exact ⟨fun _ => trivial, h⟩
  | send fired =>
    cases fired with
    | none => rw [show v' = v.sent g from hs]; exact ⟨fun _ => trivial, h⟩
    | some id =>
      rw [show v' = { v.sent g with retries := v.retries.filter (· ≠ id) } from hs]
      exact ⟨fun _ => trivial, h⟩
  | response ok =>
    cases ok with
    | true =>
      obtain ⟨ids, id, o, -, rfl, -⟩ := hs
      exact ⟨fun _ => trivial, fun _ => ⟨by simp [KaMonitor.next], by simp [KaMonitor.next]⟩⟩
    | false =>
      obtain ⟨ids, o, -, rfl, -⟩ := hs
      exact ⟨fun _ => trivial, h⟩
  | keepalive result =>
    cases result with
    | success =>
      rw [show v' = { v with kaCount := 3 } from hs]
      exact ⟨fun _ => trivial, fun _ => ⟨by simp [KaMonitor.next], by simp [KaMonitor.next]⟩⟩
    | forced =>
      rw [show v' = v.fail g 1 from hs]
      have ht := fail_triggers v g
      exact ⟨fun _ => ht, KaMonitor.tracks_unregistered ht.registered⟩
    | failure =>
      rw [show v' = v.fail g v.kaCount from hs]
      refine ⟨fun hreg => (detects_failure h hreg g).2 (hc hreg), ?_⟩
      intro hreg'
      -- still registered: the counter was not one, and this was no third failure
      have hreg : v.registered = true := by
        by_contra hno
        rw [fail_unregistered (by simpa using hno)] at hreg'
        cases hreg'
      have hne : v.kaCount ≠ 1 := by
        intro h1
        rw [h1, (fail_triggers v g).registered] at hreg'
        cases hreg'
      obtain ⟨hk, hle⟩ := h hreg
      have hlt : m.fails ≠ 2 := by
        intro h2
        exact hne ((h.eq_one hreg).2 (by rw [(hc hreg).2.2 h2, h2]; rfl))
      rw [fail_lowers hne]
      refine ⟨?_, by simp only [KaMonitor.next]; omega⟩
      simp only [KaMonitor.next, hk, UInt8.ofNat_add]
      grind

/-! ### Runs -/

abbrev Monitored := Client × KaMonitor

def Monitored.init (os : Os) : Monitored := (Client.init os, ⟨0, 0⟩)

def Monitored.step (cfg : Cfg) (s : Monitored) (e : Event) : Monitored :=
  (s.1.step cfg e, s.2.next (regView s.1) (regOp cfg s.1 e))

/-- The step is right, if the client is registered before it. -/
def Monitored.Detects (cfg : Cfg) (s : Monitored) (e : Event) : Prop :=
  (regView s.1).registered = true →
    AtlasClient.Detects s.2 (regView s.1) (regView (s.1.step cfg e)) (regOp cfg s.1 e)

/-- A failure finds a counter that is good enough, if the client is registered. -/
def Monitored.CounterOk (cfg : Cfg) (s : Monitored) (e : Event) : Prop :=
  (regView s.1).registered = true → s.2.CounterOk (regOp cfg s.1 e)

/-- **Failure detection, and exactly when.** For every sequence of answers of the system and
every order of events, from the static initial state: at every moment at which the client is
registered, a plain failure triggers the registration if it is the third since the last
success and does not if it is the first or the second, and a forcing failure triggers it at
once, if and only if no plain failure of a registered client finds a counter that was one
(first failure), two (second) or not three (third) when that success was over. -/
theorem detects_iff (cfg : Cfg) (os : Os) (es : List Event) :
    Along (Monitored.step cfg) (Monitored.Detects cfg) (Monitored.init os) es ↔
      Along (Monitored.step cfg) (Monitored.CounterOk cfg) (Monitored.init os) es := by
  refine along_exact_all (fun s => BaseInv s.1 ∧ KaOk s.1 ∧ s.2.Tracks (regView s.1)) ?_ ?_
    ⟨baseInv_init os, kaOk_init os, KaMonitor.tracks_unregistered rfl⟩
  · intro s e ⟨hb, hk, ht⟩ hc
    have hs := client_step cfg hb hk e
    obtain ⟨hd, ht'⟩ := detects_step ht hs.step hc
    exact ⟨hd, hs.base, hs.ka, ht'⟩
  · intro s e ⟨hb, hk, ht⟩ hd hreg
    have hs := (client_step cfg hb hk e).step
    have hd := hd hreg
    revert hd hs
    cases regOp cfg s.1 e with
    | keepalive result =>
      cases result with
      | failure =>
        intro hs hd
        rw [show regView _ = (regView s.1).fail _ _ from hs] at hd
        exact (detects_failure ht hreg _).1 hd
      | _ => intro _ _; trivial
    | _ => intro _ _; trivial

/-- A gateway that registers the client. -/
def registerOk : List Event := [.start, .pdu 1 1 ⟨.ack, 69, [0, 0, 0, 0], []⟩, .ioDone 2]

/-- **Three failures right after the first registration** do not trigger it again. -/
theorem first_failures_unnoticed :
    ¬ ∀ (cfg : Cfg) (os : Os) (es : List Event),
      Along (Monitored.step cfg) (Monitored.Detects cfg) (Monitored.init os) es := by
  intro h
  -- each time the keep-alive alarm 3 fires and the request times out, by alarm 4
  have hthird := (h Cfg.plain Os.calm
    (registerOk ++ [.alarm 3, .alarm 4, .alarm 3, .alarm 4, .alarm 3] ++ [.alarm 4])).last
  have hreg := Triggered.registered (hthird (by decide +kernel))
  exact absurd hreg (by decide +kernel)

/-! ## One loop -/

/-- At most one keep-alive alarm, the stored one, and none while not registered. -/
structure OneLoop (v : RegView) : Prop where
  alone : v.keepalives.length ≤ 1
  stored : ∀ id ∈ v.keepalives, id = v.kaAlarmId
  registered : v.registered = false → v.keepalives = []

/-- There is a keep-alive alarm exactly while the client is registered. -/
def RegView.InStep (v : RegView) : Prop := v.keepalives = if v.registered then [v.kaAlarmId] else []

theorem RegView.InStep.oneLoop (h : v.InStep) : OneLoop v := by
  unfold RegView.InStep at h
  cases hreg : v.registered with
  | false =>
    rw [hreg, if_neg (by decide)] at h
    exact ⟨by simp [h], by simp [h], fun _ => h⟩
  | true =>
    rw [hreg, if_pos rfl] at h
    exact ⟨by simp [h], by simp [h], fun h0 => by rw [hreg] at h0; cases h0⟩

/-- A failure keeps the alarm and the registration together. -/
theorem RegView.InStep.fail (h : v.InStep) (g : Bool) (c : UInt8) : (v.fail g c).InStep := by
  by_cases hc : c = 1
  · rw [hc]
    have hnil : v.keepalives.filter (· ≠ v.kaAlarmId) = [] := by
      rw [show v.keepalives = _ from h]
      split <;> simp
    unfold RegView.fail
    rw [if_pos (sub_one_eq_zero.2 rfl)]
    exact hnil
  · rw [fail_lowers hc]; exact h

/-- **One step of the view**: registering an unregistered client sets the only alarm. -/
theorem inStep_step (h : v.InStep) (hs : RegStep os g op v v') (ht : os.TimersOk)
    (hc : op = .response true → v.registered = false) : v'.InStep := by
  cases op with
  | quiet => rw [show v' = v from hs]; exact h
  | send fired =>
    cases fired with
    | none => rw [show v' = v.sent g from hs]; exact h
    | some id =>
      rw [show v' = { v.sent g with retries := v.retries.filter (· ≠ id) } from hs]; exact h
  | response ok =>
    cases ok with
    | true =>
      obtain ⟨ids, id, o, -, rfl, hid⟩ := hs
      rcases hid with ⟨rfl, -⟩ | ⟨-, -, hno⟩
      · unfold RegView.InStep at h
        rw [hc rfl, if_neg (by decide)] at h
        simp [RegView.InStep, h]
      · exact absurd ht hno
    | false =>
      obtain ⟨ids, o, -, rfl, -⟩ := hs
      exact h
  | keepalive result =>
    cases result with
    | success => rw [show v' = { v with kaCount := 3 } from hs]; exact h
    | failure => rw [show v' = v.fail g v.kaCount from hs]; exact h.fail _ _
    | forced => rw [show v' = v.fail g 1 from hs]; exact h.fail _ _

/-- Registering a registered client leaves two alarms. -/
theorem not_oneLoop (h : v.InStep) (hreg : v.registered = true) (ht : os.TimersOk)
    (hs : RegStep os g (.response true) v v') : ¬ OneLoop v' := by
  intro hone
  obtain ⟨ids, id, o, -, rfl, hid⟩ := hs
  rcases hid with ⟨rfl, -⟩ | ⟨-, -, hno⟩
  · have hlen := hone.alone
    unfold RegView.InStep at h
    rw [hreg, if_pos rfl] at h
    simp [h] at hlen
  · exact hno ht

/-- The register response that this event is, if it is one, finds the client unregistered. -/
def OkUnregistered (cfg : Cfg) (w : Client) (e : Event) : Prop :=
  regOp cfg w e = .response true → w.app.reg.registered = false

instance (cfg : Cfg) (w : Client) (e : Event) : Decidable (OkUnregistered cfg w e) := by
  unfold OkUnregistered; infer_instance

/-- **One keep-alive loop, and exactly when.** If every alarm can be set, then in every run: at
most one keep-alive alarm is live after each step, the stored one and only while the client is
registered, if and only if no successful register response finds the client registered. -/
theorem oneLoop_iff (cfg : Cfg) {os : Os} (ht : os.TimersOk) (es : List Event) :
    Along (Client.step cfg) (fun w e => OneLoop (regView (w.step cfg e))) (Client.init os) es ↔
      Along (Client.step cfg) (OkUnregistered cfg) (Client.init os) es := by
  refine along_exact_all (fun w => BaseInv w ∧ KaOk w ∧ w.net.os.TimersOk ∧ (regView w).InStep) ?_ ?_
    ⟨baseInv_init os, kaOk_init os, ht, rfl⟩
  · intro w e ⟨hb, hk, ht, hi⟩ hc
    have hs := client_step cfg hb hk e
    have hi' := inStep_step hi hs.step ht hc
    exact ⟨hi'.oneLoop, hs.base, hs.ka, hs.os.timersOk ht, hi'⟩
  · intro w e ⟨hb, hk, ht, hi⟩ hone hop
    have hs := (client_step cfg hb hk e).step
    rw [hop] at hs
    by_contra hreg
    exact not_oneLoop hi (Bool.of_not_eq_false hreg) ht hs hone

theorem Os.calm_timersOk : Os.calm.TimersOk := fun _ => rfl

theorem Os.calm_accepts (k : ℕ) : (Os.calm.requests.get k).Accepts :=
  show (default : CoapAnswer).Accepts by decide

/-- A registration, and a keep-alive that times out: one alarm. -/
theorem oneLoop_iff_register :
    Along (Client.step Cfg.plain) (fun w e => OneLoop (regView (w.step Cfg.plain e))) (Client.init Os.calm)
      (registerOk ++ [.alarm 3, .alarm 4]) :=
  (oneLoop_iff Cfg.plain Os.calm_timersOk _).2 (by decide +kernel)

/-- **Two keep-alives that the gateway does not know** leave two keep-alive alarms. -/
theorem two_loops :
    ¬ ∀ (cfg : Cfg) (os : Os) (es : List Event), os.TimersOk → (∀ k, (os.requests.get k).Accepts) →
      Along (Client.step cfg) (fun w e => OneLoop (regView (w.step cfg e))) (Client.init os) es := by
  intro h
  -- both answers force a registration, and both registrations succeed
  have hone := (h Cfg.plain Os.calm
    (registerOk ++ [.alarm 3, .alarm 3, .pdu 1 1 ⟨.ack, 132, [1, 0, 0, 0], []⟩, .ioDone 5,
      .pdu 2 2 ⟨.ack, 132, [2, 0, 0, 0], []⟩, .ioDone 7, .pdu 3 3 ⟨.ack, 69, [3, 0, 0, 0], []⟩, .ioDone 9] ++
      [.pdu 4 4 ⟨.ack, 69, [4, 0, 0, 0], []⟩]) Os.calm_timersOk Os.calm_accepts).last
  exact absurd hone.alone (by decide +kernel)

end AtlasClient
