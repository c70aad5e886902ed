import AtlasClient.Proof.Keepalive

/-!
# The registration is retried

A register request that fails later sets a retry alarm, but one that
`atlas_coap_client_request` refuses at once is only logged. Then nothing is left to try
again, unless something else was still under way.

* `alive_iff`: **the machine stays alive** exactly as long as every refused register request
  leaves another attempt.
-/

namespace AtlasClient

open Machine

variable {cfg : Cfg} {os : Os} {g : Bool} {v v' : RegView} {op : RegOp} {w : Client}

/-- A further register attempt will be made: while the client is not registered, a register
request is outstanding or a retry alarm is pending; while it is, the keep-alive alarm repeats. -/
structure Alive (w : Client) : Prop where
  retry : w.app.reg.registered = false → w.net.outstanding = true ∨ ∃ a ∈ w.net.alarmEntry, a.callback = retryCb
  loop : w.app.reg.registered = true → ∃ a ∈ w.net.alarmEntry, a.callback = keepaliveCb ∧ a.runOnce = false

/-- The same of the view. -/
structure RegView.Alive (v : RegView) : Prop where
  retry : v.registered = false → v.outstanding = true ∨ v.retries ≠ []
  loop : v.registered = true → v.keepalives ≠ []

theorem idsOf_ne_nil {n : Net AppAlarm AppCb} {cb : AlarmCb AppAlarm} :
    n.idsOf cb ≠ [] ↔ ∃ a ∈ n.alarmEntry, a.callback = cb := by
  unfold Net.idsOf
  rw [ne_eq, List.map_eq_nil_iff, List.filter_eq_nil_iff]
  push Not
  simp

theorem alive_iff_view (h : BaseInv w) : Alive w ↔ (regView w).Alive := by
  constructor
  · intro ha
    refine ⟨fun h0 => (ha.retry h0).imp_right idsOf_ne_nil.2, fun h1 => ?_⟩
    obtain ⟨a, hm, hcb, -⟩ := ha.loop h1
    exact idsOf_ne_nil.2 ⟨a, hm, hcb⟩
  · intro ha
    refine ⟨fun h0 => (ha.retry h0).imp_right idsOf_ne_nil.1, fun h1 => ?_⟩
    obtain ⟨a, hm, hcb⟩ := idsOf_ne_nil.1 (ha.loop h1)
    exact ⟨a, hm, hcb, by rw [h.kinds a hm, hcb]; rfl⟩

/-! ## Covered requests -/

/-- What is left when the register request of the operation is refused; `True` when the
operation makes none. -/
def RegView.Covered (v : RegView) : RegOp → Prop
  | .send none => v.registered = true ∨ v.outstanding = true ∨ v.retries ≠ []
  | .send (some id) => v.registered = true ∨ v.outstanding = true ∨ ∃ x ∈ v.retries, x ≠ id
  | .keepalive .forced => v.outstanding = true ∨ v.retries ≠ []
  | .keepalive .failure => v.kaCount = 1 → v.outstanding = true ∨ v.retries ≠ []
  | _ => True

theorem filter_ne_nil {l : List ℤ} {id : ℤ} : l.filter (· ≠ id) ≠ [] ↔ ∃ x ∈ l, x ≠ id := by
  rw [ne_eq, List.filter_eq_nil_iff]
  push Not
  simp

/-- A register request beside the `retries` that are left. -/
theorem alive_sent {retries : List ℤ} (hk : v.registered = true → v.keepalives ≠ []) :
    RegView.Alive { v.sent g with retries := retries } ↔
      (g = false → v.registered = true ∨ v.outstanding = true ∨ retries ≠ []) := by
  constructor
  · intro ha hg
    cases hreg : v.registered with
    | true => exact Or.inl rfl
    | false =>
      have h := ha.retry hreg
      simp only [RegView.sent, hg, Bool.or_false] at h
      exact Or.inr h
  · intro h
    refine ⟨fun h0 => ?_, hk⟩
    cases g with
    | true => exact Or.inl (by simp [RegView.sent])
    | false =>
      rcases h rfl with h | h | h
      · rw [show v.registered = false from h0] at h; cases h
      · exact Or.inl (by simp [RegView.sent, h])
      · exact Or.inr h

/-- A failure that triggers the registration. -/
theorem alive_triggered : (v.fail g 1).Alive ↔ (g = false → v.outstanding = true ∨ v.retries ≠ []) := by
  unfold RegView.fail
  rw [if_pos (sub_one_eq_zero.2 rfl)]
  set u : RegView := { v with
    registered := false
    kaCount := 0
    keepalives := v.keepalives.filter (· ≠ v.kaAlarmId)
    kaAlarmId := -1 } with hu
  have hreg : u.registered = false := rfl
  have hsent : (u.sent g).Alive ↔ (g = false → u.registered = true ∨ u.outstanding = true ∨ u.retries ≠ []) :=
    alive_sent fun h => by rw [hreg] at h; cases h
  rw [hsent, hreg]
  simp [hu]

/-- **One step of the view**: the machine stays alive exactly when the operation is covered. -/
theorem alive_step (h : v.Alive) (hs : RegStep os g op v v') (ht : os.TimersOk) :
    v'.Alive ↔ (g = false → v.Covered op) := by
  cases op with
  | quiet => rw [show v' = v from hs]; exact iff_of_true h fun _ => trivial
  | send fired =>
    cases fired with
    | none => rw [show v' = v.sent g from hs]; exact alive_sent h.loop
    | some id =>
      rw [show v' = { v.sent g with retries := v.retries.filter (· ≠ id) } from hs, alive_sent h.loop,
        filter_ne_nil]
      rfl
  | response ok =>
    refine iff_of_true ?_ fun _ => trivial
    cases ok with
    | true =>
      -- a keep-alive alarm has been set
      obtain ⟨ids, id, o, -, rfl, hid⟩ := hs
      rcases hid with ⟨rfl, -⟩ | ⟨-, -, hno⟩
      · exact ⟨fun h0 => (by cases h0), fun _ => by simp⟩
      · exact absurd ht hno
    | false =>
      -- a retry alarm has been set
      obtain ⟨ids, o, -, rfl, hid⟩ := hs
      refine ⟨fun _ => Or.inr ?_, h.loop⟩
      intro hnil
      exact hid (List.append_eq_nil_iff.1 hnil).2 ht
  | keepalive result =>
    cases result with
    | success =>
      rw [show v' = { v with kaCount := 3 } from hs]
      exact iff_of_true ⟨h.retry, h.loop⟩ fun _ => trivial
    | forced => rw [show v' = v.fail g 1 from hs]; exact alive_triggered
    | failure =>
      rw [show v' = v.fail g v.kaCount from hs]
      by_cases hc : v.kaCount = 1
      · rw [hc, alive_triggered]
        simp [RegView.Covered, hc]
      · rw [fail_lowers hc]
        exact iff_of_true ⟨h.retry, h.loop⟩ fun _ h1 => absurd h1 hc

/-! ## Runs -/

/-- A refused register request is not the last attempt. -/
def Covered (cfg : Cfg) (w : Client) (e : Event) : Prop := ¬ w.net.Grants → (regView w).Covered (regOp cfg w e)

instance (v : RegView) : (op : RegOp) → Decidable (v.Covered op)
  | .send none => inferInstanceAs (Decidable (_ ∨ _ ∨ _))
  | .send (some _) => inferInstanceAs (Decidable (_ ∨ _ ∨ _))
  | .keepalive .forced => inferInstanceAs (Decidable (_ ∨ _))
  | .keepalive .failure => inferInstanceAs (Decidable (_ → _ ∨ _))
  | .keepalive .success => isTrue trivial
  | .response _ => isTrue trivial
  | .quiet => isTrue trivial

instance (cfg : Cfg) (w : Client) (e : Event) : Decidable (Covered cfg w e) := by
  unfold Covered; infer_instance

theorem covered_iff {e : Event} :
    Covered cfg w e ↔ (decide w.net.Grants = false → (regView w).Covered (regOp cfg w e)) := by
  rw [decide_eq_false_iff_not]; rfl

/-- **Never dead, and exactly when.** If every alarm can be set, then in every run from
`atlas_register_start`, whatever becomes of each request: after each step a further register
attempt is under way, or the client is registered and its keep-alive alarm repeats, if and
only if every register request that is refused at once finds the client registered to stay,
another register request outstanding or another retry alarm pending. -/
theorem alive_iff (cfg : Cfg) {os : Os} (ht : os.TimersOk) (es : List Event) :
    Along (Client.step cfg) (fun w e => Alive (w.step cfg e)) (Client.init os) (.start :: es) ↔
      Along (Client.step cfg) (Covered cfg) (Client.init os) (.start :: es) := by
  have hfirst := client_step cfg (baseInv_init os) (kaOk_init os) .start
  -- the first request decides about the first state
  have hstart : Alive ((Client.init os).step cfg .start) ↔ Covered cfg (Client.init os) .start := by
    rw [alive_iff_view hfirst.base, covered_iff]
    rw [show regView _ = (regView (Client.init os)).sent _ from hfirst.step]
    have hreg : (regView (Client.init os)).registered = false := rfl
    have hsent : ((regView (Client.init os)).sent (decide (Client.init os).net.Grants)).Alive ↔ _ :=
      alive_sent fun h => by rw [hreg] at h; cases h
    exact hsent
  have htail : Alive ((Client.init os).step cfg .start) →
      (Along (Client.step cfg) (fun w e => Alive (w.step cfg e)) ((Client.init os).step cfg .start) es ↔
        Along (Client.step cfg) (Covered cfg) ((Client.init os).step cfg .start) es) := by
    intro ha
    refine along_exact_all (fun w => BaseInv w ∧ KaOk w ∧ w.net.os.TimersOk ∧ Alive w) ?_ ?_
      ⟨hfirst.base, hfirst.ka, hfirst.os.timersOk ht, ha⟩
    · intro w e ⟨hb, hk, ht, hi⟩ hc
      have hs := client_step cfg hb hk e
      have hstep := alive_step ((alive_iff_view hb).1 hi) hs.step ht
      have hi' := (alive_iff_view hs.base).2 (hstep.2 (covered_iff.1 hc))
      exact ⟨hi', hs.base, hs.ka, hs.os.timersOk ht, hi'⟩
    · intro w e ⟨hb, hk, ht, hi⟩ ha
      have hs := client_step cfg hb hk e
      have hstep := alive_step ((alive_iff_view hb).1 hi) hs.step ht
      exact covered_iff.2 (hstep.1 ((alive_iff_view hs.base).1 ha))
  constructor
  · rintro ⟨ha, hs⟩
    exact ⟨hstart.1 ha, (htail ha).1 hs⟩
  · rintro ⟨hc, hs⟩
    exact ⟨hstart.2 hc, (htail (hstart.2 hc)).2 hs⟩

/-- A gateway that forgets the client: the registration that its answer forces stays alive. -/
theorem alive_iff_forgotten :
    Along (Client.step Cfg.plain) (fun w e => Alive (w.step Cfg.plain e)) (Client.init Os.calm)
      (registerOk ++ [.alarm 3, .pdu 1 1 ⟨.ack, 132, [1, 0, 0, 0], []⟩, .ioDone 5]) :=
  (alive_iff Cfg.plain Os.calm_timersOk _).2 (by decide +kernel)

/-- A resolver that knows no host. -/
def Os.unresolved : Os := { Os.calm with requests := Stream'.const { (default : CoapAnswer) with resolved := false } }

/-- **A first register request that cannot be sent** leaves the machine dead. -/
theorem refused_start_dead :
    ¬ ∀ (cfg : Cfg) (os : Os) (es : List Event), os.TimersOk →
      Along (Client.step cfg) (fun w e => Alive (w.step cfg e)) (Client.init os) (.start :: es) := by
  intro h
  have hrun := h Cfg.plain Os.unresolved [] Os.calm_timersOk
  rcases hrun.1.retry (by decide +kernel) with hout | hretry
  · exact absurd hout (by decide +kernel)
  · exact absurd hretry (by decide +kernel)

end AtlasClient
