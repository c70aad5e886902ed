import AtlasClient.Lib.Run
import AtlasClient.Proof.Command
import AtlasClient.Proof.Net
import AtlasClient.Spec.Execute

/-!
# Restart and shutdown

The flag `cmdInProgress` is tested once for each payload, and nothing ever clears it.

* `put_spec`: what a payload does, as a function of its commands.
* `onePending_iff`: **at most one alarm is pending** exactly when no payload sets two.
* `inStep_iff`: **the flag and the alarms agree** exactly as long as the last pending alarm
  does not fire.
-/

namespace AtlasClient

open Framing Machine

variable {e : Endian} {w w' : Executor}

/-! ## Commands -/

/-- The restart and shutdown alarms that are pending. -/
def Executor.pending (w : Executor) : List (AlarmEntry ExecAlarm) :=
  w.net.alarmEntry.filter fun a =>
    a.callback = .app .commandExecutionRestartAlarmCallback ∨
      a.callback = .app .commandExecutionShutdownAlarmCallback

/-- The commands of a payload for which an alarm is set. -/
def orders (cmds : List Cmd) : List Cmd :=
  cmds.filter fun c => c.type = AtlasCmdExecType.deviceRestart ∨ c.type = AtlasCmdExecType.deviceShutdown

/-- How many of the next `n` alarms can be set. -/
def granted (n : ℕ) (os : Os) : ℕ := (os.timers.take n).countP Option.isSome

/-- The alarms of the module are its own, and run once. -/
def Executor.Own (w : Executor) : Prop := ∀ a ∈ w.net.alarmEntry, a.runOnce = true ∧ ∃ cb, a.callback = .app cb

theorem own_init (os : Os) : (Executor.init os).Own := by simp [Executor.Own, Executor.init, Net.init]

theorem Executor.Own.pending (h : w.Own) : w.pending = w.net.alarmEntry := by
  unfold Executor.pending
  rw [List.filter_eq_self]
  intro a ha
  obtain ⟨-, cb, hcb⟩ := h a ha
  cases cb <;> simp [hcb]

/-- `w'` is `w` after `n` alarms have been set. -/
structure Scheduled (n : ℕ) (w w' : Executor) : Prop where
  alarms : ∃ new, w'.net.alarmEntry = w.net.alarmEntry ++ new ∧ new.length = n
  own : w.Own → w'.Own
  flag : w'.app.cmdInProgress = (w.app.cmdInProgress || decide (0 < n))

theorem Scheduled.refl (w : Executor) : Scheduled 0 w w := ⟨⟨[], by simp⟩, id, by simp⟩

theorem Scheduled.trans {w₁ : Executor} {m n : ℕ} (h : Scheduled m w w₁) (h' : Scheduled n w₁ w') :
    Scheduled (m + n) w w' := by
  obtain ⟨a, ha, rfl⟩ := h.alarms
  obtain ⟨b, hb, rfl⟩ := h'.alarms
  refine ⟨⟨a ++ b, by rw [hb, ha, List.append_assoc], by simp⟩, fun ho => h'.own (h.own ho), ?_⟩
  rw [h'.flag, h.flag, Bool.or_assoc, ← Bool.decide_or]
  congr 2
  simp only [eq_iff_iff]
  omega

/-- **One command sets one alarm**, if it can be set. -/
theorem schedule_spec (cb : ExecAlarm) (w : Executor) :
    Scheduled (if w.net.os.timers.head.isSome then 1 else 0) w (scheduleCommand cb w) ∧
      (scheduleCommand cb w).net.os.timers = w.net.os.timers.tail := by
  unfold scheduleCommand
  rcases alarmSet_cases 10 (.app cb) true w.net with ⟨hnone, heq⟩ | ⟨fd, s, hsome, h0, -, heq⟩
  · simp only [heq, hnone]
    exact ⟨⟨⟨[], by simp⟩, id, by simp⟩, rfl⟩
  · simp only [heq, hsome, if_true, if_neg (not_lt.2 h0)]
    refine ⟨⟨⟨[⟨fd, .app cb, true, 10⟩], rfl, rfl⟩, ?_, by simp [World.mapApp]⟩, rfl⟩
    intro ho a ha
    rcases List.mem_append.1 ha with ha | ha
    · exact ho a ha
    · rw [List.mem_singleton] at ha
      subst ha; exact ⟨rfl, cb, rfl⟩

/-- What the parser does with a command. -/
def execCmd (c : Cmd) (w : Executor) : Executor :=
  if c.type = AtlasCmdExecType.deviceRestart then scheduleCommand .commandExecutionRestartAlarmCallback w
  else if c.type = AtlasCmdExecType.deviceShutdown then scheduleCommand .commandExecutionShutdownAlarmCallback w
  else w

theorem execHandle_eq (c : Cmd) (post : Bytes) (w : Executor) :
    commandExecutionHandle ⟨c.type, c.length, c.value ++ post⟩ w = .ok (.inl (execCmd c w)) := by
  unfold commandExecutionHandle execCmd
  split
  · rfl
  split <;> rfl

theorem granted_succ (n : ℕ) (os : Os) : granted (n + 1) os =
    (if os.timers.head.isSome then 1 else 0) + granted n { os with timers := os.timers.tail } := by
  show (os.timers.head :: os.timers.tail.take n).countP _ = _
  rw [List.countP_cons, Nat.add_comm]
  rfl

theorem granted_congr {os os' : Os} (h : os.timers = os'.timers) (n : ℕ) : granted n os = granted n os' := by
  unfold granted
  rw [h]

/-- **A batch sets an alarm for each order that is granted.** -/
theorem execCmds_spec (cmds : List Cmd) (w : Executor) :
    Scheduled (granted (orders cmds).length w.net.os) w (cmds.foldl (fun w c => execCmd c w) w) := by
  induction cmds generalizing w with
  | nil => exact Scheduled.refl w
  | cons c cs ih =>
    rw [List.foldl_cons]
    have hrest := ih (execCmd c w)
    by_cases hc : c.type = AtlasCmdExecType.deviceRestart ∨ c.type = AtlasCmdExecType.deviceShutdown
    · have hlen : (orders (c :: cs)).length = (orders cs).length + 1 := by simp [orders, hc]
      obtain ⟨cb, hcb⟩ : ∃ cb, execCmd c w = scheduleCommand cb w := by
        unfold execCmd
        rcases hc with hc | hc
        · exact ⟨_, if_pos hc⟩
        · rw [hc]; exact ⟨_, rfl⟩
      obtain ⟨hs, ht⟩ := schedule_spec cb w
      rw [hcb] at hrest ⊢
      rw [hlen, granted_succ]
      have hos : granted (orders cs).length (scheduleCommand cb w).net.os =
          granted (orders cs).length { w.net.os with timers := w.net.os.timers.tail } := granted_congr ht _
      rw [hos] at hrest
      exact hs.trans hrest
    · have hlen : (orders (c :: cs)).length = (orders cs).length := by simp [orders, hc]
      have heq : execCmd c w = w := by
        rw [not_or] at hc
        rw [execCmd, if_neg hc.1, if_neg hc.2]
      rw [heq] at hrest ⊢
      rw [hlen]; exact hrest

/-! ## Payloads -/

/-- The part of a payload that the parser looks at. -/
def parsed (reqPayload : Bytes) : Bytes := reqPayload.take (reqPayload.length % 65536)

/-- **While a command is in progress** every payload is deferred. -/
theorem parse_deferred (hf : w.app.cmdInProgress = true) (buf : Bytes) (len : UInt16) :
    atlasAlertCommandExecutionParse e buf len w = .ok (.deferredCommandExecution, w) := by
  rw [atlasAlertCommandExecutionParse, if_pos hf]

/-- **Otherwise** a payload that is a batch is executed, and no other has an effect. -/
theorem parse_idle (hf : w.app.cmdInProgress = false) (reqPayload : Bytes) :
    (∀ cmds : List Cmd, parsed reqPayload = encode cmds → ∃ status, status ≠ .deferredCommandExecution ∧
      atlasAlertCommandExecutionParse e reqPayload (UInt16.ofNat reqPayload.length) w =
        .ok (status, cmds.foldl (fun w c => execCmd c w) w)) ∧
    (¬ IsEncoding cmdHeader (parsed reqPayload) → ∃ status, status ≠ .deferredCommandExecution ∧
      atlasAlertCommandExecutionParse e reqPayload (UInt16.ofNat reqPayload.length) w = .ok (status, w)) := by
  obtain ⟨post, hsplit, hlen⟩ := take_append_rest reqPayload
  have hidle : ¬ w.app.cmdInProgress = true := by simp [hf]
  set s := reqPayload.take (reqPayload.length % 65536) with hs
  have hparsed : parsed reqPayload = s := rfl
  rw [hparsed]
  unfold atlasAlertCommandExecutionParse
  rw [if_neg hidle]
  by_cases h0 : UInt16.ofNat reqPayload.length = 0
  · -- the parser is given no bytes
    have hnil : s = [] := by
      rw [h0] at hlen; exact List.length_eq_zero_iff.1 hlen.symm
    rw [if_pos (Or.inr h0), hnil]
    refine ⟨?_, fun hno => absurd isEncoding_nil hno⟩
    intro cmds hc
    rw [encode_eq_nil.1 hc.symm]
    exact ⟨.invalidInput, by decide, rfl⟩
  · have hne : s ≠ [] := by
      intro hnil
      rw [hnil] at hlen
      exact h0 (UInt16.toNat_inj.1 hlen)
    have hbuf : ¬ (reqPayload = [] ∨ UInt16.ofNat reqPayload.length = 0) := by
      rintro (h | h)
      · rw [h] at hsplit; exact hne (List.append_eq_nil_iff.1 hsplit.symm).1
      · exact h0 h
    rw [if_neg hbuf]
    by_cases henc : IsEncoding cmdHeader s
    · refine ⟨fun cmds hc => ?_, fun hno => absurd henc hno⟩
      have hraw := setRaw_accepts e atlasCmdBatchNew hlen hne henc post
      rw [← hsplit] at hraw
      have hcmds : cmds ≠ [] := by
        rintro rfl; exact hne hc
      have hholds : Holds ⟨UInt16.ofNat reqPayload.length, s⟩ cmds := ⟨hc, hlen⟩
      obtain ⟨b', hloop⟩ := cmdLoop_total (e := e) hholds hcmds w fun c _ post w => execHandle_eq c post w
      refine ⟨.ok, by decide, ?_⟩
      simp only [hraw, hloop, bind, Except.bind]
      rfl
    · have hraw := setRaw_rejects e atlasCmdBatchNew hlen hne henc post
      rw [← hsplit] at hraw
      refine ⟨fun cmds hc => absurd ⟨cmds, hc⟩ henc, fun _ => ⟨.corruptedCommandExecutionPayload, by decide, ?_⟩⟩
      simp only [hraw, bind, Except.bind]
      rfl

theorem put_eq {reqPayload : Bytes} {status : AtlasStatus}
    (h : atlasAlertCommandExecutionParse e reqPayload (UInt16.ofNat reqPayload.length) w = .ok (status, w')) :
    w.step e (.put reqPayload) = w' := by
  simp only [Executor.step, atlasExecuteCommandCb, h, bind, Except.bind]
  split
  · split <;> rfl
  · rfl

/-- **A payload** that comes while no command is in progress sets as many alarms as its orders are
granted; any other has no effect. -/
theorem put_spec (e : Endian) (w : Executor) (reqPayload : Bytes) :
    (w.app.cmdInProgress = true → w.step e (.put reqPayload) = w) ∧
    (w.app.cmdInProgress = false → ∀ cmds : List Cmd, parsed reqPayload = encode cmds →
      Scheduled (granted (orders cmds).length w.net.os) w (w.step e (.put reqPayload))) ∧
    (w.app.cmdInProgress = false → ¬ IsEncoding cmdHeader (parsed reqPayload) →
      w.step e (.put reqPayload) = w) := by
  refine ⟨fun hf => put_eq (parse_deferred hf _ _), ?_, ?_⟩
  · intro hf cmds hc
    obtain ⟨status, -, h⟩ := (parse_idle (e := e) hf reqPayload).1 cmds hc
    rw [put_eq h]
    exact execCmds_spec cmds w
  · intro hf hno
    obtain ⟨status, -, h⟩ := (parse_idle (e := e) hf reqPayload).2 hno
    exact put_eq h

/-! ## Alarms -/

/-- **An alarm that fires** is gone afterwards; the flag stays as it is. -/
theorem fire_spec (h : w.Own) (fd : ℤ) :
    (w.net.alarmEntry.find? (fun p => p.alarmId = fd) = none → w.step e (.alarm fd) = w) ∧
    ((w.net.alarmEntry.find? fun p => p.alarmId = fd).isSome →
      (w.step e (.alarm fd)).net.alarmEntry.length + 1 = w.net.alarmEntry.length ∧
        (w.step e (.alarm fd)).Own ∧
        (w.step e (.alarm fd)).app.cmdInProgress = w.app.cmdInProgress) := by
  simp only [Executor.step, Program.fire, atlasAlarmTrigger]
  refine ⟨fun hf => by rw [hf], ?_⟩
  intro hsome
  obtain ⟨a, hf⟩ := Option.isSome_iff_exists.1 hsome
  have ha := List.mem_of_find?_eq_some hf
  have hid : a.alarmId = fd := by simpa using List.find?_some hf
  obtain ⟨honce, cb, hcb⟩ := h a ha
  -- the shell command is all that the callback does
  obtain ⟨c, hrun⟩ : ∃ c, (executor e).runAlarm a.callback a.alarmId w = runSystem c w := by
    rw [hcb]
    cases cb <;> exact ⟨_, rfl⟩
  have hentries : (atlasAlarmCancel a.alarmId w.net).alarmEntry =
      w.net.alarmEntry.eraseP fun p => p.alarmId = fd := by
    unfold atlasAlarmCancel
    rw [hid, hf]
  rw [hf]
  simp only [hrun, honce, if_true]
  refine ⟨?_, ?_, rfl⟩
  · show (atlasAlarmCancel a.alarmId w.net).alarmEntry.length + 1 = _
    have hpos := List.length_pos_of_mem ha
    rw [hentries, List.length_eraseP_of_mem ha (by simpa using hid)]
    omega
  · intro b hb
    have hb' : b ∈ (atlasAlarmCancel a.alarmId w.net).alarmEntry := hb
    rw [hentries] at hb'
    exact h b (List.mem_of_mem_eraseP hb')

/-! ## One pending alarm -/

/-- While a command is in progress, nothing is assumed of a payload; otherwise at most one of its
orders is granted an alarm. -/
def Executor.OrdersOne (w : Executor) : ExecEvent → Prop
  | .put reqPayload => w.app.cmdInProgress = false →
      ∀ cmds : List Cmd, parsed reqPayload = encode cmds → granted (orders cmds).length w.net.os ≤ 1
  | .alarm _ => True

/-- The module's invariant: without the flag nothing is pending. -/
structure Executor.Idle (w : Executor) : Prop where
  own : w.Own
  idle : w.app.cmdInProgress = false → w.net.alarmEntry = []

theorem idle_init (os : Os) : (Executor.init os).Idle := ⟨own_init os, fun _ => rfl⟩

/-- Where no order of a payload is looked at, there is nothing to set. -/
theorem put_cases (e : Endian) (w : Executor) (reqPayload : Bytes) :
    w.step e (.put reqPayload) = w ∨ w.app.cmdInProgress = false ∧ ∃ cmds : List Cmd,
      parsed reqPayload = encode cmds ∧
      Scheduled (granted (orders cmds).length w.net.os) w (w.step e (.put reqPayload)) := by
  obtain ⟨h1, h2, h3⟩ := put_spec e w reqPayload
  cases hf : w.app.cmdInProgress with
  | true => exact Or.inl (h1 hf)
  | false =>
    by_cases henc : IsEncoding cmdHeader (parsed reqPayload)
    · obtain ⟨cmds, hc⟩ := henc
      exact Or.inr ⟨rfl, cmds, hc, h2 hf cmds hc⟩
    · exact Or.inl (h3 hf henc)

theorem Executor.Idle.step (h : w.Idle) (ev : ExecEvent) : (w.step e ev).Idle := by
  cases ev with
  | put reqPayload =>
    rcases put_cases e w reqPayload with heq | ⟨hf, cmds, -, hs⟩
    · rw [heq]; exact h
    · refine ⟨hs.own h.own, fun hf' => ?_⟩
      obtain ⟨new, hnew, hlen⟩ := hs.alarms
      have hflag := hs.flag
      rw [hf, hf', Bool.false_or, eq_comm, decide_eq_false_iff_not] at hflag
      rw [hnew, h.idle hf, List.nil_append]
      exact List.length_eq_zero_iff.1 (by omega)
  | alarm fd =>
    obtain ⟨hnone, hsome⟩ := fire_spec (e := e) h.own fd
    cases hf : w.net.alarmEntry.find? fun p => p.alarmId = fd with
    | none => rw [hnone hf]; exact h
    | some a =>
      obtain ⟨hlen, hown, hflag⟩ := hsome (by rw [hf]; rfl)
      refine ⟨hown, fun hf' => ?_⟩
      rw [hflag] at hf'
      rw [h.idle hf'] at hlen
      simp at hlen

/-- **At most one alarm, and exactly when.** For every sequence of payloads and firings and every
outcome of setting alarms: at most one restart or shutdown alarm is pending at every moment, if
and only if no payload that is handled while no command is in progress has two or more orders
for which an alarm can be set. -/
theorem onePending_iff (e : Endian) (os : Os) (evs : List ExecEvent) :
    Along (Executor.step e) (fun w ev => (w.step e ev).pending.length ≤ 1) (Executor.init os) evs ↔
      Along (Executor.step e) Executor.OrdersOne (Executor.init os) evs := by
  refine along_exact_all (fun w => w.Idle ∧ w.pending.length ≤ 1) ?_ ?_ ⟨idle_init os, Nat.zero_le _⟩
  · intro w ev ⟨hi, hle⟩ hc
    have hi' := hi.step (e := e) ev
    rw [hi.own.pending] at hle
    refine ⟨?_, hi', ?_⟩ <;> rw [hi'.own.pending] <;> cases ev with
    | put reqPayload =>
      rcases put_cases e w reqPayload with heq | ⟨hf, cmds, henc, hs⟩
      · rw [heq]; exact hle
      · obtain ⟨new, hnew, hlen⟩ := hs.alarms
        rw [hnew, hi.idle hf, List.nil_append, hlen]
        exact hc hf cmds henc
    | alarm fd =>
      obtain ⟨hnone, hsome⟩ := fire_spec (e := e) hi.own fd
      cases hf : w.net.alarmEntry.find? fun p => p.alarmId = fd with
      | none => rw [hnone hf]; exact hle
      | some a =>
        have hlen := (hsome (by rw [hf]; rfl)).1
        omega
  · rintro w ev ⟨hi, -⟩ hr
    cases ev with
    | alarm fd => trivial
    | put reqPayload =>
      intro hf cmds henc
      have hi' := hi.step (e := e) (.put reqPayload)
      rw [hi'.own.pending] at hr
      obtain ⟨new, hnew, hlen⟩ := ((put_spec e w reqPayload).2.1 hf cmds henc).alarms
      rw [hnew, hi.idle hf, List.nil_append, hlen] at hr
      exact hr

/-- **One payload sets two alarms**: a restart and a shutdown. -/
theorem restart_and_shutdown :
    ¬ ∀ (e : Endian) (os : Os) (evs : List ExecEvent),
      Along (Executor.step e) (fun w ev => (w.step e ev).pending.length ≤ 1) (Executor.init os) evs := by
  intro h
  have hrun := h .little Os.calm [.put [0, 0, 0, 0, 0, 1, 0, 0]]
  have htwo : ((Executor.init Os.calm).step .little (.put [0, 0, 0, 0, 0, 1, 0, 0])).pending.length = 2 := by
    decide +kernel
  have hone := hrun.1
  omega

/-! ## The flag -/

/-- The flag says whether an alarm is pending. -/
def Executor.InStep (w : Executor) : Prop := w.app.cmdInProgress = true ↔ w.pending ≠ []

theorem inStep_init (os : Os) : (Executor.init os).InStep :=
  iff_of_false (fun h => by cases h) (fun h => h rfl)

/-- A payload is deferred only while an alarm is pending, and the flag is right after the event. -/
structure Executor.DefersRight (e : Endian) (w : Executor) (ev : ExecEvent) : Prop where
  deferred : ∀ reqPayload w', ev = .put reqPayload →
    atlasAlertCommandExecutionParse e reqPayload (UInt16.ofNat reqPayload.length) w =
      .ok (.deferredCommandExecution, w') → w.pending ≠ []
  inStep : (w.step e ev).InStep

/-- An alarm fires only while another one is pending. -/
def Executor.OtherPending (w : Executor) : ExecEvent → Prop
  | .put _ => True
  | .alarm fd => (w.net.alarmEntry.find? fun p => p.alarmId = fd).isSome → 2 ≤ w.pending.length

instance (w : Executor) (ev : ExecEvent) : Decidable (w.OtherPending ev) := by
  cases ev <;> unfold Executor.OtherPending <;> infer_instance

theorem Executor.Own.step (h : w.Own) (ev : ExecEvent) : (w.step e ev).Own := by
  cases ev with
  | put reqPayload =>
    rcases put_cases e w reqPayload with heq | ⟨-, cmds, -, hs⟩
    · rw [heq]; exact h
    · exact hs.own h
  | alarm fd =>
    obtain ⟨hnone, hsome⟩ := fire_spec (e := e) h fd
    cases hf : w.net.alarmEntry.find? fun p => p.alarmId = fd with
    | none => rw [hnone hf]; exact h
    | some a => exact (hsome (by rw [hf]; rfl)).2.1

theorem inStep_put (h : w.Own) (hi : w.InStep) (reqPayload : Bytes) : (w.step e (.put reqPayload)).InStep := by
  have ho := h.step (e := e) (.put reqPayload)
  rcases put_cases e w reqPayload with heq | ⟨hf, cmds, -, hs⟩
  · rw [heq]; exact hi
  · -- nothing was pending: what is pending now has been set by the payload
    have hnil : w.pending = [] := by
      by_contra hne
      rw [hi.2 hne] at hf; cases hf
    obtain ⟨new, hnew, hlen⟩ := hs.alarms
    unfold Executor.InStep
    rw [ho.pending, hnew, ← h.pending, hnil, List.nil_append, hs.flag, hf, Bool.false_or, decide_eq_true_iff,
      ← hlen, List.length_pos_iff]

/-- **The flag is right, and exactly when.** For every sequence of payloads and firings and every
outcome of setting alarms: a payload is deferred only while a restart or shutdown alarm is
pending, and the flag says after every event whether one is, if and only if no alarm fires
while it is the only one. -/
theorem inStep_iff (e : Endian) (os : Os) (evs : List ExecEvent) :
    Along (Executor.step e) (Executor.DefersRight e) (Executor.init os) evs ↔
      Along (Executor.step e) Executor.OtherPending (Executor.init os) evs := by
  refine along_exact_all (fun w => w.Own ∧ w.InStep) ?_ ?_ ⟨own_init os, inStep_init os⟩
  · intro w ev ⟨ho, hi⟩ hc
    have hdefer : ∀ reqPayload w', ev = .put reqPayload →
        atlasAlertCommandExecutionParse e reqPayload (UInt16.ofNat reqPayload.length) w =
          .ok (.deferredCommandExecution, w') → w.pending ≠ [] := by
      intro reqPayload w' _ h
      refine hi.1 ?_
      by_contra hf
      -- an idle module defers nothing
      rw [Bool.not_eq_true] at hf
      by_cases henc : IsEncoding cmdHeader (parsed reqPayload)
      · obtain ⟨cmds, hcmds⟩ := henc
        obtain ⟨status, hne, heq⟩ := (parse_idle (e := e) hf reqPayload).1 cmds hcmds
        rw [heq] at h; cases h; exact hne rfl
      · obtain ⟨status, hne, heq⟩ := (parse_idle (e := e) hf reqPayload).2 henc
        rw [heq] at h; cases h; exact hne rfl
    have hin : (w.step e ev).InStep := by
      cases ev with
      | put reqPayload => exact inStep_put ho hi reqPayload
      | alarm fd =>
        obtain ⟨hnone, hsome⟩ := fire_spec (e := e) ho fd
        have ho' := ho.step (e := e) (.alarm fd)
        cases hf : w.net.alarmEntry.find? fun p => p.alarmId = fd with
        | none => rw [hnone hf]; exact hi
        | some a =>
          have htwo := hc (by rw [hf]; rfl)
          obtain ⟨hlen, -, hflag⟩ := hsome (by rw [hf]; rfl)
          rw [ho.pending] at htwo
          have hset : w.app.cmdInProgress = true := hi.2 (by
            rw [ho.pending, ← List.length_pos_iff]; omega)
          unfold Executor.InStep
          rw [ho'.pending, hflag, hset, ← List.length_pos_iff]
          exact iff_of_true rfl (by omega)
    exact ⟨⟨hdefer, hin⟩, ho.step ev, hin⟩
  · rintro w ev ⟨ho, hi⟩ hr
    cases ev with
    | put reqPayload => trivial
    | alarm fd =>
      intro hf
      have ho' := ho.step (e := e) (.alarm fd)
      obtain ⟨hlen, -, hflag⟩ := (fire_spec (e := e) ho fd).2 hf
      have hset : w.app.cmdInProgress = true := hi.2 (by
        rw [ho.pending, ← List.length_pos_iff]; omega)
      -- the flag stays set, so an alarm must be left
      have hleft := hr.inStep.1 (hflag.trans hset)
      rw [ho'.pending, ← List.length_pos_iff] at hleft
      rw [ho.pending]
      omega

/-- **The flag outlives the alarm**: after a restart that has failed, every payload is deferred. -/
theorem failed_restart_defers :
    ¬ ∀ (e : Endian) (os : Os) (evs : List ExecEvent),
      Along (Executor.step e) (Executor.DefersRight e) (Executor.init os) evs := by
  intro h
  have hrun := h .little Os.calm [.put [0, 0, 0, 0], .alarm 1]
  have hleft := hrun.2.1.inStep.1 (by decide +kernel)
  exact hleft (by decide +kernel)

end AtlasClient
