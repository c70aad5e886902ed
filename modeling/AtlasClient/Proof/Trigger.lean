import AtlasClient.Spec.Alarm
import AtlasClient.Spec.Trigger

/-!
# Firing an alarm

* `mem_run_iff`: an entry is still there after the calls of a callback, unless one of them cancels its
  alarm.
* `trigger_net`: without the addresses this is the trigger that the client runs.
* `fires_alone_iff`: **firing an alarm affects only that alarm**, exactly if its callback does not
  cancel it.
-/

namespace AtlasClient

open FirstMatch

variable {α κ σ : Type} {h h' : AlarmHeap α} {p q : AlarmNode α} {fd : ℤ}
  {calls : AlarmCb α → ℤ → List (AlarmCall α)}

/-- The alarms when the callback has made its calls. -/
def AlarmHeap.run (h : AlarmHeap α) (cs : List (AlarmCall α)) : AlarmHeap α := cs.foldl AlarmCall.run h

namespace AlarmHeap

/-! ## Entries and pointers -/

theorem find_id (hp : p ∈ h.alarmEntry) : h.alarmEntry.find? (fun q => q.alarmId = p.alarmId) = some p :=
  find?_key h.ids_nodup hp

theorem node_of_addr (hp : p ∈ h.alarmEntry) (hq : q ∈ h.alarmEntry) (heq : p.addr = q.addr) : p = q :=
  List.inj_on_of_nodup_map h.addrs_nodup hp hq heq

/-- A pointer to an entry that is still there reads that entry. -/
theorem read_mem (hp : p ∈ h.alarmEntry) : h.read p.addr = .ok p := by
  have hfind : h.alarmEntry.find? (fun q => q.addr = p.addr) = some p := find?_key h.addrs_nodup hp
  rw [read, hfind]

theorem read_ok {addr : ℕ} (hr : h.read addr = .ok q) : q ∈ h.alarmEntry ∧ q.addr = addr := by
  unfold read at hr
  cases hf : h.alarmEntry.find? fun p => p.addr = addr with
  | none => rw [hf] at hr; cases hr
  | some p =>
    rw [hf] at hr
    cases hr
    exact ⟨List.mem_of_find?_eq_some hf, by simpa using List.find?_some hf⟩

theorem cancel_alarmEntry (h : AlarmHeap α) (id : ℤ) :
    (h.atlasAlarmCancel id).alarmEntry = h.alarmEntry.filter fun p => p.alarmId ≠ id := by
  rw [← eraseP_eq_filter h.ids_nodup]
  unfold atlasAlarmCancel
  split
  · next hf =>
    rw [List.find?_eq_none] at hf
    exact (List.eraseP_of_forall_not hf).symm
  · rfl

theorem cancel_brk (h : AlarmHeap α) (id : ℤ) : (h.atlasAlarmCancel id).brk = h.brk := by
  unfold atlasAlarmCancel
  split <;> rfl

/-! ## What a callback leaves -/

/-- The entries that were there before are those that were there, less the one that is cancelled. -/
theorem mem_call_iff (hp : p.addr < h.brk) (c : AlarmCall α) :
    p ∈ (c.run h).alarmEntry ↔ p ∈ h.alarmEntry ∧ c ≠ .cancel p.alarmId := by
  cases c with
  | cancel id =>
    rw [AlarmCall.run, cancel_alarmEntry, List.mem_filter, decide_eq_true_eq]
    refine and_congr_right' (not_congr ⟨fun heq => by rw [heq], fun heq => ?_⟩)
    exact (AlarmCall.cancel.inj heq).symm
  | set timer ms cb once =>
    refine Iff.trans ?_ (and_iff_left (by simp)).symm
    cases timer with
    | none => exact Iff.rfl
    | some fresh =>
      refine List.mem_append.trans (or_iff_left fun hnew => ?_)
      rw [List.mem_singleton.1 hnew] at hp
      exact Nat.lt_irrefl _ hp

theorem brk_le_call (h : AlarmHeap α) (c : AlarmCall α) : h.brk ≤ (c.run h).brk := by
  cases c with
  | cancel id => exact (h.cancel_brk id).ge
  | set timer ms cb once =>
    cases timer with
    | none => exact le_rfl
    | some fresh => exact Nat.le_succ _

/-- **An entry is still there after the calls**, unless one of them cancels its alarm. An entry that is
released does not come back. -/
theorem mem_run_iff (cs : List (AlarmCall α)) : ∀ {h : AlarmHeap α}, p.addr < h.brk →
    (p ∈ (h.run cs).alarmEntry ↔ p ∈ h.alarmEntry ∧ .cancel p.alarmId ∉ cs) := by
  induction cs with
  | nil => intro h _; simp [run]
  | cons c cs ih =>
    intro h hp
    have hrest := ih (h := c.run h) (lt_of_lt_of_le hp (h.brk_le_call c))
    rw [mem_call_iff hp] at hrest
    rw [List.mem_cons, not_or, ← and_assoc, eq_comm (a := AlarmCall.cancel p.alarmId)]
    exact hrest

/-! ## The trigger -/

/-- After the callback the pointer to the entry of the alarm is good exactly if the entry is still
there. -/
theorem read_run (hp : p ∈ h.alarmEntry) (cs : List (AlarmCall α)) (hr : (h.run cs).read p.addr = .ok q) :
    q = p ∧ p ∈ (h.run cs).alarmEntry := by
  obtain ⟨hq, haddr⟩ := read_ok hr
  have hlt : q.addr < h.brk := haddr ▸ h.addr_lt p hp
  have hqp := node_of_addr ((mem_run_iff cs hlt).1 hq).1 hp haddr
  exact ⟨hqp, hqp ▸ hq⟩

theorem trigger_none (hno : ∀ p ∈ h.alarmEntry, p.alarmId ≠ fd) : h.atlasAlarmTrigger calls fd = .ok h := by
  have hfind : h.alarmEntry.find? (fun p => p.alarmId = fd) = none :=
    List.find?_eq_none.2 fun p hp => by simpa using hno p hp
  rw [atlasAlarmTrigger, hfind]

theorem trigger_some (hp : p ∈ h.alarmEntry) :
    h.atlasAlarmTrigger calls p.alarmId =
      ((h.run (calls p.callback p.alarmId)).read p.addr).map fun q =>
        if q.runOnce then (h.run (calls p.callback p.alarmId)).atlasAlarmCancel q.alarmId
        else h.run (calls p.callback p.alarmId) := by
  rw [atlasAlarmTrigger, find_id hp]
  rfl

/-- The trigger succeeds exactly if the entry is still there when the callback returns. -/
theorem trigger_ok_iff (hp : p ∈ h.alarmEntry) :
    h.atlasAlarmTrigger calls p.alarmId = .ok h' ↔
      AlarmCall.cancel p.alarmId ∉ calls p.callback p.alarmId ∧
        h' = if p.runOnce then (h.run (calls p.callback p.alarmId)).atlasAlarmCancel p.alarmId
          else h.run (calls p.callback p.alarmId) := by
  rw [trigger_some hp]
  have hmem := mem_run_iff (calls p.callback p.alarmId) (h.addr_lt p hp)
  constructor
  · intro hok
    cases hr : (h.run (calls p.callback p.alarmId)).read p.addr with
    | error f => rw [hr] at hok; cases hok
    | ok q =>
      obtain ⟨rfl, hthere⟩ := read_run hp _ hr
      rw [hr] at hok
      exact ⟨(hmem.1 hthere).2, (Except.ok.inj hok).symm⟩
  · rintro ⟨hno, rfl⟩
    rw [read_mem (hmem.2 ⟨hp, hno⟩)]
    rfl

end AlarmHeap

/-! ## Without the addresses -/

/-- The alarms as the rest of the client sees them. -/
def AlarmHeap.net (h : AlarmHeap α) (os : Os) : Net α κ :=
  ⟨h.alarmEntry.map AlarmNode.toAlarmEntry, h.schedEntry, [], 0, os⟩

theorem find_net (h : AlarmHeap α) (os : Os) (id : ℤ) :
    (h.net os : Net α κ).alarmEntry.find? (fun p => p.alarmId = id) =
      (h.alarmEntry.find? fun p => p.alarmId = id).map AlarmNode.toAlarmEntry := List.find?_map

theorem cancel_net (h : AlarmHeap α) (os : Os) (id : ℤ) :
    (h.atlasAlarmCancel id).net os = (atlasAlarmCancel id (h.net os) : Net α κ) := by
  rw [AlarmHeap.atlasAlarmCancel, atlasAlarmCancel, find_net]
  cases h.alarmEntry.find? fun p => p.alarmId = id with
  | none => rfl
  | some p => simp [AlarmHeap.net, List.eraseP_map, Function.comp_def]

theorem set_net (h : AlarmHeap α) (os : Os) (ms : ℕ) (cb : AlarmCb α) (runOnce : Bool) :
    ((h.atlasAlarmSet os.timers.head ms cb runOnce).1,
        (h.atlasAlarmSet os.timers.head ms cb runOnce).2.net { os with timers := os.timers.tail }) =
      (atlasAlarmSet ms cb runOnce (h.net os) : ℤ × Net α κ) := by
  have hids : (h.net os : Net α κ).held = h.ids := by
    simp [AlarmHeap.net, Net.held, AlarmHeap.ids, Function.comp_def]
  unfold AlarmHeap.atlasAlarmSet atlasAlarmSet
  cases ht : os.timers.head with
  | none => simp [AlarmHeap.net, ht]
  | some fresh => simp [AlarmHeap.net, ht, Net.newFd, ← hids, Net.held]

/-- **The trigger refines that of the client**: where no released entry is read, it leaves the same
alarms. -/
theorem trigger_net (hp : p ∈ h.alarmEntry) (hok : h.atlasAlarmTrigger calls p.alarmId = .ok h') (os os' : Os)
    (run : AlarmCb α → ℤ → World α κ σ → World α κ σ) (w : World α κ σ) (hw : w.net = h.net os)
    (hrun : (run p.callback p.alarmId w).net = (h.run (calls p.callback p.alarmId)).net os') :
    (atlasAlarmTrigger run p.alarmId w).net = h'.net os' := by
  obtain ⟨-, rfl⟩ := (AlarmHeap.trigger_ok_iff hp).1 hok
  rw [atlasAlarmTrigger, hw, find_net, AlarmHeap.find_id hp]
  cases honce : p.runOnce with
  | false => simp [honce, hrun]
  | true => simp [honce, World.mapNet, hrun, cancel_net]

/-! ## Only that alarm -/

/-- The alarm is gone from what the callback has left if it was one-shot, and nothing else is. -/
structure AlarmHeap.Fired (h : AlarmHeap α) (p : AlarmNode α) (left h' : AlarmHeap α) : Prop where
  alarms : h'.alarmEntry = left.alarmEntry.filter fun q => !(decide (q.addr = p.addr) && p.runOnce)
  set_stays : ∀ q ∈ left.alarmEntry, h.brk ≤ q.addr → q ∈ h'.alarmEntry
  repeating_stays : ∀ q ∈ left.alarmEntry, q.runOnce = false → q ∈ h'.alarmEntry

/-- No released entry is read, and only the alarm that fires is affected. -/
def AlarmHeap.FiresAlone (h : AlarmHeap α) (calls : AlarmCb α → ℤ → List (AlarmCall α)) (fd : ℤ) : Prop :=
  ∃ h', h.atlasAlarmTrigger calls fd = .ok h' ∧
    match h.alarmEntry.find? fun p => p.alarmId = fd with
    | none => h' = h
    | some p => h.Fired p (h.run (calls p.callback p.alarmId)) h'

/-- What the trigger does after the callback, if the entry is still there. -/
theorem fired {left : AlarmHeap α} (hthere : p ∈ left.alarmEntry) (hlt : p.addr < h.brk) :
    h.Fired p left (if p.runOnce then left.atlasAlarmCancel p.alarmId else left) := by
  -- the id names that entry only
  have hkey : ∀ q ∈ left.alarmEntry, q.alarmId = p.alarmId ↔ q.addr = p.addr := by
    intro q hq
    constructor
    · intro heq; rw [List.inj_on_of_nodup_map left.ids_nodup hq hthere heq]
    · intro heq; rw [AlarmHeap.node_of_addr hq hthere heq]
  have halarms : (if p.runOnce then left.atlasAlarmCancel p.alarmId else left).alarmEntry =
      left.alarmEntry.filter fun q => !(decide (q.addr = p.addr) && p.runOnce) := by
    cases honce : p.runOnce with
    | false => simp
    | true =>
      rw [if_pos rfl, AlarmHeap.cancel_alarmEntry]
      refine List.filter_congr fun q hq => ?_
      simp [hkey q hq]
  refine ⟨halarms, fun q hq hnew => ?_, fun q hq honce => ?_⟩
  · have hne : q.addr ≠ p.addr := by omega
    rw [halarms, List.mem_filter]
    exact ⟨hq, by simp [hne]⟩
  · rw [halarms, List.mem_filter]
    refine ⟨hq, ?_⟩
    by_cases haddr : q.addr = p.addr
    · rw [← AlarmHeap.node_of_addr hq hthere haddr, honce, Bool.and_false, Bool.not_false]
    · simp [haddr]

/-- **Firing an alarm affects only that alarm, exactly if its callback does not cancel it.** For every
list of alarms with distinct ids and whatever the callback sets and cancels: no released entry is read,
the alarms are those that the callback has left, without the one that fired if it was one-shot, alarms
that the callback has set and repeating ones stay, if and only if the callback does not cancel the
alarm that fires. -/
theorem fires_alone_iff (h : AlarmHeap α) (calls : AlarmCb α → ℤ → List (AlarmCall α)) (fd : ℤ) :
    h.FiresAlone calls fd ↔
      ∀ p ∈ h.alarmEntry, p.alarmId = fd → AlarmCall.cancel fd ∉ calls p.callback fd := by
  constructor
  · rintro ⟨h', hok, -⟩ p hp rfl
    exact ((AlarmHeap.trigger_ok_iff hp).1 hok).1
  · intro hno
    by_cases hfd : ∃ p ∈ h.alarmEntry, p.alarmId = fd
    · obtain ⟨p, hp, rfl⟩ := hfd
      have hthere := (AlarmHeap.mem_run_iff _ (h.addr_lt p hp)).2 ⟨hp, hno p hp rfl⟩
      refine ⟨_, (AlarmHeap.trigger_ok_iff hp).2 ⟨hno p hp rfl, rfl⟩, ?_⟩
      rw [AlarmHeap.find_id hp]
      exact fired hthere (h.addr_lt p hp)
    · have hnone : ∀ p ∈ h.alarmEntry, p.alarmId ≠ fd := fun p hp heq => hfd ⟨p, hp, heq⟩
      refine ⟨h, AlarmHeap.trigger_none hnone, ?_⟩
      rw [List.find?_eq_none.2 fun p hp => by simpa using hnone p hp]

/-- One alarm, at descriptor 3. -/
def AlarmHeap.single : AlarmHeap ℕ :=
  ⟨[⟨⟨3, .app 0, true, 1000⟩, 0⟩], [⟨3, .atlasAlarmTrigger, false⟩], 1, by decide, by decide, by decide⟩

/-- **An alarm that cancels itself is read after it has been released.** -/
theorem cancel_self_faults : ¬ ∀ (h : AlarmHeap ℕ) (calls : AlarmCb ℕ → ℤ → List (AlarmCall ℕ)) (fd : ℤ),
    h.FiresAlone calls fd := by
  intro hall
  obtain ⟨h', hok, -⟩ := hall AlarmHeap.single (fun _ id => [.cancel id]) 3
  have hfault : AlarmHeap.single.atlasAlarmTrigger (fun _ id => [.cancel id]) 3 = .error .badAccess := rfl
  rw [hfault] at hok
  cases hok

end AtlasClient
