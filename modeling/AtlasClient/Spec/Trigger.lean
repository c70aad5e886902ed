import AtlasClient.Spec.Net

/-!
# The alarm list in the heap

`alarm/atlas_alarm.c` again, with the addresses of the entries: `atlas_alarm_trigger` keeps a pointer to
the entry of the alarm while the callback of the alarm runs, and the callback may release that entry.
-/

namespace AtlasClient

open FirstMatch

variable {α : Type}

/-- An entry and its address. An address is given to one `malloc` only, so that what is read through a
pointer is the entry the pointer was taken to. -/
structure AlarmNode (α : Type) extends AlarmEntry α where
  addr : ℕ
  deriving DecidableEq, Repr

/-- The alarms, with distinct ids. `brk` is the next address. -/
structure AlarmHeap (α : Type) where
  alarmEntry : List (AlarmNode α)
  schedEntry : List (SchedEntry SchedCb)
  brk : ℕ
  ids_nodup : (alarmEntry.map fun p => p.alarmId).Nodup
  addrs_nodup : (alarmEntry.map AlarmNode.addr).Nodup
  addr_lt : ∀ p ∈ alarmEntry, p.addr < brk

namespace AlarmHeap

def ids (h : AlarmHeap α) : List ℤ := h.alarmEntry.map fun p => p.alarmId

theorem pick_notMem_ids (h : AlarmHeap α) (fresh : Fresh) : (fresh.pick (h.ids.map Int.toNat) : ℤ) ∉ h.ids := by
  intro hmem
  refine fresh.pick_notMem (h.ids.map Int.toNat) (List.mem_map.2 ⟨_, hmem, ?_⟩)
  exact Int.toNat_natCast _

/-- `timer` is the answer of the kernel: `none` if the timer cannot be created or armed. -/
def atlasAlarmSet (timer : Option Fresh) (ms : ℕ) (alarmCb : AlarmCb α) (runOnce : Bool) (h : AlarmHeap α) :
    ℤ × AlarmHeap α :=
  match timer with
  | none => (-1, h)
  | some fresh =>
    let fd : ℤ := fresh.pick (h.ids.map Int.toNat)
    (fd, {
      schedEntry := atlasSchedAddEntry fd (some .atlasAlarmTrigger) h.schedEntry
      alarmEntry := h.alarmEntry ++ [⟨⟨fd, alarmCb, runOnce, ms⟩, h.brk⟩]
      brk := h.brk + 1
      ids_nodup := nodup_map_concat h.ids_nodup (h.pick_notMem_ids fresh)
      addrs_nodup := nodup_map_concat h.addrs_nodup fun hmem => by
        obtain ⟨p, hp, heq⟩ := List.mem_map.1 hmem
        exact Nat.ne_of_lt (h.addr_lt p hp) heq
      addr_lt := by
        intro p hp
        rcases List.mem_append.1 hp with hp | hp
        · exact Nat.lt_succ_of_lt (h.addr_lt p hp)
        · rw [List.mem_singleton.1 hp]; exact Nat.lt_succ_self _ })

/-- The entry is released: its address names nothing any more. -/
def atlasAlarmCancel (alarmId : ℤ) (h : AlarmHeap α) : AlarmHeap α :=
  match h.alarmEntry.find? fun p => p.alarmId = alarmId with
  | none => h
  | some p =>
    { alarmEntry := h.alarmEntry.eraseP fun p => p.alarmId = alarmId
      schedEntry := atlasSchedDelEntry p.alarmId h.schedEntry
      brk := h.brk
      ids_nodup := (List.eraseP_sublist.map _).nodup h.ids_nodup
      addrs_nodup := (List.eraseP_sublist.map _).nodup h.addrs_nodup
      addr_lt := fun p hp => h.addr_lt p (List.eraseP_sublist.subset hp) }

/-- Reading through a pointer. -/
def read (addr : ℕ) (h : AlarmHeap α) : Except Fault (AlarmNode α) :=
  match h.alarmEntry.find? fun p => p.addr = addr with
  | none => .error .badAccess
  | some p => .ok p

end AlarmHeap

/-- What the callback of an alarm can do to the alarms. -/
inductive AlarmCall (α : Type)
  | set (timer : Option Fresh) (ms : ℕ) (alarmCb : AlarmCb α) (runOnce : Bool)
  | cancel (alarmId : ℤ)

def AlarmCall.run (h : AlarmHeap α) : AlarmCall α → AlarmHeap α
  | .set timer ms alarmCb runOnce => (h.atlasAlarmSet timer ms alarmCb runOnce).2
  | .cancel alarmId => h.atlasAlarmCancel alarmId

/-- `calls` is what the callback of the alarm does. The entry is read again once it has returned. Reading
the timer changes none of this. -/
def AlarmHeap.atlasAlarmTrigger (calls : AlarmCb α → ℤ → List (AlarmCall α)) (fd : ℤ) (h : AlarmHeap α) :
    Except Fault (AlarmHeap α) :=
  match h.alarmEntry.find? fun p => p.alarmId = fd with
  | none => .ok h
  | some p =>
    let h := (calls p.callback p.alarmId).foldl AlarmCall.run h
    (h.read p.addr).map fun q => if q.runOnce then h.atlasAlarmCancel q.alarmId else h

end AtlasClient
