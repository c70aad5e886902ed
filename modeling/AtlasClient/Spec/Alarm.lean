import AtlasClient.Spec.Net

/-!
# Alarms

`alarm/atlas_alarm.c`. An alarm id is the descriptor of its timer.
-/

namespace AtlasClient

variable {α κ σ : Type}

/-- Returns `-1` when the timer cannot be created or armed. -/
def atlasAlarmSet (ms : ℕ) (alarmCb : AlarmCb α) (runOnce : Bool) (n : Net α κ) : ℤ × Net α κ :=
  let os := { n.os with timers := n.os.timers.tail }
  match n.os.timers.head with
  | none => (-1, { n with os := os })
  | some fresh =>
    let fd := n.newFd fresh
    (fd, { n with
      os := os
      schedEntry := atlasSchedAddEntry fd (some .atlasAlarmTrigger) n.schedEntry
      alarmEntry := n.alarmEntry ++ [⟨fd, alarmCb, runOnce, ms⟩] })

def atlasAlarmCancel (alarmId : ℤ) (n : Net α κ) : Net α κ :=
  match n.alarmEntry.find? fun p => p.alarmId = alarmId with
  | none => n
  | some p =>
    { n with
      alarmEntry := n.alarmEntry.eraseP fun p => p.alarmId = alarmId
      schedEntry := atlasSchedDelEntry p.alarmId n.schedEntry }

/-- `run` runs the callback of the alarm. -/
def atlasAlarmTrigger (run : AlarmCb α → ℤ → World α κ σ → World α κ σ) (fd : ℤ) (w : World α κ σ) :
    World α κ σ :=
  match w.net.alarmEntry.find? fun p => p.alarmId = fd with
  | none => w
  | some p =>
    let w := run p.callback p.alarmId w
    if p.runOnce then w.mapNet (atlasAlarmCancel p.alarmId) else w

end AtlasClient
