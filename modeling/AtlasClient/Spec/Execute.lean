import AtlasClient.Spec.Client

/-!
# Command execution

`commands_execute/`: the gateway asks for a restart or a shutdown of the device, which an
alarm carries out 10 ms later. `system` is a journal of the commands given to the shell;
each of them may fail, and the callback returns.
-/

namespace AtlasClient

variable (e : Endian)

namespace AtlasCmdExecType

def deviceRestart : UInt16 := 0
def deviceShutdown : UInt16 := 1
def deviceUnknown : UInt16 := 2

end AtlasCmdExecType

/-- The callbacks of the module's alarms. -/
inductive ExecAlarm
  | commandExecutionShutdownAlarmCallback
  | commandExecutionRestartAlarmCallback
  deriving DecidableEq, Repr

structure Execute where
  cmdInProgress : Bool
  system : List String
  deriving DecidableEq, Repr

abbrev Executor := World ExecAlarm Empty Execute

def Executor.init (os : Os) : Executor := ⟨Net.init os, [], ⟨false, []⟩⟩

/-! ## The engine -/

def runSystem (command : String) (w : Executor) : Executor :=
  w.mapApp fun s => { s with system := s.system ++ [command] }

def atlasCommandExecuteShutdown (w : Executor) : Executor := runSystem "systemctl poweroff" w

def atlasCommandExecuteRestart (w : Executor) : Executor := runSystem "systemctl reboot" w

def executor : Program ExecAlarm Empty Execute where
  endian := e
  alarmCb
    | .commandExecutionShutdownAlarmCallback, _, w => atlasCommandExecuteShutdown w
    | .commandExecutionRestartAlarmCallback, _, w => atlasCommandExecuteRestart w
  coapCb cb := cb.elim

/-! ## The parser -/

/-- Set the alarm of a command; a failure is only logged. -/
def scheduleCommand (cb : ExecAlarm) (w : Executor) : Executor :=
  let (id, net) := atlasAlarmSet 10 (.app cb) true w.net
  let w := { w with net := net }
  if id < 0 then w else w.mapApp fun s => { s with cmdInProgress := true }

def commandExecutionHandle (cmd : AtlasCmd) (w : Executor) : Except Fault (Executor ⊕ Executor) :=
  if cmd.type = AtlasCmdExecType.deviceRestart then
    .ok (.inl (scheduleCommand .commandExecutionRestartAlarmCallback w))
  else if cmd.type = AtlasCmdExecType.deviceShutdown then
    .ok (.inl (scheduleCommand .commandExecutionShutdownAlarmCallback w))
  -- `ATLAS_CMD_DEVICE_UNKNOWN` is logged, any other type ignored
  else .ok (.inl w)

def atlasAlertCommandExecutionParse (buf : Bytes) (bufLen : UInt16) (w : Executor) :
    Except Fault (AtlasStatus × Executor) :=
  if w.app.cmdInProgress then .ok (.deferredCommandExecution, w)
  else if buf = [] ∨ bufLen = 0 then .ok (.invalidInput, w)
  else do
    let (status, batch) ← atlasCmdBatchSetRaw e atlasCmdBatchNew buf bufLen
    if status ≠ .ok then return (.corruptedCommandExecutionPayload, w)
    let (_, w) ← cmdLoop e commandExecutionHandle batch w
    return (.ok, w)

/-- The end-point `client/approved/command/push`. The payload length is cut to 16 bits on the way
to the parser. -/
def atlasExecuteCommandCb (reqPayload : Bytes) (w : Executor) : Except Fault (AtlasCoapResponse × Executor) := do
  let (status, w) ← atlasAlertCommandExecutionParse e reqPayload (UInt16.ofNat reqPayload.length) w
  if status ≠ .ok then
    if status = .deferredCommandExecution then return (.unknown, w)
    else return (.notAcceptableHere, w)
  return (.ok, w)

/-! ## The module as a machine -/

inductive ExecEvent
  /-- a request for the end-point -/
  | put (reqPayload : Bytes)
  | alarm (fd : ℤ)
  deriving DecidableEq, Repr

def Executor.step (w : Executor) : ExecEvent → Executor
  | .put reqPayload => orStay w ((atlasExecuteCommandCb e reqPayload w).map Prod.snd)
  | .alarm fd => (executor e).fire fd w

end AtlasClient
