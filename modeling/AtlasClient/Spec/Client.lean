import AtlasClient.Spec.CoapClient
import AtlasClient.Spec.Command

/-!
# The client's state

The static variables of `register/`, `telemetry/` and `data_plane_connector/`, the
configuration, and the command types of `commands/atlas_command_types.h` that these use.
-/

namespace AtlasClient

/-! ## Command types -/

namespace AtlasCmdType

def register : UInt16 := 0
def keepalive : UInt16 := 1
def identity : UInt16 := 2
def ipPort : UInt16 := 3
def dataPlanePolicy : UInt16 := 1000
def dataPlanePacketsPerMinute : UInt16 := 1001
def dataPlanePacketsAvg : UInt16 := 1002
def dataPlaneGetIdentity : UInt16 := 1003
def dataPlaneIdentity : UInt16 := 1004
def dataPlanePolicyQos : UInt16 := 1100
def dataPlanePolicyPacketsPerMinute : UInt16 := 1101
def dataPlanePolicyPacketsMaxlen : UInt16 := 1102
def dataPlaneFeatureReputation : UInt16 := 1500
def dataPlaneFeedback : UInt16 := 1501
def dataPlaneFeedbackIdentity : UInt16 := 1502
def dataPlaneFeedbackSensorType : UInt16 := 1503
def dataPlaneFeedbackSensor : UInt16 := 1504
def dataPlaneFeedbackResponseTime : UInt16 := 1505
def dataPlaneFeatureError : UInt16 := 1506

end AtlasCmdType

/-! ## Configuration -/

/-- What does not change while the client runs. -/
structure Cfg where
  endian : Endian
  identity : Bytes
  gwHostname : String
  gwPort : String
  identity_length : identity.length ≤ 64

def Cfg.coapGetUri (cfg : Cfg) (path : String) : String :=
  "coaps://" ++ cfg.gwHostname ++ ":" ++ cfg.gwPort ++ "/" ++ path

/-- A client without an identity. -/
def Cfg.plain : Cfg := ⟨.little, [], "gw", "10100", by decide⟩

/-! ## The static variables -/

/-- The callbacks that alarms of the client carry. -/
inductive AppAlarm
  | keepaliveAlarmCallback
  | regAlarmCallback
  | policyAlarmCallback
  | pushAlertAlarmCb
  | thresholdAlertAlarmCb
  deriving DecidableEq, Repr

/-- The callbacks that its requests carry. -/
inductive AppCb
  | regCallback
  | keepaliveCallback
  | policyCallback
  | telemetryCallback
  | featureReputationCallback
  | feedbackCallback
  deriving DecidableEq, Repr

/-- `register/atlas_register.c`. -/
structure Register where
  registered : Bool
  kaToken : UInt16
  kaCount : UInt8
  kaAlarmId : ℤ
  deriving DecidableEq, Repr

/-- One entry of `features_`. The payload callback is a name. -/
structure Telemetry where
  uriPath : String
  payloadCb : ℕ
  pushId : ℤ
  thresholdId : ℤ
  deriving DecidableEq, Repr

/-- `data_plane_connector/atlas_data_plane_connector.c`; `written` are the messages written so
far, each with the socket. -/
structure Connector where
  connectedSocket : ℤ
  policyQos : UInt16
  policyPacketsPerMin : UInt16
  policyPacketsMaxlen : UInt16
  activePolicy : Bool
  packetsPerMin : UInt16
  packetsAvg : UInt16
  written : List (ℤ × Bytes)
  deriving DecidableEq, Repr

structure App where
  reg : Register
  features : List Telemetry
  conn : Connector

abbrev Client := World AppAlarm AppCb App

/-- The static initial values. -/
def App.init : App := ⟨⟨false, 0, 0, 0⟩, [], ⟨-1, 0, 0, 0, false, 0, 0, []⟩⟩

def Client.init (os : Os) : Client := ⟨Net.init os, [], App.init⟩

/-! ## Building a payload -/

/-- `atlas_cmd_batch_new`, an `atlas_cmd_batch_add` for each command and `atlas_cmd_batch_get_buf`. -/
def cmdBatchBytes (e : Endian) (cmds : List (UInt16 × UInt16 × Bytes)) : Except Fault Bytes := do
  let b ← addCmds e atlasCmdBatchNew cmds
  let (buf, len) := atlasCmdBatchGetBuf b
  readAt buf 0 len.toNat

/-- The command of a string of fewer than 2^16 bytes. -/
def stringCmd (type : UInt16) (s : Bytes) : UInt16 × UInt16 × Bytes := (type, UInt16.ofNat s.length, s)

/-- A step that faults has no next state: the run stays where it is. -/
def orStay {σ : Type} (w : σ) : Except Fault σ → σ
  | .ok w' => w'
  | .error _ => w

end AtlasClient
